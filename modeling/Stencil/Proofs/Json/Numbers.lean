import Mathlib
import Stencil.Proofs.Markup.Spelling

/-!
# Numbers in JSON texts

* `Json.Numeral`: the spellings of a number, each with the number that it stands for;
* `Json.Numeral.unique`: a spelling stands for one number only;
* `Json.Numeral.split_unique`: a number ends where no character of a number follows.
-/

namespace Stencil.Json

/-- Decimal digits, at least one of them. -/
def IsDigits (cs : List Char) : Prop := cs ≠ [] ∧ ∀ c ∈ cs, c.isDigit = true

/-- Decimal digits without a zero that could be left out in front. -/
def IsWhole (cs : List Char) : Prop := IsDigits cs ∧ (cs.head? = some '0' → cs = ['0'])

/-- The number that a row of decimal digits counts. -/
def count (cs : List Char) : ℕ := Nat.ofDigitChars 10 cs 0

/-- What may stand behind the point, with the point. -/
inductive Fraction : List Char → ℚ → Prop
  | none : Fraction [] 0
  | point {digits : List Char} (row : IsDigits digits) :
      Fraction ('.' :: digits) (count digits / 10 ^ digits.length)

/-- The exponent of ten that a number may be scaled by. -/
inductive Scale : List Char → ℤ → Prop
  | none : Scale [] 0
  | bare {mark : Char} {digits : List Char} (known : mark = 'e' ∨ mark = 'E')
      (row : IsDigits digits) : Scale (mark :: digits) (count digits)
  | plus {mark : Char} {digits : List Char} (known : mark = 'e' ∨ mark = 'E')
      (row : IsDigits digits) : Scale (mark :: '+' :: digits) (count digits)
  | minus {mark : Char} {digits : List Char} (known : mark = 'e' ∨ mark = 'E')
      (row : IsDigits digits) : Scale (mark :: '-' :: digits) (-count digits)

/-- A number without a sign. -/
inductive Unsigned : List Char → ℚ → Prop
  | mk {whole fraction scale : List Char} {f : ℚ} {k : ℤ} (row : IsWhole whole)
      (behind : Fraction fraction f) (scaled : Scale scale k) :
      Unsigned (whole ++ (fraction ++ scale)) ((count whole + f) * 10 ^ k)

/-- A number with its sign, which may only be a minus. -/
inductive Numeral : List Char → ℚ → Prop
  | positive {cs : List Char} {q : ℚ} (number : Unsigned cs q) : Numeral cs q
  | negative {cs : List Char} {q : ℚ} (number : Unsigned cs q) : Numeral ('-' :: cs) (-q)

/-- The characters that numbers are made of. -/
def isNumeric (c : Char) : Bool :=
  c.isDigit || c == '-' || c == '+' || c == '.' || c == 'e' || c == 'E'

/-- The first character, if there is one, cannot belong to a number in front of it. -/
def Halts (source : List Char) : Prop := ∀ c ∈ source.head?, isNumeric c = false

theorem isNumeric_of_isDigit {c : Char} (h : c.isDigit = true) : isNumeric c = true := by
  simp [isNumeric, h]

/-- Digits are told from what stands behind them. -/
theorem digits_unique {digits digits' rest rest' : List Char}
    (row : ∀ c ∈ digits, c.isDigit = true) (row' : ∀ c ∈ digits', c.isDigit = true)
    (stop : ∀ c ∈ rest.head?, c.isDigit = false) (stop' : ∀ c ∈ rest'.head?, c.isDigit = false)
    (same : digits ++ rest = digits' ++ rest') : digits = digits' ∧ rest = rest' := by
  have digits_eq : digits = digits' := by
    rw [← takeWhile_stretch row stop, same, takeWhile_stretch row' stop']
  subst digits_eq
  exact ⟨rfl, List.append_cancel_left same⟩

theorem Fraction.numeric {cs : List Char} {q : ℚ} (h : Fraction cs q) :
    ∀ c ∈ cs, isNumeric c = true := by
  cases h with
  | none => simp
  | point row => exact List.forall_mem_cons.2 ⟨rfl, fun c hc => isNumeric_of_isDigit (row.2 c hc)⟩

namespace Scale

variable {cs : List Char} {k k' : ℤ}

theorem isNumeric_mark {mark : Char} (known : mark = 'e' ∨ mark = 'E') : isNumeric mark = true := by
  rcases known with rfl | rfl <;> rfl

theorem numeric (h : Scale cs k) : ∀ c ∈ cs, isNumeric c = true := by
  have all {digits : List Char} (row : IsDigits digits) : ∀ c ∈ digits, isNumeric c = true :=
    fun c hc => isNumeric_of_isDigit (row.2 c hc)
  cases h with
  | none => simp
  | bare known row => exact List.forall_mem_cons.2 ⟨isNumeric_mark known, all row⟩
  | plus known row | minus known row =>
    exact List.forall_mem_cons.2 ⟨isNumeric_mark known, List.forall_mem_cons.2 ⟨rfl, all row⟩⟩

theorem head_eq (h : Scale cs k) : ∀ c ∈ cs.head?, c = 'e' ∨ c = 'E' := by
  cases h with
  | none => simp
  | bare known row | plus known row | minus known row => simpa using known

/-- The mark of an exponent is followed by a sign or by a digit. -/
theorem unique (h : Scale cs k) (h' : Scale cs k') : k = k' := by
  have plus_not_digit {digits : List Char} : ¬ IsDigits ('+' :: digits) :=
    fun row => by simpa using row.2 '+' List.mem_cons_self
  have minus_not_digit {digits : List Char} : ¬ IsDigits ('-' :: digits) :=
    fun row => by simpa using row.2 '-' List.mem_cons_self
  cases h with
  | none =>
    cases h'
    rfl
  | bare known row =>
    cases h' with
    | bare => rfl
    | plus => exact absurd row plus_not_digit
    | minus => exact absurd row minus_not_digit
  | plus known row =>
    cases h' with
    | bare _ row' => exact absurd row' plus_not_digit
    | plus => rfl
  | minus known row =>
    cases h' with
    | bare _ row' => exact absurd row' minus_not_digit
    | minus => rfl

end Scale

/-- A fraction is told from the exponent behind it. -/
theorem fraction_scale_unique {fraction fraction' scale scale' : List Char} {f f' : ℚ} {k k' : ℤ}
    (behind : Fraction fraction f) (behind' : Fraction fraction' f') (scaled : Scale scale k)
    (scaled' : Scale scale' k') (same : fraction ++ scale = fraction' ++ scale') :
    f = f' ∧ k = k' := by
  have no_point {cs : List Char} {k : ℤ} : ¬ Scale ('.' :: cs) k := fun h => by
    simpa using h.head_eq '.' rfl
  have stop {cs : List Char} {k : ℤ} (h : Scale cs k) : ∀ c ∈ cs.head?, c.isDigit = false := by
    intro c hc
    rcases h.head_eq c hc with rfl | rfl <;> rfl
  cases behind with
  | none =>
    cases behind' with
    | none =>
      obtain rfl : scale = scale' := same
      exact ⟨rfl, scaled.unique scaled'⟩
    | point row' =>
      obtain rfl := same
      exact absurd scaled no_point
  | point row =>
    cases behind' with
    | none =>
      obtain rfl := same
      exact absurd scaled' no_point
    | point row' =>
      obtain ⟨rfl, rfl⟩ := digits_unique row.2 row'.2 (stop scaled) (stop scaled')
        (List.cons.inj same).2
      exact ⟨rfl, scaled.unique scaled'⟩

namespace Unsigned

variable {cs : List Char} {q q' : ℚ}

theorem numeric (h : Unsigned cs q) : ∀ c ∈ cs, isNumeric c = true := by
  obtain ⟨row, behind, scaled⟩ := h
  intro c hc
  rcases List.mem_append.1 hc with hc | hc
  · exact isNumeric_of_isDigit (row.1.2 c hc)
  · rcases List.mem_append.1 hc with hc | hc
    · exact behind.numeric c hc
    · exact scaled.numeric c hc

/-- A number without a sign begins with a digit. -/
theorem begins (h : Unsigned cs q) : ∃ d others, cs = d :: others ∧ d.isDigit = true := by
  obtain ⟨row, behind, scaled⟩ := h
  obtain ⟨d, others, rfl⟩ := List.exists_cons_of_ne_nil row.1.1
  exact ⟨d, _, rfl, row.1.2 d List.mem_cons_self⟩

theorem unique (h : Unsigned cs q) (h' : Unsigned cs q') : q = q' := by
  have stop {fraction scale : List Char} {f : ℚ} {k : ℤ} (behind : Fraction fraction f)
      (scaled : Scale scale k) : ∀ c ∈ (fraction ++ scale).head?, c.isDigit = false := by
    intro c hc
    cases behind with
    | none => rcases scaled.head_eq c (by simpa using hc) with rfl | rfl <;> rfl
    | point row =>
      obtain rfl : '.' = c := by simpa using hc
      rfl
  obtain @⟨whole, fraction, scale, f, k, row, behind, scaled⟩ := h
  generalize all : whole ++ (fraction ++ scale) = cs at h'
  obtain @⟨whole', fraction', scale', f', k', row', behind', scaled'⟩ := h'
  obtain ⟨rfl, later⟩ := digits_unique row.1.2 row'.1.2 (stop behind scaled)
    (stop behind' scaled') all
  obtain ⟨rfl, rfl⟩ := fraction_scale_unique behind behind' scaled scaled' later
  rfl

end Unsigned

namespace Numeral

variable {cs : List Char} {q q' : ℚ}

theorem numeric (h : Numeral cs q) : ∀ c ∈ cs, isNumeric c = true := by
  cases h with
  | positive number => exact number.numeric
  | negative number => exact List.forall_mem_cons.2 ⟨rfl, number.numeric⟩

theorem begins (h : Numeral cs q) :
    ∃ d others, cs = d :: others ∧ (d.isDigit = true ∨ d = '-') := by
  cases h with
  | positive number =>
    obtain ⟨d, others, rfl, digit⟩ := number.begins
    exact ⟨d, others, rfl, .inl digit⟩
  | negative number => exact ⟨'-', _, rfl, .inr rfl⟩

theorem first {c : Char} {rest source : List Char} (h : Numeral cs q)
    (split : cs ++ rest = c :: source) : c.isDigit = true ∨ c = '-' := by
  obtain ⟨d, others, rfl, first⟩ := h.begins
  obtain rfl := (List.cons.inj split).1
  exact first

theorem unique (h : Numeral cs q) (h' : Numeral cs q') : q = q' := by
  have no_sign {cs : List Char} {q : ℚ} : ¬ Unsigned ('-' :: cs) q := fun number => by
    obtain ⟨d, others, same, digit⟩ := number.begins
    obtain ⟨rfl, -⟩ := List.cons.inj same
    cases digit
  cases h with
  | positive number =>
    cases h' with
    | positive number' => exact number.unique number'
    | negative => exact absurd number no_sign
  | negative number =>
    cases h' with
    | positive number' => exact absurd number' no_sign
    | negative number' => rw [number.unique number']

/-- A number is told from what stands behind it. -/
theorem split_unique {cs' rest rest' : List Char} (h : Numeral cs q) (h' : Numeral cs' q')
    (halts : Halts rest) (halts' : Halts rest') (same : cs ++ rest = cs' ++ rest') :
    q = q' ∧ rest = rest' := by
  have cs_eq : cs = cs' := by
    rw [← takeWhile_stretch h.numeric halts, same, takeWhile_stretch h'.numeric halts']
  subst cs_eq
  exact ⟨h.unique h', List.append_cancel_left same⟩

end Numeral

end Stencil.Json
