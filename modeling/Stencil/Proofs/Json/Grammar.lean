import Mathlib
import Stencil.Json
import Stencil.Proofs.Json.Numbers

/-!
# The grammar of JSON texts

* `Json.Datum`: what a text stands for;
* `Json.Quoted`, `Json.Value`: the forms of texts in quotes and of values, each with what stands
  behind it;
* `Json.Says`: a text says a datum, with blanks around it and nothing else;
* `Json.Says.unique`: a text does not say two data;
* `Json.Decoder`: a function that finds out what texts say; there is one.
-/

namespace Stencil.Json

/-- What a text stands for. A number stands for a quotient of integers, however it is spelled. The
members of an object stand in the order in which they are written. -/
inductive Datum where
  | null
  | truth (b : Bool)
  | number (q : ℚ)
  | text (s : String)
  | array (items : List Datum)
  | object (members : List (String × Datum))

/-! ## Blanks -/

/-- The characters that count for nothing between the parts of a value. -/
def isBlank (c : Char) : Bool := c == ' ' || c == '\t' || c == '\n' || c == '\r'

theorem not_isBlank_of_isDigit {c : Char} (digit : c.isDigit = true) : isBlank c = false := by
  by_contra blank
  simp only [Bool.not_eq_false, isBlank, Bool.or_eq_true, beq_iff_eq] at blank
  rcases blank with ((rfl | rfl) | rfl) | rfl <;> cases digit

/-- There are blanks and then `rest`. -/
def Blanks (source rest : List Char) : Prop :=
  ∃ blanks : List Char, (∀ c ∈ blanks, isBlank c = true) ∧ blanks ++ rest = source

theorem Blanks.refl (source : List Char) : Blanks source source :=
  ⟨[], by simp, rfl⟩

theorem Blanks.space (source : List Char) : Blanks (' ' :: source) source :=
  ⟨[' '], by simp [isBlank], rfl⟩

/-- No blank stands at the beginning. -/
def Begun (source : List Char) : Prop := ∀ c ∈ source.head?, isBlank c = false

theorem Blanks.eq_dropWhile {source rest : List Char} (h : Blanks source rest)
    (begun : Begun rest) : rest = source.dropWhile isBlank := by
  obtain ⟨blanks, blank, rfl⟩ := h
  exact (dropWhile_stretch blank begun).symm

theorem begun_cons {c : Char} {rest : List Char} (single : isBlank c = false) :
    Begun (c :: rest) := by
  simpa [Begun] using single

theorem Blanks.unique {source rest rest' : List Char} (h : Blanks source rest)
    (h' : Blanks source rest') (begun : Begun rest) (begun' : Begun rest') : rest = rest' :=
  (h.eq_dropWhile begun).trans (h'.eq_dropWhile begun').symm

/-! ## Texts in quotes -/

/-- The character that a backslash and one more character stand for. -/
def meaning? : Char → Option Char
  | '"' => some '"'
  | '\\' => some '\\'
  | '/' => some '/'
  | 'b' => some '\x08'
  | 'f' => some '\x0c'
  | 'n' => some '\n'
  | 'r' => some '\r'
  | 't' => some '\t'
  | _ => none

/-- Four hexadecimal digits that stand for a number, and then `rest`. -/
def CodeUnit (source : List Char) (n : ℕ) (rest : List Char) : Prop :=
  ∃ digits : List Char, digits.length = 4 ∧ Text.ofHex? digits = some n ∧ digits ++ rest = source

/-- How one character is written between quotes: as it is, by a short escape, by its number, or, if
its number does not fit into four digits, by the two halves of a pair. -/
inductive Spelled : List Char → Char → List Char → Prop
  | plain {c : Char} {rest : List Char} (visible : 0x20 ≤ c.toNat) (quote : c ≠ '"')
      (escape : c ≠ '\\') : Spelled (c :: rest) c rest
  | short {mark c : Char} {rest : List Char} (meant : meaning? mark = some c) :
      Spelled ('\\' :: mark :: rest) c rest
  | unit {c : Char} {source rest : List Char} (number : CodeUnit source c.toNat rest) :
      Spelled ('\\' :: 'u' :: source) c rest
  | pair {c : Char} {source between rest : List Char} {high low : ℕ}
      (first : CodeUnit source high ('\\' :: 'u' :: between)) (second : CodeUnit between low rest)
      (isHigh : 0xD800 ≤ high ∧ high < 0xDC00) (isLow : 0xDC00 ≤ low ∧ low < 0xE000)
      (number : c.toNat = 0x10000 + (high - 0xD800) * 0x400 + (low - 0xDC00)) :
      Spelled ('\\' :: 'u' :: source) c rest

/-- The characters up to the quote that closes a text, and then `rest`. -/
inductive Quoted : List Char → List Char → List Char → Prop
  | close {rest : List Char} : Quoted ('"' :: rest) [] rest
  | more {c : Char} {source between cs rest : List Char} (spelled : Spelled source c between)
      (others : Quoted between cs rest) : Quoted source (c :: cs) rest

theorem CodeUnit.unique {source rest rest' : List Char} {n n' : ℕ} (h : CodeUnit source n rest)
    (h' : CodeUnit source n' rest') : n = n' ∧ rest = rest' := by
  obtain ⟨digits, four, number, rfl⟩ := h
  obtain ⟨digits', four', number', same⟩ := h'
  obtain ⟨rfl, rfl⟩ := List.append_inj same (four'.trans four.symm)
  exact ⟨Option.some.inj (number.symm.trans number'), rfl⟩

/-- No character has the number of a half of a pair. -/
theorem not_half (c : Char) : ¬(0xD800 ≤ c.toNat ∧ c.toNat < 0xE000) := by
  intro half
  have valid : c.toNat < 0xD800 ∨ 0xDFFF < c.toNat ∧ c.toNat < 0x110000 := c.valid
  omega

namespace Spelled

variable {source rest rest' : List Char} {c c' : Char}

theorem unique (h : Spelled source c rest) (h' : Spelled source c' rest') :
    c = c' ∧ rest = rest' := by
  cases h with
  | plain visible quote escape =>
    cases h' with
    | plain => exact ⟨rfl, rfl⟩
    | short | unit | pair => exact absurd rfl escape
  | short meant =>
    cases h' with
    | plain _ _ escape => exact absurd rfl escape
    | short meant' => exact ⟨Option.some.inj (meant.symm.trans meant'), rfl⟩
    | unit | pair => cases meant
  | unit number =>
    cases h' with
    | plain _ _ escape => exact absurd rfl escape
    | short meant => cases meant
    | unit number' =>
      obtain ⟨same, rfl⟩ := number.unique number'
      exact ⟨Char.toNat_inj.1 same, rfl⟩
    | pair first _ isHigh =>
      obtain ⟨rfl, -⟩ := number.unique first
      exact absurd ⟨isHigh.1, isHigh.2.trans (by decide)⟩ (not_half c)
  | pair first second isHigh isLow number =>
    cases h' with
    | plain _ _ escape => exact absurd rfl escape
    | short meant => cases meant
    | unit number' =>
      obtain ⟨rfl, -⟩ := number'.unique first
      exact absurd ⟨isHigh.1, isHigh.2.trans (by decide)⟩ (not_half c')
    | pair first' second' _ _ number' =>
      obtain ⟨rfl, same⟩ := first.unique first'
      obtain rfl : _ = _ := (List.cons.inj (List.cons.inj same).2).2
      obtain ⟨rfl, rfl⟩ := second.unique second'
      exact ⟨Char.toNat_inj.1 (number.trans number'.symm), rfl⟩

/-- A quote by itself is not a character of the text. -/
theorem not_quote {source : List Char} : ¬ Spelled ('"' :: source) c rest := by
  intro h
  cases h with
  | plain _ quote _ => exact quote rfl

end Spelled

theorem Quoted.unique {source cs cs' rest rest' : List Char} (h : Quoted source cs rest)
    (h' : Quoted source cs' rest') : cs = cs' ∧ rest = rest' := by
  induction h generalizing cs' with
  | close =>
    cases h' with
    | close => exact ⟨rfl, rfl⟩
    | more spelled => exact absurd spelled Spelled.not_quote
  | more spelled others ih =>
    cases h' with
    | close => exact absurd spelled Spelled.not_quote
    | more spelled' others' =>
      obtain ⟨rfl, rfl⟩ := spelled.unique spelled'
      obtain ⟨rfl, rfl⟩ := ih others'
      exact ⟨rfl, rfl⟩

/-! ## Values -/

mutual

/-- A value, and then `rest`. -/
inductive Value : List Char → Datum → List Char → Prop
  | null {rest : List Char} : Value ('n' :: 'u' :: 'l' :: 'l' :: rest) .null rest
  | yes {rest : List Char} : Value ('t' :: 'r' :: 'u' :: 'e' :: rest) (.truth true) rest
  | no {rest : List Char} : Value ('f' :: 'a' :: 'l' :: 's' :: 'e' :: rest) (.truth false) rest
  | number {source cs rest : List Char} {q : ℚ} (numeral : Numeral cs q)
      (split : cs ++ rest = source) : Value source (.number q) rest
  | text {source cs rest : List Char} (quoted : Quoted source cs rest) :
      Value ('"' :: source) (.text (String.ofList cs)) rest
  | emptyArray {source rest : List Char} (blanks : Blanks source (']' :: rest)) :
      Value ('[' :: source) (.array []) rest
  | array {source rest : List Char} {vs : List Datum} (items : Items source vs rest) :
      Value ('[' :: source) (.array vs) rest
  | emptyObject {source rest : List Char} (blanks : Blanks source ('\x7d' :: rest)) :
      Value ('\x7b' :: source) (.object []) rest
  | object {source rest : List Char} {ms : List (String × Datum)}
      (members : Members source ms rest) : Value ('\x7b' :: source) (.object ms) rest

/-- A value with blanks on both sides, and then `rest`. -/
inductive Padded : List Char → Datum → List Char → Prop
  | mk {source inner behind rest : List Char} {v : Datum} (before : Blanks source inner)
      (value : Value inner v behind) (after : Blanks behind rest) : Padded source v rest

/-- The items of an array that has some, up to the bracket that closes it, and then `rest`. -/
inductive Items : List Char → List Datum → List Char → Prop
  | last {source rest : List Char} {v : Datum} (item : Padded source v (']' :: rest)) :
      Items source [v] rest
  | more {source others rest : List Char} {v : Datum} {vs : List Datum}
      (item : Padded source v (',' :: others)) (items : Items others vs rest) :
      Items source (v :: vs) rest

/-- A member of an object, and then `rest`. -/
inductive Member : List Char → String × Datum → List Char → Prop
  | mk {source key between behind rest cs : List Char} {v : Datum}
      (before : Blanks source ('"' :: key)) (quoted : Quoted key cs between)
      (colon : Blanks between (':' :: behind)) (value : Padded behind v rest) :
      Member source (String.ofList cs, v) rest

/-- The members of an object that has some, up to the brace that closes it, and then `rest`. -/
inductive Members : List Char → List (String × Datum) → List Char → Prop
  | last {source rest : List Char} {m : String × Datum}
      (member : Member source m ('\x7d' :: rest)) : Members source [m] rest
  | more {source others rest : List Char} {m : String × Datum} {ms : List (String × Datum)}
      (member : Member source m (',' :: others)) (members : Members others ms rest) :
      Members source (m :: ms) rest

end

/-- The text is a value with blanks around it. -/
def Says (text : String) (v : Datum) : Prop := Padded text.toList v []

namespace Value

variable {source rest : List Char} {v : Datum}

/-- A value begins with a character that is not blank and that closes no array. -/
theorem begins (h : Value source v rest) :
    ∃ c others, source = c :: others ∧ isBlank c = false ∧ c ≠ ']' := by
  cases h with
  | number numeral split =>
    obtain ⟨d, others, rfl, first⟩ := numeral.begins
    obtain rfl := split
    refine ⟨d, _, rfl, ?_⟩
    rcases first with digit | rfl
    · refine ⟨not_isBlank_of_isDigit digit, ?_⟩
      rintro rfl
      cases digit
    · decide
  | null | yes | no | text | emptyArray | array | emptyObject | object =>
    exact ⟨_, _, rfl, rfl, by decide⟩

theorem begun (h : Value source v rest) : Begun source := by
  obtain ⟨c, others, rfl, begun, -⟩ := h.begins
  intro c' first
  obtain rfl : c = c' := by simpa using first
  exact begun

theorem not_bracket : ¬ Value (']' :: source) v rest := by
  intro h
  obtain ⟨c, others, same, -, other⟩ := h.begins
  exact other (List.cons.inj same).1.symm

end Value

theorem Padded.not_bracket {source rest rest' : List Char} {v : Datum}
    (h : Padded source v rest) : ¬ Blanks source (']' :: rest') := by
  intro blanks
  obtain ⟨before, value, -⟩ := h
  obtain rfl := before.unique blanks value.begun (begun_cons rfl)
  exact value.not_bracket

/-- An array that has items is not closed behind its blanks. -/
theorem Items.not_bracket {source rest rest' : List Char} {vs : List Datum}
    (h : Items source vs rest) : ¬ Blanks source (']' :: rest') := by
  cases h with
  | last item => exact item.not_bracket
  | more item _ => exact item.not_bracket

theorem Member.not_brace {source rest rest' : List Char} {m : String × Datum}
    (h : Member source m rest) : ¬ Blanks source ('\x7d' :: rest') := by
  intro blanks
  obtain ⟨before, -, -, -⟩ := h
  have same := before.unique blanks (begun_cons rfl) (begun_cons rfl)
  cases (List.cons.inj same).1

/-- An object that has members is not closed behind its blanks. -/
theorem Members.not_brace {source rest rest' : List Char} {ms : List (String × Datum)}
    (h : Members source ms rest) : ¬ Blanks source ('\x7d' :: rest') := by
  cases h with
  | last member => exact member.not_brace
  | more member _ => exact member.not_brace

/-- The first character, if there is one, is not blank and cannot belong to a number in front of
it. -/
def Ends (source : List Char) : Prop := Begun source ∧ Halts source

theorem ends_nil : Ends [] := ⟨by simp [Begun], by simp [Halts]⟩

theorem ends_cons {c : Char} {rest : List Char} (single : isBlank c = false)
    (foreign : isNumeric c = false) : Ends (c :: rest) :=
  ⟨begun_cons single, by simpa [Halts] using foreign⟩

theorem Blanks.halts {source rest : List Char} (h : Blanks source rest) (halts : Halts rest) :
    Halts source := by
  obtain ⟨blanks, blank, rfl⟩ := h
  cases blanks with
  | nil => exact halts
  | cons c others =>
    intro c' first
    obtain rfl : c = c' := by simpa using first
    have isBlank_c := blank c List.mem_cons_self
    simp only [isBlank, Bool.or_eq_true, beq_iff_eq] at isBlank_c
    rcases isBlank_c with ((rfl | rfl) | rfl) | rfl <;> rfl

/-! ## Texts say one datum

The induction is on the first of two readings of a source. Digits behind a number would make it
another one, so values are compared in front of a comma, a closing mark or the end, perhaps with
blanks in between. -/

mutual

theorem Value.unique {source rest rest' : List Char} {v v' : Datum} (h : Value source v rest)
    (h' : Value source v' rest') (halts : Halts rest) (halts' : Halts rest') :
    v = v' ∧ rest = rest' := by
  match h with
  | .null =>
    cases h' with
    | null => exact ⟨rfl, rfl⟩
    | number numeral split => exact absurd (numeral.first split) (by decide)
  | .yes =>
    cases h' with
    | yes => exact ⟨rfl, rfl⟩
    | number numeral split => exact absurd (numeral.first split) (by decide)
  | .no =>
    cases h' with
    | no => exact ⟨rfl, rfl⟩
    | number numeral split => exact absurd (numeral.first split) (by decide)
  | .number numeral split =>
    cases h' with
    | number numeral' split' =>
      obtain ⟨rfl, rfl⟩ :=
        numeral.split_unique numeral' halts halts' (split.trans split'.symm)
      exact ⟨rfl, rfl⟩
    | null | yes | no | text | emptyArray | array | emptyObject | object =>
      exact absurd (numeral.first split) (by decide)
  | .text quoted =>
    cases h' with
    | text quoted' =>
      obtain ⟨rfl, rfl⟩ := quoted.unique quoted'
      exact ⟨rfl, rfl⟩
    | number numeral split => exact absurd (numeral.first split) (by decide)
  | .emptyArray blanks =>
    cases h' with
    | emptyArray blanks' =>
      have same := blanks.unique blanks' (begun_cons rfl) (begun_cons rfl)
      exact ⟨rfl, (List.cons.inj same).2⟩
    | array items => exact absurd blanks items.not_bracket
    | number numeral split => exact absurd (numeral.first split) (by decide)
  | .array items =>
    cases h' with
    | emptyArray blanks => exact absurd blanks items.not_bracket
    | array items' =>
      obtain ⟨rfl, rfl⟩ := items.unique items'
      exact ⟨rfl, rfl⟩
    | number numeral split => exact absurd (numeral.first split) (by decide)
  | .emptyObject blanks =>
    cases h' with
    | emptyObject blanks' =>
      have same := blanks.unique blanks' (begun_cons rfl) (begun_cons rfl)
      exact ⟨rfl, (List.cons.inj same).2⟩
    | object members => exact absurd blanks members.not_brace
    | number numeral split => exact absurd (numeral.first split) (by decide)
  | .object members =>
    cases h' with
    | emptyObject blanks => exact absurd blanks members.not_brace
    | object members' =>
      obtain ⟨rfl, rfl⟩ := members.unique members'
      exact ⟨rfl, rfl⟩
    | number numeral split => exact absurd (numeral.first split) (by decide)
termination_by structural h

theorem Padded.unique {source rest rest' : List Char} {v v' : Datum} (h : Padded source v rest)
    (h' : Padded source v' rest') (ends : Ends rest) (ends' : Ends rest') :
    v = v' ∧ rest = rest' := by
  let .mk before value after := h
  obtain ⟨before', value', after'⟩ := h'
  obtain rfl := before.unique before' value.begun value'.begun
  obtain ⟨rfl, rfl⟩ := value.unique value' (after.halts ends.2) (after'.halts ends'.2)
  exact ⟨rfl, after.unique after' ends.1 ends'.1⟩
termination_by structural h

/-- What stands behind an item decides whether there are more of them. -/
theorem Items.unique {source rest rest' : List Char} {vs vs' : List Datum}
    (h : Items source vs rest) (h' : Items source vs' rest') : vs = vs' ∧ rest = rest' := by
  match h with
  | .last item =>
    cases h' with
    | last item' =>
      obtain ⟨rfl, same⟩ := item.unique item' (ends_cons rfl rfl) (ends_cons rfl rfl)
      exact ⟨rfl, (List.cons.inj same).2⟩
    | more item' _ =>
      obtain ⟨-, same⟩ := item.unique item' (ends_cons rfl rfl) (ends_cons rfl rfl)
      cases (List.cons.inj same).1
  | .more item items =>
    cases h' with
    | last item' =>
      obtain ⟨-, same⟩ := item.unique item' (ends_cons rfl rfl) (ends_cons rfl rfl)
      cases (List.cons.inj same).1
    | more item' items' =>
      obtain ⟨rfl, same⟩ := item.unique item' (ends_cons rfl rfl) (ends_cons rfl rfl)
      obtain rfl := (List.cons.inj same).2
      obtain ⟨rfl, rfl⟩ := items.unique items'
      exact ⟨rfl, rfl⟩
termination_by structural h

theorem Member.unique {source rest rest' : List Char} {m m' : String × Datum}
    (h : Member source m rest) (h' : Member source m' rest') (ends : Ends rest)
    (ends' : Ends rest') : m = m' ∧ rest = rest' := by
  let .mk before quoted colon value := h
  obtain ⟨before', quoted', colon', value'⟩ := h'
  have key := before.unique before' (begun_cons rfl) (begun_cons rfl)
  obtain rfl := (List.cons.inj key).2
  obtain ⟨rfl, rfl⟩ := quoted.unique quoted'
  have behind := colon.unique colon' (begun_cons rfl) (begun_cons rfl)
  obtain rfl := (List.cons.inj behind).2
  obtain ⟨rfl, rfl⟩ := value.unique value' ends ends'
  exact ⟨rfl, rfl⟩
termination_by structural h

theorem Members.unique {source rest rest' : List Char} {ms ms' : List (String × Datum)}
    (h : Members source ms rest) (h' : Members source ms' rest') : ms = ms' ∧ rest = rest' := by
  match h with
  | .last member =>
    cases h' with
    | last member' =>
      obtain ⟨rfl, same⟩ := member.unique member' (ends_cons rfl rfl) (ends_cons rfl rfl)
      exact ⟨rfl, (List.cons.inj same).2⟩
    | more member' _ =>
      obtain ⟨-, same⟩ := member.unique member' (ends_cons rfl rfl) (ends_cons rfl rfl)
      cases (List.cons.inj same).1
  | .more member members =>
    cases h' with
    | last member' =>
      obtain ⟨-, same⟩ := member.unique member' (ends_cons rfl rfl) (ends_cons rfl rfl)
      cases (List.cons.inj same).1
    | more member' members' =>
      obtain ⟨rfl, same⟩ := member.unique member' (ends_cons rfl rfl) (ends_cons rfl rfl)
      obtain rfl := (List.cons.inj same).2
      obtain ⟨rfl, rfl⟩ := members.unique members'
      exact ⟨rfl, rfl⟩
termination_by structural h

end

/-- **A text says one datum at most.** -/
theorem Says.unique {text : String} {v v' : Datum} (h : Says text v) (h' : Says text v') :
    v = v' :=
  (Padded.unique h h' ends_nil ends_nil).1

/-! ## Decoders -/

/-- A function that finds a datum in every text that says one, and one that the text says. What it
makes of other texts is its own affair. -/
structure Decoder where
  decode : String → Option Datum
  finds : ∀ {text v}, Says text v → ∃ w, decode text = some w ∧ Says text w

namespace Decoder

/-- Decoders agree about all texts that say something. -/
theorem decode_eq (d : Decoder) {text : String} {v : Datum} (h : Says text v) :
    d.decode text = some v := by
  obtain ⟨w, found, told⟩ := d.finds h
  rw [found, told.unique h]

open Classical in
/-- The decoder that makes nothing of texts that say nothing. -/
noncomputable def least : Decoder where
  decode text := if h : ∃ v, Says text v then some h.choose else none
  finds := by
    intro text v told
    have existing : ∃ v, Says text v := ⟨v, told⟩
    exact ⟨existing.choose, dif_pos existing, existing.choose_spec⟩

end Decoder

end Stencil.Json
