import Mathlib.Data.List.Basic
import Stencil.Decimal.Layout

/-!
# The characters of decimal notation

* `isDigit_of_mem_toString`: a natural number is written in digits;
* `Layout.Allows`: the characters that a notation has besides the digits;
* `Layout.allows_place`: a number in a notation has no others;
* `Layout.exists_mark_place`: it has a point or the mark of an exponent among them;
* `Layout.write_cases`: what is written for the bits of a binary64 number.
-/

namespace Stencil.Decimal

theorem isDigit_of_mem_toString {n : Nat} {c : Char} (member : c ∈ (toString n).toList) :
    c.isDigit = true := by
  rw [Nat.toString_eq_repr, Nat.toList_repr] at member
  exact Nat.isDigit_of_mem_toDigits (by decide) (by decide) member

theorem isDigit_of_mem_replicate {k : Nat} {c : Char} (member : c ∈ List.replicate k '0') :
    c.isDigit = true := by
  rw [List.eq_of_mem_replicate member]
  decide

namespace Layout

/-- Besides digits there are points, signs, what follows the point of a number without a fraction,
and the mark of an exponent. -/
def Allows (l : Layout) (c : Char) : Prop :=
  c.isDigit = true ∨ c = '.' ∨ c = '+' ∨ c = '-' ∨ c ∈ l.whole.toList ∨ c ∈ l.mark.toList

/-- The row holds digits only. -/
def IsRow (digits : String) : Prop := ∀ c ∈ digits.toList, c.isDigit = true

variable {l : Layout} {digits : String} {lead : Int} {c : Char}

theorem allows_positional (row : IsRow digits) (member : c ∈ (l.positional digits lead).toList) :
    l.Allows c := by
  unfold positional at member
  cases lead with
  | negSucc k =>
    simp only [String.toList_append, String.toList_ofList, List.mem_append] at member
    rcases member with (front | zeros) | behind
    · obtain rfl | rfl : c = '0' ∨ c = '.' := by simpa using front
      · exact .inl (by decide)
      · exact .inr (.inl rfl)
    · exact .inl (isDigit_of_mem_replicate zeros)
    · exact .inl (row c behind)
  | ofNat k =>
    have padded : ∀ c ∈ digits.toList ++ List.replicate (k + 1 - digits.length) '0',
        c.isDigit = true := by
      intro c member
      rcases List.mem_append.1 member with own | zeros
      · exact row c own
      · exact isDigit_of_mem_replicate zeros
    simp only [String.toList_append, String.toList_ofList, List.mem_append] at member
    rcases member with front | tail
    · exact .inl (padded c (List.mem_of_mem_take front))
    · split at tail
      · exact .inr (.inr (.inr (.inr (.inl tail))))
      · simp only [String.toList_append, String.toList_ofList, List.mem_append] at tail
        rcases tail with point | fraction
        · exact .inr (.inl (by simpa using point))
        · exact .inl (padded c (List.mem_of_mem_drop fraction))

theorem allows_scientific (row : IsRow digits) (member : c ∈ (l.scientific digits lead).toList) :
    l.Allows c := by
  unfold scientific at member
  simp only [String.toList_append, String.toList_ofList, List.mem_append] at member
  rcases member with (((((first | point) | fraction) | mark) | sign) | padding) | exponent
  · exact .inl (row c (List.mem_of_mem_take first))
  · split at point
    · simp at point
    · exact .inr (.inl (by simpa using point))
  · exact .inl (row c (List.mem_of_mem_drop fraction))
  · exact .inr (.inr (.inr (.inr (.inr mark))))
  · split at sign
    · exact .inr (.inr (.inr (.inl (by simpa using sign))))
    · exact .inr (.inr (.inl (by simpa using sign)))
  · exact .inl (isDigit_of_mem_replicate padding)
  · exact .inl (isDigit_of_mem_toString exponent)

/-- Without the zeros at its end a coefficient is still a row of digits. -/
theorem isRow_trimmed (n : Nat) :
    IsRow (String.ofList ((Nat.toDigits 10 n).take 1 ++
      (((Nat.toDigits 10 n).drop 1).reverse.dropWhile (· == '0')).reverse)) := by
  intro c member
  rw [String.toList_ofList, List.mem_append, List.mem_reverse] at member
  refine Nat.isDigit_of_mem_toDigits (by decide) (by decide) (?_ : c ∈ Nat.toDigits 10 n)
  rcases member with first | others
  · exact List.mem_of_mem_take first
  · exact List.mem_of_mem_drop (List.mem_reverse.1 ((List.dropWhile_sublist _).subset others))

/-- A number is written positionally or with an exponent. -/
theorem place_cases (l : Layout) (d : Scaled) :
    ∃ digits lead, IsRow digits ∧
      (l.place d = l.positional digits lead ∨ l.place d = l.scientific digits lead) := by
  refine ⟨_, d.exponent + (Nat.toDigits 10 d.coefficient).length - 1,
    isRow_trimmed d.coefficient, ?_⟩
  unfold place
  dsimp only
  split
  · exact .inl rfl
  · exact .inr rfl

theorem allows_place {d : Scaled} (member : c ∈ (l.place d).toList) : l.Allows c := by
  obtain ⟨digits, lead, row, same | same⟩ := l.place_cases d
  · rw [same] at member
    exact allows_positional row member
  · rw [same] at member
    exact allows_scientific row member

/-! ## Marks that tell a number from an integer -/

theorem point_mem_positional (point : '.' ∈ l.whole.toList) :
    '.' ∈ (l.positional digits lead).toList := by
  unfold positional
  cases lead with
  | negSucc k => simp
  | ofNat k =>
    simp only [String.toList_append, String.toList_ofList, List.mem_append]
    right
    split
    · exact point
    · simp

theorem mark_mem_scientific (mark : c ∈ l.mark.toList) :
    c ∈ (l.scientific digits lead).toList := by
  unfold scientific
  simp [mark]

/-- Positionally there is a point, and else the mark of the exponent. -/
theorem exists_mark_place (point : '.' ∈ l.whole.toList) (mark : c ∈ l.mark.toList) (d : Scaled) :
    '.' ∈ (l.place d).toList ∨ c ∈ (l.place d).toList := by
  obtain ⟨digits, lead, _, same | same⟩ := l.place_cases d
  · rw [same]
    exact .inl (point_mem_positional point)
  · rw [same]
    exact .inr (mark_mem_scientific mark)

/-- A minus may stand before a number and before an infinity. Zero has a digit of its own. -/
theorem write_cases (l : Layout) (x : Binary64) :
    ∃ sign body, l.write x = sign ++ body ∧ (sign = "" ∨ sign = "-") ∧
      (body = l.nan ∨ body = l.infinity ∨ body = l.positional "0" 0 ∨ ∃ d, body = l.place d) := by
  have signs (negative : Bool) :
      (if negative then "-" else "") = "" ∨ (if negative then "-" else "") = "-" := by
    cases negative <;> simp
  cases shape : x.shape with
  | nan => exact ⟨"", l.nan, by simp [write, shape], .inl rfl, .inl rfl⟩
  | infinite negative =>
    exact ⟨_, l.infinity, by simp only [write, shape], signs negative, .inr (.inl rfl)⟩
  | finite negative m q =>
    refine ⟨_, if m = 0 then l.positional "0" 0 else l.place (shortest m q),
      by simp only [write, shape], signs negative, .inr (.inr ?_)⟩
    split
    · exact .inl rfl
    · exact .inr ⟨_, rfl⟩

end Layout

end Stencil.Decimal
