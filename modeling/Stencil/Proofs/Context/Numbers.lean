import Mathlib
import Stencil.Context
import Stencil.Proofs.Decimal.Exact
import Stencil.Proofs.Decimal.Notation

/-!
# Texts of numbers

* `mem_toString_int`: an integer is written in digits, with perhaps a minus;
* `Value.marks`, `Value.mem_write`: the characters of a float in its notation;
* `Value.write_ne_toString`: in this notation no float is written as an integer is;
* `stringify_of_integer`, `stringify_of_other`: the text of a float is that of the integer it is
  equal to, if there is one, and else it is in that notation;
* `stringify_numbers`: so numbers have the same text exactly if they are equal, and truth values
  have the text of no number.
-/

namespace Stencil

theorem mem_toString_int {n : Int} {c : Char} (member : c ∈ (toString n).toList) :
    c.isDigit = true ∨ c = '-' := by
  rw [Int.toString_eq_repr, Int.repr_eq_if] at member
  split at member
  · rw [← Nat.toString_eq_repr] at member
    exact .inl (Decimal.isDigit_of_mem_toString member)
  · rw [← Nat.toString_eq_repr, String.toList_append, List.mem_append] at member
    rcases member with minus | digit
    · exact .inr (by simpa using minus)
    · exact .inl (Decimal.isDigit_of_mem_toString digit)

namespace Value

open Decimal

/-- What numbers are written with besides digits: signs, points, the mark of exponents, and the
letters of the words for what is no number. -/
def marks : List Char := "+-.enaif".toList

theorem mem_write {x : Binary64} {c : Char} (member : c ∈ (numberLayout.write x).toList) :
    c.isDigit = true ∨ c ∈ marks := by
  have allowed (allows : numberLayout.Allows c) : c.isDigit = true ∨ c ∈ marks := by
    rcases allows with digit | rfl | rfl | rfl | whole | mark
    · exact .inl digit
    · exact .inr (by decide)
    · exact .inr (by decide)
    · exact .inr (by decide)
    · obtain rfl | rfl : c = '.' ∨ c = '0' := by simpa [numberLayout] using whole
      · exact .inr (by decide)
      · exact .inl (by decide)
    · obtain rfl : c = 'e' := by simpa [numberLayout] using mark
      exact .inr (by decide)
  have row : Layout.IsRow "0" := by
    intro c member
    obtain rfl : c = '0' := by simpa using member
    decide
  have minus : "-".toList ⊆ marks := by decide
  have nan : numberLayout.nan.toList ⊆ marks := by decide
  have infinity : numberLayout.infinity.toList ⊆ marks := by decide
  obtain ⟨sign, body, same, signs, bodies⟩ := numberLayout.write_cases x
  rw [same, String.toList_append, List.mem_append] at member
  rcases member with first | behind
  · rcases signs with rfl | rfl
    · simp at first
    · exact .inr (minus first)
  · rcases bodies with rfl | rfl | rfl | ⟨d, rfl⟩
    · exact .inr (nan behind)
    · exact .inr (infinity behind)
    · exact allowed (Layout.allows_positional row behind)
    · exact allowed (Layout.allows_place behind)

/-- The notation has a character in it that no integer has. -/
theorem exists_mark_write (x : Binary64) :
    ∃ c ∈ (numberLayout.write x).toList, c.isDigit = false ∧ c ≠ '-' := by
  have point : '.' ∈ numberLayout.whole.toList := by decide
  have mark : 'e' ∈ numberLayout.mark.toList := by decide
  obtain ⟨sign, body, same, _, bodies⟩ := numberLayout.write_cases x
  suffices found : ∃ c ∈ body.toList, c.isDigit = false ∧ c ≠ '-' by
    obtain ⟨c, member, different⟩ := found
    exact ⟨c, by simp [same, member], different⟩
  rcases bodies with rfl | rfl | rfl | ⟨d, rfl⟩
  · exact ⟨'n', by decide, by decide, by decide⟩
  · exact ⟨'n', by decide, by decide, by decide⟩
  · exact ⟨'.', Layout.point_mem_positional point, by decide, by decide⟩
  · rcases Layout.exists_mark_place point mark d with found | found
    · exact ⟨'.', found, by decide, by decide⟩
    · exact ⟨'e', found, by decide, by decide⟩

theorem write_ne_toString (x : Binary64) (n : Int) : numberLayout.write x ≠ toString n := by
  intro same
  obtain ⟨c, member, noDigit, noMinus⟩ := exists_mark_write x
  rw [same] at member
  rcases mem_toString_int member with digit | minus
  · rw [noDigit] at digit
    cases digit
  · exact noMinus minus

end Value

/-! ## The text of a number -/

theorem stringify_int (key : String) (n : Int) : stringify key (.int n) = .ok (toString n) := rfl

theorem stringify_bool (key : String) (b : Bool) :
    stringify key (.bool b) = .ok (if b then "true" else "false") := rfl

theorem stringify_of_integer {x : Binary64} {n : Int} (whole : x.value? = some (n : ℚ))
    (key : String) : stringify key (.float x) = .ok (toString n) := by
  rw [stringify, Binary64.integer?_eq_some_iff.2 whole]

theorem stringify_of_other {x : Binary64} (other : ∀ n : Int, x.value? ≠ some (n : ℚ))
    (key : String) : stringify key (.float x) = .ok (Value.numberLayout.write x) := by
  cases found : x.integer? with
  | none => rw [stringify, found]
  | some n => exact absurd (Binary64.integer?_eq_some_iff.1 found) (other n)

/-- Both words for truth values have a letter that no number has. -/
theorem exists_letter_truth (b : Bool) :
    ∃ c ∈ (if b then "true" else "false").toList, c.isDigit = false ∧ c ∉ Value.marks := by
  cases b with
  | true => exact ⟨'t', by decide, by decide, by decide⟩
  | false => exact ⟨'s', by decide, by decide, by decide⟩

theorem truth_ne_toString (b : Bool) (n : Int) : (if b then "true" else "false") ≠ toString n := by
  intro same
  obtain ⟨c, member, noDigit, foreign⟩ := exists_letter_truth b
  rw [same] at member
  rcases mem_toString_int member with digit | rfl
  · rw [noDigit] at digit
    cases digit
  · exact foreign (by decide)

theorem truth_ne_write (b : Bool) (x : Binary64) :
    (if b then "true" else "false") ≠ Value.numberLayout.write x := by
  intro same
  obtain ⟨c, member, noDigit, foreign⟩ := exists_letter_truth b
  rw [same] at member
  rcases Value.mem_write member with digit | known
  · rw [noDigit] at digit
    cases digit
  · exact foreign known

/-- **Integral floats print as the integer they are.** If the value of the bits is an integer, their
text is that of this integer, in all its digits. The text of all other bits is that of no integer.
So an integer and a float have the same text exactly if they are equal, and the text of a truth
value is that of no number. -/
theorem stringify_numbers (key : String) :
    (∀ (x : Binary64) (n : Int), x.value? = some (n : ℚ) →
      stringify key (.float x) = stringify key (.int n) ∧
        stringify key (.float x) = .ok (toString n)) ∧
    (∀ x : Binary64, (∀ n : Int, x.value? ≠ some (n : ℚ)) →
      ∃ text, stringify key (.float x) = .ok text ∧ ∀ n : Int, text ≠ toString n) ∧
    (∀ (x : Binary64) (n : Int),
      stringify key (.float x) = stringify key (.int n) ↔ x.value? = some (n : ℚ)) ∧
    ∀ b, (∀ n, stringify key (.bool b) ≠ stringify key (.int n)) ∧
      ∀ x, stringify key (.bool b) ≠ stringify key (.float x) := by
  refine ⟨fun x n whole => ?_, fun x other => ?_, fun x n => ⟨fun same => ?_, fun whole => ?_⟩,
    fun b => ⟨fun n same => ?_, fun x same => ?_⟩⟩
  · have text := stringify_of_integer whole key
    exact ⟨text.trans (stringify_int key n).symm, text⟩
  · exact ⟨_, stringify_of_other other key, Value.write_ne_toString x⟩
  · by_cases whole : ∃ m : Int, x.value? = some (m : ℚ)
    · obtain ⟨m, whole⟩ := whole
      rw [stringify_of_integer whole, stringify_int, Except.ok.injEq, Int.toString_eq_repr,
        Int.toString_eq_repr, Int.repr_inj] at same
      rw [whole, same]
    · rw [stringify_of_other (not_exists.1 whole), stringify_int, Except.ok.injEq] at same
      exact absurd same (Value.write_ne_toString x n)
  · rw [stringify_of_integer whole, stringify_int]
  · rw [stringify_bool, stringify_int, Except.ok.injEq] at same
    exact truth_ne_toString b n same
  · by_cases whole : ∃ m : Int, x.value? = some (m : ℚ)
    · obtain ⟨m, whole⟩ := whole
      rw [stringify_bool, stringify_of_integer whole, Except.ok.injEq] at same
      exact truth_ne_toString b m same
    · rw [stringify_bool, stringify_of_other (not_exists.1 whole), Except.ok.injEq] at same
      exact truth_ne_write b x same

/-- The bits of minus zero, of ten to the sixteenth, and of a half. -/
theorem stringify_numbers_of_bits :
    (Binary64.value? ⟨0x8000000000000000⟩ = some ((0 : Int) : ℚ) ∧
      stringify "x" (.float ⟨0x8000000000000000⟩) = .ok "0") ∧
    (Binary64.value? ⟨0x4341C37937E08000⟩ = some ((10000000000000000 : Int) : ℚ) ∧
      stringify "x" (.float ⟨0x4341C37937E08000⟩) = .ok "10000000000000000") ∧
    (∀ n : Int, Binary64.value? ⟨0x3FE0000000000000⟩ ≠ some (n : ℚ)) ∧
      ∃ text, stringify "x" (.float ⟨0x3FE0000000000000⟩) = .ok text ∧
        ∀ n : Int, text ≠ toString n := by
  have zero : Binary64.value? ⟨0x8000000000000000⟩ = some ((0 : Int) : ℚ) :=
    Binary64.integer?_eq_some_iff.1 (by decide +kernel)
  have large : Binary64.value? ⟨0x4341C37937E08000⟩ = some ((10000000000000000 : Int) : ℚ) :=
    Binary64.integer?_eq_some_iff.1 (by decide +kernel)
  have half : ∀ n : Int, Binary64.value? ⟨0x3FE0000000000000⟩ ≠ some (n : ℚ) := by
    intro n same
    have none : Binary64.integer? ⟨0x3FE0000000000000⟩ = none := by decide +kernel
    rw [← Binary64.integer?_eq_some_iff, none] at same
    cases same
  obtain ⟨integers, others, _⟩ := stringify_numbers "x"
  exact ⟨⟨zero, (integers _ 0 zero).2⟩, ⟨large, (integers _ _ large).2⟩, half, others _ half⟩

end Stencil
