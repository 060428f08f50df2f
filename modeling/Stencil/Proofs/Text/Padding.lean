import Stencil.Proofs.Markup.Spelling

/-!
# Padded texts

* `Text.Pads`: a text that has nothing but blanks around another one;
* `Text.trim_eq_iff`: trimming gives what a text pads.
-/

namespace Stencil.Text

/-- The padded text consists of the core and of blanks around it, which do not belong to the
core. -/
structure Pads (core padded : String) : Prop where
  first : ∀ c, core.toList.head? = some c → isBlank c = false
  last : ∀ c, core.toList.getLast? = some c → isBlank c = false
  around : ∃ before behind, (∀ c ∈ before, isBlank c = true) ∧ (∀ c ∈ behind, isBlank c = true) ∧
    padded.toList = before ++ core.toList ++ behind

/-- What is left behind the blanks at the beginning does not begin with one. -/
theorem head_trimLeft {cs : List Char} {c : Char} (h : (trimLeft cs).head? = some c) :
    isBlank c = false := by
  have stops := List.head?_dropWhile_not isBlank cs
  rw [trimLeft] at h
  rw [h] at stops
  simpa using stops

theorem trimRight_eq (cs : List Char) : trimRight cs = (trimLeft cs.reverse).reverse := rfl

theorem split_trimLeft (cs : List Char) :
    ∃ before, (∀ c ∈ before, isBlank c = true) ∧ cs = before ++ trimLeft cs :=
  ⟨cs.takeWhile isBlank, fun _ member => List.all_eq_true.1 List.all_takeWhile _ member,
    List.takeWhile_append_dropWhile.symm⟩

theorem split_trimRight (cs : List Char) :
    ∃ behind, (∀ c ∈ behind, isBlank c = true) ∧ cs = trimRight cs ++ behind := by
  obtain ⟨before, blank, same⟩ := split_trimLeft cs.reverse
  refine ⟨before.reverse, fun c member => blank c (List.mem_reverse.1 member), ?_⟩
  rw [trimRight_eq, ← List.reverse_append, ← same, List.reverse_reverse]

theorem trimLeft_of_around {before cs : List Char} (blank : ∀ c ∈ before, isBlank c = true)
    (first : ∀ c, cs.head? = some c → isBlank c = false) : trimLeft (before ++ cs) = cs :=
  dropWhile_stretch blank first

theorem trimRight_of_around {cs behind : List Char} (blank : ∀ c ∈ behind, isBlank c = true)
    (last : ∀ c, cs.getLast? = some c → isBlank c = false) : trimRight (cs ++ behind) = cs := by
  rw [trimRight_eq, List.reverse_append, trimLeft_of_around, List.reverse_reverse]
  · exact fun c member => blank c (List.mem_reverse.1 member)
  · exact fun c found => last c (by rwa [List.head?_reverse] at found)

theorem trimLeft_of_blank {cs : List Char} (blank : ∀ c ∈ cs, isBlank c = true) :
    trimLeft cs = [] := by
  have whole := @trimLeft_of_around cs [] blank (by simp)
  rwa [List.append_nil] at whole

theorem trim_pads (s : String) : Pads (trim s) s := by
  obtain ⟨before, blankBefore, split⟩ := split_trimLeft s.toList
  obtain ⟨behind, blankBehind, core⟩ := split_trimRight (trimLeft s.toList)
  have trimmed : (trim s).toList = trimRight (trimLeft s.toList) := String.toList_ofList
  refine ⟨fun c found => ?_, fun c found => ?_, before, behind, blankBefore, blankBehind, ?_⟩
  · refine @head_trimLeft s.toList c ?_
    rw [core, List.head?_append, ← trimmed, found]
    rfl
  · rw [trimmed, trimRight_eq, List.getLast?_reverse] at found
    exact head_trimLeft found
  · rw [trimmed, List.append_assoc, ← core, ← split]

/-- Trimming gives the one text that is padded. -/
theorem trim_eq_iff {s core : String} : trim s = core ↔ Pads core s := by
  constructor
  · rintro rfl
    exact trim_pads s
  · rintro ⟨first, last, before, behind, blankBefore, blankBehind, same⟩
    rw [trim, same, List.append_assoc]
    cases present : core.toList with
    | nil =>
      have blank : ∀ c ∈ before ++ ([] ++ behind), isBlank c = true := fun c member =>
        (List.mem_append.1 member).elim (blankBefore c) (blankBehind c)
      rw [trimLeft_of_blank blank, String.toList_eq_nil_iff.1 present]
      rfl
    | cons c cs =>
      rw [← present]
      have start : ∀ d, (core.toList ++ behind).head? = some d → isBlank d = false := by
        intro d found
        rw [present] at found
        exact first d (by rw [present]; exact found)
      rw [trimLeft_of_around blankBefore start, trimRight_of_around blankBehind last,
        String.ofList_toList]

theorem trim_eq_empty_iff {s : String} :
    trim s = "" ↔ ∀ c ∈ s.toList, isBlank c = true := by
  rw [trim_eq_iff]
  constructor
  · rintro ⟨-, -, before, behind, blankBefore, blankBehind, same⟩ c member
    rw [same] at member
    simp only [String.toList_empty, List.append_nil, List.mem_append] at member
    exact member.elim (blankBefore c) (blankBehind c)
  · intro blank
    exact ⟨by simp, by simp, s.toList, [], blank, by simp, by simp⟩

end Stencil.Text
