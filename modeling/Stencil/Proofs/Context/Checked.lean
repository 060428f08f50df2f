import Stencil.Files.Load
import Stencil.Proofs.Context.Lookup

/-!
# Checked contexts

* `Context.IsChecked`: dictionaries of supported values under names;
* `validate_isChecked`, `readContext_isChecked`: checking a dictionary and reading a file give no
  other contexts;
* `lookup_of_isChecked`: every name has a text in such a context.
-/

namespace Stencil

/-- A dictionary of values that contexts hold, under names. -/
def Context.IsChecked (context : Context) : Prop :=
  ∃ pairs : List (String × Value),
    (∀ pair ∈ pairs, pair.2.isSupported = true) ∧ context = .ofChecked pairs

theorem Context.isChecked_empty : Context.IsChecked (.dict []) := ⟨[], by simp, rfl⟩

namespace Value

theorem mem_put {key : String} {value : Value} {pairs : List (String × Value)}
    {pair : String × Value} (h : pair ∈ put key value pairs) : pair.2 = value ∨ pair ∈ pairs := by
  induction pairs with
  | nil =>
    obtain rfl : pair = (key, value) := by simpa [put] using h
    exact .inl rfl
  | cons first rest ih =>
    unfold put at h
    split at h
    · rcases List.mem_cons.1 h with rfl | later
      · exact .inl rfl
      · exact .inr (List.mem_cons_of_mem _ later)
    · rcases List.mem_cons.1 h with rfl | later
      · exact .inr (List.mem_cons_self ..)
      · exact (ih later).imp id (List.mem_cons_of_mem _)

theorem mem_of_get? {pairs : List (Value × Value)} {key : String} {v : Value}
    (h : get? pairs key = some v) : ∃ pair ∈ pairs, pair.2 = v := by
  obtain ⟨pair, found, rfl⟩ := Option.map_eq_some_iff.1 h
  exact ⟨pair, List.mem_of_find?_eq_some found, rfl⟩

end Value

/-- What has been checked stays supported with every further pair. -/
theorem validate_supported {pairs : List (Value × Value)} {checked : List (String × Value)}
    (h : validate pairs = .ok checked) : ∀ pair ∈ checked, pair.2.isSupported = true := by
  have supported : ∀ pair ∈ ([] : List (String × Value)), pair.2.isSupported = true := by simp
  unfold validate at h
  generalize ([] : List (String × Value)) = start at h supported
  induction pairs generalizing start with
  | nil =>
    cases h
    exact supported
  | cons first rest ih =>
    rw [List.foldlM_cons] at h
    by_cases fits : first.2.isSupported = true
    · rw [if_pos fits] at h
      refine ih (Value.put first.1.label first.2 start) h fun pair member => ?_
      rcases Value.mem_put member with same | earlier
      · rw [same, fits]
      · exact supported pair earlier
    · rw [if_neg fits] at h
      cases h

theorem validate_isChecked {pairs : List (Value × Value)} {checked : List (String × Value)}
    (h : validate pairs = .ok checked) : Context.IsChecked (.ofChecked checked) :=
  ⟨checked, validate_supported h, rfl⟩

theorem contextIn_isChecked {path : Path} {document : Except Yaml.Fault Value}
    {pairs : List (String × Value)} (h : contextIn path document = .ok pairs) :
    Context.IsChecked (.ofChecked pairs) := by
  unfold contextIn at h
  split at h
  · cases h
  · cases h
  · unfold contextOf at h
    split at h
    · cases h
      exact Context.isChecked_empty
    · exact validate_isChecked h
    · cases h

theorem readContext_isChecked {files : Files} {path : Path} {pairs : List (String × Value)}
    (h : readContext files path = .ok pairs) : Context.IsChecked (.ofChecked pairs) := by
  unfold readContext loadContext at h
  split at h
  · cases h
  · split at h
    · cases h
    · exact contextIn_isChecked h

/-- Every name has a text in a checked context. -/
theorem lookup_of_isChecked {context : Context} (h : context.IsChecked) (name : String) :
    ∃ text, lookup context name = .ok text := by
  obtain ⟨pairs, supported, rfl⟩ := h
  cases outcome : lookup (.ofChecked pairs) name with
  | ok text => exact ⟨text, rfl⟩
  | error e =>
    cases lookup_eq_error_iff.1 outcome with
    | notDictionary _ other => exact absurd rfl (other _)
    | unsupported dictionary found refused =>
      cases dictionary
      obtain ⟨_, member, rfl⟩ := Value.mem_of_get? found
      obtain ⟨pair, among, rfl⟩ := List.mem_map.1 member
      rw [supported pair among] at refused
      cases refused

end Stencil
