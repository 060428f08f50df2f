import Mathlib.Data.List.Induction

/-!
# Keys in the order of their first appearance

* `AddsKey`: a step that keeps the keys of a row of pairs in their order and appends its own key if
  it is new;
* `keys_foldl`, `nodup_keys_foldl`: what such steps make of nothing has every key once, in the order
  of the first appearances.
-/

namespace Stencil

section

variable {α β : Type} {step : List (String × α) → β → List (String × α)} {key : β → String}

def AddsKey (step : List (String × α) → β → List (String × α)) (key : β → String) : Prop :=
  ∀ pairs x, (step pairs x).map Prod.fst =
    if key x ∈ pairs.map Prod.fst then pairs.map Prod.fst else pairs.map Prod.fst ++ [key x]

theorem keys_foldl (adds : AddsKey step key) (xs : List β) :
    (xs.foldl step []).map Prod.fst = (xs.map key).eraseDups := by
  induction xs using List.reverseRecOn with
  | nil => rfl
  | append_singleton xs x ih =>
    rw [List.foldl_append, List.foldl_cons, List.foldl_nil, adds, ih, List.map_append,
      List.map_singleton, List.eraseDups_append]
    generalize xs.map key = keys
    by_cases known : key x ∈ keys
    · simp [known, List.removeAll]
    · simp [known, List.removeAll, List.eraseDups_cons]

theorem nodup_keys_foldl (adds : AddsKey step key) (xs : List β) :
    ((xs.foldl step []).map Prod.fst).Nodup := by
  induction xs using List.reverseRecOn with
  | nil => exact List.nodup_nil
  | append_singleton xs x ih =>
    rw [List.foldl_append, List.foldl_cons, List.foldl_nil, adds]
    split
    · exact ih
    · next new =>
      refine List.nodup_append.2 ⟨ih, List.pairwise_singleton _ _, ?_⟩
      rintro name member _ last rfl
      exact new (List.mem_singleton.1 last ▸ member)

end

end Stencil
