import Stencil.Template.Search

/-!
# What a search finds

* `Template.at?_append`: a path is followed part by part;
* `Registry.lookup_add`: a name is registered only where it is not there yet;
* `Template.lookup_registry`: a registry has the first child of every name;
* `Site.registered?_eq_find?`: so the child that it has for a name is the first one of that name;
* `Site.Within`: a site of a tree has the node to which its path leads;
* `Site.firstBelow_found`: below sites of a tree only sites of that tree are found;
* `search_found`: a search finds a node of the tree that bears the name.
-/

namespace Stencil

theorem Template.at?_append (t : Template) (front back : List Nat) :
    t.at? (front ++ back) = (t.at? front).bind fun node => node.at? back := by
  induction front generalizing t with
  | nil => rfl
  | cons i front ih =>
    rw [List.cons_append, at?, at?]
    cases t.children[i]? with
    | none => rfl
    | some child => exact ih child

/-! ## Registries -/

/-- A name is registered only where it is not there yet. -/
theorem Registry.lookup_add (registry : List (String × Nat)) (name : String) (index : Nat)
    (sought : String) :
    (add registry name index).lookup sought =
      (registry.lookup sought).or (if name = sought then some index else none) := by
  unfold add
  split
  · next there =>
    split
    · next named =>
      obtain ⟨entry, member, same⟩ := List.any_eq_true.1 there
      cases found : registry.lookup sought with
      | some i => rfl
      | none =>
        have absent := List.lookup_eq_none_iff.1 found entry member
        rw [beq_iff_eq] at same
        simp [same, named] at absent
    · rw [Option.or_none]
  · rw [List.lookup_append]
    congr 1
    by_cases named : name = sought
    · simp [named]
    · simp [named, List.lookup_cons, beq_false_of_ne (Ne.symm named)]

theorem Registry.map_fst_add (registry : List (String × Nat)) (name : String) (index : Nat) :
    (add registry name index).map Prod.fst =
      if name ∈ registry.map Prod.fst then registry.map Prod.fst
      else registry.map Prod.fst ++ [name] := by
  have there : (registry.any fun entry => entry.1 == name) = true ↔
      name ∈ registry.map Prod.fst := by
    simp only [List.any_eq_true, beq_iff_eq, List.mem_map]
  unfold add
  by_cases known : name ∈ registry.map Prod.fst
  · rw [if_pos known, if_pos (there.2 known)]
  · rw [if_neg known, if_neg (mt there.1 known), List.map_append, List.map_singleton]

/-- Of several things with one name only the first is registered. -/
theorem Registry.lookup_foldl {α : Type} (name : α → String) (index : α → Nat)
    (registry : List (String × Nat)) (xs : List α) (sought : String) :
    (xs.foldl (fun registry x => add registry (name x) (index x)) registry).lookup sought =
      (registry.lookup sought).or ((xs.find? fun x => name x == sought).map index) := by
  induction xs generalizing registry with
  | nil => simp
  | cons x xs ih =>
    rw [List.foldl_cons, ih, lookup_add, Option.or_assoc, List.find?_cons]
    by_cases named : name x = sought
    · simp [named]
    · simp [named, beq_false_of_ne named]

namespace Template

/-- The index that a registry has for a name is that of the first child of this name. -/
theorem lookup_registry (t : Template) (name : String) :
    t.registry.lookup name =
      (t.children.zipIdx.find? fun child => child.1.name == name).map Prod.snd :=
  Registry.lookup_foldl (fun child : Template × Nat => child.1.name) Prod.snd [] t.children.zipIdx
    name

theorem lookup_registry_eq_findIdx? (t : Template) (name : String) :
    t.registry.lookup name = t.children.findIdx? fun child => child.name == name := by
  rw [lookup_registry, List.findIdx?_eq_fst_find?_zipIdx]

end Template

namespace Site

theorem mem_below_iff {s child : Site} :
    child ∈ s.below ↔
      ∃ i, s.template.children[i]? = some child.template ∧ child.path = s.path ++ [i] := by
  simp only [below, List.mem_map, Prod.exists, List.mem_zipIdx_iff_getElem?]
  constructor
  · rintro ⟨node, i, found, rfl⟩
    exact ⟨i, found, rfl⟩
  · rintro ⟨i, found, path⟩
    exact ⟨child.template, i, found, by rw [← path]⟩

/-- Asking the registry for a name comes to the same as looking through the children. -/
@[simp]
theorem registered?_eq_find? (s : Site) (name : String) :
    s.registered? name = s.below.find? fun child => child.template.name == name := by
  have through : (s.below.find? fun child => child.template.name == name) =
      (s.template.children.zipIdx.find? fun child => child.1.name == name).map
        fun child => ⟨s.path ++ [child.2], child.1⟩ := by
    rw [below, List.find?_map]
    rfl
  rw [registered?, Template.lookup_registry, through]
  cases found : s.template.children.zipIdx.find? fun child => child.1.name == name with
  | none => rfl
  | some child =>
    obtain ⟨node, i⟩ := child
    have here := List.mem_zipIdx_iff_getElem?.1 (List.mem_of_find?_eq_some found)
    simp [below, here]

/-! ## Sites of a tree -/

/-- The path of the site leads to its node. -/
def Within (root : Template) (s : Site) : Prop := root.at? s.path = some s.template

theorem Within.below {root : Template} {s child : Site} (h : s.Within root)
    (member : child ∈ s.below) : child.Within root := by
  obtain ⟨i, found, path⟩ := mem_below_iff.1 member
  rw [Within, path, Template.at?_append, h, Option.bind_some, Template.at?, found]
  rfl

/-- The pending sites stay sites of the tree, for those that are added are children of one. -/
theorem firstBelow_found {root : Template} {name : String} {levels : List (List Site)} {site : Site}
    (within : ∀ level ∈ levels, ∀ s ∈ level, s.Within root)
    (h : firstBelow name levels = some site) :
    site.Within root ∧ site.template.name = name := by
  fun_induction firstBelow name levels with
  | case1 => cases h
  | case2 levels ih => exact ih (List.forall_mem_cons.1 within).2 h
  | case3 s rest levels child found =>
    cases h
    rw [registered?_eq_find?] at found
    have named := List.find?_some found
    have member := List.mem_of_find?_eq_some found
    obtain ⟨level, _⟩ := List.forall_mem_cons.1 within
    exact ⟨(level s List.mem_cons_self).below member, by simpa using named⟩
  | case4 s rest levels none ih =>
    obtain ⟨level, others⟩ := List.forall_mem_cons.1 within
    obtain ⟨own, later⟩ := List.forall_mem_cons.1 level
    refine ih ?_ h
    rw [List.forall_mem_cons, List.forall_mem_cons]
    exact ⟨fun child member => own.below member, later, others⟩

end Site

/-- A search finds a node of the tree that bears the name. -/
theorem search_found {t : Template} {name : String} {site : Site}
    (h : t.search name = some site) :
    t.at? site.path = some site.template ∧ site.template.name = name := by
  unfold Template.search at h
  dsimp only at h
  split at h
  · next own =>
    cases h
    exact ⟨rfl, own⟩
  · apply Site.firstBelow_found _ h
    rw [List.forall_mem_singleton, List.forall_mem_singleton]
    rfl

end Stencil
