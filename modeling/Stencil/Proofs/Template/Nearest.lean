import Mathlib.Data.List.Basic
import Mathlib.Data.Prod.Lex
import Stencil.Proofs.Template.Search

/-!
# Which block a search finds

* `Site.nearest?`: the search for a name by recursion on the tree;
* `Site.preorder`: the sites at and below a site, in the order of reading;
* `Site.firstBelow_eq`: the pending levels stand for sites that are asked in this order;
* `Template.rank`: where a block stands, by the node around it and then by its index in that node;
* `search_least`: a search is the recursive one, and of all blocks of a name below a node it finds
  the one of the least rank.
-/

namespace Stencil

namespace Site

theorem one_add_blocksIn_le_nodes {s : Site} {sites : List Site} (member : s ∈ sites) :
    1 + Entry.blocksIn s.template.entries ≤ nodes sites := by
  induction member with
  | head => exact Nat.le_add_right _ _
  | tail _ _ ih => exact Nat.le_trans ih (Nat.le_add_left _ _)

theorem blocksIn_lt_of_mem_below {s child : Site} (member : child ∈ s.below) :
    Entry.blocksIn child.template.entries < Entry.blocksIn s.template.entries := by
  have inside := one_add_blocksIn_le_nodes member
  rw [nodes_below] at inside
  omega

/-- The sites at and below a site, each one before those below it. -/
def preorder (s : Site) : List Site :=
  s :: s.below.attach.flatMap fun child => preorder child.1
termination_by Entry.blocksIn s.template.entries
decreasing_by exact blocksIn_lt_of_mem_below child.2

/-- The site itself if it bears the name, else the first of its children that does, and else what
the children lead to, the first of them that leads to anything. -/
def nearest? (name : String) (s : Site) : Option Site :=
  if s.template.name = name then some s
  else
    match s.below.find? fun child => child.template.name == name with
    | some child => some child
    | none => s.below.attach.findSome? fun child => nearest? name child.1
termination_by Entry.blocksIn s.template.entries
decreasing_by exact blocksIn_lt_of_mem_below child.2

theorem preorder_eq (s : Site) : s.preorder = s :: s.below.flatMap preorder := by
  rw [preorder, List.flatMap_subtype (g := preorder) fun _ _ => rfl, List.unattach_attach]

theorem nearest?_eq (name : String) (s : Site) :
    s.nearest? name =
      if s.template.name = name then some s
      else (s.below.find? fun child => child.template.name == name).or
        (s.below.findSome? (nearest? name)) := by
  rw [nearest?, List.findSome?_subtype (g := nearest? name) fun _ _ => rfl, List.unattach_attach]
  cases s.below.find? fun child => child.template.name == name <;> rfl

/-! ## The order of a search -/

/-- The pending levels are asked in reading order, for the children of a site come before all that
was pending behind it. -/
theorem firstBelow_eq (name : String) (levels : List (List Site)) :
    firstBelow name levels =
      (levels.flatten.flatMap preorder).findSome? fun s => s.registered? name := by
  fun_induction firstBelow name levels with
  | case1 => rfl
  | case2 levels ih => rw [ih, List.flatten_cons, List.nil_append]
  | case3 s rest levels child found =>
    rw [List.flatten_cons, List.cons_append, List.flatMap_cons, preorder_eq, List.cons_append,
      List.findSome?_cons_of_isSome (by rw [found]; rfl), found]
  | case4 s rest levels none ih =>
    rw [ih]
    simp only [List.flatten_cons, List.cons_append, List.flatMap_cons, List.flatMap_append,
      preorder_eq s]
    rw [List.findSome?_cons_of_isNone (by rw [none]; rfl)]

/-- A first result among rows joined is the first result that one of the rows has. -/
theorem findSome?_flatMap_eq {α β γ : Type} {f : β → Option γ} {row : α → List β}
    {first : α → Option γ} {items : List α}
    (each : ∀ item ∈ items, (row item).findSome? f = first item) :
    (items.flatMap row).findSome? f = items.findSome? first := by
  induction items with
  | nil => rfl
  | cons item items ih =>
    obtain ⟨own, others⟩ := List.forall_mem_cons.1 each
    rw [List.flatMap_cons, List.findSome?_append, own, ih others, List.findSome?_cons]
    cases first item <;> rfl

/-- Below a site that does not bear the name, the recursive search asks in reading order too. -/
theorem nearest?_eq_findSome? {name : String} {s : Site} (other : s.template.name ≠ name) :
    s.nearest? name = s.preorder.findSome? fun s => s.registered? name := by
  fun_induction nearest? name s with
  | case1 s named => exact absurd named other
  | case2 s _ child found =>
    rw [preorder_eq, List.findSome?_cons_of_isSome (by simp [found]), registered?_eq_find?, found]
  | case3 s _ none ih =>
    have unnamed : ∀ child ∈ s.below, child.template.name ≠ name := by
      simpa using List.find?_eq_none.1 none
    have deeper : ∀ child ∈ s.below,
        (child.preorder.findSome? fun s => s.registered? name) = child.nearest? name :=
      fun child member => (ih ⟨child, member⟩ (unnamed child member)).symm
    rw [preorder_eq, List.findSome?_cons_of_isNone (by simp [none]), findSome?_flatMap_eq deeper,
      List.findSome?_subtype (g := nearest? name) fun _ _ => rfl, List.unattach_attach]

/-- The sites at and below a site are those of the nodes that paths from it lead to. -/
theorem mem_preorder_iff {s other : Site} :
    other ∈ s.preorder ↔
      ∃ path, other.path = s.path ++ path ∧ s.template.at? path = some other.template := by
  fun_induction preorder s with
  | case1 s ih =>
    rw [List.mem_cons, List.mem_flatMap]
    constructor
    · rintro (rfl | ⟨⟨child, member⟩, _, deeper⟩)
      · exact ⟨[], by simp, rfl⟩
      · obtain ⟨path, same, reached⟩ := (ih ⟨child, member⟩).1 deeper
        obtain ⟨i, found, place⟩ := mem_below_iff.1 member
        refine ⟨i :: path, by simp [same, place], ?_⟩
        rw [Template.at?, found]
        exact reached
    · rintro ⟨path, same, reached⟩
      cases path with
      | nil =>
        obtain ⟨place, node⟩ := other
        cases reached
        obtain rfl : place = s.path := by simpa using same
        exact .inl rfl
      | cons i path =>
        rw [Template.at?] at reached
        cases found : s.template.children[i]? with
        | none => simp [found] at reached
        | some node =>
          rw [found] at reached
          have member : ⟨s.path ++ [i], node⟩ ∈ s.below := mem_below_iff.2 ⟨i, found, rfl⟩
          exact .inr ⟨⟨_, member⟩, List.mem_attach _ _,
            (ih ⟨_, member⟩).2 ⟨path, by simp [same], reached⟩⟩

/-- Of two children the one that is found first has the lower index. -/
theorem index_le_of_find? {s child other : Site} {test : Site → Bool}
    (found : s.below.find? test = some child) (member : other ∈ s.below)
    (hit : test other = true) :
    ∃ i j, child.path = s.path ++ [i] ∧ other.path = s.path ++ [j] ∧ i ≤ j := by
  obtain ⟨_, i, bound, rfl, before⟩ := List.find?_eq_some_iff_getElem.1 found
  obtain ⟨j, bound', rfl⟩ := List.getElem_of_mem member
  refine ⟨i, j, by simp [below], by simp [below], ?_⟩
  by_contra earlier
  simpa [hit] using before j (by omega)

/-! ## Sites of a tree -/

variable {t : Template} {name : String}

theorem Within.eq_of_path {s other : Site} (here : s.Within t) (there : other.Within t)
    (same : s.path = other.path) : s = other := by
  obtain ⟨path, node⟩ := s
  obtain ⟨path', node'⟩ := other
  obtain rfl : path = path' := same
  cases here.symm.trans there
  rfl

theorem mem_preorder_root_iff {s : Site} : s ∈ (Site.mk [] t).preorder ↔ s.Within t := by
  simp [mem_preorder_iff, Within]

/-- The site is that of a block of the name below the top of the tree. -/
structure IsBlockOf (t : Template) (name : String) (s : Site) : Prop where
  within : s.Within t
  inside : s.path ≠ []
  named : s.template.name = name

/-- A block below the top stands directly inside some node. -/
theorem isBlockOf_iff {s : Site} :
    s.IsBlockOf t name ↔
      (∃ parent : Site, parent.Within t ∧ s ∈ parent.below) ∧ s.template.name = name := by
  constructor
  · rintro ⟨within, inside, named⟩
    refine ⟨?_, named⟩
    obtain ⟨front, i, path⟩ := (List.eq_nil_or_concat' s.path).resolve_left inside
    rw [Within, path, Template.at?_append] at within
    obtain ⟨node, reached, last⟩ := Option.bind_eq_some_iff.1 within
    refine ⟨⟨front, node⟩, reached, mem_below_iff.2 ⟨i, ?_, path⟩⟩
    rw [Template.at?] at last
    cases found : node.children[i]? with
    | none => simp [found] at last
    | some child => simpa [found, Template.at?] using last
  · rintro ⟨⟨parent, within, member⟩, named⟩
    obtain ⟨i, _, path⟩ := mem_below_iff.1 member
    exact ⟨within.below member, by simp [path], named⟩

end Site

namespace Template

/-- The place of a node among all nodes of the tree, in the order of reading. -/
def readingIndex (t : Template) (path : List Nat) : Nat :=
  ((Site.mk [] t).preorder.map Site.path).idxOf path

/-- Where a block stands: the place of the node around it in the order of reading counts first, and
then the index that the block has in that node. -/
def rank (t : Template) (path : List Nat) : Nat ×ₗ Nat :=
  toLex (t.readingIndex path.dropLast, path.getLastD 0)

theorem rank_concat (t : Template) (path : List Nat) (i : Nat) :
    t.rank (path ++ [i]) = toLex (t.readingIndex path, i) := by
  simp [rank]

variable {t : Template} {name : String}

theorem readingIndex_inj {s other : Site} (here : s.Within t) :
    t.readingIndex s.path = t.readingIndex other.path ↔ s.path = other.path :=
  List.idxOf_inj (List.mem_map_of_mem (Site.mem_preorder_root_iff.2 here))

/-- A block is known by its rank. -/
theorem eq_of_rank {s other : Site} (here : s.IsBlockOf t name) (there : other.IsBlockOf t name)
    (same : t.rank s.path = t.rank other.path) : s = other := by
  obtain ⟨⟨parent, within, member⟩, _⟩ := Site.isBlockOf_iff.1 here
  obtain ⟨⟨parent', _, member'⟩, _⟩ := Site.isBlockOf_iff.1 there
  obtain ⟨i, _, path⟩ := Site.mem_below_iff.1 member
  obtain ⟨j, _, path'⟩ := Site.mem_below_iff.1 member'
  rw [path, path', rank_concat, rank_concat, toLex_inj, Prod.mk.injEq,
    readingIndex_inj within] at same
  apply here.within.eq_of_path there.within
  rw [path, path', same.1, same.2]

theorem search_eq_findSome? (other : t.name ≠ name) :
    t.search name = (Site.mk [] t).preorder.findSome? fun s => s.registered? name := by
  simp [search, other, Site.firstBelow_eq]

/-- What is found bears the name, and no block of the name has a lower rank. -/
theorem least_of_search (other : t.name ≠ name) {site : Site} (found : t.search name = some site) :
    site.IsBlockOf t name ∧
      ∀ rival : Site, rival.IsBlockOf t name → t.rank site.path ≤ t.rank rival.path := by
  rw [search_eq_findSome? other] at found
  obtain ⟨front, parent, back, split, first, before⟩ := List.findSome?_eq_some_iff.1 found
  rw [Site.registered?_eq_find?] at first
  have member := List.mem_of_find?_eq_some first
  have within : parent.Within t := Site.mem_preorder_root_iff.1 (by simp [split])
  have named : site.template.name = name := by simpa using List.find?_some first
  refine ⟨Site.isBlockOf_iff.2 ⟨⟨parent, within, member⟩, named⟩, fun rival block => ?_⟩
  obtain ⟨⟨parent', within', member'⟩, named'⟩ := Site.isBlockOf_iff.1 block
  -- No node with a child of the name stands before the one that was asked successfully.
  have behind : ∀ node : Site, node.Within t → (∃ child ∈ node.below, child.template.name = name) →
      node.path ∉ front.map Site.path := by
    rintro node here ⟨child, inside, bears⟩ earlier
    obtain ⟨twin, place, same⟩ := List.mem_map.1 earlier
    obtain rfl := here.eq_of_path (Site.mem_preorder_root_iff.1 (by simp [split, place])) same.symm
    have missed := before node place
    rw [Site.registered?_eq_find?, List.find?_eq_none] at missed
    simpa [bears] using missed child inside
  have order : t.readingIndex parent.path ≤ t.readingIndex parent'.path := by
    rw [readingIndex, readingIndex, split, List.map_append,
      List.idxOf_append_of_notMem (behind parent within ⟨site, member, named⟩),
      List.idxOf_append_of_notMem (behind parent' within' ⟨rival, member', named'⟩)]
    simp
  obtain ⟨i, _, path⟩ := Site.mem_below_iff.1 member
  obtain ⟨j, _, path'⟩ := Site.mem_below_iff.1 member'
  rw [path, path', rank_concat, rank_concat, Prod.Lex.toLex_le_toLex]
  rcases Nat.lt_or_eq_of_le order with earlier | same
  · exact .inl earlier
  · refine .inr ⟨same, ?_⟩
    obtain rfl := within.eq_of_path within' ((readingIndex_inj within).1 same)
    obtain ⟨i', j', own, own', le⟩ := Site.index_le_of_find? first member' (by simp [named'])
    obtain rfl : i = i' := by simpa [path] using own
    obtain rfl : j = j' := by simpa [path'] using own'
    exact le

/-- Nothing is found exactly if no node of the tree bears the name. -/
theorem search_eq_none_iff :
    t.search name = none ↔ ∀ path node, t.at? path = some node → node.name ≠ name := by
  by_cases own : t.name = name
  · constructor
    · simp [search, own]
    · exact fun unnamed => absurd own (unnamed [] t rfl)
  · rw [search_eq_findSome? own, List.findSome?_eq_none_iff]
    simp only [Site.registered?_eq_find?, List.find?_eq_none, beq_iff_eq]
    constructor
    · intro none path node reached named
      have inside : path ≠ [] := by
        rintro rfl
        cases reached
        exact own named
      have block : Site.IsBlockOf t name ⟨path, node⟩ := ⟨reached, inside, named⟩
      obtain ⟨⟨parent, within, member⟩, _⟩ := Site.isBlockOf_iff.1 block
      exact none parent (Site.mem_preorder_root_iff.2 within) _ member named
    · intro unnamed s member child below
      exact unnamed _ _ ((Site.mem_preorder_root_iff.1 member).below below)

end Template

/-- **A search finds the block nearest to the top.** It finds what the recursive search finds: the
node itself, else the first child of the name, else what is found first in the children, one after
the other. It finds nothing exactly if no node of the tree bears the name. Where the node itself
does not bear it, the block found is the one of the least rank among all blocks of the name. Only if
nothing is found there is an error. -/
theorem search_least (t : Template) (name : String) :
    t.search name = Site.nearest? name ⟨[], t⟩ ∧
    (t.search name = none ↔ ∀ path node, t.at? path = some node → node.name ≠ name) ∧
    (t.name ≠ name → ∀ site, t.search name = some site ↔
      Site.IsBlockOf t name site ∧
        ∀ rival, Site.IsBlockOf t name rival → t.rank site.path ≤ t.rank rival.path) ∧
    (∀ site, t.find name = .ok site ↔ t.search name = some site) ∧
    ∀ e, t.find name = .error e ↔ t.search name = none ∧ e = .notFound name := by
  refine ⟨?_, Template.search_eq_none_iff, fun other site => ⟨Template.least_of_search other, ?_⟩,
    fun site => ?_, fun e => ?_⟩
  · by_cases own : t.name = name
    · rw [Site.nearest?_eq]
      simp [Template.search, own]
    · rw [Template.search_eq_findSome? own, Site.nearest?_eq_findSome? own]
  · rintro ⟨block, least⟩
    cases found : t.search name with
    | none =>
      exact absurd block.named (Template.search_eq_none_iff.1 found _ _ block.within)
    | some first =>
      obtain ⟨block', least'⟩ := Template.least_of_search other found
      rw [Template.eq_of_rank block' block (le_antisymm (least' _ block) (least _ block'))]
  · unfold Template.find
    cases t.search name <;> simp
  · unfold Template.find
    cases t.search name <;> simp [eq_comm]

end Stencil
