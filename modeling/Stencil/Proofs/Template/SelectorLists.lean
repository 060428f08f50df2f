import Mathlib.Data.List.Sort
import Stencil.Proofs.Template.Nearest
import Stencil.Proofs.Template.Selecting

/-!
# Lists of selectors

* `Reordering`: another order of a list, in which the selectors of one name keep their own;
* `renderOnly_congr`, `renderSome_congr`, `renderExcept_congr`: all that counts of a list are the
  selectors of each name in order, the first of each name, and the names;
* `Turn`: a selector's turn at a child, and `turns`, all turns of a list at a node;
* `selectors_act_by_name`: a list acts by name, and not by its overall order;
* `search_of_child`: a child of the name is found before any block further below;
* `single_agrees`: where one selector, a list of it alone and its name select alike.
-/

namespace Stencil

/-- The other list has the selectors at other places, and those of one name in the same order. -/
def Reordering (items others : List Selector) : Prop :=
  ∃ place : Fin items.length ≃ Fin others.length,
    (∀ i, others[place i] = items[i]) ∧
      ∀ i j, i < j → items[i].name = items[j].name → place i < place j

/-- The selectors of a name, in order. -/
def selectorsOf (name : String) (items : List Selector) : List Selector :=
  items.filter fun s => name == s.name

/-- The places of the selectors of a name, in order. -/
def placesOf (name : String) (items : List Selector) : List (Fin items.length) :=
  (List.finRange items.length).filter fun i => name == items[i].name

theorem placesOf_increasing (name : String) (items : List Selector) :
    (placesOf name items).Pairwise (· < ·) :=
  (List.pairwise_lt_finRange _).filter _

theorem mem_placesOf_iff {name : String} {items : List Selector} {i : Fin items.length} :
    i ∈ placesOf name items ↔ name = items[i].name := by
  simp [placesOf]

theorem map_placesOf (name : String) (items : List Selector) :
    (placesOf name items).map (fun i => items[i]) = selectorsOf name items := by
  have whole : (List.finRange items.length).map (fun i => items[i]) = items :=
    List.map_get_finRange items
  have filtered := congrArg (selectorsOf name) whole
  rw [selectorsOf, List.filter_map] at filtered
  exact filtered

/-- A reordering has the same selectors of every name, in the same order: their places, taken to the
other list, still increase. -/
theorem Reordering.selectorsOf_eq {items others : List Selector} (h : Reordering items others)
    (name : String) : selectorsOf name others = selectorsOf name items := by
  obtain ⟨place, same, order⟩ := h
  have increasing : ((placesOf name items).map place).Pairwise (· < ·) := by
    rw [List.pairwise_map]
    apply (placesOf_increasing name items).imp_of_mem
    intro i j first second lower
    exact order i j lower ((mem_placesOf_iff.1 first).symm.trans (mem_placesOf_iff.1 second))
  have members : ∀ j, j ∈ placesOf name others ↔ j ∈ (placesOf name items).map place := by
    intro j
    obtain ⟨i, rfl⟩ := place.surjective j
    rw [List.mem_map_of_injective place.injective, mem_placesOf_iff, mem_placesOf_iff, same]
  have moved := (placesOf_increasing name others).eq_of_mem_iff increasing members
  rw [← map_placesOf, ← map_placesOf, moved, List.map_map]
  exact List.map_congr_left fun i _ => same i

/-! ## What counts of a list -/

section
variable {items others : List Selector}

theorem find?_eq_head?_selectorsOf (name : String) (items : List Selector) :
    items.find? (fun s => s.name == name) = (selectorsOf name items).head? := by
  rw [selectorsOf, List.head?_filter]
  congr 1
  funext s
  exact Bool.beq_comm

theorem mem_names_iff {name : String} :
    name ∈ items.map Selector.name ↔ (items.find? fun s => s.name == name).isSome := by
  simp

variable (t : Template) (context : Context)

theorem renderOnly_congr (same : ∀ name, selectorsOf name others = selectorsOf name items) :
    t.renderOnly (.list others) context = t.renderOnly (.list items) context := by
  simp only [selectorsOf] at same
  simp only [Template.renderOnly, same]

/-- The first selectors tell whether there are any. -/
theorem eq_nil_of_first (same : ∀ name, others.find? (fun s => s.name == name) =
    items.find? fun s => s.name == name) (none : items = []) : others = [] := by
  cases others with
  | nil => rfl
  | cons s rest =>
    have first := same s.name
    simp [none] at first

theorem renderSome_congr (same : ∀ name, others.find? (fun s => s.name == name) =
    items.find? fun s => s.name == name) :
    t.renderSome (.list others) context = t.renderSome (.list items) context := by
  by_cases none : items = []
  · rw [eq_nil_of_first same none, none]
  · have some : others ≠ [] := fun empty =>
      none (eq_nil_of_first (fun name => (same name).symm) empty)
    rw [renderSome_eq t context some, renderSome_eq t context none]
    congr 2
    funext e
    cases e with
    | text run => rfl
    | expression name => rfl
    | block name body =>
      rw [Entry.portion, Entry.portion, Template.contextFor, Template.contextFor, same]

theorem renderExcept_congr
    (same : ∀ name, name ∈ items.map Selector.name ↔ name ∈ others.map Selector.name) :
    t.renderExcept (.list others) context = t.renderExcept (.list items) context := by
  have kept : Template.isNamed (others.map Selector.name) =
      Template.isNamed (items.map Selector.name) := by
    funext e
    cases e with
    | text run => rfl
    | expression name => rfl
    | block name body =>
      rw [Template.isNamed, Template.isNamed, Bool.eq_iff_iff, List.contains_iff_mem,
        List.contains_iff_mem]
      exact (same name).symm
  cases items with
  | nil =>
    have empty : others.map Selector.name = [] := by
      apply List.eq_nil_iff_forall_not_mem.2
      intro name member
      cases (same name).2 member
    rw [List.map_eq_nil_iff.1 empty]
  | cons s items =>
    cases others with
    | nil => cases (same s.name).1 List.mem_cons_self
    | cons s' others =>
      simp only [Template.renderExcept, Selection.selectors]
      rw [kept]

end

/-! ## Turns -/

/-- A child and a selector, each with its place. -/
structure Turn where
  child : Template
  place : Nat
  selector : Selector
  rank : Nat

namespace Turn

/-- The child stands at its place in the node and the selector at its own in the list, and both bear
one name. -/
structure IsDue (t : Template) (items : List Selector) (turn : Turn) : Prop where
  child : t.children[turn.place]? = some turn.child
  listed : items[turn.rank]? = some turn.selector
  named : turn.child.name = turn.selector.name

/-- Children have their turns in the order of the tree, and for one child it is the order of the
selectors that counts. -/
def Before (turn later : Turn) : Prop :=
  turn.place < later.place ∨ turn.place = later.place ∧ turn.rank < later.rank

def outcome (context : Context) (turn : Turn) : Except Error String :=
  turn.child.render (turn.selector.contextOr context)

end Turn

/-- All turns of a list of selectors at the children of a node. -/
def turns (t : Template) (items : List Selector) : List Turn :=
  t.children.zipIdx.flatMap fun child =>
    (items.zipIdx.filter fun s => child.1.name == s.1.name).map fun s =>
      ⟨child.1, child.2, s.1, s.2⟩

theorem zipIdx_increasing {α : Type} (xs : List α) :
    xs.zipIdx.Pairwise fun x y => x.2 < y.2 := by
  have indices : (xs.zipIdx.map Prod.snd).Pairwise (· < ·) := by
    rw [List.zipIdx_map_snd]
    exact List.pairwise_lt_range'
  exact List.pairwise_map.1 indices

section
variable {t : Template} {items : List Selector}

theorem mem_turns_iff {turn : Turn} : turn ∈ turns t items ↔ turn.IsDue t items := by
  simp only [turns, List.mem_flatMap, List.mem_map, List.mem_filter, Prod.exists,
    List.mem_zipIdx_iff_getElem?, beq_iff_eq]
  constructor
  · rintro ⟨child, place, found, s, rank, ⟨listed, named⟩, rfl⟩
    exact ⟨found, listed, named⟩
  · rintro ⟨found, listed, named⟩
    exact ⟨_, _, found, _, _, ⟨listed, named⟩, rfl⟩

theorem turns_ordered : (turns t items).Pairwise Turn.Before := by
  rw [turns, List.pairwise_flatMap]
  constructor
  · intro child _
    rw [List.pairwise_map]
    apply ((zipIdx_increasing items).filter _).imp
    intro s s' lower
    exact .inr ⟨rfl, lower⟩
  · apply (zipIdx_increasing t.children).imp
    intro child child' lower turn member later member'
    obtain ⟨_, _, rfl⟩ := List.mem_map.1 member
    obtain ⟨_, _, rfl⟩ := List.mem_map.1 member'
    exact .inl lower

/-- A list of selectors renders its turns. -/
theorem renderOnly_eq_turns (context : Context) :
    t.renderOnly (.list items) context = concat ((turns t items).map (Turn.outcome context)) := by
  have ofChild (child : Template) (place : Nat) :
      ((items.zipIdx.filter fun s => child.name == s.1.name).map fun s =>
          Turn.outcome context ⟨child, place, s.1, s.2⟩) =
        (items.filter fun s => child.name == s.name).map fun s =>
          child.render (s.contextOr context) := by
    have whole := congrArg (List.filter fun s => child.name == s.name)
      (List.zipIdx_map_fst 0 items)
    rw [List.filter_map] at whole
    rw [← whole, List.map_map]
    rfl
  have ofAll := congrArg (List.flatMap fun child =>
    (items.filter fun s => child.name == s.name).map fun s => child.render (s.contextOr context))
    (List.zipIdx_map_fst 0 t.children)
  rw [List.flatMap_map] at ofAll
  rw [Template.renderOnly, turns, List.map_flatMap]
  simp only [List.map_map, Function.comp_def, ofChild]
  rw [ofAll]

end

/-- **A list of selectors acts by name.** A reordering that keeps the order of the selectors of each
name selects alike, down to the first error. What is left out depends on the names alone. Where
everything is rendered, a selector behind one of its name has no say. The selected blocks are
rendered once for each child and each selector of its name, in the order of the children first and
of the selectors second. -/
theorem selectors_act_by_name (t : Template) (items : List Selector) (context : Context) :
    (∀ others, Reordering items others →
      t.renderOnly (.list others) context = t.renderOnly (.list items) context ∧
        t.renderSome (.list others) context = t.renderSome (.list items) context ∧
          t.renderExcept (.list others) context = t.renderExcept (.list items) context) ∧
    (∀ others : List Selector,
      (∀ name, name ∈ items.map Selector.name ↔ name ∈ others.map Selector.name) →
        t.renderExcept (.list others) context = t.renderExcept (.list items) context) ∧
    (∀ before s after, items = before ++ s :: after → s.name ∈ before.map Selector.name →
      t.renderSome (.list (before ++ after)) context = t.renderSome (.list items) context) ∧
    ∃ due : List Turn, due.Pairwise Turn.Before ∧ (∀ turn, turn ∈ due ↔ turn.IsDue t items) ∧
      t.renderOnly (.list items) context = concat (due.map (Turn.outcome context)) := by
  refine ⟨?_, fun others same => renderExcept_congr t context same, ?_,
    turns t items, turns_ordered, fun turn => mem_turns_iff, renderOnly_eq_turns context⟩
  · intro others reordered
    have same := reordered.selectorsOf_eq
    have first : ∀ name, others.find? (fun s => s.name == name) =
        items.find? fun s => s.name == name := by
      intro name
      rw [find?_eq_head?_selectorsOf, find?_eq_head?_selectorsOf, same]
    refine ⟨renderOnly_congr t context same, renderSome_congr t context first,
      renderExcept_congr t context ?_⟩
    intro name
    rw [mem_names_iff, mem_names_iff, first]
  · rintro before s after rfl listed
    apply renderSome_congr t context
    intro name
    rw [List.find?_append, List.find?_append, List.find?_cons]
    by_cases named : s.name = name
    · subst named
      obtain ⟨earlier, found⟩ := Option.isSome_iff_exists.1 (mem_names_iff.1 listed)
      rw [found]
      rfl
    · rw [beq_false_of_ne named]

/-- A selector between two of another name moves behind them. -/
theorem selectors_act_by_name_of_three :
    let t : Template :=
      ⟨rootName, [.block "a" [.expression "x"], .text "-", .block "b" [.expression "x"]]⟩
    let one : Selector := ⟨"b", .dict [(.text "x", .int 1)]⟩
    let two : Selector := ⟨"b", .dict [(.text "x", .int 2)]⟩
    let context : Context := .dict [(.text "x", .int 0)]
    Reordering [one, .bare "a", two] [one, two, .bare "a"] ∧
      t.renderOnly (.list [one, two, .bare "a"]) context =
        t.renderOnly (.list [one, .bare "a", two]) context ∧
      (∀ name, name ∈ [one, .bare "a", two].map Selector.name ↔
        name ∈ [two, .bare "a"].map Selector.name) ∧
      t.renderExcept (.list [two, .bare "a"]) context =
        t.renderExcept (.list [one, .bare "a", two]) context ∧
      two.name ∈ [one, .bare "a"].map Selector.name ∧
      t.renderSome (.list [one, .bare "a"]) context =
        t.renderSome (.list [one, .bare "a", two]) context := by
  intro t one two context
  have reordered : Reordering [one, .bare "a", two] [one, two, .bare "a"] := by
    refine ⟨Equiv.swap (1 : Fin 3) 2, ?_, by decide⟩
    intro i
    match i with
    | 0 | 1 | 2 => rfl
  have names : ∀ name, name ∈ [one, .bare "a", two].map Selector.name ↔
      name ∈ [two, .bare "a"].map Selector.name := by
    simp only [one, two, Selector.bare, List.map_cons, List.map_nil, List.mem_cons,
      List.not_mem_nil, or_false]
    tauto
  have listed : two.name ∈ [one, .bare "a"].map Selector.name := List.mem_cons_self
  obtain ⟨alike, left, later, _⟩ := selectors_act_by_name t [one, .bare "a", two] context
  exact ⟨reordered, (alike _ reordered).1, names, left _ names, listed,
    later [one, .bare "a"] two [] rfl listed⟩

/-! ## One selector -/

namespace Template

/-- The children that bear a name, in order. -/
def childrenOf (t : Template) (name : String) : List Template :=
  t.children.filter fun child => child.name == name

variable {t : Template}

theorem mem_childrenOf_iff {name : String} {child : Template} :
    child ∈ t.childrenOf name ↔ child ∈ t.children ∧ child.name = name := by
  simp [childrenOf]

theorem length_childrenOf (t : Template) (name : String) :
    (t.childrenOf name).length = (t.children.map Template.name).count name := by
  rw [childrenOf, ← List.countP_eq_length_filter, List.count_eq_countP, List.countP_map]
  rfl

/-- A list of one selector renders the children of its name. -/
theorem renderOnly_singleton (t : Template) (s : Selector) (context : Context) :
    t.renderOnly (.list [s]) context =
      concat ((t.childrenOf s.name).map fun child => child.render (s.contextOr context)) := by
  rw [renderOnly, childrenOf]
  congr 1
  induction t.children with
  | nil => rfl
  | cons child rest ih =>
    by_cases named : child.name = s.name
    · simp [named, ih]
    · simp [named, ih]

/-- The only child of a name is found, before any block of that name further below. -/
theorem search_of_child {name : String} {child : Template} (other : t.name ≠ name)
    (only : t.childrenOf name = [child]) :
    ∃ site, t.search name = some site ∧ site.template = child := by
  have own : child ∈ t.children ∧ child.name = name := by
    rw [← mem_childrenOf_iff, only]
    exact List.mem_singleton_self _
  have alone : ∀ site ∈ (Site.mk [] t).below, site.template.name = name →
      site.template = child := by
    intro site member named
    obtain ⟨i, found, _⟩ := Site.mem_below_iff.1 member
    have listed : site.template ∈ t.childrenOf name :=
      mem_childrenOf_iff.2 ⟨List.mem_of_getElem? found, named⟩
    rw [only] at listed
    exact List.mem_singleton.1 listed
  have asked := search_eq_findSome? other
  rw [Site.preorder_eq] at asked
  cases found : (Site.mk [] t).below.find? fun site => site.template.name == name with
  | none =>
    obtain ⟨i, place⟩ := List.getElem?_of_mem own.1
    have there : (Site.mk [i] child) ∈ (Site.mk [] t).below :=
      Site.mem_below_iff.2 ⟨i, place, rfl⟩
    have missed := List.find?_eq_none.1 found _ there
    simp [own.2] at missed
  | some site =>
    rw [List.findSome?_cons_of_isSome (by simp [found]), Site.registered?_eq_find?, found] at asked
    have named := List.find?_some found
    exact ⟨site, asked, alone site (List.mem_of_find?_eq_some found) (beq_iff_eq.1 named)⟩

end Template

/-- **One selector selects like the list of it alone and like its name, where it should.** What is
left out and what is rendered with it is the same for the selector and for the list. Alone, it is
the block that its name finds, under its own context or else the shared one, and where the name
finds nothing it is no text, while rendering by the name fails. The list takes children only: it
agrees with the selector if the node bears another name and one child bears that of the selector,
and it has no text if no child does, whatever blocks are further below. -/
theorem single_agrees (t : Template) (s : Selector) (context : Context) :
    t.renderExcept (.single s) context = t.renderExcept (.list [s]) context ∧
    t.renderSome (.single s) context = t.renderSome (.list [s]) context ∧
    (∀ site, t.search s.name = some site →
      t.renderOnly (.single s) context =
        t.renderWith (.text s.name) (s.contextOr context)) ∧
    (t.search s.name = none →
      t.renderOnly (.single s) context = .ok "" ∧
        t.renderWith (.text s.name) (s.contextOr context) = .error (.notFound s.name)) ∧
    (t.name ≠ s.name → (t.children.map Template.name).count s.name = 1 →
      t.renderOnly (.single s) context = t.renderOnly (.list [s]) context) ∧
    (s.name ∉ t.children.map Template.name → t.renderOnly (.list [s]) context = .ok "") := by
  refine ⟨rfl, rfl, ?_, ?_, ?_, ?_⟩
  · intro site found
    have finds : t.find s.name = .ok site := by rw [Template.find, found]
    simp only [Template.renderOnly, found, Template.renderWith, Template.renderBlock, finds]
    rfl
  · intro none
    have lost : t.find s.name = .error (.notFound s.name) := by rw [Template.find, none]
    simp only [Template.renderOnly, none, Template.renderWith, Template.renderBlock, lost]
    exact ⟨trivial, rfl⟩
  · intro other once
    rw [← Template.length_childrenOf, List.length_eq_one_iff] at once
    obtain ⟨child, only⟩ := once
    obtain ⟨site, found, rfl⟩ := Template.search_of_child other only
    rw [Template.renderOnly_singleton, only]
    simp only [Template.renderOnly, found, List.map_cons, List.map_nil, concat_cons, concat_nil]
    cases site.template.render (s.contextOr context) <;> simp [Except.bind, Except.map]
  · intro absent
    have nothing : t.childrenOf s.name = [] := by
      apply List.eq_nil_of_length_eq_zero
      rw [Template.length_childrenOf]
      exact List.count_eq_zero_of_not_mem absent
    rw [Template.renderOnly_singleton, nothing]
    rfl

/-- A block inside another one, a child with an own context, and a name that is not there. -/
theorem single_agrees_of_nested :
    let t : Template :=
      ⟨rootName, [.block "a" [.block "b" [.expression "x"]], .block "c" [.expression "x"]]⟩
    let child : Selector := ⟨"c", .dict [(.text "x", .int 2)]⟩
    let context : Context := .dict [(.text "x", .int 1)]
    t.search "b" = some ⟨[0, 0], ⟨"b", [.expression "x"]⟩⟩ ∧
      t.renderOnly (.single (.bare "b")) context = t.renderWith (.text "b") context ∧
      "b" ∉ t.children.map Template.name ∧
      t.renderOnly (.list [.bare "b"]) context = .ok "" ∧
      t.name ≠ child.name ∧ (t.children.map Template.name).count child.name = 1 ∧
      t.renderOnly (.single child) context = t.renderOnly (.list [child]) context ∧
      t.search "d" = none ∧ t.renderOnly (.single (.bare "d")) context = .ok "" := by
  intro t child context
  have found : t.search "b" = some ⟨[0, 0], ⟨"b", [.expression "x"]⟩⟩ := by
    simp [t, Template.search, Site.firstBelow, Site.below, Template.children, Entry.template?,
      rootName]
  have missing : t.search "d" = none := by
    simp [t, Template.search, Site.firstBelow, Site.below, Template.children, List.filterMap_cons,
      Entry.template?, rootName]
  have absent : "b" ∉ t.children.map Template.name := by decide
  obtain ⟨_, _, byName, _, _, nothing⟩ := single_agrees t (.bare "b") context
  obtain ⟨_, _, _, _, agrees, _⟩ := single_agrees t child context
  obtain ⟨_, _, _, lost, _, _⟩ := single_agrees t (.bare "d") context
  exact ⟨found, byName _ found, absent, nothing absent, by decide, by decide,
    agrees (by decide) (by decide), missing, (lost missing).1⟩

end Stencil
