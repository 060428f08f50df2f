import Stencil.Proofs.Template.Operations

/-!
# What an operation takes from the shared context

* `Entry.Mentions`: the names of the expressions in a row of entries, at any depth;
* `Operation.Shares`: the names that an operation renders under the shared context;
* `shares_of_mem_slots`: every slot without an own context has such a name;
* `Operation.outcome_of_agree`: shared contexts that agree on these names give the same outcome.
-/

namespace Stencil

/-- The name is that of an expression among the entries or in a block among them. -/
def Entry.Mentions (entries : List Entry) (name : String) : Prop :=
  .expression name ∈ Entry.lexemes entries

/-- Names that an operation renders under the shared context. Whole nodes stand under it, and so do
the blocks that bare selectors take. Leaving children out puts all the others under it, and an
overriding selection those whose first selector is bare or that have none. The expressions of the
node itself are then always under it. -/
inductive Operation.Shares (t : Template) : Operation → String → Prop
  | whole {name : String} (shown : Entry.Mentions t.entries name) : Shares t .whole name
  | block {block name : String} {site : Site} (found : t.search block = some site)
      (shown : Entry.Mentions site.template.entries name) : Shares t (.block block) name
  | onlySingle {s : Selector} {name : String} {site : Site} (bare : s.context = .null)
      (found : t.search s.name = some site) (shown : Entry.Mentions site.template.entries name) :
      Shares t (.only (.single s)) name
  | onlyList {items : List Selector} {s : Selector} {name : String} {child : Template}
      (member : child ∈ t.children) (listed : s ∈ items) (named : s.name = child.name)
      (bare : s.context = .null) (shown : Entry.Mentions child.entries name) :
      Shares t (.only (.list items)) name
  | exceptOwn {selection : Selection} {name : String} (own : .expression name ∈ t.entries) :
      Shares t (.except selection) name
  | exceptChild {selection : Selection} {name : String} {child : Template}
      (member : child ∈ t.children) (unnamed : ∀ s ∈ selection.selectors, s.name ≠ child.name)
      (shown : Entry.Mentions child.entries name) : Shares t (.except selection) name
  | overridingOwn {selection : Selection} {name : String} (inhabited : selection.selectors ≠ [])
      (own : .expression name ∈ t.entries) : Shares t (.overriding selection) name
  | overridingChild {selection : Selection} {name : String} {child : Template}
      (inhabited : selection.selectors ≠ []) (member : child ∈ t.children)
      (bare : ∀ s, selection.selectors.find? (fun s => s.name == child.name) = some s →
        s.context = .null)
      (shown : Entry.Mentions child.entries name) : Shares t (.overriding selection) name

/-! ## Names and slots -/

theorem Selector.own?_eq_none_iff {s : Selector} : s.own? = none ↔ s.context = .null := by
  obtain ⟨name, context⟩ := s
  cases context <;> simp [own?]

namespace Entry

/-- The occurrences among the slots of entries are their expressions, all under one context. -/
theorem mem_slots_iff {own? : Option Context} {entries : List Entry} {o : Occurrence} :
    .value o ∈ slots own? entries ↔ o.own? = own? ∧ Mentions entries o.name := by
  unfold Mentions
  induction entries using row_induction with
  | nil => simp [slots]
  | text run rest ih => simp [slots, ih]
  | expression name rest ih =>
    obtain ⟨shown, own⟩ := o
    simp only [slots, List.mem_cons, ih, lexemes, Slot.value.injEq, Occurrence.mk.injEq,
      Lexeme.expression.injEq]
    tauto
  | block name body rest ihBody ih =>
    simp only [slots, List.mem_append, ihBody, ih, lexemes, List.mem_cons, reduceCtorEq, false_or]
    exact and_or_left.symm

/-- What entries mention stands in one of them or in a block among them. -/
theorem mentions_iff {entries : List Entry} {name : String} :
    Mentions entries name ↔ .expression name ∈ entries ∨
      ∃ block body, .block block body ∈ entries ∧ Mentions body name := by
  unfold Mentions
  induction entries with
  | nil => simp [lexemes]
  | cons e rest ih =>
    cases e with
    | text run => simp [lexemes, ih]
    | expression shown =>
      simp only [lexemes, List.mem_cons, ih, Lexeme.expression.injEq, expression.injEq,
        reduceCtorEq, false_or, or_assoc]
    | block block body =>
      simp only [lexemes, List.mem_append, List.mem_cons, ih, Entry.block.injEq, reduceCtorEq,
        false_or]
      constructor
      · rintro (inside | own | ⟨other, others, member, deeper⟩)
        · exact .inr ⟨block, body, .inl ⟨rfl, rfl⟩, inside⟩
        · exact .inl own
        · exact .inr ⟨other, others, .inr member, deeper⟩
      · rintro (own | ⟨other, others, ⟨rfl, rfl⟩ | member, deeper⟩)
        · exact .inr (.inl own)
        · exact .inl deeper
        · exact .inr (.inr ⟨other, others, member, deeper⟩)

end Entry

theorem Template.mem_children {t : Template} {block : String} {body : List Entry}
    (member : .block block body ∈ t.entries) : ⟨block, body⟩ ∈ t.children :=
  List.mem_filterMap.2 ⟨_, member, rfl⟩

/-- Whatever an operation visits without an own context it takes from the shared one. -/
theorem shares_of_mem_slots {t : Template} {op : Operation} {name : String}
    (visited : .value ⟨name, none⟩ ∈ op.slots t) : op.Shares t name := by
  cases op with
  | whole =>
    obtain ⟨_, shown⟩ := Entry.mem_slots_iff.1 visited
    exact .whole shown
  | block block =>
    cases found : t.search block with
    | none => simp [Operation.slots, found] at visited
    | some site =>
      rw [Operation.slots, found] at visited
      obtain ⟨_, shown⟩ := Entry.mem_slots_iff.1 visited
      exact .block found shown
  | only selection =>
    cases selection with
    | single s =>
      cases found : t.search s.name with
      | none => simp [Operation.slots, found] at visited
      | some site =>
        rw [Operation.slots, found] at visited
        obtain ⟨bare, shown⟩ := Entry.mem_slots_iff.1 visited
        exact .onlySingle (Selector.own?_eq_none_iff.1 bare.symm) found shown
    | list items =>
      simp only [Operation.slots, List.mem_flatMap, List.mem_filter, beq_iff_eq] at visited
      obtain ⟨child, member, s, ⟨listed, named⟩, visited⟩ := visited
      obtain ⟨bare, shown⟩ := Entry.mem_slots_iff.1 visited
      exact .onlyList member listed named.symm (Selector.own?_eq_none_iff.1 bare.symm) shown
  | except selection =>
    rw [Operation.slots] at visited
    cases listed : selection.selectors with
    | nil => simp [listed] at visited
    | cons s items =>
      rw [listed] at visited
      obtain ⟨_, shown⟩ := Entry.mem_slots_iff.1 visited
      rcases Entry.mentions_iff.1 shown with own | ⟨block, body, kept, deeper⟩
      · exact .exceptOwn (List.mem_of_mem_filter own)
      · obtain ⟨member, unselected⟩ := List.mem_filter.1 kept
        refine .exceptChild (Template.mem_children member) ?_ deeper
        simpa [Entry.isSelected, listed] using unselected
  | overriding selection =>
    rw [Operation.slots] at visited
    cases listed : selection.selectors with
    | nil => simp [listed] at visited
    | cons s items =>
      have inhabited : selection.selectors ≠ [] := by simp [listed]
      rw [listed] at visited
      obtain ⟨e, member, visited⟩ := List.mem_flatMap.1 visited
      cases e with
      | text run => simp [Entry.slotsFor, Entry.slots] at visited
      | expression shown =>
        obtain rfl : name = shown := by simpa [Entry.slotsFor, Entry.slots] using visited
        exact .overridingOwn inhabited member
      | block block body =>
        obtain ⟨bare, shown⟩ := Entry.mem_slots_iff.1 visited
        refine .overridingChild inhabited (Template.mem_children member) ?_ shown
        intro first found
        rw [listed] at found
        rw [found, Option.bind_some] at bare
        exact Selector.own?_eq_none_iff.1 bare.symm

/-! ## Two shared contexts -/

/-- Slots are filled alike if the contexts agree on the names that stand under no own context. -/
theorem Slot.fillAll_congr {slots : List Slot} {shared other : Context}
    (agree : ∀ name, .value ⟨name, none⟩ ∈ slots → lookup shared name = lookup other name) :
    fillAll shared slots = fillAll other slots := by
  unfold fillAll
  congr 1
  apply List.map_congr_left
  intro slot visited
  cases slot with
  | text run => rfl
  | value o =>
    obtain ⟨name, own?⟩ := o
    cases own? with
    | none => exact agree name visited
    | some own => rfl

/-- **An operation reads nothing of the shared context but the names that it renders under it.** If
two shared contexts, each nothing or a dictionary, give these names the same values, the outcomes
are the same, be they texts or errors. -/
theorem Operation.outcome_of_agree (op : Operation) (t : Template) {shared other : Context}
    (dictionary : shared.IsShared) (dictionary' : other.IsShared)
    (agree : ∀ name, op.Shares t name → shared.valueOf name = other.valueOf name) :
    op.outcome t shared = op.outcome t other := by
  by_cases lost : ∃ name, op.Misses t name
  · obtain ⟨name, missing⟩ := lost
    rw [outcome_of_misses missing, outcome_of_misses missing]
  · have found : ∀ name, ¬ op.Misses t name := fun name missing => lost ⟨name, missing⟩
    rw [outcome_eq t dictionary found, outcome_eq t dictionary' found]
    apply Slot.fillAll_congr
    intro name visited
    rw [lookup_eq_stringify dictionary, lookup_eq_stringify dictionary',
      agree name (shares_of_mem_slots visited)]

/-- Of the names `x` and `y` only the first is rendered under the shared context, the other one in a
block with a context of its own and in one that is left out. -/
theorem Operation.outcome_of_agree_of_own :
    let t : Template := ⟨rootName, [.expression "x", .block "a" [.text "-", .expression "y"]]⟩
    let own : Context := .dict [(.text "y", .int 3)]
    let shared : Context := .dict [(.text "x", .int 1), (.text "y", .int 2)]
    let other : Context := .dict [(.text "y", .list []), (.text "x", .int 1)]
    let overridden : Operation := .overriding (.single ⟨"a", own⟩)
    overridden.outcome t shared = overridden.outcome t other ∧
      ∀ name, overridden.Shares t name ↔ name = "x" := by
  intro t own shared other overridden
  have only : ∀ name, overridden.Shares t name → name = "x" := by
    intro name shares
    dsimp only [overridden] at shares
    cases shares with
    | overridingOwn _ own => simpa [t] using own
    | overridingChild _ member bare _ =>
      obtain rfl := List.mem_singleton.1 member
      exact absurd (bare ⟨"a", own⟩ rfl) (by simp [own])
  have both : overridden.outcome t shared = overridden.outcome t other := by
    apply outcome_of_agree overridden t (.inr ⟨_, rfl⟩) (.inr ⟨_, rfl⟩)
    intro name shares
    obtain rfl := only name shares
    rfl
  refine ⟨both, fun name => ⟨only name, ?_⟩⟩
  rintro rfl
  exact .overridingOwn (List.cons_ne_nil _ _) (List.mem_cons_self)

end Stencil
