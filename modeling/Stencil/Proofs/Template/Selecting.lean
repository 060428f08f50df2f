import Mathlib.Data.List.Nodup
import Stencil.Proofs.Template.Rendering

/-!
# Rendering selected blocks

* `Portion`: the outcome of one entry of a node under a list of selectors;
* `Entry.isSelected`: whether an entry is a block that a selector names;
* `renderSome_eq`, `renderOnly_eq`, `renderExcept_eq`: the renderings of a node are the portions of
  all its entries, of the selected ones and of the others, in the order of the entries;
* `renderSome_merges`: rendering everything merges the selected blocks and the rest.
-/

namespace Stencil

/-- Texts and expressions are rendered under the shared context. So is a block, unless the selector
of its name has a context of its own. -/
inductive Portion (items : List Selector) (context : Context) : Entry → Except Error String → Prop
  | text {run : String} : Portion items context (.text run) (.ok run)
  | expression {name : String} : Portion items context (.expression name) (lookup context name)
  | own {name : String} {body : List Entry} {s : Selector} (listed : s ∈ items)
      (named : s.name = name) (own : s.context ≠ .null) :
      Portion items context (.block name body) (Template.render ⟨name, body⟩ s.context)
  | shared {name : String} {body : List Entry}
      (bare : ∀ s ∈ items, s.name = name → s.context = .null) :
      Portion items context (.block name body) (Template.render ⟨name, body⟩ context)

namespace Entry

/-- Whether the entry is a block that a selector names. -/
def isSelected (items : List Selector) : Entry → Bool
  | .block name _ => items.any fun s => s.name == name
  | _ => false

/-- The outcome of an entry, found by the first selector of its name. -/
def portion (items : List Selector) (context : Context) : Entry → Except Error String
  | .block name body => Template.render ⟨name, body⟩ (Template.contextFor items context name)
  | e => e.render context

end Entry

/-! ## The selector of a name -/

section
variable {items : List Selector} {context : Context}

theorem Selector.contextOr_of_null {s : Selector} (h : s.context = .null) (context : Context) :
    s.contextOr context = context := by
  simp [contextOr, h]

theorem Selector.contextOr_of_ne_null {s : Selector} (h : s.context ≠ .null) (context : Context) :
    s.contextOr context = s.context := by
  unfold contextOr
  split
  · next null => exact absurd null h
  · rfl

theorem of_find?_name {name : String} {s : Selector}
    (h : items.find? (fun s => s.name == name) = some s) : s ∈ items ∧ s.name = name := by
  have named := List.find?_some h
  exact ⟨List.mem_of_find?_eq_some h, beq_iff_eq.1 named⟩

/-- Of distinct names each has one selector at most. -/
theorem eq_of_same_name (distinct : (items.map Selector.name).Nodup) {s s' : Selector}
    (listed : s ∈ items) (listed' : s' ∈ items) (same : s.name = s'.name) : s = s' :=
  List.inj_on_of_nodup_map distinct listed listed' same

/-- All selectors of a name are the first one of that name. -/
theorem filter_eq_find? (distinct : (items.map Selector.name).Nodup) (name : String) :
    items.filter (fun s => name == s.name) = (items.find? fun s => s.name == name).toList := by
  induction items with
  | nil => rfl
  | cons s items ih =>
    obtain ⟨fresh, distinct⟩ := List.nodup_cons.1 distinct
    by_cases named : s.name = name
    · have others : items.filter (fun s => name == s.name) = [] := by
        rw [List.filter_eq_nil_iff]
        intro s' listed same
        apply fresh
        rw [named, beq_iff_eq.1 same]
        exact List.mem_map_of_mem listed
      simp [named, others]
    · simp [named, Ne.symm named, ih distinct]

end

/-! ## Portions -/

section
variable {items : List Selector}

theorem contextFor_of_mem (distinct : (items.map Selector.name).Nodup) {s : Selector}
    (listed : s ∈ items) (context : Context) :
    Template.contextFor items context s.name = s.contextOr context := by
  unfold Template.contextFor
  cases found : items.find? fun s' => s'.name == s.name with
  | none => simpa using List.find?_eq_none.1 found s listed
  | some s' =>
    obtain ⟨listed', same⟩ := of_find?_name found
    rw [eq_of_same_name distinct listed' listed same]

theorem contextFor_of_bare {name : String} (bare : ∀ s ∈ items, s.name = name → s.context = .null)
    (context : Context) : Template.contextFor items context name = context := by
  unfold Template.contextFor
  cases found : items.find? fun s => s.name == name with
  | none => rfl
  | some s =>
    obtain ⟨listed, named⟩ := of_find?_name found
    exact Selector.contextOr_of_null (bare s listed named) context

/-- Every entry has one portion. -/
theorem portion_iff (distinct : (items.map Selector.name).Nodup) {context : Context} {e : Entry}
    {r : Except Error String} : Portion items context e r ↔ e.portion items context = r := by
  constructor
  · intro h
    cases h with
    | text => rfl
    | expression => rfl
    | own listed named own =>
      subst named
      rw [Entry.portion, contextFor_of_mem distinct listed, Selector.contextOr_of_ne_null own]
    | shared bare => rw [Entry.portion, contextFor_of_bare bare]
  · rintro rfl
    cases e with
    | text run => exact .text
    | expression name => exact .expression
    | block name body =>
      by_cases own : ∃ s ∈ items, s.name = name ∧ s.context ≠ .null
      · obtain ⟨s, listed, rfl, own⟩ := own
        rw [Entry.portion, contextFor_of_mem distinct listed, Selector.contextOr_of_ne_null own]
        exact .own listed rfl own
      · have bare : ∀ s ∈ items, s.name = name → s.context = .null := by
          intro s listed named
          by_contra null
          exact own ⟨s, listed, named, null⟩
        rw [Entry.portion, contextFor_of_bare bare]
        exact .shared bare

/-- Without own contexts a portion is what the entry renders under the shared context. -/
theorem portion_of_bare (bare : ∀ s ∈ items, s.context = .null) (context : Context) (e : Entry) :
    e.portion items context = e.render context := by
  cases e with
  | text run => rfl
  | expression name => rfl
  | block name body =>
    rw [Entry.portion, contextFor_of_bare fun s listed _ => bare s listed]
    rfl

/-! ## The three renderings -/

variable (node : Template) (context : Context)

theorem renderSome_eq (inhabited : items ≠ []) :
    node.renderSome (.list items) context =
      concat (node.entries.map (Entry.portion items context)) := by
  unfold Template.renderSome
  split
  · next none => exact absurd none inhabited
  · congr 2
    funext e
    cases e <;> rfl

theorem isNamed_eq (e : Entry) :
    Template.isNamed (items.map Selector.name) e = e.isSelected items := by
  cases e with
  | text => rfl
  | expression => rfl
  | block name body =>
    rw [Template.isNamed, Entry.isSelected, List.contains_eq_any_beq, List.any_map]
    congr 1
    funext s
    exact Bool.beq_comm

theorem contextFor_of_unselected {name : String} {body : List Entry}
    (unselected : (Entry.block name body).isSelected items = false) :
    Template.contextFor items context name = context := by
  apply contextFor_of_bare
  intro s listed named
  rw [Entry.isSelected, List.any_eq_false] at unselected
  exact absurd (beq_iff_eq.2 named) (unselected s listed)

theorem renderExcept_eq (inhabited : items ≠ []) :
    node.renderExcept (.list items) context =
      concat ((node.entries.filter fun e => !e.isSelected items).map
        (Entry.portion items context)) := by
  unfold Template.renderExcept
  split
  · next none => exact absurd none inhabited
  · dsimp only
    rw [Entry.renderAll_eq_concat]
    simp only [Selection.selectors, isNamed_eq]
    congr 1
    apply List.map_congr_left
    intro e kept
    cases e with
    | text => rfl
    | expression => rfl
    | block name body =>
      have unselected : (Entry.block name body).isSelected items = false := by
        simpa using (List.mem_filter.1 kept).2
      rw [Entry.portion, contextFor_of_unselected context unselected]
      rfl

/-- A child is rendered once for the selector of its name, and not at all if there is none. -/
theorem renderOnly_eq (distinct : (items.map Selector.name).Nodup) :
    node.renderOnly (.list items) context =
      concat ((node.entries.filter (Entry.isSelected items)).map
        (Entry.portion items context)) := by
  unfold Template.renderOnly Template.children
  dsimp only
  simp only [filter_eq_find? distinct]
  congr 1
  induction node.entries with
  | nil => rfl
  | cons e rest ih =>
    cases e with
    | text =>
      rw [List.filterMap_cons_none rfl, ih, List.filter_cons_of_neg (by simp [Entry.isSelected])]
    | expression =>
      rw [List.filterMap_cons_none rfl, ih, List.filter_cons_of_neg (by simp [Entry.isSelected])]
    | block name body =>
      have child : (Entry.block name body).template? = some ⟨name, body⟩ := rfl
      rw [List.filterMap_cons_some child, List.flatMap_cons, ih]
      cases found : items.find? fun s => s.name == name with
      | none =>
        have unselected : (Entry.block name body).isSelected items = false := by
          simpa [Entry.isSelected] using found
        simp [unselected]
      | some s =>
        obtain ⟨listed, rfl⟩ := of_find?_name found
        have selected : (Entry.block s.name body).isSelected items = true :=
          List.any_eq_true.2 ⟨s, listed, beq_self_eq_true _⟩
        simp [selected, Entry.portion, contextFor_of_mem distinct listed]

/-! ## Merging -/

/-- **Rendering everything merges the selected blocks and the rest.** Every entry has one portion.
If all portions have a text, everything is these texts in order, the selected blocks are those of
the blocks that a selector names, and the rest is the others. Everything fails if and only if the
selected blocks or the rest do, with the error of the first portion that has one. Under selectors
without contexts of their own everything is the node as it is. -/
theorem renderSome_merges (node : Template) {items : List Selector} (context : Context)
    (inhabited : items ≠ []) (distinct : (items.map Selector.name).Nodup) :
    let all := node.renderSome (.list items) context
    let selected := node.renderOnly (.list items) context
    let others := node.renderExcept (.list items) context
    (∀ e ∈ node.entries, ∃ r, Portion items context e r ∧
      ∀ r', Portion items context e r' → r' = r) ∧
    (∀ shown : Entry → String,
      (∀ e ∈ node.entries, Portion items context e (.ok (shown e))) →
        all = .ok (String.join (node.entries.map shown)) ∧
        selected = .ok (String.join ((node.entries.filter (Entry.isSelected items)).map shown)) ∧
        others =
          .ok (String.join ((node.entries.filter fun e => !e.isSelected items).map shown))) ∧
    ((∃ e, all = .error e) ↔ (∃ e, selected = .error e) ∨ ∃ e, others = .error e) ∧
    (∀ e, all = .error e ↔ ∃ before entry after, node.entries = before ++ entry :: after ∧
      (∀ earlier ∈ before, ∃ text, Portion items context earlier (.ok text)) ∧
        Portion items context entry (.error e)) ∧
    ((∀ s ∈ items, s.context = .null) →
      all = node.renderWith .null context ∧
        ((∀ name, context ≠ .text name) → all = node.renderWith context .null)) := by
  dsimp only
  rw [renderSome_eq node context inhabited, renderOnly_eq node context distinct,
    renderExcept_eq node context inhabited]
  simp only [portion_iff distinct]
  refine ⟨?_, ?_, ?_, ?_, ?_⟩
  · intro e _
    exact ⟨_, rfl, fun r' same => same.symm⟩
  · intro shown texts
    refine ⟨concat_map_of_texts texts, concat_map_of_texts ?_, concat_map_of_texts ?_⟩
    · exact fun e member => texts e (List.mem_of_mem_filter member)
    · exact fun e member => texts e (List.mem_of_mem_filter member)
  · simp only [concat_map_fails_iff, List.mem_filter]
    constructor
    · rintro ⟨entry, member, fails⟩
      cases selected : entry.isSelected items with
      | true => exact .inl ⟨entry, ⟨member, selected⟩, fails⟩
      | false => exact .inr ⟨entry, ⟨member, by simp [selected]⟩, fails⟩
    · rintro (⟨entry, ⟨member, _⟩, fails⟩ | ⟨entry, ⟨member, _⟩, fails⟩)
      · exact ⟨entry, member, fails⟩
      · exact ⟨entry, member, fails⟩
  · exact fun e => concat_map_eq_error_iff
  · intro bare
    have whole : concat (node.entries.map (Entry.portion items context)) = node.render context := by
      rw [Template.render, Entry.renderAll_eq_concat]
      congr 2
      funext e
      exact portion_of_bare bare context e
    exact ⟨whole, fun unnamed => by rw [Template.renderWith_null unnamed, whole]⟩

/-- Two siblings of one name under an own context, with a text and an expression between them. -/
theorem renderSome_merges_of_siblings :
    let node : Template := ⟨"n", [.block "b" [.expression "x"], .text "-", .expression "x",
      .block "b" [.expression "x", .expression "x"]]⟩
    let items : List Selector := [⟨"b", .dict [(.text "x", .int 2)]⟩, .bare "c"]
    let context : Context := .dict [(.text "x", .int 1)]
    items ≠ [] ∧ (items.map Selector.name).Nodup ∧
      node.renderSome (.list items) context = .ok "2-122" ∧
      node.renderOnly (.list items) context = .ok "222" ∧
      node.renderExcept (.list items) context = .ok "-1" := by
  intro node items context
  have inhabited : items ≠ [] := List.cons_ne_nil _ _
  have distinct : (items.map Selector.name).Nodup := by decide
  let shown (e : Entry) : String :=
    e.casesOn (fun run => run) (fun _ => "1") fun _ body => String.join (body.map fun _ => "2")
  have texts : ∀ e ∈ node.entries, Portion items context e (.ok (shown e)) := by
    simp only [node, List.forall_mem_cons, portion_iff distinct, Entry.portion, Entry.render]
    simp only [items, context, Template.contextFor, Template.render, Entry.renderAll_eq,
      Entry.lexemes]
    exact ⟨rfl, rfl, rfl, rfl, List.forall_mem_nil _⟩
  obtain ⟨_, merged, _⟩ := renderSome_merges node context inhabited distinct
  exact ⟨inhabited, distinct, merged shown texts⟩

end

end Stencil
