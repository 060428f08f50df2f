import Stencil.Proofs.Context.Lookup
import Stencil.Proofs.Template.Selecting

/-!
# What operations visit

* `Operation`: what a node can be asked to render, and `Operation.outcome`, what comes of it;
* `Occurrence`: an expression that is visited, with the own context it is visited under, if any;
* `Slot`, `Operation.slots`: the texts and occurrences that an operation puts out, in order, which
  no shared context has a say in;
* `Operation.outcome_eq`: the outcome of an operation is its slots filled one after the other;
* `Operation.fails_at_first`: an operation fails exactly if it visits an occurrence that cannot be
  looked up, and then with the error of the first one.
-/

namespace Stencil

/-- All of a node, the block of a name, the selected blocks alone, all but them, or everything with
the selected blocks under contexts of their own. -/
inductive Operation where
  | whole
  | block (name : String)
  | only (selection : Selection)
  | except (selection : Selection)
  | overriding (selection : Selection)

def Operation.outcome (t : Template) (shared : Context) : Operation → Except Error String
  | .whole => t.renderWith shared .null
  | .block name => t.renderWith (.text name) shared
  | .only selection => t.renderOnly selection shared
  | .except selection => t.renderExcept selection shared
  | .overriding selection => t.renderSome selection shared

/-! ## Occurrences and slots -/

/-- An expression on the way of an operation. It stands in a block that is rendered under a context
of its own, or else under the shared one. -/
structure Occurrence where
  name : String
  own? : Option Context

/-- The context in which the name is looked up. -/
def Occurrence.context (shared : Context) (o : Occurrence) : Context := o.own?.getD shared

inductive Slot where
  | text (run : String)
  | value (o : Occurrence)

namespace Slot

def occurrence? : Slot → Option Occurrence
  | .text _ => none
  | .value o => some o

def fill (shared : Context) : Slot → Except Error String
  | .text run => .ok run
  | .value o => lookup (o.context shared) o.name

def fillAll (shared : Context) (slots : List Slot) : Except Error String :=
  concat (slots.map (fill shared))

end Slot

/-- The own context, unless the selector is a bare name. -/
def Selector.own? (s : Selector) : Option Context :=
  match s.context with
  | .null => none
  | own => some own

namespace Entry

/-- The slots of entries, those of a block in its place. -/
def slots (own? : Option Context) : List Entry → List Slot
  | [] => []
  | .text run :: rest => .text run :: slots own? rest
  | .expression name :: rest => .value ⟨name, own?⟩ :: slots own? rest
  | .block _ body :: rest => slots own? body ++ slots own? rest

/-- The slots of an entry where the first selector of its name may bring an own context. -/
def slotsFor (items : List Selector) : Entry → List Slot
  | .block name body => slots ((items.find? fun s => s.name == name).bind Selector.own?) body
  | e => slots none [e]

end Entry

namespace Operation

/-- The slots of an operation, in the order of the output. A block that is not there has none, and
an empty list selects nothing and leaves nothing. -/
def slots (t : Template) : Operation → List Slot
  | .whole => Entry.slots none t.entries
  | .block name =>
    match t.search name with
    | some site => Entry.slots none site.template.entries
    | none => []
  | .only (.single s) =>
    match t.search s.name with
    | some site => Entry.slots s.own? site.template.entries
    | none => []
  | .only (.list items) =>
    t.children.flatMap fun child =>
      (items.filter fun s => child.name == s.name).flatMap fun s =>
        Entry.slots s.own? child.entries
  | .except selection =>
    match selection.selectors with
    | [] => []
    | items => Entry.slots none (t.entries.filter fun e => !e.isSelected items)
  | .overriding selection =>
    match selection.selectors with
    | [] => []
    | items => t.entries.flatMap (Entry.slotsFor items)

/-- The expressions that an operation visits, in order. -/
def occurrences (t : Template) (op : Operation) : List Occurrence :=
  (op.slots t).filterMap Slot.occurrence?

/-- The operation asks for a block that is not there. -/
def Misses (t : Template) (op : Operation) (name : String) : Prop :=
  op = .block name ∧ t.search name = none

end Operation

/-! ## Filling slots -/

theorem Selector.contextOr_eq (s : Selector) (shared : Context) :
    s.contextOr shared = s.own?.getD shared := by
  obtain ⟨name, context⟩ := s
  cases context <;> rfl

/-- Renderings that each fill slots fill all of these slots together. -/
theorem concat_flatMap_of_fillAll {α : Type} {outcomes : α → List (Except Error String)}
    {slots : α → List Slot} {shared : Context}
    (each : ∀ item, concat (outcomes item) = Slot.fillAll shared (slots item)) (items : List α) :
    concat (items.flatMap outcomes) = Slot.fillAll shared (items.flatMap slots) := by
  unfold Slot.fillAll at each ⊢
  induction items with
  | nil => rfl
  | cons item items ih =>
    rw [List.flatMap_cons, List.flatMap_cons, List.map_append, concat_append, concat_append, each,
      ih]

theorem concat_map_of_fillAll {α : Type} {render : α → Except Error String}
    {slots : α → List Slot} {shared : Context}
    (each : ∀ item, render item = Slot.fillAll shared (slots item)) (items : List α) :
    concat (items.map render) = Slot.fillAll shared (items.flatMap slots) := by
  rw [List.map_eq_flatMap]
  apply concat_flatMap_of_fillAll
  intro item
  rw [concat_cons, each]
  cases Slot.fillAll shared (slots item) <;> simp [Except.bind, Except.map]

namespace Entry

theorem renderAll_eq_fillAll (own? : Option Context) (shared : Context) (entries : List Entry) :
    renderAll (own?.getD shared) entries = Slot.fillAll shared (slots own? entries) := by
  unfold Slot.fillAll
  rw [renderAll_eq_concat]
  induction entries using row_induction with
  | nil => simp [slots]
  | text run rest ih =>
    rw [slots, List.map_cons, List.map_cons, concat_cons, concat_cons, ih]
    rfl
  | expression name rest ih =>
    rw [slots, List.map_cons, List.map_cons, concat_cons, concat_cons, ih]
    rfl
  | block name body rest ihBody ih =>
    have inside : render (own?.getD shared) (.block name body) =
        concat ((slots own? body).map (Slot.fill shared)) := by
      rw [← ihBody, ← renderAll_eq_concat, render]
    rw [slots, List.map_append, concat_append, ← inside, ← ih, List.map_cons, concat_cons]

theorem portion_eq_fillAll (items : List Selector) (shared : Context) (e : Entry) :
    e.portion items shared = Slot.fillAll shared (e.slotsFor items) := by
  cases e with
  | text run => simp [portion, render, slotsFor, slots, Slot.fillAll, Slot.fill, Except.map]
  | expression name =>
    simp only [portion, render, slotsFor, slots, Slot.fillAll, Slot.fill, List.map_cons,
      List.map_nil, concat_cons, concat_nil, Occurrence.context, Option.getD_none]
    cases lookup shared name <;> simp [Except.bind, Except.map]
  | block name body =>
    rw [portion, slotsFor, Template.render, ← renderAll_eq_fillAll, Template.contextFor]
    cases items.find? fun s => s.name == name with
    | none => rfl
    | some s =>
      dsimp only
      rw [Selector.contextOr_eq, Option.bind_some]

end Entry

namespace Operation

/-- **An operation fills its slots one after the other.** Only a block that is not there is another
reason to fail. -/
theorem outcome_eq (t : Template) {shared : Context} (dictionary : shared.IsShared)
    {op : Operation} (found : ∀ name, ¬ op.Misses t name) :
    op.outcome t shared = Slot.fillAll shared (op.slots t) := by
  cases op with
  | whole =>
    rw [outcome, Template.renderWith_null dictionary.unnamed, Template.render, slots,
      ← Entry.renderAll_eq_fillAll]
    rfl
  | block name =>
    cases site? : t.search name with
    | none => exact absurd ⟨rfl, site?⟩ (found name)
    | some site =>
      have finds : t.find name = .ok site := by rw [Template.find, site?]
      simp only [outcome, slots, site?, Template.renderWith, Template.renderBlock, finds]
      exact Entry.renderAll_eq_fillAll none shared _
  | only selection =>
    cases selection with
    | single s =>
      cases site? : t.search s.name with
      | none => simp only [outcome, slots, site?, Template.renderOnly]; rfl
      | some site =>
        simp only [outcome, slots, site?, Template.renderOnly, Selector.contextOr_eq]
        exact Entry.renderAll_eq_fillAll s.own? shared _
    | list items =>
      rw [outcome, slots, Template.renderOnly]
      apply concat_flatMap_of_fillAll
      intro child
      apply concat_map_of_fillAll
      intro s
      rw [Selector.contextOr_eq]
      exact Entry.renderAll_eq_fillAll s.own? shared _
  | except selection =>
    rw [outcome, slots, Template.renderExcept]
    cases selection.selectors with
    | nil => rfl
    | cons s items =>
      simp only [isNamed_eq]
      exact Entry.renderAll_eq_fillAll none shared _
  | overriding selection =>
    rw [outcome, slots]
    cases listed : selection.selectors with
    | nil => rw [Template.renderSome, listed]; rfl
    | cons s items =>
      have same : t.renderSome selection shared = t.renderSome (.list (s :: items)) shared := by
        rw [Template.renderSome, listed]
        rfl
      rw [same, renderSome_eq t shared (List.cons_ne_nil s items)]
      exact concat_map_of_fillAll (Entry.portion_eq_fillAll (s :: items) shared) _

theorem outcome_of_misses {t : Template} {op : Operation} {name : String} (h : op.Misses t name)
    (shared : Context) : op.outcome t shared = .error (.notFound name) := by
  obtain ⟨rfl, none⟩ := h
  have lost : t.find name = .error (.notFound name) := by rw [Template.find, none]
  simp only [outcome, Template.renderWith, Template.renderBlock, lost]
  rfl

/-- An operation that visits something finds what it asks for. -/
theorem found_of_occurrence {t : Template} {op : Operation} {o : Occurrence}
    (visited : o ∈ op.occurrences t) (name : String) : ¬ op.Misses t name := by
  rintro ⟨rfl, none⟩
  simp [occurrences, slots, none] at visited

end Operation

/-! ## Failing -/

/-- The context is something other than a dictionary, or it has a value for the name that contexts
do not support. -/
def Occurrence.IsBad (shared : Context) (o : Occurrence) : Prop :=
  ∃ e, LookupFails (o.context shared) o.name e

theorem Occurrence.not_isBad_iff {shared : Context} {o : Occurrence} :
    ¬ o.IsBad shared ↔ ∃ text, lookup (o.context shared) o.name = .ok text := by
  unfold IsBad
  simp only [← lookup_eq_error_iff]
  cases lookup (o.context shared) o.name <;> simp

namespace Slot

variable {shared : Context} {slots : List Slot}

/-- Texts never fail, so slots fail as their occurrences alone do. -/
theorem fillAll_eq_error_iff {e : Error} :
    fillAll shared slots = .error e ↔
      concat ((slots.filterMap occurrence?).map fun o => lookup (o.context shared) o.name) =
        .error e := by
  unfold fillAll
  induction slots with
  | nil => exact Iff.rfl
  | cons slot rest ih =>
    cases slot with
    | text run =>
      rw [List.filterMap_cons_none (by rfl), ← ih, List.map_cons, fill, concat_ok_cons]
      cases concat (rest.map (fill shared)) <;> simp [Except.map]
    | value o =>
      have own : (value o).occurrence? = some o := rfl
      rw [List.filterMap_cons_some own, List.map_cons, List.map_cons, fill]
      cases lookup (o.context shared) o.name with
      | error e' => exact Iff.rfl
      | ok text =>
        rw [concat_ok_cons, concat_ok_cons]
        revert ih
        cases concat (rest.map (fill shared)) <;>
          cases concat ((rest.filterMap occurrence?).map fun o =>
            lookup (o.context shared) o.name) <;> simp [Except.map]

theorem fillAll_fails_iff :
    (∃ e, fillAll shared slots = .error e) ↔
      ∃ o ∈ slots.filterMap occurrence?, o.IsBad shared := by
  simp only [fillAll_eq_error_iff]
  rw [concat_map_fails_iff]
  simp only [lookup_eq_error_iff]
  exact Iff.rfl

theorem fillAll_fails_at_first {e : Error} :
    fillAll shared slots = .error e ↔
      ∃ before o after, slots.filterMap occurrence? = before ++ o :: after ∧
        (∀ earlier ∈ before, ¬ earlier.IsBad shared) ∧
          LookupFails (o.context shared) o.name e := by
  rw [fillAll_eq_error_iff, concat_map_eq_error_iff]
  simp only [lookup_eq_error_iff, Occurrence.not_isBad_iff]

end Slot

/-- **An operation fails at the first bad occurrence that it visits.** Under a shared context, which
is nothing or a dictionary, it fails if and only if it asks for a block that is not there or visits
an occurrence that cannot be looked up in its context. The error is that of the first such
occurrence in the order of the output. Nothing that is not visited makes it fail. -/
theorem Operation.fails_at_first (op : Operation) (t : Template) {shared : Context}
    (dictionary : shared.IsShared) :
    ((∃ e, op.outcome t shared = .error e) ↔
      (∃ name, op.Misses t name) ∨ ∃ o ∈ op.occurrences t, o.IsBad shared) ∧
    ∀ e, op.outcome t shared = .error e ↔
      (∃ name, op.Misses t name ∧ e = .notFound name) ∨
        ∃ before o after, op.occurrences t = before ++ o :: after ∧
          (∀ earlier ∈ before, ¬ earlier.IsBad shared) ∧
            LookupFails (o.context shared) o.name e := by
  by_cases lost : ∃ name, op.Misses t name
  · obtain ⟨name, missing⟩ := lost
    have outcome := outcome_of_misses missing shared
    have none : ∀ o, o ∉ op.occurrences t := fun o visited =>
      found_of_occurrence visited name missing
    constructor
    · exact ⟨fun _ => .inl ⟨name, missing⟩, fun _ => ⟨_, outcome⟩⟩
    · intro e
      constructor
      · intro failed
        rw [outcome] at failed
        cases failed
        exact .inl ⟨name, missing, rfl⟩
      · rintro (⟨other, missing', rfl⟩ | ⟨before, o, after, visited, _⟩)
        · exact outcome_of_misses missing' shared
        · exact absurd (by simp [visited]) (none o)
  · have found : ∀ name, ¬ op.Misses t name := fun name missing => lost ⟨name, missing⟩
    rw [outcome_eq t dictionary found]
    constructor
    · rw [or_iff_right lost]
      exact Slot.fillAll_fails_iff
    · intro e
      have noName : ¬ ∃ name, op.Misses t name ∧ e = .notFound name :=
        fun ⟨name, missing, _⟩ => found name missing
      rw [or_iff_right noName]
      exact Slot.fillAll_fails_at_first

/-- Three occurrences, of which the second has a list for its value and the third a text for its
context. -/
theorem Operation.fails_at_first_of_list :
    let t : Template := ⟨rootName, [.expression "u", .block "a" [.text "-", .expression "x"],
      .block "b" [.expression "z"]]⟩
    let own : Context := .dict [(.text "x", .list [])]
    let op : Operation := .overriding (.list [⟨"b", .text "s"⟩, ⟨"a", own⟩, ⟨"c", .text "s"⟩])
    let shared : Context := .dict [(.text "u", .int 1), (.text "x", .bool true)]
    shared.IsShared ∧
      op.occurrences t = [⟨"u", none⟩, ⟨"x", some own⟩, ⟨"z", some (.text "s")⟩] ∧
        op.outcome t shared = .error (.unsupported "x" "list") := by
  intro t own op shared
  have dictionary : shared.IsShared := .inr ⟨_, rfl⟩
  have visited : op.occurrences t = [⟨"u", none⟩, ⟨"x", some own⟩, ⟨"z", some (.text "s")⟩] := by
    simp [op, t, own, occurrences, slots, Selection.selectors, Entry.slotsFor, Entry.slots,
      Selector.own?, List.filterMap_cons, Slot.occurrence?]
  obtain ⟨_, first⟩ := fails_at_first op t dictionary
  refine ⟨dictionary, visited, (first _).2 (.inr ⟨[⟨"u", none⟩], _, _, visited, ?_, ?_⟩)⟩
  · rw [List.forall_mem_singleton, Occurrence.not_isBad_iff]
    exact ⟨"1", rfl⟩
  · exact @LookupFails.unsupported own "x" _ (.list []) rfl rfl rfl

end Stencil
