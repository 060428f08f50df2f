import Mathlib.Data.List.Forall2
import Stencil.Proofs.Context.Lookup
import Stencil.Selector

/-!
# Forms of selectors

* `mapM_of_forall₂`, `mapM_of_first`: steps that fail at the first item that does;
* `Selector.Written`: the forms in which a selector may be written;
* `Selector.ofValue_eq_ok_iff`: a value is read as the selector that it is a form of;
* `Selection.Refuses`: the value that is to blame if a value stands for no selection;
* `Selection.reads_forms`: forms are read alike, one by one and in a row, and nothing else is read.
-/

namespace Stencil

/-! ## Steps that fail at the first item that does -/

section

variable {ε α β : Type} {f : α → Except ε β}

theorem mapM_of_forall₂ {items : List α} {found : List β}
    (each : List.Forall₂ (fun item b => f item = .ok b) items found) :
    items.mapM f = .ok found := by
  induction each with
  | nil => rfl
  | cons first _ ih =>
    rw [List.mapM_cons, first, ih]
    rfl

theorem mapM_of_first {before after : List α} {item : α} {e : ε}
    (earlier : ∀ a ∈ before, ∃ b, f a = .ok b) (fails : f item = .error e) :
    (before ++ item :: after).mapM f = .error e := by
  induction before with
  | nil =>
    rw [List.nil_append, List.mapM_cons, fails]
    rfl
  | cons a before ih =>
    obtain ⟨b, found⟩ := earlier a (List.mem_cons_self ..)
    have later := ih fun a member => earlier a (List.mem_cons_of_mem _ member)
    rw [List.cons_append, List.mapM_cons, found, later]
    rfl

/-- Either every step succeeds, or there is a first one that does not. -/
theorem forall_ok_or_first (f : α → Except ε β) (items : List α) :
    (∀ a ∈ items, ∃ b, f a = .ok b) ∨
      ∃ before item after e, items = before ++ item :: after ∧
        (∀ a ∈ before, ∃ b, f a = .ok b) ∧ f item = .error e := by
  induction items with
  | nil => exact .inl (List.forall_mem_nil _)
  | cons a items ih =>
    cases outcome : f a with
    | error e => exact .inr ⟨[], a, items, e, rfl, List.forall_mem_nil _, outcome⟩
    | ok b =>
      rcases ih with all | ⟨before, item, after, e, rfl, earlier, fails⟩
      · exact .inl (List.forall_mem_cons.2 ⟨⟨b, outcome⟩, all⟩)
      · exact .inr ⟨a :: before, item, after, e, rfl,
          List.forall_mem_cons.2 ⟨⟨b, outcome⟩, earlier⟩, fails⟩

end

/-! ## One selector -/

namespace Selector

/-- A selector is written as itself, by its name alone if it has no context, as a pair of its name
and a dictionary or null, or as a dictionary that has its name and its context. Such a dictionary
may leave the context out if there is none, and may have other keys. -/
inductive Written : Selector → Value → Prop
  | itself (name : String) (context : Value) :
      Written ⟨name, context⟩ (.selector name context)
  | name (name : String) : Written ⟨name, .null⟩ (.text name)
  | pair (name : String) {context : Value} (own : Context.IsShared context) :
      Written ⟨name, context⟩ (.tuple [.text name, context])
  | dict {pairs : List (Value × Value)} {name : String} {context : Value}
      (named : Value.get? pairs "name" = some (.text name))
      (own : Value.get? pairs "context" = some context) : Written ⟨name, context⟩ (.dict pairs)
  | bareDict {pairs : List (Value × Value)} {name : String}
      (named : Value.get? pairs "name" = some (.text name))
      (bare : Value.get? pairs "context" = none) : Written ⟨name, .null⟩ (.dict pairs)

theorem ofPair?_eq_some_iff {items : List Value} {s : Selector} :
    ofPair? items = some s ↔ Written s (.tuple items) := by
  constructor
  · intro h
    unfold ofPair? at h
    split at h
    · cases h
      exact .pair _ (.inl rfl)
    · cases h
      exact .pair _ (.inr ⟨_, rfl⟩)
    · cases h
  · intro h
    cases h with
    | pair name own => rcases own with rfl | ⟨pairs, rfl⟩ <;> rfl

theorem ofValue?_eq_some_iff {v : Value} {s : Selector} : ofValue? v = some s ↔ Written s v := by
  cases v with
  | selector name context =>
    constructor
    · rintro ⟨⟩
      exact .itself name context
    · rintro ⟨⟩
      rfl
  | text name =>
    constructor
    · rintro ⟨⟩
      exact .name name
    · rintro ⟨⟩
      rfl
  | tuple items => exact ofPair?_eq_some_iff
  | dict pairs =>
    constructor
    · intro h
      rw [ofValue?] at h
      split at h
      · next name named =>
        cases h
        cases own : Value.get? pairs "context" with
        | none => exact .bareDict named own
        | some context => exact .dict named own
      · cases h
    · intro h
      cases h with
      | dict named own => simp [ofValue?, named, own]
      | bareDict named bare => simp [ofValue?, named, bare]
  | null | bool | int | float | bytes | date | moment | list =>
    constructor
    · rintro ⟨⟩
    · rintro ⟨⟩

theorem ofValue_eq_ok_iff {v : Value} {s : Selector} : ofValue v = .ok s ↔ Written s v := by
  rw [← ofValue?_eq_some_iff, ofValue]
  cases ofValue? v <;> simp

theorem ofValue_eq_error_iff {v : Value} {e : Error} :
    ofValue v = .error e ↔ (∀ s, ¬ Written s v) ∧ e = .selector v := by
  simp only [← ofValue?_eq_some_iff]
  rw [ofValue]
  cases ofValue? v <;> simp [eq_comm]

end Selector

/-! ## Selections -/

namespace Selection

open Selector (Written)

/-- What is neither a form nor a list nor a tuple is to blame itself. Of a list, and of a tuple that
is no pair, it is the first item that is no form. -/
inductive Refuses : Value → Value → Prop
  | whole {v : Value} (unwritten : ∀ s, ¬ Written s v) (noList : ∀ items, v ≠ .list items)
      (noTuple : ∀ items, v ≠ .tuple items) : Refuses v v
  | inList {before after : List Value} {item : Value} (earlier : ∀ a ∈ before, ∃ s, Written s a)
      (unwritten : ∀ s, ¬ Written s item) : Refuses (.list (before ++ item :: after)) item
  | inTuple {before after : List Value} {item : Value} (earlier : ∀ a ∈ before, ∃ s, Written s a)
      (unwritten : ∀ s, ¬ Written s item)
      (unpaired : ∀ s, ¬ Written s (.tuple (before ++ item :: after))) :
      Refuses (.tuple (before ++ item :: after)) item

/-- A form of one selector, or a list or a tuple of forms. -/
def Readable (v : Value) : Prop :=
  (∃ s, Written s v) ∨
    ∃ items, (v = .list items ∨ v = .tuple items) ∧ ∀ item ∈ items, ∃ s, Written s item

theorem readable_or_refused (v : Value) : Readable v ∨ ∃ item, Refuses v item := by
  by_cases written : ∃ s, Written s v
  · exact .inl (.inl written)
  · rw [not_exists] at written
    by_cases row : ∃ items, v = .list items ∨ v = .tuple items
    · obtain ⟨items, shape⟩ := row
      rcases forall_ok_or_first Selector.ofValue items with
        all | ⟨before, item, after, e, rfl, earlier, fails⟩
      · simp only [Selector.ofValue_eq_ok_iff] at all
        exact .inl (.inr ⟨items, shape, all⟩)
      · simp only [Selector.ofValue_eq_ok_iff] at earlier
        obtain ⟨unwritten, _⟩ := Selector.ofValue_eq_error_iff.1 fails
        rcases shape with rfl | rfl
        · exact .inr ⟨item, .inList earlier unwritten⟩
        · exact .inr ⟨item, .inTuple earlier unwritten written⟩
    · exact .inr ⟨v, .whole written (fun items list => row ⟨items, .inl list⟩)
        fun items tuple => row ⟨items, .inr tuple⟩⟩

/-! ## Reading -/

theorem ofValue_of_other {v : Value} (noList : ∀ items, v ≠ .list items)
    (noTuple : ∀ items, v ≠ .tuple items) : ofValue v = .single <$> Selector.ofValue v := by
  cases v with
  | list items => exact absurd rfl (noList items)
  | tuple items => exact absurd rfl (noTuple items)
  | _ => rfl

theorem ofValue_tuple_of_unpaired {items : List Value}
    (unpaired : ∀ s, ¬ Written s (.tuple items)) :
    ofValue (.tuple items) = .list <$> items.mapM Selector.ofValue := by
  rw [ofValue]
  split
  · next s pair => exact absurd (Selector.ofPair?_eq_some_iff.1 pair) (unpaired s)
  · rfl

/-- A form alone is read as its selector. -/
theorem ofValue_of_written {s : Selector} {v : Value} (written : Written s v) :
    ofValue v = .ok (.single s) := by
  by_cases tuple : ∃ items, v = .tuple items
  · obtain ⟨items, rfl⟩ := tuple
    rw [ofValue, Selector.ofPair?_eq_some_iff.2 written]
  · have noList : ∀ items, v ≠ .list items := by
      rintro items rfl
      cases written
    have noTuple : ∀ items, v ≠ .tuple items := fun items same => tuple ⟨items, same⟩
    rw [ofValue_of_other noList noTuple, Selector.ofValue_eq_ok_iff.2 written]
    rfl

/-- Forms in a row are read as their selectors. -/
theorem mapM_of_written {items : List Selector} {forms : List Value}
    (written : List.Forall₂ Written items forms) :
    forms.mapM Selector.ofValue = .ok items := by
  apply mapM_of_forall₂
  apply List.Forall₂.flip
  exact written.imp fun s v form => Selector.ofValue_eq_ok_iff.2 form

theorem ofValue_list_of_written {items : List Selector} {forms : List Value}
    (written : List.Forall₂ Written items forms) :
    ofValue (.list forms) = .ok (.list items) := by
  rw [ofValue, mapM_of_written written]
  rfl

theorem ofValue_tuple_of_written {items : List Selector} {forms : List Value}
    (written : List.Forall₂ Written items forms)
    (unpaired : ∀ s, ¬ Written s (.tuple forms)) :
    ofValue (.tuple forms) = .ok (.list items) := by
  rw [ofValue_tuple_of_unpaired unpaired, mapM_of_written written]
  rfl

/-- Values that are all forms are those of some selectors. -/
theorem exists_written {forms : List Value} (each : ∀ form ∈ forms, ∃ s, Written s form) :
    ∃ items, List.Forall₂ Written items forms := by
  induction forms with
  | nil => exact ⟨[], .nil⟩
  | cons form forms ih =>
    obtain ⟨⟨s, written⟩, others⟩ := List.forall_mem_cons.1 each
    obtain ⟨items, rest⟩ := ih others
    exact ⟨s :: items, .cons written rest⟩

theorem ofValue_of_readable {v : Value} (readable : Readable v) :
    ∃ selection, ofValue v = .ok selection := by
  rcases readable with ⟨s, written⟩ | ⟨forms, shape, each⟩
  · exact ⟨_, ofValue_of_written written⟩
  · obtain ⟨items, written⟩ := exists_written each
    rcases shape with rfl | rfl
    · exact ⟨_, ofValue_list_of_written written⟩
    · by_cases paired : ∃ s, Written s (.tuple forms)
      · obtain ⟨s, pair⟩ := paired
        exact ⟨_, ofValue_of_written pair⟩
      · rw [not_exists] at paired
        exact ⟨_, ofValue_tuple_of_written written paired⟩

theorem ofValue_of_refused {v item : Value} (refused : Refuses v item) :
    ofValue v = .error (.selector item) := by
  have fails {v : Value} (unwritten : ∀ s, ¬ Written s v) :
      Selector.ofValue v = .error (.selector v) :=
    Selector.ofValue_eq_error_iff.2 ⟨unwritten, rfl⟩
  have row {before : List Value} (earlier : ∀ a ∈ before, ∃ s, Written s a)
      (unwritten : ∀ s, ¬ Written s item) (after : List Value) :
      (before ++ item :: after).mapM Selector.ofValue = .error (.selector item) := by
    simp only [← Selector.ofValue_eq_ok_iff] at earlier
    exact mapM_of_first earlier (fails unwritten)
  cases refused with
  | whole unwritten noList noTuple =>
    rw [ofValue_of_other noList noTuple, fails unwritten]
    rfl
  | inList earlier unwritten =>
    rw [ofValue, row earlier unwritten]
    rfl
  | inTuple earlier unwritten unpaired =>
    rw [ofValue_tuple_of_unpaired unpaired, row earlier unwritten]
    rfl

/-- **A selection is read from every form of its selectors alike.** A value stands for a selection
exactly if it is a form of a selector, or a list or a tuple of forms. Else the first item that is no
form is refused, or the value itself if it is no list and no tuple. A form alone stands for its
selector. Forms in a list, and in a tuple, stand for the list of their selectors in order; only a
tuple of a name and a dictionary or null stands for the one selector of this name and context. -/
theorem reads_forms :
    (∀ v, (∃ selection, ofValue v = .ok selection) ↔ Readable v) ∧
    (∀ v e, ofValue v = .error e ↔ ∃ item, Refuses v item ∧ e = .selector item) ∧
    (∀ s v, Written s v → ofValue v = .ok (.single s)) ∧
    ∀ items forms, List.Forall₂ Written items forms →
      ofValue (.list forms) = .ok (.list items) ∧
      ((∀ name context, forms = [.text name, context] → ¬ Context.IsShared context) →
        ofValue (.tuple forms) = .ok (.list items)) ∧
      ∀ name context, forms = [.text name, context] → Context.IsShared context →
        ofValue (.tuple forms) = .ok (.single ⟨name, context⟩) := by
  refine ⟨?_, ?_, fun s v => ofValue_of_written, ?_⟩
  · intro v
    constructor
    · rintro ⟨selection, found⟩
      rcases readable_or_refused v with readable | ⟨item, refused⟩
      · exact readable
      · rw [ofValue_of_refused refused] at found
        cases found
    · exact ofValue_of_readable
  · intro v e
    constructor
    · intro failed
      rcases readable_or_refused v with readable | ⟨item, refused⟩
      · obtain ⟨selection, found⟩ := ofValue_of_readable readable
        rw [found] at failed
        cases failed
      · rw [ofValue_of_refused refused] at failed
        cases failed
        exact ⟨item, refused, rfl⟩
    · rintro ⟨item, refused, rfl⟩
      exact ofValue_of_refused refused
  · intro items forms written
    refine ⟨ofValue_list_of_written written, ?_, ?_⟩
    · intro other
      apply ofValue_tuple_of_written written
      intro s pair
      cases pair with
      | pair name own => exact other _ _ rfl own
    · rintro name context rfl own
      exact ofValue_of_written (.pair name own)

/-- Three selectors in different forms, and a name and a dictionary that is a form of its own. -/
theorem reads_forms_of_mixed :
    let own : Value := .dict [(.text "x", .int 1)]
    let loose : Value := .dict [(.text "name", .text "c"), (.text "other", .int 2)]
    List.Forall₂ Written [.bare "a", ⟨"b", own⟩, .bare "c"]
        [.text "a", .tuple [.text "b", own], loose] ∧
      ofValue (.list [.text "a", .tuple [.text "b", own], loose]) =
        .ok (.list [.bare "a", ⟨"b", own⟩, .bare "c"]) ∧
      ofValue (.tuple [.text "a", .tuple [.text "b", own], loose]) =
        .ok (.list [.bare "a", ⟨"b", own⟩, .bare "c"]) ∧
      List.Forall₂ Written [.bare "a", .bare "c"] [.text "a", loose] ∧
      ofValue (.list [.text "a", loose]) = .ok (.list [.bare "a", .bare "c"]) ∧
      ofValue (.tuple [.text "a", loose]) = .ok (.single ⟨"a", loose⟩) ∧
      ofValue (.list [.text "a", .int 3, .null]) = .error (.selector (.int 3)) := by
  intro own loose
  have first : Written (.bare "a") (.text "a") := .name "a"
  have second : Written ⟨"b", own⟩ (.tuple [.text "b", own]) := .pair "b" (.inr ⟨_, rfl⟩)
  have third : Written (.bare "c") loose := .bareDict rfl rfl
  have three : List.Forall₂ Written [.bare "a", ⟨"b", own⟩, .bare "c"]
      [.text "a", .tuple [.text "b", own], loose] :=
    .cons first (.cons second (.cons third .nil))
  have two : List.Forall₂ Written [.bare "a", .bare "c"] [.text "a", loose] :=
    .cons first (.cons third .nil)
  obtain ⟨_, refuses, _, rows⟩ := reads_forms
  obtain ⟨asList, asTuple, _⟩ := rows _ _ three
  obtain ⟨pairAsList, _, asPair⟩ := rows _ _ two
  have wrong : Refuses (.list [.text "a", .int 3, .null]) (.int 3) :=
    @Refuses.inList [.text "a"] [.null] (.int 3) (List.forall_mem_singleton.2 ⟨_, first⟩)
      (by rintro s ⟨⟩)
  exact ⟨three, asList, asTuple (by simp), two, pairAsList, asPair _ _ rfl (.inr ⟨_, rfl⟩),
    (refuses _ _).2 ⟨_, wrong, rfl⟩⟩

end Selection

end Stencil
