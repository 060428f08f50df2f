import Mathlib.Data.List.Forall2
import Stencil.Proofs.CommandLine.Spelling
import Stencil.Proofs.Selector.Forms
import Stencil.Proofs.Template.Checked
import Stencil.Proofs.Template.Grammar
import Stencil.Proofs.Text.Padding

/-!
# Selectors on the command line

* `Item.Means`, `Item.Fails`: what an item stands for, and why it stands for nothing;
* `Item.result_of_means`, `Item.result_of_fails`, `Item.means_or_fails`: this is what reading an
  item comes to;
* `Choice`: the options that take items, with the modes and the renderings that they ask for;
* `Choice.ofArguments_items`: arguments that ask for a choice;
* `run_choice`: a run prints what the selectors of its items render, or fails with the first item
  that stands for nothing.
-/

namespace Stencil

namespace CommandLine

/-! ## What an item stands for -/

namespace Item

/-- The text has a name that is not empty in it, and blanks around it, and no colon. -/
structure IsName (name padded : String) : Prop where
  pads : Text.Pads name padded
  nonempty : name ≠ ""
  clear : ':' ∉ padded.toList

/-- A name stands for a selector without a context, and one with a colon and the path of a context
file behind it for a selector with that context. -/
inductive Means (files : Files) : String → Selector → Prop
  | bare {name padded : String} (named : IsName name padded) : Means files padded (.bare name)
  | own {name padded path behind : String} {pairs : List (String × Value)}
      (named : IsName name padded) (pads : Text.Pads path behind)
      (loaded : readContext files (.ofText path) = .ok pairs) :
      Means files (padded ++ ":" ++ behind) ⟨name, .ofChecked pairs⟩

/-- An item stands for nothing if nothing but blanks stands before its first colon, or if the file
behind it cannot be loaded. -/
inductive Fails (files : Files) : String → Error → Prop
  | blank {front item : String} (blank : ∀ c ∈ front.toList, Text.isBlank c = true)
      (stops : item = front ∨ ∃ behind, item = front ++ ":" ++ behind) :
      Fails files item (.blankSelector item)
  | unloadable {name padded path behind : String} {e : Error} (named : IsName name padded)
      (pads : Text.Pads path behind) (failed : readContext files (.ofText path) = .error e) :
      Fails files (padded ++ ":" ++ behind) e

theorem takeWhile_clear {front : List Char} (clear : ':' ∉ front) {behind : List Char}
    (stop : ∀ c, behind.head? = some c → c = ':') :
    (front ++ behind).takeWhile (· != ':') = front := by
  apply takeWhile_stretch
  · intro c member
    rw [bne_iff_ne]
    rintro rfl
    exact clear member
  · intro c found
    rw [stop c found]
    rfl

/-- Reading an item without a colon. -/
theorem result_of_clear (files : Files) {item : String} (clear : ':' ∉ item.toList) :
    (selectorOf files (some item)).result =
      if (Text.trim item).isEmpty then .error (.blankSelector item)
      else .ok (.bare (Text.trim item)) := by
  have front : item.toList.takeWhile (· != ':') = item.toList := by
    have whole := @takeWhile_clear item.toList clear [] (by simp)
    rwa [List.append_nil] at whole
  unfold selectorOf
  simp only [front, List.drop_length, String.ofList_toList]
  split <;> rfl

/-- Reading an item with a colon. -/
theorem result_of_colon (files : Files) {front : String} (clear : ':' ∉ front.toList)
    (behind : String) :
    (selectorOf files (some (front ++ ":" ++ behind))).result =
      if (Text.trim front).isEmpty then .error (.blankSelector (front ++ ":" ++ behind))
      else (readContext files (.ofText (Text.trim behind))).map fun pairs =>
        ⟨Text.trim front, .ofChecked pairs⟩ := by
  have parts : (front ++ ":" ++ behind).toList = front.toList ++ ':' :: behind.toList := by simp
  have taken : (front.toList ++ ':' :: behind.toList).takeWhile (· != ':') = front.toList :=
    takeWhile_clear clear (by simp)
  unfold selectorOf
  simp only [parts, taken, List.drop_left, String.ofList_toList]
  split
  · rfl
  · rw [Loading.result_bind (loadContext_settles files _), result_loadContext]
    cases readContext files (.ofText (Text.trim behind)) <;> rfl

variable {files : Files} {item : String}

theorem IsName.trim_eq {name padded : String} (h : IsName name padded) :
    Text.trim padded = name := Text.trim_eq_iff.2 h.pads

theorem IsName.not_isEmpty {name padded : String} (h : IsName name padded) :
    ¬ (Text.trim padded).isEmpty = true := by
  rw [h.trim_eq, String.isEmpty_iff]
  exact h.nonempty

theorem isName_trim {front : String} (clear : ':' ∉ front.toList)
    (nonempty : Text.trim front ≠ "") : IsName (Text.trim front) front :=
  ⟨Text.trim_pads front, nonempty, clear⟩

/-- An item that stands for a selector is read as this selector. -/
theorem result_of_means {s : Selector} (h : Means files item s) :
    (selectorOf files (some item)).result = .ok s := by
  cases h with
  | bare named => rw [result_of_clear files named.clear, if_neg named.not_isEmpty, named.trim_eq]
  | own named pads loaded =>
    rw [result_of_colon files named.clear, if_neg named.not_isEmpty, named.trim_eq,
      Text.trim_eq_iff.2 pads, loaded]
    rfl

/-- An item that stands for nothing fails as it is read. -/
theorem result_of_fails {e : Error} (h : Fails files item e) :
    (selectorOf files (some item)).result = .error e := by
  cases h with
  | @blank front _ blank stops =>
    have clear : ':' ∉ front.toList := fun member => by cases blank ':' member
    have empty : (Text.trim front).isEmpty = true := by
      rw [String.isEmpty_iff, Text.trim_eq_empty_iff]
      exact blank
    rcases stops with rfl | ⟨behind, rfl⟩
    · rw [result_of_clear files clear, if_pos empty]
    · rw [result_of_colon files clear, if_pos empty]
  | unloadable named pads failed =>
    rw [result_of_colon files named.clear, if_neg named.not_isEmpty, Text.trim_eq_iff.2 pads,
      failed]
    rfl

/-- A text has no colon, or there is a first one. -/
theorem clear_or_colon (item : String) :
    ':' ∉ item.toList ∨
      ∃ front behind : String, ':' ∉ front.toList ∧ item = front ++ ":" ++ behind := by
  by_cases clear : ':' ∉ item.toList
  · exact .inl clear
  · obtain ⟨front, behind, split, before⟩ := List.eq_append_cons_of_mem (not_not.1 clear)
    refine .inr ⟨String.ofList front, String.ofList behind, by simpa using before, ?_⟩
    apply String.toList_injective
    simp [split]

/-- There is no third kind of items. -/
theorem means_or_fails (files : Files) (item : String) :
    (∃ s, Means files item s) ∨ ∃ e, Fails files item e := by
  rcases clear_or_colon item with clear | ⟨front, behind, clear, rfl⟩
  · by_cases empty : Text.trim item = ""
    · exact .inr ⟨_, .blank (Text.trim_eq_empty_iff.1 empty) (.inl rfl)⟩
    · exact .inl ⟨_, .bare (isName_trim clear empty)⟩
  · by_cases empty : Text.trim front = ""
    · exact .inr ⟨_, .blank (Text.trim_eq_empty_iff.1 empty) (.inr ⟨behind, rfl⟩)⟩
    · have named := isName_trim clear empty
      cases outcome : readContext files (.ofText (Text.trim behind)) with
      | ok pairs => exact .inl ⟨_, .own named (Text.trim_pads behind) outcome⟩
      | error e => exact .inr ⟨e, .unloadable named (Text.trim_pads behind) outcome⟩

theorem isChecked_of_means {s : Selector} (h : Means files item s) : s.IsChecked := by
  cases h with
  | bare _ => exact .inl rfl
  | own _ _ loaded => exact .inr (readContext_isChecked loaded)

/-- A context behind a colon is the selector's own, even if there is nothing in it. -/
theorem contextOr_of_colon {s : Selector} (h : Means files item s) (colon : ':' ∈ item.toList)
    (shared : Context) : s.contextOr shared = s.context := by
  cases h with
  | bare named => exact absurd colon named.clear
  | own => rfl

end Item

/-! ## Items in order -/

theorem isChecked_of_forall₂ {files : Files} {items : List String} {selectors : List Selector}
    (means : List.Forall₂ (Item.Means files) items selectors) :
    ∀ s ∈ selectors, s.IsChecked := by
  induction means with
  | nil => simp
  | cons first _ ih => exact List.forall_mem_cons.2 ⟨Item.isChecked_of_means first, ih⟩

/-- The selection that selectors make: one of them is a single selector, and several are a list. -/
def selectionOfSelectors : List Selector → Selection
  | [s] => .single s
  | selectors => .list selectors

theorem selectors_selectionOfSelectors (selectors : List Selector) :
    (selectionOfSelectors selectors).selectors = selectors := by
  unfold selectionOfSelectors
  split <;> rfl

theorem result_selectionOf (files : Files) (items : List Item) :
    (selectionOf files items).result =
      (items.mapM fun item => (selectorOf files item).result).map selectionOfSelectors := by
  unfold selectionOf
  rw [Loading.result_bind (.mapM (selectorOf_settles files) items),
    Loading.result_mapM (selectorOf_settles files)]
  match items.mapM fun item => (selectorOf files item).result with
  | .error _ => rfl
  | .ok [] => rfl
  | .ok [_] => rfl
  | .ok (_ :: _ :: _) => rfl

/-- An option that takes items: for the selected blocks alone, for all but them, or for everything
with the selected blocks under contexts of their own. -/
inductive Choice where
  | only
  | except
  | overriding

namespace Choice

def mode (items : List String) : Choice → Mode
  | only => .only (items.map some)
  | except => .except (items.map some)
  | overriding => .overriding (items.map some)

/-- The option that items are given with. -/
def flag : Choice → Flag
  | only => .only
  | except => .except
  | overriding => .some

/-- An item with the option for it. -/
def given (item : String) (plain : IsPlain item) : Choice → Given
  | only => ⟨⟨.only, ["--only"], true⟩, "--only", item, by decide, rfl, by decide, plain⟩
  | except => ⟨⟨.except, ["--except"], true⟩, "--except", item, by decide, rfl, by decide, plain⟩
  | overriding => ⟨⟨.some, ["--some"], true⟩, "--some", item, by decide, rfl, by decide, plain⟩

def render (t : Template) (selection : Selection) (shared : Context) :
    Choice → Except Error String
  | only => t.renderOnly selection shared
  | except => t.renderExcept selection shared
  | overriding => t.renderSome selection shared

theorem foldl_add_mode (choice : Choice) (front items : List String) :
    items.foldl (fun mode item => mode.add choice.flag (some item)) (choice.mode front) =
      choice.mode (front ++ items) := by
  induction items generalizing front with
  | nil => rw [List.append_nil, List.foldl_nil]
  | cons item rest ih =>
    have added : (choice.mode front).add choice.flag (some item) =
        choice.mode (front ++ [item]) := by
      cases choice <;> simp [mode, flag, Mode.add]
    rw [List.foldl_cons, added, ih, List.append_assoc, List.singleton_append]

/-- Behind a template, contexts and items that are spelled out ask for a choice of these items. -/
theorem ofArguments_items {template : String} (plain : IsPlain template) (choice : Choice)
    {given : List Given}
    (only : ∀ g ∈ given, g.option.flag = .context ∨ g.option.flag = choice.flag)
    {first : String} {rest : List String}
    (items : (given.filter fun g => g.option.flag = choice.flag).map Given.value = first :: rest) :
    Request.ofArguments ("render" :: template :: given.flatMap Given.spelled) =
      .ok ⟨false, .render template
        ((given.filter fun g => g.option.flag = .context).getLast?.map Given.value)
        (choice.mode (first :: rest))⟩ := by
  have known : choice.flag ∈ modeOptions.map Opt.flag := by cases choice <;> decide
  have start : Mode.whole.add choice.flag (some first) = choice.mode [first] := by
    cases choice <;> rfl
  rw [Request.ofArguments_of_flag plain known only, items, List.foldl_cons, start, foldl_add_mode]
  rfl

theorem result_render_mode (choice : Choice) (files : Files) (t : Template) (shared : Context)
    (items : List String) :
    ((choice.mode items).render files t shared).result =
      (items.mapM fun item => (selectorOf files (some item)).result).bind fun selectors =>
        choice.render t (selectionOfSelectors selectors) shared := by
  have selection : (selectionOf files (items.map some)).result =
      (items.mapM fun item => (selectorOf files (some item)).result).map
        selectionOfSelectors := by
    rw [result_selectionOf, List.mapM_map]
    rfl
  have read := selectionOf_settles files (items.map some)
  cases choice <;>
    · simp only [mode, Mode.render, render]
      rw [Loading.result_bind read, selection]
      cases items.mapM fun item => (selectorOf files (some item)).result <;>
        simp [Except.bind, Except.map, Loading.result_ofExcept]

theorem render_of_isChecked (choice : Choice) (t : Template) {shared : Context}
    (checked : shared.IsChecked) {selection : Selection}
    (own : ∀ s ∈ selection.selectors, s.IsChecked) :
    ∃ text, choice.render t selection shared = .ok text := by
  cases choice with
  | only => exact t.renderOnly_of_isChecked checked own
  | except => exact t.renderExcept_of_isChecked checked selection
  | overriding => exact t.renderSome_of_isChecked checked own

end Choice

theorem sharedContext_isChecked {files : Files} {file? : Option String} {shared : Context}
    (h : (sharedContext files file?).result = .ok shared) : shared.IsChecked := by
  by_cases empty : file?.getD "" = ""
  · rw [result_sharedContext_of_empty files empty] at h
    cases h
    exact Context.isChecked_empty
  · cases file? with
    | none => exact absurd rfl empty
    | some file =>
      have named : file ≠ "" := empty
      rw [result_sharedContext_of_named files named] at h
      cases loaded : readContext files (.ofText file) with
      | error e =>
        rw [loaded] at h
        cases h
      | ok pairs =>
        rw [loaded] at h
        cases h
        exact readContext_isChecked loaded

/-! ## Runs -/

theorem items_cases (files : Files) (items : List String) :
    (∃ selectors, List.Forall₂ (Item.Means files) items selectors) ∨
      ∃ before item after e, items = before ++ item :: after ∧
        (∀ earlier ∈ before, ∃ s, Item.Means files earlier s) ∧ Item.Fails files item e := by
  induction items with
  | nil => exact .inl ⟨[], .nil⟩
  | cons first rest ih =>
    rcases Item.means_or_fails files first with ⟨s, means⟩ | ⟨e, fails⟩
    · rcases ih with ⟨selectors, others⟩ | ⟨before, item, after, e, rfl, earlier, fails⟩
      · exact .inl ⟨s :: selectors, .cons means others⟩
      · exact .inr ⟨first :: before, item, after, e, rfl,
          List.forall_mem_cons.2 ⟨⟨s, means⟩, earlier⟩, fails⟩
    · exact .inr ⟨[], first, rest, e, rfl, by simp, fails⟩

/-- What comes of a choice: the selectors are read in order, and then rendered. -/
theorem run_choice_eq {files : Files} (log : Log) {i : Invocation} {debug : Bool}
    {template : String} {context? : Option String} {choice : Choice} {items : List String}
    {source : String} {t : Template} {shared : Context}
    (asked : Request.ofArguments i.arguments =
      .ok ⟨debug, .render template context? (choice.mode items)⟩)
    (read : readTemplate files i.input template = .ok source)
    (compiled : (compile source).result = .ok t)
    (loaded : (sharedContext files context?).result = .ok shared) :
    (run files ⟨log, .empty⟩ i).1 = .of ((i.log log).passed (compile source).trace)
      ((items.mapM fun item => (selectorOf files (some item)).result).bind fun selectors =>
        choice.render t (selectionOfSelectors selectors) shared) := by
  rw [run_render log asked read compiled, result_rendering, loaded, ← choice.result_render_mode]
  rfl

/-- **Selectors on the command line mean what selectors mean.** A run that is asked for a choice of
blocks of a template that can be compiled, under a shared context that can be loaded, prints what
the choice renders for the selectors that its items stand for: for a single one if there is one
item, and for the list of all of them, in order, if there are several. A context behind a colon is
the selector's own. If an item stands for nothing, then the first such item decides the error, and
nothing is printed. -/
theorem run_choice {files : Files} {log : Log} {i : Invocation} {debug : Bool}
    {template : String} {context? : Option String} {choice : Choice} {items : List String}
    {source : String} {t : Template} {shared : Context}
    (asked : Request.ofArguments i.arguments =
      .ok ⟨debug, .render template context? (choice.mode items)⟩)
    (read : readTemplate files i.input template = .ok source)
    (compiled : (compile source).result = .ok t)
    (loaded : (sharedContext files context?).result = .ok shared) :
    let outcome := (run files ⟨log, .empty⟩ i).1
    (∀ selectors, List.Forall₂ (Item.Means files) items selectors →
      ∃ text, choice.render t (selectionOfSelectors selectors) shared = .ok text ∧
        outcome.output = text ∧ outcome.ending = .success) ∧
    (∀ before item after e, items = before ++ item :: after →
      (∀ earlier ∈ before, ∃ s, Item.Means files earlier s) → Item.Fails files item e →
      outcome.output = "" ∧ outcome.ending = .ofError e ∧
        (e.isForeseen = true → outcome.ending.exit? = some 2)) ∧
    (∀ item s, Item.Means files item s → ':' ∈ item.toList →
      ∀ other, s.contextOr other = s.context) ∧
    ((∃ selectors, List.Forall₂ (Item.Means files) items selectors) ∨
      ∃ before item after e, items = before ++ item :: after ∧
        (∀ earlier ∈ before, ∃ s, Item.Means files earlier s) ∧ Item.Fails files item e) := by
  intro outcome
  have outcome_eq := run_choice_eq log asked read compiled loaded
  refine ⟨fun selectors means => ?_, fun before item after e split earlier fails => ?_,
    fun _ _ means colon => Item.contextOr_of_colon means colon, items_cases files items⟩
  · have own : ∀ s ∈ (selectionOfSelectors selectors).selectors, s.IsChecked := by
      rw [selectors_selectionOfSelectors]
      exact isChecked_of_forall₂ means
    obtain ⟨text, shown⟩ := choice.render_of_isChecked t (sharedContext_isChecked loaded) own
    have selected := mapM_of_forall₂ (means.imp fun _ _ => Item.result_of_means)
    rw [selected, Except.bind, shown] at outcome_eq
    exact ⟨text, shown, congrArg Outcome.output outcome_eq, congrArg Outcome.ending outcome_eq⟩
  · have failed : (items.mapM fun item => (selectorOf files (some item)).result) = .error e := by
      rw [split]
      exact mapM_of_first (fun a member => (earlier a member).imp fun _ => Item.result_of_means)
        (Item.result_of_fails fails)
    rw [failed, Except.bind] at outcome_eq
    have ending : outcome.ending = .ofError e := congrArg Outcome.ending outcome_eq
    refine ⟨congrArg Outcome.output outcome_eq, ending, fun foreseen => ?_⟩
    rw [ending, Ending.ofError, if_pos foreseen]
    rfl

/-- A single name between blanks and a name with an empty file for its context. -/
theorem run_choice_of_two :
    let files : Files := fun _ => some []
    let source := "\x7b\x7bt A\x7d\x7dx\x7b\x7b/t\x7d\x7d" ++
      "\x7b\x7bt B\x7d\x7d\x7b\x7by\x7d\x7d\x7b\x7b/t\x7d\x7d"
    let t : Template := ⟨rootName, [.block "A" [.text "x"], .block "B" [.expression "y"]]⟩
    let i : Invocation :=
      ⟨["render", "-", "--some", " A ", "--some", "B:own"], source.toUTF8.toList, none,
        usualNesting⟩
    let items := [" A ", "B:own"]
    Request.ofArguments i.arguments =
        .ok ⟨false, .render "-" none (Choice.overriding.mode items)⟩ ∧
      readTemplate files i.input "-" = .ok source ∧
      (compile source).result = .ok t ∧
      (sharedContext files none).result = .ok (.dict []) ∧
      ∃ text, t.renderSome (.list [.bare "A", ⟨"B", .dict []⟩]) (.dict []) = .ok text ∧
        (run files .fresh i).1.output = text := by
  intro files source t i items
  have word : IsPlain " A " := .inl (by decide +kernel)
  have other : IsPlain "B:own" := .inl (by decide +kernel)
  have asked : Request.ofArguments i.arguments =
      .ok ⟨false, .render "-" none (Choice.overriding.mode items)⟩ :=
    @Choice.ofArguments_items "-" (.inr rfl) .overriding
      [Choice.overriding.given " A " word, Choice.overriding.given "B:own" other]
      (by simp [Choice.given, Choice.flag]) _ _ rfl
  have read : readTemplate files i.input "-" = .ok source := eq_ok_of_toOption (by decide +kernel)
  have compiled : (compile source).result = .ok t := by
    rw [compile_eq_ok_iff]
    simp only [source, t, ReadAs, Entry.lexemes, List.nil_append, List.cons_append]
    decide +kernel
  have loaded : (sharedContext files none).result = .ok (.dict []) := rfl
  have first : Item.Means files " A " (.bare "A") :=
    .bare ⟨Text.trim_eq_iff.1 (by decide +kernel), by decide, by decide⟩
  have empty : readContext files (.ofText "own") = .ok [] := readContext_of_empty rfl
  have second : Item.Means files ("B" ++ ":" ++ "own") ⟨"B", .dict []⟩ :=
    .own ⟨Text.trim_eq_iff.1 (by decide +kernel), by decide, by decide⟩
      (Text.trim_eq_iff.1 (by decide +kernel)) empty
  obtain ⟨means, -⟩ := run_choice asked read compiled loaded
  obtain ⟨text, shown, output, -⟩ := means _ (.cons first (.cons second .nil))
  exact ⟨asked, read, compiled, loaded, text, shown, output⟩

/-- The content of a file may break the run instead of failing it. -/
theorem run_choice_broken :
    let files : Files := fun _ => some "a: !!int ''\n".toUTF8.toList
    let source := "\x7b\x7bt A\x7d\x7dx\x7b\x7b/t\x7d\x7d"
    let i : Invocation :=
      ⟨["render", "-", "--only", "A:idx.yaml"], source.toUTF8.toList, none, usualNesting⟩
    Request.ofArguments i.arguments =
        .ok ⟨false, .render "-" none (Choice.only.mode ["A:idx.yaml"])⟩ ∧
      readTemplate files i.input "-" = .ok source ∧
      (∃ t, (compile source).result = .ok t) ∧
      (sharedContext files none).result = .ok (.dict []) ∧
      (∃ e, Item.Fails files "A:idx.yaml" e) ∧
      (run files .fresh i).1.ending.exit? = none := by
  intro files source i
  have word : IsPlain "A:idx.yaml" := .inl (by decide +kernel)
  have asked : Request.ofArguments i.arguments =
      .ok ⟨false, .render "-" none (Choice.only.mode ["A:idx.yaml"])⟩ :=
    @Choice.ofArguments_items "-" (.inr rfl) .only [Choice.only.given "A:idx.yaml" word]
      (by simp [Choice.given, Choice.flag]) _ _ rfl
  have read : readTemplate files i.input "-" = .ok source := eq_ok_of_toOption (by decide +kernel)
  have compiled : (compile source).result = .ok ⟨rootName, [.block "A" [.text "x"]]⟩ := by
    rw [compile_eq_ok_iff]
    simp only [source, ReadAs, Entry.lexemes, List.nil_append, List.cons_append]
    decide +kernel
  have loaded : (sharedContext files none).result = .ok (.dict []) := rfl
  have text : readText "a: !!int ''\n".toUTF8.toList = .ok "a: !!int ''\n" := by decide +kernel
  have document : (Yaml.load .empty "a: !!int ''\n").1 = .error (.content .noDigits) := by
    have fault : ((Yaml.load .empty "a: !!int ''\n").1.map fun _ => ()) =
        .error (.content .noDigits) := by
      decide +kernel
    cases outcome : (Yaml.load .empty "a: !!int ''\n").1 with
    | ok v =>
      rw [outcome] at fault
      cases fault
    | error f =>
      rw [outcome] at fault
      cases fault
      rfl
  have failed : readContext files (.ofText "idx.yaml") = .error (.content .noDigits) := by
    rw [readContext_of_text rfl text, document]
    rfl
  have parts : "A" ++ ":" ++ "idx.yaml" = "A:idx.yaml" := by decide +kernel
  have named : Item.IsName "A" "A" :=
    ⟨Text.trim_eq_iff.1 (by decide +kernel), by decide, by decide⟩
  have pads : Text.Pads "idx.yaml" "idx.yaml" := Text.trim_eq_iff.1 (by decide +kernel)
  have fails : Item.Fails files "A:idx.yaml" (.content .noDigits) := by
    rw [← parts]
    exact .unloadable named pads failed
  have outcome := run_choice_eq .fresh asked read compiled loaded
  rw [List.mapM_cons, Item.result_of_fails fails] at outcome
  have ending : (run files .fresh i).1.ending = .ofError (.content .noDigits) :=
    congrArg Outcome.ending outcome
  refine ⟨asked, read, ⟨_, compiled⟩, loaded, ⟨_, fails⟩, ?_⟩
  rw [ending]
  rfl

end CommandLine

end Stencil
