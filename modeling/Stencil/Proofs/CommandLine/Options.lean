import Stencil.Proofs.CommandLine.Selections
import Stencil.Proofs.CommandLine.Spelling
import Stencil.Proofs.Template.Search

/-!
# Options of rendering

* `run_options`: a named context file is loaded, and a named block is rendered or missed; an empty
  name is no name.
-/

namespace Stencil

namespace Text

/-- A text in quotes ends with its quote. -/
theorem getLast?_quote (s : String) : ∃ mark, (quote s).toList.getLast? = some mark ∧
    isBlank mark = false := by
  have marked (hasSingle hasDouble : Bool) : isBlank (enclosing hasSingle hasDouble) = false := by
    cases hasSingle <;> cases hasDouble <;> decide
  refine ⟨_, ?_, marked (s.toList.contains '\'') (s.toList.contains '"')⟩
  rw [quote, String.toList_ofList]
  exact List.getLast?_concat

theorem trimEnd_of_last {s : String} {c : Char} (last : s.toList.getLast? = some c)
    (solid : isBlank c = false) : trimEnd s = s := by
  have whole : trimRight (s.toList ++ []) = s.toList := by
    refine trimRight_of_around (by simp) fun d found => ?_
    obtain rfl : c = d := Option.some.inj (last.symm.trans found)
    exact solid
  rw [List.append_nil] at whole
  rw [trimEnd, whole, String.ofList_toList]

end Text

namespace CommandLine

/-- The line that tells of a block that is not there. -/
theorem line_notFound (name : String) :
    (Complaint.error (.notFound name)).line = "Template not found: " ++ Text.quote name := by
  obtain ⟨mark, last, solid⟩ := Text.getLast?_quote name
  have message : (Error.notFound name).message = "Template not found: " ++ Text.quote name := rfl
  rw [Complaint.line, message]
  refine @Text.trimEnd_of_last _ mark ?_ solid
  rw [String.toList_append, List.getLast?_append, last]
  rfl

/-- **Options that name something are heeded.** In a run that renders a template that can be
compiled, a context file that is named is loaded, and everything is rendered under the context in
it; if it cannot be loaded, its error ends the run without output. A block that is named is looked
up, and is rendered if there is one; if there is none, the run fails and says so. An empty name is
no name: it leaves the shared context empty, and asks for the whole template. -/
theorem run_options {files : Files} {log : Log} {i : Invocation} {debug : Bool}
    {template : String} {context? : Option String} {mode : Mode} {source : String} {t : Template}
    (asked : Request.ofArguments i.arguments = .ok ⟨debug, .render template context? mode⟩)
    (read : readTemplate files i.input template = .ok source)
    (compiled : (compile source).result = .ok t) :
    let outcome := (run files ⟨log, .empty⟩ i).1
    let under (shared : Context) :=
      Outcome.of ((i.log log).passed (compile source).trace) (mode.render files t shared).result
    (∀ file, context? = some file → file ≠ "" →
      (∃ pairs, readContext files (.ofText file) = .ok pairs ∧ outcome = under (.ofChecked pairs)) ∨
      ∃ e, readContext files (.ofText file) = .error e ∧ outcome.output = "" ∧
        outcome.ending = .ofError e) ∧
    (context?.getD "" = "" → outcome = under (.dict [])) ∧
    ∀ name, mode = .block name → ∀ shared, (sharedContext files context?).result = .ok shared →
      (name ≠ "" →
        (∃ site text, t.search name = some site ∧ site.template.render shared = .ok text ∧
          outcome.output = text ∧ outcome.ending = .success) ∨
        (t.search name = none ∧ outcome.output = "" ∧ outcome.ending.exit? = some 2 ∧
          outcome.ending.words = "Template not found: " ++ Text.quote name ++ "\n")) ∧
      (name = "" → ∃ text, t.render shared = .ok text ∧ outcome.output = text ∧
        outcome.ending = .success) := by
  intro outcome under
  have outcome_eq := run_render log asked read compiled
  rw [result_rendering] at outcome_eq
  refine ⟨fun file given named => ?_, fun empty => ?_, fun name block shared loaded => ?_⟩
  · rw [given, result_sharedContext_of_named files named] at outcome_eq
    cases loaded : readContext files (.ofText file) with
    | ok pairs =>
      rw [loaded] at outcome_eq
      exact .inl ⟨pairs, rfl, outcome_eq⟩
    | error e =>
      rw [loaded] at outcome_eq
      exact .inr ⟨e, rfl, congrArg Outcome.output outcome_eq, congrArg Outcome.ending outcome_eq⟩
  · rw [result_sharedContext_of_empty files empty] at outcome_eq
    exact outcome_eq
  · have checked := sharedContext_isChecked loaded
    rw [loaded, Except.bind, block, Mode.render, Loading.result_ofExcept] at outcome_eq
    refine ⟨fun named => ?_, fun empty => ?_⟩
    · have nonempty : ¬ name.isEmpty = true := by rwa [String.isEmpty_iff]
      rw [if_neg nonempty, Template.renderBlock, Template.find] at outcome_eq
      cases found : t.search name with
      | none =>
        rw [found] at outcome_eq
        have ending : outcome.ending = .failure (.error (.notFound name)) :=
          congrArg Outcome.ending outcome_eq
        refine .inr ⟨rfl, congrArg Outcome.output outcome_eq, ?_, ?_⟩
        · rw [ending]
          rfl
        · rw [ending, Ending.words, line_notFound]
      | some site =>
        obtain ⟨text, shown⟩ := site.template.render_of_isChecked checked
        rw [found] at outcome_eq
        dsimp only [bind, Except.bind] at outcome_eq
        rw [shown] at outcome_eq
        exact .inl ⟨site, text, rfl, shown, congrArg Outcome.output outcome_eq,
          congrArg Outcome.ending outcome_eq⟩
    · obtain ⟨text, shown⟩ := t.render_of_isChecked checked
      have isEmpty : name.isEmpty = true := String.isEmpty_iff.2 empty
      rw [if_pos isEmpty, shown] at outcome_eq
      exact ⟨text, shown, congrArg Outcome.output outcome_eq, congrArg Outcome.ending outcome_eq⟩

theorem run_options_of_block :
    let files : Files := fun _ => some []
    let source := "Hi. \x7b\x7bt A\x7d\x7d\x7b\x7by\x7d\x7da\x7b\x7b/t\x7d\x7d"
    let t : Template := ⟨rootName, [.text "Hi. ", .block "A" [.expression "y", .text "a"]]⟩
    let i : Invocation :=
      ⟨["render", "-", "-c", "empty", "--block", "A"], source.toUTF8.toList, none, usualNesting⟩
    Request.ofArguments i.arguments = .ok ⟨false, .render "-" (some "empty") (.block "A")⟩ ∧
      readTemplate files i.input "-" = .ok source ∧ (compile source).result = .ok t ∧
      ∃ site text, t.search "A" = some site ∧ site.template.render (.dict []) = .ok text ∧
        (run files .fresh i).1.output = text := by
  intro files source t i
  have word : IsPlain "empty" := .inl (by decide +kernel)
  have name : IsPlain "A" := .inl (by decide +kernel)
  have asked : Request.ofArguments i.arguments =
      .ok ⟨false, .render "-" (some "empty") (.block "A")⟩ :=
    @Request.ofArguments_block "-" (.inr rfl) [.context "empty" word, .block "A" name]
      (by simp [Given.context, Given.block])
  have read : readTemplate files i.input "-" = .ok source := eq_ok_of_toOption (by decide +kernel)
  have compiled : (compile source).result = .ok t := by
    rw [compile_eq_ok_iff]
    simp only [source, t, ReadAs, Entry.lexemes, List.nil_append, List.cons_append]
    decide +kernel
  have found : t.search "A" = some ⟨[0], ⟨"A", [.expression "y", .text "a"]⟩⟩ := by
    simp [t, Template.search, Site.firstBelow, Site.below, Template.children, List.filterMap_cons,
      Entry.template?, rootName]
  have loaded : (sharedContext files (some "empty")).result = .ok (.dict []) := by
    rw [result_sharedContext_of_named files (by decide), readContext_of_empty rfl]
    rfl
  obtain ⟨-, -, blocks⟩ := @run_options files .fresh i _ _ _ _ _ _ asked read compiled
  rcases (blocks "A" rfl _ loaded).1 (by decide) with ⟨site, text, site?, shown, output, -⟩ | lost
  · exact ⟨asked, read, compiled, site, text, site?, shown, output⟩
  · rw [found] at lost
    cases lost.1

/-- A block with an empty name is asked for, there is none, and all of the template is printed. -/
theorem run_empty_block :
    let files : Files := fun _ => none
    let source := "Hi. \x7b\x7bt A\x7d\x7da\x7b\x7b/t\x7d\x7d"
    let t : Template := ⟨rootName, [.text "Hi. ", .block "A" [.text "a"]]⟩
    let i : Invocation :=
      ⟨["render", "-", "--block", ""], source.toUTF8.toList, none, usualNesting⟩
    Request.ofArguments i.arguments = .ok ⟨false, .render "-" none (.block "")⟩ ∧
      readTemplate files i.input "-" = .ok source ∧ (compile source).result = .ok t ∧
      t.search "" = none ∧
      (run files .fresh i).1.output = "Hi. a" ∧ (run files .fresh i).1.ending.exit? = some 0 := by
  intro files source t i
  have name : IsPlain "" := .inl (by decide +kernel)
  have asked : Request.ofArguments i.arguments = .ok ⟨false, .render "-" none (.block "")⟩ :=
    @Request.ofArguments_block "-" (.inr rfl) [.block "" name] (by simp [Given.block])
  have read : readTemplate files i.input "-" = .ok source := eq_ok_of_toOption (by decide +kernel)
  have compiled : (compile source).result = .ok t := by
    rw [compile_eq_ok_iff]
    simp only [source, t, ReadAs, Entry.lexemes, List.nil_append, List.cons_append]
    decide +kernel
  have missing : t.search "" = none := by
    simp [t, Template.search, Site.firstBelow, Site.below, Template.children, List.filterMap_cons,
      Entry.template?, rootName]
  have whole : t.render (.dict []) = .ok "Hi. a" := by
    simp [t, Template.render, Entry.renderAll_eq, Entry.lexemes, Lexeme.output, Except.map]
  have result : (rendering files t none (.block "")).result = .ok "Hi. a" := by
    rw [result_rendering, result_sharedContext_of_empty files rfl, Except.bind, Mode.render,
      Loading.result_ofExcept, if_pos (by decide), whole]
  have outcome := run_render .fresh asked read compiled
  rw [result] at outcome
  refine ⟨asked, read, compiled, missing, congrArg Outcome.output outcome, ?_⟩
  have ending : (run files .fresh i).1.ending = .success := congrArg Outcome.ending outcome
  rw [ending]
  rfl

end CommandLine

end Stencil
