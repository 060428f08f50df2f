import Mathlib
import Stencil.Proofs.CommandLine.Process
import Stencil.Proofs.Files.Loading
import Stencil.Proofs.Json.Rendering
import Stencil.Proofs.Template.Drafting
import Stencil.Proofs.Template.Grammar

/-!
# Listings of tokens and of blocks

* `Token.datum`, `Outline.datum`: what is to be told of a token, and of an outline;
* `Outline.height`: how many nodes stand below one another in an outline;
* `depth_outlineJson`: every node of an outline is an object with an array in it;
* `Outcome.Prints`: a run succeeds and prints a text that says a datum;
* `Outcome.Refuses`: a run fails in an orderly way without printing anything;
* `Outcome.Collapses`: a run is broken off because what it should print is nested too deep;
* `listings_faithful`: what the commands that list tokens and blocks print, and when they print
  nothing;
* `compile_nest`: blocks inside of one another, as many as one likes, can be compiled;
* `run_tree_nest_collapses`: but their list cannot be printed if there are too many of them.
-/

namespace Stencil

open Json (Datum Decoder Says)

/-- The kind of a token, what it carries and where it begins. -/
def Token.datum (t : Token) : Datum :=
  .object [
    ("type", .text t.lexeme.kind),
    ("value", t.lexeme.payload?.elim .null .text),
    ("line", .number t.position.line),
    ("column", .number t.position.column)]

mutual

/-- The name of a block and what is to be told of the blocks inside of it, in their order. -/
def Outline.datum : Outline → Datum
  | .node name children => .object [("name", .text name), ("children", .array (data children))]

def Outline.data : List Outline → List Datum
  | [] => []
  | o :: rest => o.datum :: data rest

end

mutual

def Outline.height : Outline → ℕ
  | .node _ children => heights children + 1

def Outline.heights : List Outline → ℕ
  | [] => 0
  | o :: rest => max o.height (heights rest)

end

namespace CommandLine

theorem datum_tokenJson (t : Token) : (tokenJson t).datum = t.datum := by
  obtain ⟨lexeme, position⟩ := t
  cases lexeme <;> rfl

mutual

theorem datum_outlineJson (o : Outline) : (outlineJson o).datum = o.datum := by
  match o with
  | .node name children =>
    have inner := itemData_outlineJsons children
    simp only [outlineJson, Json.datum, Json.fieldData, Outline.datum, inner]

theorem itemData_outlineJsons (os : List Outline) :
    Json.itemData (outlineJsons os) = Outline.data os := by
  match os with
  | [] => rfl
  | o :: rest =>
    simp only [outlineJsons, Json.itemData, Outline.data, datum_outlineJson o,
      itemData_outlineJsons rest]

end

theorem depth_tokenJson (t : Token) : (tokenJson t).depth = 1 := by
  obtain ⟨lexeme, position⟩ := t
  cases lexeme <;> rfl

theorem itemDepth_tokenJson (ts : List Token) : Json.itemDepth (ts.map tokenJson) ≤ 1 := by
  induction ts with
  | nil => exact Nat.zero_le 1
  | cons t ts ih =>
    rw [List.map_cons, Json.itemDepth, depth_tokenJson]
    omega

mutual

theorem depth_outlineJson (o : Outline) : (outlineJson o).depth = 2 * o.height := by
  match o with
  | .node name children =>
    have inner := itemDepth_outlineJsons children
    simp only [outlineJson, Json.depth, Json.fieldDepth, Outline.height, inner]
    omega

theorem itemDepth_outlineJsons (os : List Outline) :
    Json.itemDepth (outlineJsons os) = 2 * Outline.heights os := by
  match os with
  | [] => rfl
  | o :: rest =>
    rw [outlineJsons, Json.itemDepth, Outline.heights, depth_outlineJson o,
      itemDepth_outlineJsons rest]
    omega

end

namespace Outcome

/-- The run succeeds, and what it prints says `v` and nothing else. -/
def Prints (o : Outcome) (v : Datum) : Prop :=
  o.ending.exit? = some 0 ∧ Says o.output v ∧ ∀ d : Decoder, d.decode o.output = some v

/-- The run prints nothing and exits with the code of failures. -/
def Refuses (o : Outcome) : Prop := o.output = "" ∧ o.ending.exit? = some 2

/-- The run prints nothing, and has no exit code either. -/
def Collapses (o : Outcome) : Prop := o.output = "" ∧ o.ending = .broken .tooDeep

theorem Prints.not_refuses {o : Outcome} {v : Datum} (h : o.Prints v) : ¬ o.Refuses := by
  rintro ⟨-, code⟩
  cases h.1.symm.trans code

theorem Collapses.exit?_eq_none {o : Outcome} (h : o.Collapses) : o.ending.exit? = none := by
  rw [h.2]
  rfl

theorem Collapses.not_prints {o : Outcome} (h : o.Collapses) (v : Datum) : ¬ o.Prints v := by
  rintro ⟨code, -⟩
  cases h.exit?_eq_none.symm.trans code

theorem Collapses.not_refuses {o : Outcome} (h : o.Collapses) : ¬ o.Refuses := by
  rintro ⟨-, code⟩
  cases h.exit?_eq_none.symm.trans code

theorem prints_of_dump (logged : List TraceLine) {nesting : ℕ} {j : Json}
    (shallow : j.depth ≤ nesting) : (Outcome.of logged (dump nesting j)).Prints j.datum := by
  rw [dump, if_pos shallow]
  exact ⟨rfl, j.says_render, fun d => d.decode_eq j.says_render⟩

theorem collapses_of_dump (logged : List TraceLine) {nesting : ℕ} {j : Json}
    (deep : nesting < j.depth) : (Outcome.of logged (dump nesting j)).Collapses := by
  rw [dump, if_neg (Nat.not_le.2 deep)]
  exact ⟨rfl, rfl⟩

theorem not_refuses_of_dump (logged : List TraceLine) (nesting : ℕ) (j : Json) :
    ¬ (Outcome.of logged (dump nesting j)).Refuses := by
  rcases Nat.lt_or_ge nesting j.depth with deep | shallow
  · exact (collapses_of_dump logged deep).not_refuses
  · exact (prints_of_dump logged shallow).not_refuses

theorem refuses_of (logged : List TraceLine) (f : Fault) :
    (Outcome.of logged (.error (.template f))).Refuses :=
  ⟨rfl, rfl⟩

end Outcome

section
variable {files : Files} {i : Invocation} {debug : Bool} {template source : String}

theorem run_tokens (m : Memory)
    (asked : Request.ofArguments i.arguments = .ok ⟨debug, .tokens template⟩)
    (read : readTemplate files i.input template = .ok source) :
    (run files m i).1 = .of ((i.log m.log).passed ((tokenize source).trace source))
      (match (tokenize source).fault? with
        | some f => .error (.template f)
        | none => dump i.nesting (.array ((tokenize source).tokens.map tokenJson))) := by
  simp only [run, runUnder, asked, Command.execute, withTemplate, read]
  rfl

theorem run_tree (m : Memory)
    (asked : Request.ofArguments i.arguments = .ok ⟨debug, .tree template⟩)
    (read : readTemplate files i.input template = .ok source) :
    (run files m i).1 = .of ((i.log m.log).passed (compile source).trace)
      (match (compile source).result with
        | .error f => .error (.template f)
        | .ok t => dump i.nesting (outlineJson t.outline)) := by
  simp only [run, runUnder, asked, Command.execute, withTemplate, read, withCompiled]
  cases (compile source).result with
  | error f => rfl
  | ok t =>
    cases written : dump i.nesting (outlineJson t.outline) <;> simp only [written] <;> rfl

theorem run_tokens_prints (m : Memory)
    (asked : Request.ofArguments i.arguments = .ok ⟨debug, .tokens template⟩)
    (read : readTemplate files i.input template = .ok source)
    (finished : (tokenize source).fault? = none) (shallow : 2 ≤ i.nesting) :
    (run files m i).1.Prints (.array ((tokenize source).tokens.map Token.datum)) := by
  have listed : (Json.array ((tokenize source).tokens.map tokenJson)).datum =
      .array ((tokenize source).tokens.map Token.datum) := by
    rw [Json.datum, Json.itemData_eq_map, List.map_map]
    exact congrArg _ (List.map_congr_left fun t _ => datum_tokenJson t)
  have depth : (Json.array ((tokenize source).tokens.map tokenJson)).depth ≤ i.nesting := by
    have inner := itemDepth_tokenJson (tokenize source).tokens
    rw [Json.depth]
    omega
  rw [run_tokens m asked read, finished, ← listed]
  exact Outcome.prints_of_dump _ depth

theorem run_tree_prints (m : Memory)
    (asked : Request.ofArguments i.arguments = .ok ⟨debug, .tree template⟩)
    (read : readTemplate files i.input template = .ok source) {t : Template}
    (compiled : (compile source).result = .ok t) (shallow : 2 * t.outline.height ≤ i.nesting) :
    (run files m i).1.Prints t.outline.datum := by
  rw [← depth_outlineJson] at shallow
  rw [run_tree m asked read, compiled, ← datum_outlineJson]
  exact Outcome.prints_of_dump _ shallow

theorem run_tree_collapses (m : Memory)
    (asked : Request.ofArguments i.arguments = .ok ⟨debug, .tree template⟩)
    (read : readTemplate files i.input template = .ok source) {t : Template}
    (compiled : (compile source).result = .ok t) (deep : i.nesting < 2 * t.outline.height) :
    (run files m i).1.Collapses := by
  rw [← depth_outlineJson] at deep
  rw [run_tree m asked read, compiled]
  exact Outcome.collapses_of_dump _ deep

/-- **Listings are faithful as far as they can be nested.** Under every memory and for every
template that can be read, the list of tokens is a text in which every decoder finds the tokens that
have been read, in order, each with its kind, with what it carries and with its place; and the list
of blocks is a text in which every decoder finds the outline of the template, unless the outline is
nested deeper than can be written: then nothing is printed, and the run has no exit code. A run
prints nothing and exits with the code of failures exactly if the tokens cannot be read to the end,
or the template cannot be compiled. -/
theorem listings_faithful (m : Memory) (read : readTemplate files i.input template = .ok source) :
    (Request.ofArguments i.arguments = .ok ⟨debug, .tokens template⟩ →
      ((tokenize source).fault? = none → 2 ≤ i.nesting →
        (run files m i).1.Prints (.array ((tokenize source).tokens.map Token.datum))) ∧
      ((run files m i).1.Refuses ↔ ∃ f, (tokenize source).fault? = some f)) ∧
    (Request.ofArguments i.arguments = .ok ⟨debug, .tree template⟩ →
      (∀ t, (compile source).result = .ok t →
        (2 * t.outline.height ≤ i.nesting → (run files m i).1.Prints t.outline.datum) ∧
        (i.nesting < 2 * t.outline.height → (run files m i).1.Collapses)) ∧
      ((run files m i).1.Refuses ↔ ∃ f, (compile source).result = .error f)) := by
  constructor
  · intro asked
    refine ⟨run_tokens_prints m asked read, ?_⟩
    rw [run_tokens m asked read]
    cases (tokenize source).fault? with
    | none => exact iff_of_false (Outcome.not_refuses_of_dump _ _ _) (by simp)
    | some f => exact iff_of_true (Outcome.refuses_of ..) ⟨f, rfl⟩
  · intro asked
    refine ⟨fun t compiled =>
      ⟨run_tree_prints m asked read compiled, run_tree_collapses m asked read compiled⟩, ?_⟩
    rw [run_tree m asked read]
    cases (compile source).result with
    | ok t => exact iff_of_false (Outcome.not_refuses_of_dump _ _ _) (by simp)
    | error f => exact iff_of_true (Outcome.refuses_of ..) ⟨f, rfl⟩

end

/-- A block with a quote, a letter beyond ASCII, a backslash and a control character in it. -/
theorem listings_faithful_of_marks :
    let files : Files := fun _ => none
    let source := "\x7b\x7bt a\x7d\x7d\"é\\\x01\x7b\x7b/t\x7d\x7d"
    let tokensRun : Invocation := ⟨["tokens", "-"], source.toUTF8.toList, none, usualNesting⟩
    let treeRun : Invocation := ⟨["tree", "-"], source.toUTF8.toList, none, usualNesting⟩
    let entry (kind : String) (value : Datum) (column : ℕ) : Datum := .object [
      ("type", .text kind), ("value", value), ("line", .number (1 : ℕ)),
      ("column", .number column)]
    readTemplate files source.toUTF8.toList "-" = .ok source ∧
      (run files .fresh tokensRun).1.Prints (.array [
        entry "TemplateStart" (.text "a") 1, entry "String" (.text "\"é\\\x01") 8,
        entry "TemplateStop" .null 12]) ∧
      (run files .fresh treeRun).1.Prints (.object [("name", .text rootName),
        ("children", .array [.object [("name", .text "a"), ("children", .array [])]])]) := by
  intro files source tokensRun treeRun entry
  have read : readTemplate files source.toUTF8.toList "-" = .ok source :=
    eq_ok_of_toOption (by decide +kernel)
  have tokensAsked : Request.ofArguments tokensRun.arguments = .ok ⟨false, .tokens "-"⟩ := by
    decide +kernel
  have treeAsked : Request.ofArguments treeRun.arguments = .ok ⟨false, .tree "-"⟩ := by
    decide +kernel
  have finished : (tokenize source).fault? = none := by decide +kernel
  have tokens : (tokenize source).tokens = [⟨.blockStart "a", ⟨0, 1, 1⟩⟩,
      ⟨.text "\"é\\\x01", ⟨7, 1, 8⟩⟩, ⟨.blockStop, ⟨11, 1, 12⟩⟩] := by decide +kernel
  have compiled : (compile source).result =
      .ok ⟨rootName, [.block "a" [.text "\"é\\\x01"]]⟩ := by
    rw [compile_eq_ok_iff]
    simp only [source, ReadAs, Entry.lexemes, List.nil_append, List.cons_append]
    decide +kernel
  have listed := ((listings_faithful .fresh read).1 tokensAsked).1 finished (by decide)
  have outlined := (((listings_faithful .fresh read).2 treeAsked).1 _ compiled).1
  rw [tokens] at listed
  rw [Template.outline_eq] at outlined
  exact ⟨read, listed, outlined (by decide)⟩

/-! ## Blocks inside of one another -/

/-- So many blocks of one name, each of them all that is inside of the one around it. -/
def nest : ℕ → List Entry
  | 0 => []
  | n + 1 => [.block "A" (nest n)]

def nestText : ℕ → List Char
  | 0 => []
  | n + 1 => opening ++ ['t'] ++ [' '] ++ ['A'] ++ closing ++ nestText n ++
      (opening ++ ['/', 't'] ++ closing)

example : String.ofList (nestText 2) =
    "\x7b\x7bt A\x7d\x7d\x7b\x7bt A\x7d\x7d\x7b\x7b/t\x7d\x7d\x7b\x7b/t\x7d\x7d" := by decide

theorem spelling_nest (n : ℕ) : Spelling (nest n) (nestText n) := by
  induction n with
  | zero => exact .nil
  | succ n ih =>
    have blank : ∀ c ∈ [' '], Text.isBlank c = true := by simp [Text.isBlank]
    have one := @Spelling.block "A" (nest n) [] [' '] _ _ (by simp) blank ih .nil
    simpa [nest, nestText] using one

theorem bodyWellFormed_nest (n : ℕ) : Entry.BodyWellFormed (nest n) := by
  induction n with
  | zero => simp [nest, Entry.BodyWellFormed]
  | succ n ih =>
    simp only [nest, Entry.BodyWellFormed]
    exact ⟨by decide, by decide, ih, trivial⟩

theorem compile_nest (n : ℕ) :
    (compile (String.ofList (nestText n))).result = .ok ⟨rootName, nest n⟩ := by
  have wellFormed : Entry.RootWellFormed (nest n) := by
    cases n with
    | zero => simp [nest, Entry.RootWellFormed]
    | succ n =>
      simp only [nest, Entry.RootWellFormed]
      exact ⟨by decide, by decide, bodyWellFormed_nest n, trivial⟩
  rw [compile_eq_ok_iff_wellFormed, String.toList_ofList]
  exact ⟨⟨rfl, wellFormed⟩, spelling_nest n⟩

theorem heights_nest (n : ℕ) : Outline.heights (Entry.outlines (nest n)) = n := by
  induction n with
  | zero => rfl
  | succ n ih => simp [nest, Entry.outlines, Entry.outline, Outline.heights, Outline.height, ih]

theorem plain_nestText (n : ℕ) : '\r' ∉ nestText n := by
  induction n with
  | zero => simp [nestText]
  | succ n ih => simp [nestText, opening, closing, ih]

theorem outline_nest (n : ℕ) : (Template.mk rootName (nest n)).outline.height = n + 1 := by
  rw [Template.outline_eq, Outline.height, heights_nest]

/-- Blocks inside of one another can be compiled, however many there are. If there are too many to
write their list, the run neither prints it nor exits with the code of failures. -/
theorem run_tree_nest_collapses (files : Files) (m : Memory) (setting? : Option String)
    {n nesting : ℕ} (deep : nesting < 2 * (n + 1)) :
    let source := String.ofList (nestText n)
    let o := (run files m ⟨["tree", "-"], Text.encode source, setting?, nesting⟩).1
    ∃ t, readTemplate files (Text.encode source) "-" = .ok source ∧
      (compile source).result = .ok t ∧ o.Collapses ∧ ¬ o.Prints t.outline.datum ∧ ¬ o.Refuses := by
  intro source o
  have asked : Request.ofArguments ["tree", "-"] = .ok ⟨false, .tree "-"⟩ := by decide +kernel
  have read : readTemplate files (Text.encode source) "-" = .ok source :=
    readTemplate_encode files (by simpa [source] using plain_nestText n)
  rw [← outline_nest] at deep
  have collapses : o.Collapses := run_tree_collapses m asked read (compile_nest n) deep
  exact ⟨_, read, compile_nest n, collapses, collapses.not_prints _, collapses.not_refuses⟩

theorem run_tree_six_hundred :
    let files : Files := fun _ => none
    let source := String.ofList (nestText 600)
    let o := (run files .fresh ⟨["tree", "-"], Text.encode source, none, usualNesting⟩).1
    ∃ t, readTemplate files (Text.encode source) "-" = .ok source ∧
      (compile source).result = .ok t ∧ o.Collapses ∧ ¬ o.Prints t.outline.datum ∧ ¬ o.Refuses :=
  run_tree_nest_collapses (fun _ => none) .fresh none (by decide)

end CommandLine

end Stencil
