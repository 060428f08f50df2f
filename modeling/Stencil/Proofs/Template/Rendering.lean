import Stencil.Proofs.Template.Enclosure
import Stencil.Template.Render

/-!
# Rendering and the tokens

* `Lexeme.output`: what a lexeme contributes to a rendering;
* `Entry.renderLevels_eq`: the walk over pending entries outputs their lexemes in order;
* `Entry.renderAll_eq_concat`: a row of entries renders as its entries, one after the other;
* `render_tokens`: a node renders as the tokens inside its block, one after the other.
-/

namespace Stencil

/-- The markers of blocks have no output. -/
def Lexeme.output (context : Context) : Lexeme → Except Error String
  | .text run => .ok run
  | .expression name => lookup context name
  | .blockStart _ => .ok ""
  | .blockStop => .ok ""

/-! ## Renderings one after the other -/

@[simp] theorem concat_nil : concat [] = .ok "" :=
  rfl

@[simp] theorem concat_ok_cons (text : String) (rest : List (Except Error String)) :
    concat (.ok text :: rest) = (concat rest).map (text ++ ·) := by
  cases h : concat rest <;> simp [concat, h, Except.map, bind, Except.bind]

@[simp] theorem concat_error_cons (e : Error) (rest : List (Except Error String)) :
    concat (.error e :: rest) = .error e :=
  rfl

@[simp] theorem map_same (r : Except Error String) : (r.map fun text => text) = r := by
  cases r <;> rfl

/-- Renderings without output can be left out. -/
@[simp] theorem concat_append_empty (front back : List (Except Error String)) :
    concat (front ++ .ok "" :: back) = concat (front ++ back) := by
  induction front with
  | nil => simp
  | cons r front ih => cases r <;> simp [ih]

/-- A text is the outcome if every rendering has one, and they make it up together. -/
theorem concat_eq_ok_iff {rs : List (Except Error String)} {shown : String} :
    concat rs = .ok shown ↔
      ∃ texts : List String, rs = texts.map .ok ∧ shown = String.join texts := by
  induction rs generalizing shown with
  | nil => simp [eq_comm]
  | cons r rest ih =>
    cases r with
    | error e =>
      constructor
      · rintro ⟨⟩
      · rintro ⟨texts, same, _⟩
        obtain ⟨_, _, _, head, _⟩ := List.map_eq_cons_iff.1 same.symm
        cases head
    | ok text =>
      constructor
      · intro h
        cases others : concat rest with
        | error e => simp [others, Except.map] at h
        | ok back =>
          obtain ⟨texts, rfl, rfl⟩ := ih.1 others
          simp only [concat_ok_cons, others, Except.map, Except.ok.injEq] at h
          exact ⟨text :: texts, rfl, by rw [String.join_cons, h]⟩
      · rintro ⟨texts, same, rfl⟩
        obtain ⟨_, texts, rfl, head, rfl⟩ := List.map_eq_cons_iff.1 same.symm
        cases head
        rw [concat_ok_cons, ih.2 ⟨texts, rfl, rfl⟩, String.join_cons]
        rfl

theorem concat_map_of_texts {α : Type} {render : α → Except Error String} {shown : α → String}
    {items : List α} (texts : ∀ item ∈ items, render item = .ok (shown item)) :
    concat (items.map render) = .ok (String.join (items.map shown)) := by
  apply concat_eq_ok_iff.2
  refine ⟨items.map shown, ?_, rfl⟩
  rw [List.map_map]
  exact List.map_congr_left texts

/-- An error is the outcome if it is that of a rendering, and every rendering before has a text. -/
theorem concat_map_eq_error_iff {α : Type} {render : α → Except Error String} {items : List α}
    {e : Error} :
    concat (items.map render) = .error e ↔
      ∃ before item after, items = before ++ item :: after ∧
        (∀ earlier ∈ before, ∃ text, render earlier = .ok text) ∧ render item = .error e := by
  induction items with
  | nil => simp
  | cons first rest ih =>
    constructor
    · intro h
      cases outcome : render first with
      | error e' =>
        obtain rfl : e' = e := by simpa [outcome] using h
        exact ⟨[], first, rest, rfl, by simp, outcome⟩
      | ok text =>
        have later : concat (rest.map render) = .error e := by
          cases others : concat (rest.map render) <;> simp_all [Except.map]
        obtain ⟨before, item, after, rfl, texts, fails⟩ := ih.1 later
        refine ⟨first :: before, item, after, rfl, ?_, fails⟩
        intro earlier member
        rcases List.mem_cons.1 member with rfl | member
        · exact ⟨text, outcome⟩
        · exact texts earlier member
    · rintro ⟨before, item, after, same, texts, fails⟩
      cases before with
      | nil =>
        obtain ⟨rfl, rfl⟩ := List.cons.inj same
        simp [fails]
      | cons _ before =>
        obtain ⟨rfl, rfl⟩ := List.cons.inj same
        obtain ⟨text, outcome⟩ := texts first (List.mem_cons_self ..)
        have later := ih.2 ⟨before, item, after, rfl,
          fun earlier member => texts earlier (List.mem_cons_of_mem _ member), fails⟩
        rw [List.map_cons, outcome, concat_ok_cons, later]
        rfl

theorem concat_cons (r : Except Error String) (rest : List (Except Error String)) :
    concat (r :: rest) = r.bind fun text => (concat rest).map (text ++ ·) := by
  cases r with
  | error e => rfl
  | ok text => exact concat_ok_cons text rest

theorem concat_append (front back : List (Except Error String)) :
    concat (front ++ back) = (concat front).bind fun text => (concat back).map (text ++ ·) := by
  induction front with
  | nil => simp [Except.bind]
  | cons r front ih =>
    cases r with
    | error e => rfl
    | ok text =>
      rw [List.cons_append, concat_ok_cons, concat_ok_cons, ih]
      cases concat front <;> cases concat back <;>
        simp [Except.bind, Except.map, String.append_assoc]

/-- Several renderings fail if and only if one of them does. -/
theorem concat_map_fails_iff {α : Type} {render : α → Except Error String} {items : List α} :
    (∃ e, concat (items.map render) = .error e) ↔ ∃ item ∈ items, ∃ e, render item = .error e := by
  induction items with
  | nil => simp
  | cons first rest ih =>
    rw [List.exists_mem_cons_iff, ← ih, List.map_cons]
    cases outcome : render first with
    | error e => simp
    | ok text => cases others : concat (rest.map render) <;> simp [others, Except.map]

/-! ## The walk over pending entries -/

namespace Entry

/-- What is still to come of a walk: the lexemes of each pending level under its own context. -/
def pending (levels : List (List Entry × Context)) : List (Except Error String) :=
  levels.flatMap fun level => (lexemes level.1).map (Lexeme.output level.2)

theorem map_prepend (front back : String) (r : Except Error String) :
    (r.map (back ++ ·)).map (front ++ ·) = r.map (front ++ back ++ ·) := by
  cases r <;> simp [Except.map, String.append_assoc]

/-- The walk adds to the output what is still to come of it, or ends with the first error there. -/
theorem renderLevels_eq (output : String) (levels : List (List Entry × Context)) :
    renderLevels output levels = (concat (pending levels)).map (output ++ ·) := by
  fun_induction renderLevels output levels with
  | case1 output => simp [pending, Except.map]
  | case2 output context levels ih => simpa [pending] using ih
  | case3 output run rest context levels ih =>
    rw [ih]
    simp [pending, Lexeme.output, map_prepend]
  | case4 output name rest context levels shown found ih =>
    rw [ih]
    simp [pending, Lexeme.output, found, map_prepend]
  | case5 output name rest context levels e found =>
    simp [pending, Lexeme.output, found, Except.map]
  | case6 output name body rest context levels ih =>
    -- The two levels hold all lexemes of the block but its markers, which have no output.
    rw [ih]
    simp [pending, Lexeme.output]

theorem renderAll_eq (context : Context) (entries : List Entry) :
    renderAll context entries = concat ((lexemes entries).map (Lexeme.output context)) := by
  rw [renderAll, renderLevels_eq]
  simp [pending]

theorem renderAll_eq_concat (context : Context) (entries : List Entry) :
    renderAll context entries = concat (entries.map (render context)) := by
  rw [renderAll_eq]
  induction entries using row_induction with
  | nil => simp
  | text run rest ih => simp [Lexeme.output, render, ih]
  | expression name rest ih =>
    simp only [lexemes, List.map_cons, Lexeme.output, render, concat_cons, ih]
  | block name body rest _ ih =>
    simp only [lexemes, List.map_cons, List.map_append, Lexeme.output, render, concat_ok_cons,
      String.empty_append, map_same, concat_append_empty]
    rw [concat_append, concat_cons, ih, renderAll_eq]

end Entry

/-! ## Nodes and the tokens inside their blocks -/

/-- Whatever is not a name is taken for the context, if there is no other. -/
theorem Template.renderWith_null {context : Context} (unnamed : ∀ name, context ≠ .text name)
    (t : Template) : t.renderWith context .null = t.render context := by
  cases context with
  | text name => exact absurd rfl (unnamed name)
  | _ => rfl

/-- **Rendering a node outputs the tokens inside its block, one after the other.** It fails if one
of them does, with the error of the first one that fails. -/
theorem render_tokens {source : String} {t node : Template} {path : List Nat}
    (compiled : (compile source).result = .ok t) (reached : t.at? path = some node) :
    ∃ inside, insideAt? (tokenize source).tokens path = some inside ∧
      ∀ context : Context, (∀ name, context ≠ .text name) →
        (∀ shown, node.renderWith context .null = .ok shown ↔
          ∃ texts : List String,
            inside.map (fun token => token.lexeme.output context) = texts.map .ok ∧
              shown = String.join texts) ∧
        ∀ e, node.renderWith context .null = .error e ↔
          ∃ before token after, inside = before ++ token :: after ∧
            (∀ earlier ∈ before, ∃ text, earlier.lexeme.output context = .ok text) ∧
              token.lexeme.output context = .error e := by
  obtain ⟨_, _, read, _⟩ := compile_eq_ok_iff.1 compiled
  have found := insideAt?_match path (t := t) read
  rw [reached] at found
  generalize insideAt? (tokenize source).tokens path = inside? at found ⊢
  cases found with | @some inside node read => ?_
  refine ⟨inside, rfl, ?_⟩
  intro context unnamed
  have rendered : node.renderWith context .null =
      concat (inside.map fun token => token.lexeme.output context) := by
    rw [Template.renderWith_null unnamed, Template.render, Entry.renderAll_eq, ← read,
      List.map_map]
    rfl
  rw [rendered]
  exact ⟨fun _ => concat_eq_ok_iff, fun _ => concat_map_eq_error_iff⟩

/-- The block of a template with one block, under a context that has its expression. -/
theorem render_tokens_of_block :
    ∃ inside,
      insideAt? (tokenize "a\x7b\x7bt b\x7d\x7dx\x7b\x7bc\x7d\x7d\x7b\x7b/t\x7d\x7d").tokens [0] =
          some inside ∧
        ∃ texts : List String,
          inside.map (fun token => token.lexeme.output (.dict [(.text "c", .int 1)])) =
              texts.map .ok ∧ "x1" = String.join texts := by
  have compiled :
      (compile "a\x7b\x7bt b\x7d\x7dx\x7b\x7bc\x7d\x7d\x7b\x7b/t\x7d\x7d").result =
        .ok ⟨rootName, [.text "a", .block "b" [.text "x", .expression "c"]]⟩ := by
    rw [compile_eq_ok_iff]
    simp only [ReadAs, Entry.lexemes, List.nil_append, List.cons_append]
    decide +kernel
  obtain ⟨inside, found, rendered⟩ := @render_tokens _ _ _ [0] compiled rfl
  have shown := (rendered (.dict [(.text "c", .int 1)]) (by simp)).1 "x1"
  refine ⟨inside, found, shown.1 ?_⟩
  rw [Template.renderWith_null (by simp), Template.render, Entry.renderAll_eq]
  simp only [Entry.lexemes, List.map_cons, List.map_nil, Lexeme.output]
  rfl

end Stencil
