import Stencil.Proofs.Markup.Seam
import Stencil.Proofs.Template.Blame
import Stencil.Proofs.Template.Drafting
import Stencil.Proofs.Template.Rendering

/-!
# Templates one behind the other

* `complaints_markers`, `complaints_behind`: texts are never complained of, and text in front of a
  source moves the complaints;
* `Scan.blame?_join`: behind a source without a fault the same is blamed as without it;
* `Entry.Joined`: the entries of two templates joined, where a text at the seam may go on;
* `compile_append`: a template behind another one compiles, fails, renders and is outlined as it
  does alone, behind what the other one gives.
-/

namespace Stencil

/-! ## What a scan blames in joined sources -/

theorem foldl_track_markers (starts ts : List Token) :
    (markers ts).foldl Token.track starts = ts.foldl Token.track starts := by
  induction ts generalizing starts with
  | nil => rfl
  | cons t ts ih =>
    obtain ⟨lexeme, p⟩ := t
    cases lexeme <;> simp [markers, Lexeme.isText, Token.track, ← ih]

/-- Texts are never complained of, and open no blocks. -/
theorem complaints_markers (starts ts : List Token) :
    complaints starts (markers ts) = complaints starts ts := by
  induction ts generalizing starts with
  | nil => rfl
  | cons t ts ih =>
    obtain ⟨lexeme, p⟩ := t
    cases lexeme <;> simp [markers, Lexeme.isText, complaints, Token.complaint?, Token.track, ← ih]

theorem complaints_append (starts ts us : List Token) :
    complaints starts (ts ++ us) =
      complaints starts ts ++ complaints (ts.foldl Token.track starts) us := by
  induction ts generalizing starts with
  | nil => rfl
  | cons t ts ih => simp [complaints, ih]

section
variable (front : List Char)

theorem track_behind (starts : List Token) (t : Token) :
    (t.behind front).track (starts.map (Token.behind front)) =
      (t.track starts).map (Token.behind front) := by
  obtain ⟨lexeme, p⟩ := t
  cases lexeme <;> simp [Token.track, Token.behind]

theorem foldl_track_behind (starts ts : List Token) :
    (ts.map (Token.behind front)).foldl Token.track (starts.map (Token.behind front)) =
      (ts.foldl Token.track starts).map (Token.behind front) := by
  induction ts generalizing starts with
  | nil => rfl
  | cons t ts ih => rw [List.map_cons, List.foldl_cons, track_behind, ih, List.foldl_cons]

theorem complaint_behind (starts : List Token) (t : Token) :
    (t.behind front).complaint? (starts.map (Token.behind front)) =
      (t.complaint? starts).map (Fault.behind front) := by
  obtain ⟨lexeme, p⟩ := t
  cases lexeme with
  | text => rfl
  | expression => rfl
  | blockStart name =>
    by_cases reserved : name = rootName <;>
      simp [Token.complaint?, Token.behind, Fault.behind, reserved]
  | blockStop => cases starts <;> simp [Token.complaint?, Token.behind, Fault.behind]

theorem complaints_behind (starts ts : List Token) :
    complaints (starts.map (Token.behind front)) (ts.map (Token.behind front)) =
      (complaints starts ts).map (Fault.behind front) := by
  induction ts generalizing starts with
  | nil => rfl
  | cons t ts ih =>
    rw [List.map_cons, complaints, complaint_behind, track_behind, ih, complaints, List.map_append,
      Option.toList_map]

theorem payloads_behind (ts : List Token) :
    (ts.map (Token.behind front)).filterMap (fun t => t.lexeme.payload?) =
      ts.filterMap fun t => t.lexeme.payload? :=
  List.filterMap_map

theorem unclosed?_behind (starts : List Token) :
    unclosed? (starts.map (Token.behind front)) = (unclosed? starts).map (Fault.behind front) := by
  cases starts with
  | nil => rfl
  | cons first others =>
    have names := payloads_behind front (first :: others)
    rw [List.map_cons] at names
    rw [List.map_cons, unclosed?, names]
    rfl

end

namespace Scan

theorem blame?_eq (scan : Scan) :
    scan.blame? = (complaints [] (markers scan.tokens) ++ scan.fault?.toList).head?.or
      (unclosed? (openStarts (markers scan.tokens)).reverse) := by
  rw [blame?, faults, complaints_markers, openStarts, foldl_track_markers, ← openStarts,
    openStarts_eq_reverse, List.reverse_reverse]

/-- Behind a source in which nothing is blamed, the same is blamed as without it. -/
theorem blame?_join {first second joined : Scan} {front : List Char} (clean : first.blame? = none)
    (fault : joined.fault? = second.fault?.map (Fault.behind front))
    (tokens : markers joined.tokens =
      markers first.tokens ++ (markers second.tokens).map (Token.behind front)) :
    joined.blame? = second.blame?.map (Fault.behind front) := by
  rw [blame?_eq, Option.or_eq_none_iff, List.head?_eq_none_iff, List.append_eq_nil_iff] at clean
  obtain ⟨⟨fine, _⟩, closed⟩ := clean
  have shut : openStarts (markers first.tokens) = [] := by
    cases starts : (openStarts (markers first.tokens)).reverse with
    | nil => simpa using starts
    | cons => simp [starts, unclosed?] at closed
  have later : complaints [] (markers joined.tokens) =
      (complaints [] (markers second.tokens)).map (Fault.behind front) := by
    rw [tokens, complaints_append, fine, List.nil_append, ← openStarts, shut]
    exact complaints_behind front [] _
  have left : openStarts (markers joined.tokens) =
      (openStarts (markers second.tokens)).map (Token.behind front) := by
    rw [tokens, openStarts, List.foldl_append, ← openStarts, shut]
    exact foldl_track_behind front [] _
  rw [blame?_eq, blame?_eq, later, left, fault, ← List.map_reverse, unclosed?_behind,
    Option.toList_map, ← List.map_append, List.head?_map, Option.map_or]

end Scan

/-! ## The entries of joined templates -/

/-- The entries of two templates joined: a text at the end of the first may go on. -/
inductive Entry.Joined : List Entry → List Entry → List Entry → Prop
  | apart (front behind : List Entry) : Joined front behind (front ++ behind)
  | merged (front behind : List Entry) (a b : String) :
      Joined (front ++ [.text a]) (.text b :: behind) (front ++ .text (a ++ b) :: behind)

namespace Entry

theorem of_lexemes_concat_text {entries : List Entry} {front : List Lexeme} {run : String}
    (h : lexemes entries = front ++ [.text run]) :
    ∃ before, entries = before ++ [.text run] ∧ lexemes before = front := by
  rcases List.eq_nil_or_concat entries with rfl | ⟨before, last, rfl⟩
  · simp at h
  · rw [List.concat_eq_append, lexemes_append] at h
    have ends := congrArg List.getLast? h
    cases last with
    | text run' =>
      simp only [lexemes] at h
      obtain ⟨rfl, same⟩ := List.append_inj' h rfl
      cases same
      exact ⟨before, List.concat_eq_append, rfl⟩
    | expression name => simp at ends
    | block name body =>
      simp only [lexemes, List.getLast?_append, ← List.cons_append, List.getLast?_singleton] at ends
      cases ends

theorem of_lexemes_cons_text {entries : List Entry} {behind : List Lexeme} {run : String}
    (h : lexemes entries = .text run :: behind) :
    ∃ after, entries = .text run :: after ∧ lexemes after = behind := by
  cases entries with
  | nil => simp at h
  | cons first after =>
    cases first with
    | text run' =>
      obtain ⟨same, rfl⟩ := List.cons.inj (lexemes.eq_2 .. ▸ h)
      cases same
      exact ⟨after, rfl, rfl⟩
    | expression name => simp at h
    | block name body => simp at h

/-- Joined lexemes are those of joined entries. -/
theorem joined_of_lexemes {front behind : List Entry} {joined : List Lexeme}
    (h : Lexeme.Joined (lexemes front) (lexemes behind) joined) :
    ∃ entries, Joined front behind entries ∧ lexemes entries = joined := by
  generalize left : lexemes front = ls at h
  generalize right : lexemes behind = rs at h
  cases h with
  | apart =>
    refine ⟨front ++ behind, .apart front behind, ?_⟩
    rw [lexemes_append, left, right]
  | merged _ _ a b =>
    obtain ⟨before, rfl, rfl⟩ := of_lexemes_concat_text left
    obtain ⟨after, rfl, rfl⟩ := of_lexemes_cons_text right
    exact ⟨_, .merged before after a b, by simp⟩

/-- Joined entries render as those in front and then those behind, whichever of them fails first. -/
theorem Joined.renderAll {front behind entries : List Entry} (h : Joined front behind entries)
    (context : Context) :
    renderAll context entries =
      (renderAll context front).bind fun text => (renderAll context behind).map (text ++ ·) := by
  simp only [renderAll_eq_concat]
  cases h with
  | apart => rw [List.map_append, concat_append]
  | merged front behind a b =>
    simp only [List.map_append, List.map_cons, List.map_nil, render, concat_append, concat_ok_cons,
      concat_nil]
    cases concat (front.map (render context)) <;> cases concat (behind.map (render context)) <;>
      simp [Except.bind, Except.map, String.append_assoc]

theorem outlines_append (front behind : List Entry) :
    outlines (front ++ behind) = outlines front ++ outlines behind := by
  induction front with
  | nil => rfl
  | cons e front ih => simp [outlines, ih]

theorem Joined.outlines {front behind entries : List Entry} (h : Joined front behind entries) :
    outlines entries = outlines front ++ outlines behind := by
  cases h <;> simp [outlines_append, Entry.outlines, Entry.outline]

end Entry

theorem Lexeme.Joined.blockStart_not_mem {front behind joined : List Lexeme}
    (h : Joined front behind joined) {name : String} (inFront : .blockStart name ∉ front)
    (inBehind : .blockStart name ∉ behind) : .blockStart name ∉ joined := by
  cases h with
  | apart => simp [inFront, inBehind]
  | merged => simp_all

/-! ## Compiling joined sources -/

section
variable {first second : String} {t u : Template}

/-- Where both sources compile, so do they joined, and their entries are joined. -/
theorem compile_join (compiled : (compile first).result = .ok t)
    (shut : ∀ last run, (tokenize first).tokens.getLast? = some last → last.lexeme = .text run →
      ¬ opening <+: run.toList)
    (apart : ¬ (first.toList.getLast? = some '{' ∧ second.toList.head? = some '{'))
    (compiled' : (compile second).result = .ok u) :
    ∃ entries, Entry.Joined t.entries u.entries entries ∧
      (compile (first ++ second)).result = .ok ⟨rootName, entries⟩ := by
  obtain ⟨_, read, same, unreserved⟩ := compile_eq_ok_iff.1 compiled
  obtain ⟨_, read', same', unreserved'⟩ := compile_eq_ok_iff.1 compiled'
  obtain ⟨fault, _, lexemes⟩ := tokenize_join read shut apart
  rw [same, same'] at lexemes
  obtain ⟨entries, joined, whole⟩ := Entry.joined_of_lexemes lexemes
  refine ⟨entries, joined, compile_eq_ok_iff.2 ⟨rfl, ?_, whole.symm, ?_⟩⟩
  · rw [fault, read', Option.map_none]
  · rw [whole]
    exact lexemes.blockStart_not_mem unreserved unreserved'

theorem exists_compile_iff {source : String} :
    (∃ t, (compile source).result = .ok t) ↔ (tokenize source).blame? = none := by
  rw [Option.eq_none_iff_forall_ne_some]
  simp only [ne_eq, ← compile_eq_error_iff]
  cases (compile source).result <;> simp

theorem Template.renderWith_join {whole : Template}
    (h : Entry.Joined t.entries u.entries whole.entries) {context : Context}
    (unnamed : ∀ name, context ≠ .text name) :
    whole.renderWith context .null = do
      let front ← t.renderWith context .null
      let back ← u.renderWith context .null
      return front ++ back := by
  simp only [Template.renderWith_null unnamed, Template.render, h.renderAll]
  cases Entry.renderAll context t.entries <;> cases Entry.renderAll context u.entries <;> rfl

/-- **A template behind another one works as it does alone.** Let a source compile, let it not end
in braces that are never closed, and let the seam to a second source make no new braces. Then both
together compile if and only if the second does. Together they render as the first and then the
second, and their outline is that of the first with that of the second behind it. If the second is
refused, both together are refused for the same reason at the same place, counted from the start of
the first. -/
theorem compile_append (compiled : (compile first).result = .ok t)
    (shut : ∀ last run, (tokenize first).tokens.getLast? = some last → last.lexeme = .text run →
      ¬ opening <+: run.toList)
    (apart : ¬ (first.toList.getLast? = some '{' ∧ second.toList.head? = some '{')) :
    ((∃ whole, (compile (first ++ second)).result = .ok whole) ↔
      ∃ u, (compile second).result = .ok u) ∧
    (∀ u whole, (compile second).result = .ok u → (compile (first ++ second)).result = .ok whole →
      (∀ context : Context, (∀ name, context ≠ .text name) →
        whole.renderWith context .null = do
          let front ← t.renderWith context .null
          let back ← u.renderWith context .null
          return front ++ back) ∧
      ∃ blocks blocks', t.outline = .node rootName blocks ∧ u.outline = .node rootName blocks' ∧
        whole.outline = .node rootName (blocks ++ blocks')) ∧
    ∀ f, (compile second).result = .error f →
      ∃ g, (compile (first ++ second)).result = .error g ∧ g.cause = f.cause ∧
        g.position.offset = f.position.offset + first.length ∧
        g.position.line = f.position.line + first.toList.count '\n' ∧
        g.position.column = if f.position.line = 1
          then f.position.column + Position.sinceNewline first.toList else f.position.column := by
  have clean : (tokenize first).blame? = none := exists_compile_iff.1 ⟨t, compiled⟩
  obtain ⟨root, read, _, _⟩ := compile_eq_ok_iff.1 compiled
  obtain ⟨fault, tokens, _⟩ := tokenize_join read shut apart
  have blame := Scan.blame?_join clean fault tokens
  refine ⟨?_, ?_, ?_⟩
  · rw [exists_compile_iff, exists_compile_iff, blame, Option.map_eq_none_iff]
  · intro u whole compiled' compiledWhole
    obtain ⟨entries, joined, same⟩ := compile_join compiled shut apart compiled'
    obtain rfl := Except.ok.inj (same.symm.trans compiledWhole)
    have root' := (compile_eq_ok_iff.1 compiled').1
    refine ⟨fun context unnamed => Template.renderWith_join joined unnamed, ?_⟩
    refine ⟨Entry.outlines t.entries, Entry.outlines u.entries, ?_, ?_, ?_⟩
    · rw [Template.outline_eq, root]
    · rw [Template.outline_eq, root']
    · rw [Template.outline_eq, joined.outlines]
  · intro f refused
    rw [compile_eq_error_iff] at refused
    refine ⟨f.behind first.toList, ?_, rfl, ?_, rfl, rfl⟩
    · rw [compile_eq_error_iff, blame, refused, Option.map_some]
    · simp [Fault.behind, Position.behind, String.length_toList]

/-- Braces in the first line of the second source, behind a text that goes on at the seam. -/
theorem compile_append_of_stray :
    ∃ g, (compile ("a\n\x7b\x7bx\x7d\x7db" ++ "c\x7b\x7b\x7d\x7d")).result = .error g ∧
      g.cause = .strayBraces "\x7b\x7b\x7d\x7d" ∧ g.position = ⟨9, 2, 8⟩ := by
  have compiled : (compile "a\n\x7b\x7bx\x7d\x7db").result =
      .ok ⟨rootName, [.text "a\n", .expression "x", .text "b"]⟩ := by
    rw [compile_eq_ok_iff]
    simp only [ReadAs, Entry.lexemes]
    decide +kernel
  have last : (tokenize "a\n\x7b\x7bx\x7d\x7db").tokens.getLast? =
      some ⟨.text "b", ⟨7, 2, 6⟩⟩ := by
    decide +kernel
  have refused : (compile "c\x7b\x7b\x7d\x7d").result =
      .error ⟨.strayBraces "\x7b\x7b\x7d\x7d", ⟨1, 1, 2⟩⟩ := by
    rw [compile_eq_error_iff]
    decide +kernel
  obtain ⟨_, _, fails⟩ := @compile_append _ "c\x7b\x7b\x7d\x7d" _ compiled
    (by rw [last]; rintro _ _ ⟨⟩ ⟨⟩; decide) (by decide)
  obtain ⟨g, whole, cause, offset, line, column⟩ := fails _ refused
  exact ⟨g, whole, cause, Position.ext_of offset line column⟩

end

end Stencil
