import Stencil.Proofs.Markup.Segmentation
import Stencil.Proofs.Template.Nesting

/-!
# The grammar of templates

* `Spelling`: the sources that spell a row of entries;
* `Template.WellFormed`: the trees that can be spelled so that they are read back;
* `Spelled`, `Proper`: the same for a flat row of lexemes;
* `tokenize_iff_spelled`: a whole source is read as a row of lexemes exactly if the row is proper
  and the source spells it;
* `compile_eq_ok_iff_spelling`: compiling accepts exactly the spellings of well-formed trees, and
  gives the tree back.
-/

namespace Stencil

/-! ## Well-formed trees and their spellings -/

/-- Texts are spelled as they are. Blanks stand in markers, in expressions on both sides of the
name; they are needed before a name in a block start, and in an expression before a name that
begins like the keyword of blocks. -/
inductive Spelling : List Entry → List Char → Prop
  | nil : Spelling [] []
  | text {run : String} {rest : List Entry} {back : List Char} (others : Spelling rest back) :
      Spelling (.text run :: rest) (run.toList ++ back)
  | expression {name : String} {rest : List Entry} {before behind back : List Char}
      (blankBefore : ∀ c ∈ before, Text.isBlank c = true)
      (blankBehind : ∀ c ∈ behind, Text.isBlank c = true)
      (apart : name.toList.head? = some 't' → before ≠ []) (others : Spelling rest back) :
      Spelling (.expression name :: rest)
        (opening ++ before ++ name.toList ++ behind ++ closing ++ back)
  | block {name : String} {body rest : List Entry} {blanks inner back : List Char}
      (apart : blanks ≠ []) (blank : ∀ c ∈ blanks, Text.isBlank c = true)
      (inside : Spelling body inner) (others : Spelling rest back) :
      Spelling (.block name body :: rest)
        (opening ++ ['t'] ++ blanks ++ name.toList ++ closing ++ inner ++
          (opening ++ ['/', 't'] ++ closing) ++ back)

/-- A text between markers. -/
def IsRun (run : String) : Prop := run ≠ "" ∧ ¬ opening <:+: run.toList

/-- Opening braces that are never closed, with the text behind them. -/
def IsTail (run : String) : Prop := opening <+: run.toList ∧ ¬ closing <:+: run.toList

/-- Something follows, and so the text may not end in a brace that could open a marker. -/
def MayBeFollowed (run : String) : Prop := run.toList.getLast? ≠ some '{'

namespace Entry

/-- In the body of a block every entry is followed by another one or by the stop of the block. -/
def BodyWellFormed : List Entry → Prop
  | [] => True
  | .text run :: rest =>
    IsRun run ∧ MayBeFollowed run ∧ (∀ next, rest.head? ≠ some (.text next)) ∧ BodyWellFormed rest
  | .expression name :: rest => isName name.toList = true ∧ BodyWellFormed rest
  | .block name body :: rest =>
    isName name.toList = true ∧ name ≠ rootName ∧ BodyWellFormed body ∧ BodyWellFormed rest

/-- At the top the last entry may be a tail, and a tail may stand directly behind a text. -/
def RootWellFormed : List Entry → Prop
  | [] => True
  | .text run :: rest =>
    (IsRun run ∨ IsTail run ∧ rest = []) ∧ (rest ≠ [] → MayBeFollowed run) ∧
      (∀ next, rest.head? = some (.text next) → IsTail next ∧ rest = [.text next]) ∧
      RootWellFormed rest
  | .expression name :: rest => isName name.toList = true ∧ RootWellFormed rest
  | .block name body :: rest =>
    isName name.toList = true ∧ name ≠ rootName ∧ BodyWellFormed body ∧ RootWellFormed rest

end Entry

def Template.WellFormed (t : Template) : Prop :=
  t.name = rootName ∧ Entry.RootWellFormed t.entries

/-! ## The flat rows of lexemes -/

inductive Spelled : List Lexeme → List Char → Prop
  | nil : Spelled [] []
  | text {run : String} {rest : List Lexeme} {back : List Char} (others : Spelled rest back) :
      Spelled (.text run :: rest) (run.toList ++ back)
  | marker {lexeme : Lexeme} {rest : List Lexeme} {spelling back : List Char}
      (marks : lexeme.Marks spelling) (others : Spelled rest back) :
      Spelled (lexeme :: rest) (spelling ++ back)

/-- Of two texts in a row the second is a tail, and a tail is the last of all. -/
def Proper : List Lexeme → Prop
  | [] => True
  | .text run :: rest =>
    (IsRun run ∨ IsTail run ∧ rest = []) ∧ (rest ≠ [] → MayBeFollowed run) ∧
      (∀ next, rest.head? = some (.text next) → IsTail next) ∧ Proper rest
  | _ :: rest => Proper rest

theorem proper_cons_of_marks {lexeme : Lexeme} {spelling : List Char}
    (marks : lexeme.Marks spelling) (rest : List Lexeme) :
    Proper (lexeme :: rest) ↔ Proper rest := by
  cases marks <;> rfl

/-- A text that is read where opening braces stand is a tail. -/
theorem Piece.IsSegment.isTail {piece : Piece} {run : String} (h : piece.IsSegment)
    (text : piece.lexeme = .text run) (opened : opening <+: piece.spelling ++ piece.rest) :
    IsTail run := by
  cases h with
  | marker marks => cases text; cases marks
  | run inhabited clear _ =>
    have shut := clear 0 (List.length_pos_iff.2 inhabited)
    exact absurd opened shut
  | tail opened unclosed =>
    cases text
    exact ⟨by simpa using opened, by simpa using unclosed⟩

/-- The lexemes of segments that make up a whole source are proper, and the source spells them. -/
theorem Segmentation.spelled {source left : List Char} {pieces : List Piece}
    (h : Segmentation source pieces left) (whole : left = []) :
    Proper (pieces.map Piece.lexeme) ∧ Spelled (pieces.map Piece.lexeme) source := by
  induction h with
  | finish => exact ⟨trivial, .nil⟩
  | stuck stuck => exact absurd whole stuck.ne_nil
  | @segment source left piece pieces split segment others ih =>
    obtain ⟨proper, spelled⟩ := ih whole
    subst split
    cases segment with
    | marker marks => exact ⟨(proper_cons_of_marks marks _).2 proper, .marker marks spelled⟩
    | @run spelling rest inhabited clear stop =>
      obtain ⟨unopened, apart⟩ := clear_append_iff.1 clear
      have opened (some : pieces ≠ []) : opening <+: rest := by
        refine stop.resolve_left ?_
        rintro rfl
        exact some others.eq_nil
      refine ⟨⟨.inl ⟨by simpa using inhabited, by simpa using unopened⟩, ?_, ?_, proper⟩, ?_⟩
      · intro some last
        have follows := head_of_opened (opened (by simpa using some))
        exact apart ⟨by simpa using last, follows⟩
      · intro next text
        cases others with
        | finish => simp at text
        | stuck => simp at text
        | @segment _ _ piece pieces split segment _ =>
          subst split
          exact segment.isTail (by simpa using text) (opened (by simp))
      · simpa using @Spelled.text (String.ofList spelling) _ _ spelled
    | @tail spelling opened unclosed =>
      obtain rfl := others.eq_nil
      refine ⟨⟨.inr ⟨⟨by simpa using opened, by simpa using unclosed⟩, rfl⟩, by simp, by simp,
        trivial⟩, ?_⟩
      simpa using @Spelled.text (String.ofList spelling) _ _ spelled

theorem Spelled.eq_nil {source : List Char} (h : Spelled [] source) : source = [] := by
  cases h
  rfl

/-- The spelling of a proper row begins with opening braces unless a run of text comes first. -/
theorem Spelled.opened {lexeme : Lexeme} {rest : List Lexeme} {source : List Char}
    (h : Spelled (lexeme :: rest) source) (text : ∀ run, lexeme = .text run → IsTail run) :
    opening <+: source := by
  cases h with
  | text => exact (text _ rfl).1.trans (List.prefix_append _ _)
  | marker marks => exact marks.opened.trans (List.prefix_append _ _)

/-- A text is read as a whole if what follows it does not change where it ends. -/
theorem Spelled.isSegment_text {run : String} {rest : List Lexeme} {back : List Char}
    (others : Spelled rest back) (kind : IsRun run ∨ IsTail run ∧ rest = [])
    (last : rest ≠ [] → MayBeFollowed run)
    (next : ∀ next, rest.head? = some (.text next) → IsTail next) :
    Piece.IsSegment ⟨.text run, run.toList, back⟩ := by
  rcases kind with ⟨inhabited, unopened⟩ | ⟨⟨opened, unclosed⟩, rfl⟩
  · have clear := clear_append_iff.2 (show ¬ opening <:+: run.toList ∧
        ¬ (run.toList.getLast? = some '{' ∧ back.head? = some '{') from ⟨unopened, ?_⟩)
    · have stop : back = [] ∨ opening <+: back := by
        cases rest with
        | nil => exact .inl others.eq_nil
        | cons lexeme rest => exact .inr (others.opened fun run same => next run (same ▸ rfl))
      simpa using Piece.IsSegment.run (by simpa using inhabited) clear stop
    · rintro ⟨atLast, follows⟩
      refine last ?_ atLast
      rintro rfl
      simp [others.eq_nil] at follows
  · rw [others.eq_nil]
    simpa using Piece.IsSegment.tail opened unclosed

/-- What a proper row of lexemes spells is read as this row. -/
theorem Spelled.segmentation {lexemes : List Lexeme} {source : List Char}
    (h : Spelled lexemes source) (proper : Proper lexemes) :
    ∃ pieces, Segmentation source pieces [] ∧ pieces.map Piece.lexeme = lexemes := by
  induction h with
  | nil => exact ⟨[], .finish, rfl⟩
  | @text run rest back others ih =>
    obtain ⟨kind, last, next, proper⟩ := proper
    obtain ⟨pieces, segmentation, same⟩ := ih proper
    have segment := others.isSegment_text kind last next
    exact ⟨_ :: pieces, .segment rfl segment segmentation, congrArg _ same⟩
  | @marker lexeme rest spelling back marks others ih =>
    have later := (proper_cons_of_marks marks rest).1 proper
    obtain ⟨pieces, segmentation, same⟩ := ih later
    have segment : Piece.IsSegment ⟨lexeme, spelling, back⟩ := .marker marks
    exact ⟨_ :: pieces, .segment rfl segment segmentation, congrArg _ same⟩

/-- A whole source is read as a row of lexemes exactly if the row is proper and spells it. -/
theorem tokenize_iff_spelled {source : String} {lexemes : List Lexeme} :
    (tokenize source).fault? = none ∧ (tokenize source).tokens.map Token.lexeme = lexemes ↔
      Proper lexemes ∧ Spelled lexemes source.toList := by
  obtain ⟨pieces, tokens, _, segmentation, ends⟩ := (Cursor.ofText source).scan_covers
  have same : (tokenize source).tokens.map Token.lexeme = pieces.map Piece.lexeme := by
    rw [tokenize, tokens, Piece.map_lexeme_tokensFrom]
  constructor
  · rintro ⟨read, rfl⟩
    rw [same]
    exact segmentation.spelled (ends.eq_nil read)
  · rintro ⟨proper, spelled⟩
    obtain ⟨pieces', segmentation', rfl⟩ := spelled.segmentation proper
    obtain ⟨rfl, whole⟩ := segmentation.unique segmentation'
    exact ⟨ends.of_nil whole.symm, same⟩

/-! ## Rows of entries and rows of lexemes -/

/-- A name that a marker may bear. -/
def Lexeme.Named : Lexeme → Prop
  | .expression name => isName name.toList = true
  | .blockStart name => isName name.toList = true ∧ name ≠ rootName
  | _ => True

theorem Spelled.append {front back : List Lexeme} {s t : List Char} (h : Spelled front s)
    (h' : Spelled back t) : Spelled (front ++ back) (s ++ t) := by
  induction h with
  | nil => exact h'
  | text _ ih => rw [List.append_assoc]; exact .text ih
  | marker marks _ ih => rw [List.append_assoc]; exact .marker marks ih

theorem Spelled.split {front back : List Lexeme} {s : List Char} (h : Spelled (front ++ back) s) :
    ∃ t u, s = t ++ u ∧ Spelled front t ∧ Spelled back u := by
  induction front generalizing s with
  | nil => exact ⟨[], s, rfl, .nil, h⟩
  | cons lexeme front ih =>
    cases h with
    | text others =>
      obtain ⟨t, u, rfl, left, right⟩ := ih others
      exact ⟨_, u, (List.append_assoc _ _ _).symm, .text left, right⟩
    | marker marks others =>
      obtain ⟨t, u, rfl, left, right⟩ := ih others
      exact ⟨_, u, (List.append_assoc _ _ _).symm, .marker marks left, right⟩

/-- The third character of an expression is the first of its name if no blank stands before it. -/
theorem third_ne_iff {before name : List Char} (blank : ∀ c ∈ before, Text.isBlank c = true) :
    (before ++ name).head? ≠ some 't' ↔ (name.head? = some 't' → before ≠ []) := by
  cases before with
  | nil => simp
  | cons c cs =>
    have : c ≠ 't' := by
      rintro rfl
      exact absurd (blank 't' (by simp)) (by decide)
    simp [this]

theorem Spelling.spelled {entries : List Entry} {source : List Char} (h : Spelling entries source)
    (named : ∀ lexeme ∈ Entry.lexemes entries, lexeme.Named) :
    Spelled (Entry.lexemes entries) source := by
  induction h with
  | nil => simpa using Spelled.nil
  | text _ ih =>
    simp only [Entry.lexemes, List.forall_mem_cons] at named ⊢
    exact .text (ih named.2)
  | @expression name rest before behind back blankBefore blankBehind apart _ ih =>
    simp only [Entry.lexemes, List.forall_mem_cons] at named ⊢
    exact .marker (.expression blankBefore blankBehind named.1
      ((third_ne_iff blankBefore).2 apart)) (ih named.2)
  | @block name body rest blanks inner back apart blank _ _ ihBody ih =>
    simp only [Entry.lexemes, List.forall_mem_cons, List.forall_mem_append] at named ⊢
    obtain ⟨start, inBody, _, inRest⟩ := named
    have whole := Spelled.marker (.blockStart apart blank start.1)
      ((ihBody inBody).append (.marker .blockStop (ih inRest)))
    simpa only [List.append_assoc] using whole

theorem Spelled.spelling {entries : List Entry} {source : List Char}
    (h : Spelled (Entry.lexemes entries) source) : Spelling entries source := by
  induction entries using Entry.row_induction generalizing source with
  | nil =>
    rw [(show Spelled [] source by simpa using h).eq_nil]
    exact .nil
  | text run rest ih =>
    simp only [Entry.lexemes] at h
    cases h with
    | text others => exact .text (ih others)
    | marker marks _ => cases marks
  | expression name rest ih =>
    simp only [Entry.lexemes] at h
    cases h with
    | marker marks others =>
      cases marks with
      | expression blankBefore blankBehind _ third =>
        exact .expression blankBefore blankBehind ((third_ne_iff blankBefore).1 third) (ih others)
  | block name body rest ihBody ih =>
    simp only [Entry.lexemes] at h
    cases h with
    | marker marks others =>
      cases marks with
      | blockStart apart blank _ =>
        obtain ⟨inner, back, rfl, inside, behind⟩ := others.split
        cases behind with
        | marker stopMarks behind =>
          cases stopMarks
          have whole := @Spelling.block name _ _ _ _ _ apart blank (ihBody inside) (ih behind)
          simpa only [List.append_assoc] using whole

theorem IsRun.not_isTail {run : String} (h : IsRun run) : ¬ IsTail run :=
  fun tail => h.2 tail.1.isInfix

theorem Entry.lexemes_eq_nil_iff {entries : List Entry} : lexemes entries = [] ↔ entries = [] := by
  cases entries with
  | nil => simp
  | cons e rest => cases e <;> simp

theorem Entry.head?_lexemes_append_iff {entries : List Entry} {next : String}
    {later : List Lexeme} (behind : ∀ next, later.head? ≠ some (.text next)) :
    (lexemes entries ++ later).head? = some (.text next) ↔
      entries.head? = some (.text next) := by
  cases entries with
  | nil => simpa using behind next
  | cons e rest => cases e <;> simp

/-- The body of a block is followed by a stop, so its last text is no tail. -/
theorem bodyWellFormed_iff {body : List Entry} {later : List Lexeme} :
    Proper (Entry.lexemes body ++ .blockStop :: later) ∧
        (∀ lexeme ∈ Entry.lexemes body, lexeme.Named) ↔
      Entry.BodyWellFormed body ∧ Proper later := by
  induction body using Entry.row_induction generalizing later with
  | nil => simp [Entry.BodyWellFormed, Proper]
  | text run rest ih =>
    have follows (next : String) := @Entry.head?_lexemes_append_iff rest next
      (.blockStop :: later) (by simp)
    simp only [Entry.lexemes, List.cons_append, Proper, List.forall_mem_cons, Lexeme.Named,
      Entry.BodyWellFormed, follows, true_and]
    constructor
    · rintro ⟨⟨kind, last, next, proper⟩, named⟩
      obtain ⟨wellFormed, later⟩ := ih.1 ⟨proper, named⟩
      refine ⟨⟨kind.resolve_right (by simp), last (by simp), ?_, wellFormed⟩, later⟩
      intro other text
      -- A text that follows this one would be a tail, but in a body every text is a run.
      cases rest with
      | nil => simp at text
      | cons e rest =>
        cases text
        simp only [Entry.BodyWellFormed] at wellFormed
        exact wellFormed.1.not_isTail (next other rfl)
    · rintro ⟨⟨run, last, next, wellFormed⟩, later⟩
      obtain ⟨proper, named⟩ := ih.2 ⟨wellFormed, later⟩
      exact ⟨⟨.inl run, fun _ => last, fun other text => absurd text (next other), proper⟩, named⟩
  | expression name rest ih =>
    simp only [Entry.lexemes, List.cons_append, Proper, List.forall_mem_cons, Lexeme.Named,
      Entry.BodyWellFormed, and_assoc, ← ih]
    tauto
  | block name body rest ihBody ih =>
    simp only [Entry.lexemes, List.cons_append, List.append_assoc, Proper, List.forall_mem_cons,
      List.forall_mem_append, Lexeme.Named, Entry.BodyWellFormed]
    have inBody := @ihBody (Entry.lexemes rest ++ .blockStop :: later)
    have inRest := @ih later
    tauto

theorem rootWellFormed_iff {entries : List Entry} :
    Proper (Entry.lexemes entries) ∧ (∀ lexeme ∈ Entry.lexemes entries, lexeme.Named) ↔
      Entry.RootWellFormed entries := by
  induction entries using Entry.row_induction with
  | nil => simp [Entry.RootWellFormed, Proper]
  | text run rest ih =>
    have follows (next : String) := @Entry.head?_lexemes_append_iff rest next [] (by simp)
    simp only [List.append_nil] at follows
    simp only [Entry.lexemes, Proper, List.forall_mem_cons, Lexeme.Named, Entry.RootWellFormed,
      follows, Entry.lexemes_eq_nil_iff, true_and, ne_eq]
    constructor
    · rintro ⟨⟨kind, last, next, proper⟩, named⟩
      refine ⟨kind, last, ?_, ih.1 ⟨proper, named⟩⟩
      intro other text
      refine ⟨next other text, ?_⟩
      cases rest with
      | nil => simp at text
      | cons e rest =>
        cases text
        simp only [Entry.lexemes, Proper, Entry.lexemes_eq_nil_iff] at proper
        rcases proper.1 with run | ⟨_, rfl⟩
        · exact absurd (next other rfl) run.not_isTail
        · rfl
    · rintro ⟨kind, last, next, wellFormed⟩
      obtain ⟨proper, named⟩ := ih.2 wellFormed
      exact ⟨⟨kind, last, fun other text => (next other text).1, proper⟩, named⟩
  | expression name rest ih =>
    simp only [Entry.lexemes, Proper, List.forall_mem_cons, Lexeme.Named, Entry.RootWellFormed,
      ← ih]
    tauto
  | block name body rest ihBody ih =>
    simp only [Entry.lexemes, Proper, List.forall_mem_cons, List.forall_mem_append, Lexeme.Named,
      Entry.RootWellFormed]
    have inBody := @bodyWellFormed_iff body (Entry.lexemes rest)
    tauto

theorem unreserved_of_named {lexemes : List Lexeme} (h : ∀ lexeme ∈ lexemes, lexeme.Named) :
    .blockStart rootName ∉ lexemes :=
  fun mem => (h _ mem).2 rfl

theorem Spelled.named {lexemes : List Lexeme} {source : List Char} (h : Spelled lexemes source)
    (unreserved : .blockStart rootName ∉ lexemes) : ∀ lexeme ∈ lexemes, lexeme.Named := by
  induction h with
  | nil => simp
  | text _ ih =>
    simp only [List.mem_cons, not_or] at unreserved
    exact List.forall_mem_cons.2 ⟨trivial, ih unreserved.2⟩
  | marker marks _ ih =>
    simp only [List.mem_cons, not_or] at unreserved
    refine List.forall_mem_cons.2 ⟨?_, ih unreserved.2⟩
    cases marks with
    | blockStart _ _ named => exact ⟨named, fun reserved => unreserved.1 (reserved ▸ rfl)⟩
    | blockStop => trivial
    | expression _ _ named _ => exact named

theorem compile_eq_ok_iff_wellFormed {source : String} {t : Template} :
    (compile source).result = .ok t ↔ t.WellFormed ∧ Spelling t.entries source.toList := by
  rw [compile_eq_ok_iff, Template.WellFormed, ← rootWellFormed_iff]
  constructor
  · rintro ⟨root, read, same, unreserved⟩
    obtain ⟨proper, spelled⟩ := tokenize_iff_spelled.1 ⟨read, same⟩
    exact ⟨⟨root, proper, spelled.named unreserved⟩, spelled.spelling⟩
  · rintro ⟨⟨root, proper, named⟩, spelling⟩
    obtain ⟨read, same⟩ := tokenize_iff_spelled.2 ⟨proper, spelling.spelled named⟩
    exact ⟨root, read, same, unreserved_of_named named⟩

/-- **Compiling accepts exactly the grammar.** A source compiles to a tree if and only if the tree
is well formed and the source is a spelling of it; a source that spells no well-formed tree is
refused. -/
theorem compile_eq_ok_iff_spelling (source : String) :
    (∀ t, (compile source).result = .ok t ↔ t.WellFormed ∧ Spelling t.entries source.toList) ∧
      ((∀ t : Template, t.WellFormed → ¬ Spelling t.entries source.toList) →
        ∃ f, (compile source).result = .error f) := by
  refine ⟨fun _ => compile_eq_ok_iff_wellFormed, ?_⟩
  intro none
  cases result : (compile source).result with
  | error f => exact ⟨f, rfl⟩
  | ok t =>
    obtain ⟨wellFormed, spelling⟩ := compile_eq_ok_iff_wellFormed.1 result
    exact absurd spelling (none t wellFormed)

end Stencil
