import Stencil.Proofs.Markup.Seam
import Stencil.Proofs.Template.Enclosure
import Stencil.Proofs.Template.Grammar
import Stencil.Proofs.Template.Rendering

/-!
# Blocks cut out of a source

* `Span`, `outside`: a stretch of a source, and the characters that stand in none of several spans;
* `cutBlocks`: a source without the outermost blocks of some names;
* `Piece.leaves_of_readAs`: what is left of a node spells the entries that are left of it;
* `Entry.fuse`: entries in which texts that have come to meet are one text;
* `rootWellFormed_fuse`, `Spelled.fuse`, `Entry.renderAll_fuse`: fusing the entries that are left
  makes them well formed, and changes neither their spellings nor what they render;
* `renderExcept_cuts`: rendering all but some blocks is rendering the source without them.
-/

namespace Stencil

/-! ## Characters outside of spans -/

/-- A stretch of a source: the offset of its first character and the offset behind its last one. -/
structure Span where
  first : Nat
  past : Nat
  deriving DecidableEq

def Span.holds (s : Span) (i : Nat) : Bool := s.first ≤ i && i < s.past

/-- The characters that stand in none of the spans, if the first of them stands at `offset`. -/
def outside (spans : List Span) (offset : Nat) (cs : List Char) : List Char :=
  ((cs.zipIdx offset).filter fun c => !spans.any fun s => s.holds c.2).map Prod.fst

section
variable {spans : List Span} {offset : Nat} {front back : List Char}

theorem outside_append (spans : List Span) (offset : Nat) (front back : List Char) :
    outside spans offset (front ++ back) =
      outside spans offset front ++ outside spans (offset + front.length) back := by
  simp [outside, List.zipIdx_append]

/-- Characters in front of all spans stay. -/
theorem outside_of_behind (behind : ∀ s ∈ spans, offset + front.length ≤ s.first) :
    outside spans offset (front ++ back) =
      front ++ outside spans (offset + front.length) back := by
  have all : outside spans offset front = front := by
    have none : (front.zipIdx offset).filter (fun c => !spans.any fun s => s.holds c.2) =
        front.zipIdx offset := by
      apply List.filter_eq_self.2
      intro c member
      have ⟨_, bound, _⟩ := List.mem_zipIdx member
      rw [Bool.not_eq_true', List.any_eq_false]
      intro s listed
      have later := behind s listed
      simp only [Span.holds, Bool.and_eq_true, decide_eq_true_eq]
      omega
    rw [outside, none, List.zipIdx_map_fst]
  rw [outside_append, all]

/-- Of characters that make up a span nothing stays, and the span does not matter behind it. -/
theorem outside_of_span :
    outside (⟨offset, offset + front.length⟩ :: spans) offset (front ++ back) =
      outside spans (offset + front.length) back := by
  have none : outside (⟨offset, offset + front.length⟩ :: spans) offset front = [] := by
    rw [outside, List.map_eq_nil_iff, List.filter_eq_nil_iff]
    intro c member
    have ⟨lower, upper, _⟩ := List.mem_zipIdx member
    simp [Span.holds, lower, upper]
  have passed : outside (⟨offset, offset + front.length⟩ :: spans) (offset + front.length) back =
      outside spans (offset + front.length) back := by
    unfold outside
    congr 1
    apply List.filter_congr
    intro c member
    have ⟨lower, _, _⟩ := List.mem_zipIdx member
    have shut : ¬ c.2 < offset + front.length := by omega
    simp [Span.holds, shut]
  rw [outside_append, none, passed, List.nil_append]

end

/-! ## Cutting out blocks -/

def stopMarker : List Char := opening ++ ['/', 't'] ++ closing

/-- The span of a block that bears one of the names: from the first character of its start through
the last one of its stop. -/
def Part.span? (names : List String) : Part → Option Span
  | .single _ => none
  | .block start _ stop =>
    match start.lexeme with
    | .blockStart name =>
      if names.contains name then
        some ⟨start.position.offset, stop.position.offset + stopMarker.length⟩
      else none
    | _ => none

/-- The spans of the outermost blocks that bear one of the names. -/
def blockSpans (names : List String) (ts : List Token) : List Span :=
  (parts ts).filterMap (Part.span? names)

/-- The source without the outermost blocks that bear one of the names. -/
def cutBlocks (names : List String) (source : String) : String :=
  String.ofList (outside (blockSpans names (tokenize source).tokens) 0 source.toList)

section
variable {names : List String}

theorem blockSpans_single {t : Token} (single : ∀ name, t.lexeme ≠ .blockStart name)
    (ts : List Token) : blockSpans names (t :: ts) = blockSpans names ts := by
  unfold blockSpans
  rw [parts_single single]
  rfl

theorem blockSpans_block (names : List String) {start stop : Token} {inside : List Token}
    {name : String} {body : List Entry} (kind : start.lexeme = .blockStart name)
    (read : ReadAs inside body) (stopKind : stop.lexeme = .blockStop) (others : List Token) :
    blockSpans names (start :: (inside ++ stop :: others)) =
      if names.contains name then
        ⟨start.position.offset, stop.position.offset + stopMarker.length⟩ ::
          blockSpans names others
      else blockSpans names others := by
  unfold blockSpans
  rw [parts_block kind read stopKind]
  by_cases named : name ∈ names <;> simp [Part.span?, kind, named]

theorem Lexeme.Marks.eq_stopMarker {spelling : List Char}
    (h : Lexeme.Marks .blockStop spelling) : spelling = stopMarker := by
  cases h
  rfl

/-- Segments spell their lexemes. -/
theorem Piece.spelled {pieces : List Piece} (segments : ∀ piece ∈ pieces, piece.IsSegment) :
    Spelled (pieces.map Piece.lexeme) (pieces.flatMap Piece.spelling) := by
  induction pieces with
  | nil => exact .nil
  | cons piece pieces ih =>
    obtain ⟨own, others⟩ := List.forall_mem_cons.1 segments
    have later := ih others
    cases own with
    | marker marks => exact .marker marks later
    | @run spelling _ _ _ _ => simpa using @Spelled.text (String.ofList spelling) _ _ later
    | @tail spelling _ _ => simpa using @Spelled.text (String.ofList spelling) _ _ later

/-- Of segments from a position on the lexemes are left outside of the blocks of the names. -/
structure Piece.Leaves (names : List String) (p : Position) (pieces : List Piece)
    (left : List Lexeme) : Prop where
  behind : ∀ s ∈ blockSpans names (tokensFrom p pieces), p.offset ≤ s.first
  spelled : Spelled left
    (outside (blockSpans names (tokensFrom p pieces)) p.offset (pieces.flatMap spelling))

namespace Piece.Leaves

theorem nil (p : Position) : Leaves names p [] [] := by
  have none : blockSpans names (tokensFrom p []) = [] := by simp [tokensFrom, blockSpans, parts]
  refine ⟨by simp [none], ?_⟩
  rw [none]
  exact .nil

/-- Segments in front are left as they are if they bring no span. -/
theorem kept {chunk pieces : List Piece} {p : Position} {left : List Lexeme}
    (segments : ∀ piece ∈ chunk, piece.IsSegment)
    (spans : blockSpans names (tokensFrom p (chunk ++ pieces)) =
      blockSpans names (tokensFrom (p.after (chunk.flatMap spelling)) pieces))
    (h : Leaves names (p.after (chunk.flatMap spelling)) pieces left) :
    Leaves names p (chunk ++ pieces) (chunk.map lexeme ++ left) := by
  obtain ⟨behind, spelled⟩ := h
  rw [Position.offset_after] at behind spelled
  constructor
  · intro s listed
    have later := behind s (spans ▸ listed)
    omega
  · rw [spans, List.flatMap_append, outside_of_behind behind]
    exact (Piece.spelled segments).append spelled

/-- Segments in front are cut out if they bring a span that they make up. -/
theorem cut {chunk pieces : List Piece} {p : Position} {left : List Lexeme}
    (spans : blockSpans names (tokensFrom p (chunk ++ pieces)) =
      ⟨p.offset, p.offset + (chunk.flatMap spelling).length⟩ ::
        blockSpans names (tokensFrom (p.after (chunk.flatMap spelling)) pieces))
    (h : Leaves names (p.after (chunk.flatMap spelling)) pieces left) :
    Leaves names p (chunk ++ pieces) left := by
  obtain ⟨behind, spelled⟩ := h
  rw [Position.offset_after] at behind spelled
  constructor
  · intro s listed
    rw [spans] at listed
    rcases List.mem_cons.1 listed with rfl | listed
    · exact Nat.le_refl _
    · have later := behind s listed
      omega
  · rw [spans, List.flatMap_append, outside_of_span]
    exact spelled

/-- A segment that starts no block brings no span. -/
theorem single {piece : Piece} {pieces : List Piece} {p : Position} {left : List Lexeme}
    (own : piece.IsSegment) (starts : ∀ name, piece.lexeme ≠ .blockStart name)
    (h : Leaves names (p.after piece.spelling) pieces left) :
    Leaves names p (piece :: pieces) (piece.lexeme :: left) := by
  have chunk : [piece].flatMap spelling = piece.spelling := by simp
  rw [← chunk] at h
  apply kept (List.forall_mem_singleton.2 own) ?_ h
  rw [chunk]
  exact blockSpans_single starts _

/-- A block is cut out as a whole if it bears one of the names, and else it is left as a whole. -/
theorem block {opener closer : Piece} {inner pieces : List Piece} {p : Position}
    {left : List Lexeme} {name : String} {body : List Entry}
    (segments : ∀ piece ∈ opener :: (inner ++ [closer]), piece.IsSegment)
    (kind : opener.lexeme = .blockStart name)
    (read : ReadAs (tokensFrom (p.after opener.spelling) inner) body)
    (stopKind : closer.lexeme = .blockStop)
    (h : Leaves names (p.after ((opener :: (inner ++ [closer])).flatMap spelling)) pieces left) :
    Leaves names p (opener :: (inner ++ closer :: pieces))
      (if names.contains name then left
        else .blockStart name :: (Entry.lexemes body ++ .blockStop :: left)) := by
  have shape : opener :: (inner ++ closer :: pieces) = opener :: (inner ++ [closer]) ++ pieces := by
    simp
  have closes : closer.spelling = stopMarker := by
    have own := segments closer (by simp)
    exact (stopKind ▸ own.marks (by simp [stopKind])).eq_stopMarker
  have tokens : tokensFrom p (opener :: (inner ++ [closer]) ++ pieces) =
      ⟨opener.lexeme, p⟩ :: (tokensFrom (p.after opener.spelling) inner ++
        ⟨closer.lexeme, p.after ((opener :: inner).flatMap spelling)⟩ ::
          tokensFrom (p.after ((opener :: (inner ++ [closer])).flatMap spelling)) pieces) := by
    simp [tokensFrom]
  have spans := tokens ▸ blockSpans_block names kind read stopKind
    (tokensFrom (p.after ((opener :: (inner ++ [closer])).flatMap spelling)) pieces)
  have past : (p.after ((opener :: inner).flatMap spelling)).offset + stopMarker.length =
      p.offset + ((opener :: (inner ++ [closer])).flatMap spelling).length := by
    simp [← closes]
    omega
  rw [shape]
  by_cases named : names.contains name = true
  · rw [if_pos named] at spans ⊢
    rw [past] at spans
    exact cut spans h
  · rw [if_neg named] at spans ⊢
    have lexemes : (opener :: (inner ++ [closer])).map lexeme ++ left =
        .blockStart name :: (Entry.lexemes body ++ .blockStop :: left) := by
      rw [← read, map_lexeme_tokensFrom]
      simp [kind, stopKind]
    rw [← lexemes]
    exact kept segments spans h

end Piece.Leaves

/-- What is outside of the blocks spells the entries that are left. The induction goes along the
row of entries and never into a body. -/
theorem Piece.leaves_of_readAs (names : List String) {entries : List Entry} {pieces : List Piece}
    {p : Position} (segments : ∀ piece ∈ pieces, piece.IsSegment)
    (read : ReadAs (tokensFrom p pieces) entries) :
    Leaves names p pieces
      (Entry.lexemes (entries.filter fun e => !Template.isNamed names e)) := by
  induction entries using Entry.row_induction generalizing pieces p with
  | nil =>
    have none := ReadAs.nil_iff.1 read
    cases pieces with
    | nil => simpa using Leaves.nil p
    | cons piece pieces => cases none
  | text run rest ih =>
    obtain ⟨t, others, same, kind, later⟩ := ReadAs.text_iff.1 read
    obtain ⟨piece, pieces, rfl, rfl, rfl⟩ := tokensFrom_eq_cons same
    obtain ⟨own, segments⟩ := List.forall_mem_cons.1 segments
    dsimp only at kind
    have whole := (ih segments later).single own (by simp [kind])
    simpa [kind, Template.isNamed] using whole
  | expression name rest ih =>
    obtain ⟨t, others, same, kind, later⟩ := ReadAs.expression_iff.1 read
    obtain ⟨piece, pieces, rfl, rfl, rfl⟩ := tokensFrom_eq_cons same
    obtain ⟨own, segments⟩ := List.forall_mem_cons.1 segments
    dsimp only at kind
    have whole := (ih segments later).single own (by simp [kind])
    simpa [kind, Template.isNamed] using whole
  | block name body rest _ ih =>
    obtain ⟨start, inside, stop, others, same, kind, readBody, stopKind, later⟩ :=
      ReadAs.block_iff.1 read
    obtain ⟨opener, _, rfl, rfl, atBody⟩ := tokensFrom_eq_cons same
    obtain ⟨inner, _, rfl, rfl, atStop⟩ := tokensFrom_eq_append atBody
    obtain ⟨closer, pieces, rfl, rfl, rfl⟩ := tokensFrom_eq_cons atStop
    dsimp only at kind stopKind
    have shape : opener :: (inner ++ closer :: pieces) =
        opener :: (inner ++ [closer]) ++ pieces := by
      simp
    obtain ⟨chunk, behind⟩ := List.forall_mem_append.1 (shape ▸ segments)
    have place : ((p.after opener.spelling).after (inner.flatMap spelling)).after closer.spelling =
        p.after ((opener :: (inner ++ [closer])).flatMap spelling) := by
      simp
    rw [place] at later
    have whole := Leaves.block chunk kind readBody stopKind (ih behind later)
    by_cases named : name ∈ names <;> simpa [Template.isNamed, named] using whole

end

/-! ## Texts that have come to meet -/

namespace Entry

/-- A text in front of entries takes in the text that follows, unless braces are opened there. -/
def prepend (run : String) : List Entry → List Entry
  | .text next :: rest =>
    if opening <+: next.toList then .text run :: .text next :: rest
    else .text (run ++ next) :: rest
  | rest => .text run :: rest

/-- Joins the texts that stand side by side. -/
def fuse : List Entry → List Entry
  | [] => []
  | .text run :: rest => prepend run (fuse rest)
  | .expression name :: rest => .expression name :: fuse rest
  | .block name body :: rest => .block name body :: fuse rest

end Entry

/-- Two texts make up one if no braces open where they meet. -/
theorem IsRun.append {a b : String} (h : IsRun a) (apart : MayBeFollowed a) (h' : IsRun b) :
    IsRun (a ++ b) := by
  refine ⟨by simp [h.1], ?_⟩
  rw [String.toList_append, List.infix_append_iff_ne_nil]
  rintro (inFront | inBack | ⟨left, right, someLeft, someRight, split, atEnd, _⟩)
  · exact h.2 inFront
  · exact h'.2 inBack
  · -- Both braces would be one on each side of the seam.
    obtain ⟨c, others, rfl⟩ := List.exists_cons_of_ne_nil someLeft
    obtain ⟨rfl, rest⟩ := List.cons.inj split
    have one : others = [] := by
      cases others with
      | nil => rfl
      | cons d others =>
        have empty := (List.append_eq_nil_iff.1 (List.cons.inj rest).2.symm).2
        exact absurd empty someRight
    subst one
    obtain ⟨before, whole⟩ := atEnd
    apply apart
    rw [← whole, List.getLast?_concat]

theorem MayBeFollowed.append {a b : String} (inhabited : b ≠ "") (h : MayBeFollowed b) :
    MayBeFollowed (a ++ b) := by
  have some : b.toList ≠ [] := by simpa using inhabited
  rw [MayBeFollowed, String.toList_append, List.getLast?_append_of_ne_nil _ some]
  exact h

namespace Entry

/-- A text that may stand in front of well-formed entries makes well-formed ones with them. -/
theorem rootWellFormed_prepend {run : String} {entries : List Entry}
    (kind : IsRun run ∨ IsTail run ∧ entries = []) (last : entries ≠ [] → MayBeFollowed run)
    (h : RootWellFormed entries) : RootWellFormed (prepend run entries) := by
  cases entries with
  | nil => simpa [prepend, RootWellFormed] using kind
  | cons e rest =>
    have inside := kind.resolve_right (by simp)
    have followed := last (List.cons_ne_nil _ _)
    cases e with
    | text next =>
      obtain ⟨nextKind, nextLast, later, others⟩ := h
      rw [prepend]
      by_cases opened : opening <+: next.toList
      · obtain ⟨tail, atEnd⟩ := nextKind.resolve_left fun between => between.2 opened.isInfix
        rw [if_pos opened]
        refine ⟨.inl inside, fun _ => followed, ?_, nextKind, nextLast, later, others⟩
        intro other same
        obtain rfl : next = other := by simpa using same
        exact ⟨tail, by rw [atEnd]⟩
      · have nextInside := nextKind.resolve_right fun tail => opened tail.1.1
        rw [if_neg opened]
        refine ⟨.inl (inside.append followed nextInside), ?_, later, others⟩
        intro some
        exact (nextLast some).append nextInside.1
    | expression name => exact ⟨.inl inside, fun _ => followed, by simp, h⟩
    | block name body => exact ⟨.inl inside, fun _ => followed, by simp, h⟩

/-- Well-formed entries of which blocks are left out are well formed when they are fused. -/
theorem rootWellFormed_fuse (names : List String) {entries : List Entry}
    (h : RootWellFormed entries) :
    RootWellFormed (fuse (entries.filter fun e => !Template.isNamed names e)) := by
  induction entries with
  | nil => exact h
  | cons e rest ih =>
    cases e with
    | text run =>
      obtain ⟨kind, last, _, others⟩ := h
      have some : fuse (rest.filter fun e => !Template.isNamed names e) ≠ [] → rest ≠ [] := by
        rintro left rfl
        exact left rfl
      rw [List.filter_cons_of_pos rfl, fuse]
      apply rootWellFormed_prepend ?_ (fun left => last (some left)) (ih others)
      rcases kind with inside | ⟨tail, rfl⟩
      · exact .inl inside
      · exact .inr ⟨tail, rfl⟩
    | expression name =>
      rw [List.filter_cons_of_pos rfl]
      exact ⟨h.1, ih h.2⟩
    | block name body =>
      obtain ⟨named, unreserved, inside, others⟩ := h
      by_cases out : Template.isNamed names (.block name body) = true
      · rw [List.filter_cons_of_neg (by simp [out])]
        exact ih others
      · rw [List.filter_cons_of_pos (by simp [out])]
        exact ⟨named, unreserved, inside, ih others⟩

end Entry

theorem Spelled.prepend {run : String} {entries : List Entry} {source : List Char}
    (h : Spelled (Entry.lexemes entries) source) :
    Spelled (Entry.lexemes (Entry.prepend run entries)) (run.toList ++ source) := by
  have apart : Spelled (Entry.lexemes (.text run :: entries)) (run.toList ++ source) := by
    rw [Entry.lexemes]
    exact .text h
  unfold Entry.prepend
  split
  · next next rest =>
    split
    · exact apart
    · rw [Entry.lexemes] at h ⊢
      cases h with
      | text others => simpa using @Spelled.text (run ++ next) _ _ others
      | marker marks _ => cases marks
  · exact apart

/-- Fused entries have the spellings that they had before. -/
theorem Spelled.fuse {entries : List Entry} {source : List Char}
    (h : Spelled (Entry.lexemes entries) source) :
    Spelled (Entry.lexemes (Entry.fuse entries)) source := by
  induction entries generalizing source with
  | nil => exact h
  | cons e rest ih =>
    have row (others : List Entry) :
        Entry.lexemes (e :: others) = Entry.lexemes [e] ++ Entry.lexemes others :=
      Entry.lexemes_append [e] others
    rw [row] at h
    obtain ⟨front, back, rfl, own, others⟩ := h.split
    cases e with
    | text run =>
      simp only [Entry.lexemes] at own
      cases own with
      | text none => simpa [none.eq_nil, Entry.fuse] using (ih others).prepend
      | marker marks _ => cases marks
    | expression name =>
      rw [Entry.fuse, row]
      exact own.append (ih others)
    | block name body =>
      rw [Entry.fuse, row]
      exact own.append (ih others)

namespace Entry

theorem concat_map_prepend (run : String) (entries : List Entry) (context : Context) :
    concat ((prepend run entries).map (render context)) =
      (concat (entries.map (render context))).map (run ++ ·) := by
  unfold prepend
  split
  · next next rest =>
    split
    · simp [render]
    · simp [render, map_prepend]
  · simp [render]

/-- Fused entries render as they did before. -/
theorem renderAll_fuse (context : Context) (entries : List Entry) :
    renderAll context (fuse entries) = renderAll context entries := by
  rw [renderAll_eq_concat, renderAll_eq_concat]
  induction entries with
  | nil => rfl
  | cons e rest ih =>
    cases e with
    | text run => simp only [fuse, concat_map_prepend, ih, List.map_cons, render, concat_ok_cons]
    | expression name => simp only [fuse, List.map_cons, concat_cons, ih]
    | block name body => simp only [fuse, List.map_cons, concat_cons, ih]

end Entry

/-! ## Rendering without some blocks -/

/-- What compiles still compiles without blocks of some names, to the entries that are left. -/
theorem compile_cutBlocks {source : String} {t : Template}
    (compiled : (compile source).result = .ok t) (names : List String) :
    (compile (cutBlocks names source)).result =
      .ok ⟨rootName, Entry.fuse (t.entries.filter fun e => !Template.isNamed names e)⟩ := by
  obtain ⟨_, read, same, unreserved⟩ := compile_eq_ok_iff.1 compiled
  -- The tree is well formed, and so are the fused entries that are left.
  have wellFormed : Entry.RootWellFormed t.entries := by
    obtain ⟨proper, spelled⟩ := tokenize_iff_spelled.1 ⟨read, same⟩
    exact rootWellFormed_iff.1 ⟨proper, spelled.named unreserved⟩
  obtain ⟨proper, named⟩ := rootWellFormed_iff.2 (Entry.rootWellFormed_fuse names wellFormed)
  -- The source that is left spells these entries.
  obtain ⟨pieces, left, segmentation⟩ := exists_segmentation source.toList
  obtain ⟨tokens, ends⟩ := tokenize_of_segmentation segmentation
  have whole : pieces.flatMap Piece.spelling = source.toList := by
    have all := segmentation.append_left
    rwa [show left = [] from ends.eq_nil read, List.append_nil] at all
  rw [tokens] at same
  have leaves := Piece.leaves_of_readAs names segmentation.isSegment same
  have spelled : Spelled
      (Entry.lexemes (t.entries.filter fun e => !Template.isNamed names e))
      (cutBlocks names source).toList := by
    rw [cutBlocks, String.toList_ofList, tokens, ← whole]
    exact leaves.spelled
  obtain ⟨readCut, sameCut⟩ := tokenize_iff_spelled.2 ⟨proper, spelled.fuse⟩
  exact compile_eq_ok_iff.2 ⟨rfl, readCut, sameCut, unreserved_of_named named⟩

/-- **Rendering all but some blocks is rendering the source without them.** If a source compiles, so
does the source from which the outermost blocks of the selected names are cut out, from the first
character of the start of each through the last one of its stop. Under every context the template
renders all but the selected blocks as that source renders, with the same text or the same error.
The context may come first, unless it is a text and would be taken for a name. -/
theorem renderExcept_cuts {source : String} {t : Template}
    (compiled : (compile source).result = .ok t) {selection : Selection}
    (inhabited : selection.selectors ≠ []) :
    ∃ u, (compile (cutBlocks (selection.selectors.map Selector.name) source)).result = .ok u ∧
      ∀ context : Context,
        t.renderExcept selection context = u.renderWith .null context ∧
          ((∀ name, context ≠ .text name) →
            t.renderExcept selection context = u.renderWith context .null) := by
  refine ⟨_, compile_cutBlocks compiled _, ?_⟩
  intro context
  have cuts : t.renderExcept selection context = Template.render ⟨rootName, Entry.fuse
      (t.entries.filter fun e => !Template.isNamed (selection.selectors.map Selector.name) e)⟩
      context := by
    rw [Template.render, Entry.renderAll_fuse]
    unfold Template.renderExcept
    split
    · next none => exact absurd none inhabited
    · rfl
  refine ⟨cuts, fun unnamed => ?_⟩
  rw [Template.renderWith_null unnamed, cuts]

/-- Two blocks of one name, between two texts and in front of an expression. -/
theorem renderExcept_cuts_of_siblings :
    let source := "a\x7b\x7bt b\x7d\x7dx\x7b\x7b/t\x7d\x7dc" ++
      "\x7b\x7bt b\x7d\x7d\x7b\x7b/t\x7d\x7d\x7b\x7bz\x7d\x7d"
    let t : Template :=
      ⟨rootName, [.text "a", .block "b" [.text "x"], .text "c", .block "b" [], .expression "z"]⟩
    (compile source).result = .ok t ∧ (Selection.single (.bare "b")).selectors ≠ [] ∧
      cutBlocks ["b"] source = "ac\x7b\x7bz\x7d\x7d" ∧
        ∃ u, (compile "ac\x7b\x7bz\x7d\x7d").result = .ok u ∧
          ∀ context : Context,
            t.renderExcept (.single (.bare "b")) context = u.renderWith .null context := by
  intro source t
  have compiled : (compile source).result = .ok t := by
    rw [compile_eq_ok_iff]
    simp only [ReadAs, t, Entry.lexemes, List.nil_append, List.cons_append]
    decide +kernel
  have inhabited : (Selection.single (.bare "b")).selectors ≠ [] := List.cons_ne_nil _ _
  have left : cutBlocks ["b"] source = "ac\x7b\x7bz\x7d\x7d" := by decide +kernel
  obtain ⟨u, compiledCut, same⟩ := renderExcept_cuts compiled inhabited
  refine ⟨compiled, inhabited, left, u, ?_, fun context => (same context).1⟩
  rw [← left]
  exact compiledCut

end Stencil
