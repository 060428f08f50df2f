import Stencil.Proofs.Markup.Seam

/-!
# Where runs of text end

* `OpensNext`: the first place from a given one on at which opening braces begin, or the end of the
  source if there are none;
* `tokenize_piece`: a token is that of a segment which stands where the token does;
* `run_ends`: a run of text ends at the next opening braces, and one that begins with opening braces
  has no closing ones behind it and is all that is left of the source;
* `run_passes_opening`: such a run can pass opening braces behind its own.
-/

namespace Stencil

/-- The place is the first one from `least` on at which opening braces begin, or the end of the
source if they begin nowhere from there on. -/
structure OpensNext (least : Nat) (source : List Char) (place : Nat) : Prop where
  least_le : least ≤ place
  stop : opening <+: source.drop place ∨ place = source.length
  clear : ∀ k, least ≤ k → k < place → ¬ opening <+: source.drop k

/-- A token is that of a segment. The segment stands where the token does, and the tokens behind it
are those of the source behind the segment. -/
theorem tokenize_piece {source : String} {t : Token} (read : t ∈ (tokenize source).tokens) :
    ∃ piece : Piece, piece.IsSegment ∧ piece.lexeme = t.lexeme ∧
      source.toList.drop t.position.offset = piece.spelling ++ piece.rest ∧
        (piece.rest = [] →
          (tokenize source).tokens.getLast? = some t ∧ (tokenize source).fault? = none) := by
  obtain ⟨pieces, left, segmentation⟩ := exists_segmentation source.toList
  obtain ⟨tokens, ends⟩ := tokenize_of_segmentation segmentation
  rw [tokens] at read
  obtain ⟨front, piece, back, rfl, rfl⟩ := Piece.split_of_mem_tokensFrom read
  obtain ⟨body, behind, inner, whole, inside, same, others⟩ := segmentation.cut
  obtain ⟨split, segment, later⟩ := others.of_cons
  have spelled : front.flatMap Piece.spelling = body := by
    have covered := inside.append_left
    rwa [List.append_nil, ← Piece.flatMap_spelling_map_followedBy behind, same] at covered
  have offset : (Position.start.after (front.flatMap Piece.spelling)).offset = body.length := by
    rw [Position.offset_after, spelled]
    exact Nat.zero_add _
  refine ⟨piece, segment, rfl, ?_, ?_⟩
  · rw [offset, whole, List.drop_left, split]
  · intro last
    rw [last] at later
    obtain ⟨rfl, rfl⟩ := Segmentation.finish.unique later
    exact ⟨by simp [tokens, Piece.tokensFrom], ends.of_nil rfl⟩

/-- A run of text that does not begin with opening braces has none inside. -/
theorem Piece.IsSegment.run_of_shut {run : String} {spelling rest : List Char}
    (h : IsSegment ⟨.text run, spelling, rest⟩) (shut : ¬ opening <+: spelling) :
    run.toList = spelling ∧ spelling ≠ [] ∧
      (∀ k < spelling.length, ¬ opening <+: (spelling ++ rest).drop k) ∧
        (rest = [] ∨ opening <+: rest) := by
  cases h with
  | marker marks => cases marks
  | run inhabited clear stop => exact ⟨String.toList_ofList, inhabited, clear, stop⟩
  | tail opened _ => exact absurd opened shut

/-- A run of text that begins with opening braces is never closed and never ends. -/
theorem Piece.IsSegment.run_of_opened {run : String} {spelling rest : List Char}
    (h : IsSegment ⟨.text run, spelling, rest⟩) (opened : opening <+: spelling) :
    run.toList = spelling ∧ rest = [] ∧ ¬ closing <:+: spelling := by
  cases h with
  | marker marks => cases marks
  | run inhabited clear stop =>
    have shut := clear 0 (List.length_pos_iff.2 inhabited)
    exact absurd (opened.trans (List.prefix_append _ _)) shut
  | tail _ unclosed => exact ⟨String.toList_ofList, rfl, unclosed⟩

/-- **A run of text ends at the next opening braces.** The characters of a run stand in the source
where its token does. The run goes on up to the first opening braces behind its start, or to the end
of the source if there are none, and has no opening braces inside. Only a run that begins with
opening braces itself goes on to the end of the source: no closing braces are left there, and
whatever else is left belongs to the run, which is the last token. -/
theorem run_ends {source : String} {t : Token} {run : String}
    (read : t ∈ (tokenize source).tokens) (text : t.lexeme = .text run) :
    let left := source.toList.drop t.position.offset
    run.toList <+: left ∧
    (¬ opening <+: run.toList →
      OpensNext 1 left run.toList.length ∧ ¬ opening <:+: run.toList) ∧
    (opening <+: run.toList →
      run.toList = left ∧ ¬ closing <:+: left ∧
        (tokenize source).tokens.getLast? = some t ∧ (tokenize source).fault? = none) := by
  intro left
  obtain ⟨⟨lexeme, spelling, rest⟩, segment, kind, stands, last⟩ := tokenize_piece read
  obtain rfl : lexeme = .text run := kind.trans text
  have left_eq : left = spelling ++ rest := stands
  by_cases opened : opening <+: spelling
  · obtain ⟨same, ended, unclosed⟩ := segment.run_of_opened opened
    obtain rfl : rest = [] := ended
    rw [List.append_nil] at left_eq
    rw [same, left_eq]
    refine ⟨List.prefix_rfl, fun shut => absurd opened shut, fun _ => ?_⟩
    exact ⟨rfl, unclosed, last rfl⟩
  · obtain ⟨same, inhabited, clear, stop⟩ := segment.run_of_shut opened
    have next : OpensNext 1 left spelling.length := by
      refine ⟨List.length_pos_iff.2 inhabited, ?_, ?_⟩
      · rw [left_eq, List.drop_left]
        rcases stop with rfl | behind
        · exact .inr (by rw [List.append_nil])
        · exact .inl behind
      · intro k _ bound
        rw [left_eq]
        exact clear k bound
    have inside := (clear_append_iff.1 clear).1
    rw [same]
    refine ⟨⟨rest, left_eq.symm⟩, fun _ => ⟨next, inside⟩, fun begins => absurd begins opened⟩

/-- Runs before a marker, between two markers and behind them, the last one with opening braces. -/
theorem run_ends_of_opened :
    let source := "a\x7b\x7bx\x7d\x7d\x7b\x7b b \x7b\x7b"
    let first : Token := ⟨.text "a", ⟨0, 1, 1⟩⟩
    let last : Token := ⟨.text "\x7b\x7b b \x7b\x7b", ⟨6, 1, 7⟩⟩
    first ∈ (tokenize source).tokens ∧ last ∈ (tokenize source).tokens ∧
      OpensNext 1 (source.toList.drop 0) 1 ∧ ¬ closing <:+: source.toList.drop 6 := by
  intro source first last
  have firstRead : first ∈ (tokenize source).tokens := by decide +kernel
  have lastRead : last ∈ (tokenize source).tokens := by decide +kernel
  obtain ⟨-, next, -⟩ := run_ends firstRead rfl
  obtain ⟨-, -, unclosed⟩ := run_ends lastRead rfl
  exact ⟨firstRead, lastRead, (next (by decide)).1, (unclosed (by decide)).2.1⟩

/-- A run that begins with opening braces can have others at the third of its characters or behind
it, and goes on nevertheless. -/
theorem run_passes_opening :
    ∃ t ∈ (tokenize "\x7b\x7b a \x7b\x7b b").tokens, ∃ run, t.lexeme = .text run ∧
      opening <+: run.toList ∧ opening <:+: run.toList.drop 2 ∧
        ¬ OpensNext 2 ("\x7b\x7b a \x7b\x7b b".toList.drop t.position.offset)
          run.toList.length := by
  refine ⟨⟨.text "\x7b\x7b a \x7b\x7b b", ⟨0, 1, 1⟩⟩, by decide +kernel, _, rfl, by decide,
    by decide, ?_⟩
  intro next
  have braces : opening <+: ("\x7b\x7b a \x7b\x7b b".toList.drop 0).drop 5 := by decide
  exact next.clear 5 (by decide) (by decide) braces

end Stencil
