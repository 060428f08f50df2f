import Stencil.Proofs.Markup.Sharing

/-!
# Where tokens stand

* `Piece.tokensFrom_append`: the tokens of two rows of segments, the second behind the first;
* `tokenize_placed`, `tokenize_fault`: a token and a fault have the line and the column of the place
  where they stand;
* `tokenize_increasing`: tokens stand one behind the other, and a fault behind all of them;
* `Position.behind`: a position of a text, seen from a text that has something in front of it;
* `Piece.tokensFrom_behind`: the tokens of a text that has something in front of it.
-/

namespace Stencil

/-! ## The tokens of a row of segments -/

namespace Piece

@[simp] theorem tokensFrom_append (p : Position) (front back : List Piece) :
    tokensFrom p (front ++ back) =
      tokensFrom p front ++ tokensFrom (p.after (front.flatMap spelling)) back := by
  induction front generalizing p with
  | nil => rfl
  | cons piece front ih => simp [tokensFrom, ih]

theorem tokensFrom_eq_cons {p : Position} {pieces : List Piece} {t : Token} {ts : List Token}
    (h : tokensFrom p pieces = t :: ts) :
    ∃ piece others, pieces = piece :: others ∧ t = ⟨piece.lexeme, p⟩ ∧
      tokensFrom (p.after piece.spelling) others = ts := by
  cases pieces with
  | nil => cases h
  | cons piece others =>
    obtain ⟨rfl, later⟩ := List.cons.inj h
    exact ⟨piece, others, rfl, rfl, later⟩

/-- Where the tokens of segments part, the segments part. -/
theorem tokensFrom_eq_append {p : Position} {pieces : List Piece} {ts us : List Token}
    (h : tokensFrom p pieces = ts ++ us) :
    ∃ front back, pieces = front ++ back ∧ tokensFrom p front = ts ∧
      tokensFrom (p.after (front.flatMap spelling)) back = us := by
  induction ts generalizing p pieces with
  | nil => exact ⟨[], pieces, rfl, rfl, h⟩
  | cons t ts ih =>
    obtain ⟨piece, others, rfl, rfl, later⟩ := tokensFrom_eq_cons h
    obtain ⟨front, back, rfl, left, right⟩ := ih later
    refine ⟨piece :: front, back, rfl, ?_, ?_⟩
    · rw [tokensFrom, left]
    · simpa using right

/-- A token stands behind the segments in front of its own. -/
theorem split_of_mem_tokensFrom {p : Position} {pieces : List Piece} {t : Token}
    (h : t ∈ tokensFrom p pieces) :
    ∃ front piece back, pieces = front ++ piece :: back ∧
      t = ⟨piece.lexeme, p.after (front.flatMap spelling)⟩ := by
  obtain ⟨before, after, split⟩ := List.append_of_mem h
  obtain ⟨front, _, rfl, _, own⟩ := tokensFrom_eq_append split
  obtain ⟨piece, back, rfl, rfl, _⟩ := tokensFrom_eq_cons own
  exact ⟨front, piece, back, rfl, rfl⟩

/-- Every segment spells something, so every token stands further on than the one before, and all
of them stand in front of the end of the last segment. -/
theorem tokensFrom_increasing (p : Position) {pieces : List Piece}
    (inhabited : ∀ piece ∈ pieces, piece.spelling ≠ []) :
    (tokensFrom p pieces).Pairwise (fun t u => t.position.offset < u.position.offset) ∧
      ∀ t ∈ tokensFrom p pieces,
        t.position.offset < (p.after (pieces.flatMap spelling)).offset := by
  constructor
  · induction pieces generalizing p with
    | nil => exact .nil
    | cons piece pieces ih =>
      obtain ⟨own, others⟩ := List.forall_mem_cons.1 inhabited
      refine .cons ?_ (ih _ others)
      intro t later
      obtain ⟨front, _, _, _, rfl⟩ := split_of_mem_tokensFrom later
      have length := List.length_pos_iff.2 own
      simp only [Position.offset_after]
      omega
  · intro t member
    obtain ⟨front, piece, back, rfl, rfl⟩ := split_of_mem_tokensFrom member
    have length := List.length_pos_iff.2 (inhabited piece (by simp))
    simp only [List.flatMap_append, List.flatMap_cons, Position.offset_after, List.length_append]
    omega

end Piece

/-! ## The tokens and the fault of a source -/

/-- The position has the line and the column of the place in the source where its offset is. -/
def Position.PlacedIn (source : String) (p : Position) : Prop :=
  p.IsEndOf (source.toList.take p.offset)

theorem Position.placedIn_of_prefix {cs : List Char} {source : String} (h : cs <+: source.toList) :
    (start.after cs).PlacedIn source := by
  obtain ⟨rest, whole⟩ := h
  have front : source.toList.take (start.after cs).offset = cs := by simp [← whole, start]
  rw [PlacedIn, front]
  exact after_start_isEndOf cs

theorem tokenize_placed {source : String} {t : Token} (h : t ∈ (tokenize source).tokens) :
    t.position.PlacedIn source := by
  obtain ⟨pieces, tokens, _, segmentation, _⟩ := (Cursor.ofText source).scan_covers
  rw [tokenize, tokens] at h
  obtain ⟨front, piece, back, rfl, rfl⟩ := Piece.split_of_mem_tokensFrom h
  apply Position.placedIn_of_prefix
  have whole := segmentation.append_left
  rw [List.flatMap_append, List.append_assoc] at whole
  exact ⟨_, whole⟩

/-- A fault of a reading quotes what stands at its own place. -/
theorem tokenize_fault {source : String} {f : Fault} (h : (tokenize source).fault? = some f) :
    f.position.PlacedIn source ∧
      ∃ span, f.cause = .strayBraces (String.ofList span) ∧
        ThroughClose span (source.toList.drop f.position.offset) := by
  obtain ⟨pieces, _, position, segmentation, ends⟩ := (Cursor.ofText source).scan_covers
  have whole := segmentation.append_left
  rw [← tokenize, h] at ends
  cases ends with
  | @stray span _ through =>
    dsimp only
    rw [← tokenize] at whole position
    rw [position]
    refine ⟨Position.placedIn_of_prefix ⟨_, whole⟩, span, rfl, ?_⟩
    have offset : ((Cursor.ofText source).position.after (pieces.flatMap Piece.spelling)).offset =
        (pieces.flatMap Piece.spelling).length := by
      rw [Position.offset_after]
      exact Nat.zero_add _
    rwa [offset, ← show _ = source.toList from whole, List.drop_left]

/-- Tokens stand one behind the other, and a fault stands behind all of them. -/
theorem tokenize_increasing (source : String) :
    (tokenize source).tokens.Pairwise (fun t u => t.position.offset < u.position.offset) ∧
      ∀ t ∈ (tokenize source).tokens, ∀ f, (tokenize source).fault? = some f →
        t.position.offset < f.position.offset := by
  obtain ⟨pieces, tokens, position, segmentation, ends⟩ := (Cursor.ofText source).scan_covers
  rw [← tokenize] at tokens position ends
  obtain ⟨increasing, below⟩ := Piece.tokensFrom_increasing (Cursor.ofText source).position
    fun piece member => (segmentation.isSegment piece member).spelling_ne_nil
  rw [tokens]
  refine ⟨increasing, ?_⟩
  intro t member f fault
  rw [fault] at ends
  cases ends with
  | stray =>
    dsimp only
    rw [position]
    exact below t member

/-! ## Texts with something in front of them -/

/-- Of a text with something in front of it only the first line has other columns. -/
def Position.behind (front : List Char) (p : Position) : Position :=
  ⟨p.offset + front.length, p.line + front.count '\n',
    if p.line = 1 then p.column + sinceNewline front else p.column⟩

def Token.behind (front : List Char) (t : Token) : Token :=
  ⟨t.lexeme, t.position.behind front⟩

def Fault.behind (front : List Char) (f : Fault) : Fault :=
  ⟨f.cause, f.position.behind front⟩

namespace Position

theorem column_after_start (cs : List Char) : (start.after cs).column = sinceNewline cs + 1 := by
  by_cases newline : '\n' ∈ cs
  · exact column_after_of_mem _ newline
  · have all : sinceNewline cs = cs.length := by
      simp [sinceNewline, newline]
    rw [column_after_of_not_mem _ newline, all]
    simp [start, Nat.add_comm]

/-- The place behind a text is found from the place behind what is in front of it as well. -/
theorem behind_after (front cs : List Char) :
    (start.after cs).behind front = (start.after front).after cs := by
  apply ext_of
  · simp [behind, start]
    omega
  · simp [behind, start]
    omega
  · by_cases newline : '\n' ∈ cs
    · have later : (start.after cs).line ≠ 1 := by
        have := List.count_pos_iff.2 newline
        simp only [line_after, start]
        omega
      simp only [behind, if_neg later]
      rw [column_after_of_mem _ newline, column_after_of_mem _ newline]
    · have first : (start.after cs).line = 1 := by
        simp [start, List.count_eq_zero.2 newline]
      simp only [behind, if_pos first]
      rw [column_after_of_not_mem _ newline, column_after_of_not_mem _ newline,
        column_after_start]
      simp only [start]
      omega

end Position

/-- The tokens of a text with something in front of it are those of the text alone, seen from the
longer text. -/
theorem Piece.tokensFrom_behind (front cs : List Char) (pieces : List Piece) :
    tokensFrom ((Position.start.after front).after cs) pieces =
      (tokensFrom (Position.start.after cs) pieces).map (Token.behind front) := by
  induction pieces generalizing cs with
  | nil => rfl
  | cons piece pieces ih =>
    have later := ih (cs ++ piece.spelling)
    simp only [Position.after_append] at later
    simp only [tokensFrom, List.map_cons, Token.behind, Position.behind_after, later]

end Stencil
