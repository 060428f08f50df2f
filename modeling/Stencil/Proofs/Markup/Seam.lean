import Stencil.Proofs.Markup.Placement

/-!
# Joining and cutting sources

* `Piece.followedBy`: a segment of a source that goes on further;
* `Segmentation.cut`: a source is cut between two of its segments, and both parts keep theirs;
* `Piece.Joined`: the segments of two sources joined, where a run of text at the seam may go on;
* `Segmentation.join`: two sources are joined, and both keep their segments but for such a run;
* `tokenize_join`: the tokens and the fault of two sources joined.
-/

namespace Stencil

namespace Piece

/-- The same segment of a source that goes on further. -/
def followedBy (back : List Char) (piece : Piece) : Piece :=
  { piece with rest := piece.rest ++ back }

@[simp] theorem spelling_followedBy (back : List Char) (piece : Piece) :
    (piece.followedBy back).spelling = piece.spelling := rfl

@[simp] theorem lexeme_followedBy (back : List Char) (piece : Piece) :
    (piece.followedBy back).lexeme = piece.lexeme := rfl

@[simp] theorem tokensFrom_map_followedBy (p : Position) (back : List Char) (pieces : List Piece) :
    tokensFrom p (pieces.map (followedBy back)) = tokensFrom p pieces := by
  induction pieces generalizing p with
  | nil => rfl
  | cons piece pieces ih => simp [tokensFrom, ih]

@[simp] theorem flatMap_spelling_map_followedBy (back : List Char) (pieces : List Piece) :
    (pieces.map (followedBy back)).flatMap spelling = pieces.flatMap spelling := by
  simp [List.flatMap_map]

@[simp] theorem lexeme_comp_followedBy (back : List Char) : lexeme ∘ followedBy back = lexeme := rfl

/-! ## Segments of longer and shorter sources -/

/-- A segment that begins with opening braces has them in its own spelling. -/
theorem IsSegment.opened {piece : Piece} (h : piece.IsSegment)
    (opened : opening <+: piece.spelling ++ piece.rest) : opening <+: piece.spelling := by
  cases h with
  | marker marks => exact marks.opened
  | run inhabited clear _ =>
    have shut := clear 0 (List.length_pos_iff.2 inhabited)
    exact absurd opened shut
  | tail opened' _ => exact opened'

/-- A segment that is no text is the spelling of a marker. -/
theorem IsSegment.marks {piece : Piece} (h : piece.IsSegment)
    (marker : ∀ run, piece.lexeme ≠ .text run) : piece.lexeme.Marks piece.spelling := by
  cases h with
  | marker marks => exact marks
  | run => exact absurd rfl (marker _)
  | tail => exact absurd rfl (marker _)

/-- Whatever follows a text begins with opening braces. -/
theorem IsSegment.opened_of_text {run : String} {spelling rest : List Char}
    (h : IsSegment ⟨.text run, spelling, rest⟩) (some : rest ≠ []) : opening <+: rest := by
  cases h with
  | marker marks => cases marks
  | run _ _ stop => exact stop.resolve_left some
  | tail => exact absurd rfl some

/-- A segment that something follows is the same if more follows after that. -/
theorem IsSegment.followedBy {piece : Piece} (h : piece.IsSegment) (some : piece.rest ≠ [])
    (back : List Char) : (piece.followedBy back).IsSegment := by
  cases h with
  | marker marks => exact .marker marks
  | @run spelling rest inhabited clear stop =>
    have opened : opening <+: rest := stop.resolve_left some
    have longer : opening <+: rest ++ back := opened.trans (List.prefix_append _ _)
    refine .run inhabited ?_ (.inr longer)
    rw [clear_append_iff] at clear ⊢
    refine ⟨clear.1, fun seam => clear.2 ⟨seam.1, ?_⟩⟩
    exact head_of_opened opened
  | tail => exact absurd rfl some

/-- A segment stays one if what follows it is cut off, provided that a run of text still ends
where it did. -/
theorem IsSegment.of_append {lexeme : Lexeme} {spelling rest back : List Char}
    (h : IsSegment ⟨lexeme, spelling, rest ++ back⟩)
    (stop : ∀ run, lexeme = .text run → rest = [] ∨ opening <+: rest) :
    IsSegment ⟨lexeme, spelling, rest⟩ := by
  generalize whole : rest ++ back = longer at h
  cases h with
  | marker marks => exact .marker marks
  | run inhabited clear _ =>
    subst whole
    refine .run inhabited ?_ (stop _ rfl)
    intro k bound opened
    apply clear k bound
    rw [← List.append_assoc, List.drop_append_of_le_length (by simp; omega)]
    exact opened.trans (List.prefix_append _ _)
  | tail opened unclosed =>
    obtain ⟨rfl, _⟩ := List.append_eq_nil_iff.1 whole
    exact .tail opened unclosed

/-- A run of text at the end of a source goes on in the run that follows it. -/
theorem IsSegment.merge {a b rest : List Char} (unopened : ¬ opening <:+: a)
    (apart : ¬ (a.getLast? = some '{' ∧ (b ++ rest).head? = some '{')) (inhabited : b ≠ [])
    (clear : ∀ k < b.length, ¬ opening <+: (b ++ rest).drop k)
    (stop : rest = [] ∨ opening <+: rest) :
    IsSegment ⟨.text (String.ofList (a ++ b)), a ++ b, rest⟩ := by
  refine .run (by simp [inhabited]) ?_ stop
  intro k bound
  rw [List.append_assoc]
  by_cases first : k < a.length
  · exact clear_append_iff.2 ⟨unopened, apart⟩ k first
  · rw [List.length_append] at bound
    have later := clear (k - a.length) (by omega)
    rwa [List.drop_append, List.drop_eq_nil_of_le (by omega), List.nil_append]

end Piece

/-! ## Cutting -/

theorem Segmentation.of_cons {source left : List Char} {piece : Piece} {pieces : List Piece}
    (h : Segmentation source (piece :: pieces) left) :
    piece.spelling ++ piece.rest = source ∧ piece.IsSegment ∧
      Segmentation piece.rest pieces left := by
  cases h with
  | segment split segment others => exact ⟨split, segment, others⟩

/-- A run of text still ends where it did if the source is cut behind a later segment. -/
theorem Segmentation.stop_of_cut {run : String} {spelling body back left : List Char}
    {inner later : List Piece} (segment : Piece.IsSegment ⟨.text run, spelling, body ++ back⟩)
    (inside : Segmentation body inner [])
    (others : Segmentation (body ++ back) (inner.map (Piece.followedBy back) ++ later) left) :
    body = [] ∨ opening <+: body := by
  cases inside with
  | finish => exact .inl rfl
  | stuck stuck => exact absurd rfl stuck.ne_nil
  | @segment _ _ next _ split inhabited _ =>
    obtain ⟨split', segment', _⟩ := others.of_cons
    have some : body ++ back ≠ [] := by simp [← split, inhabited.spelling_ne_nil]
    have own := segment'.opened (split' ▸ segment.opened_of_text some)
    exact .inr (own.trans ⟨_, split⟩)

/-- A source is cut between two of its segments. Both parts keep their segments. -/
theorem Segmentation.cut {source left : List Char} {front later : List Piece}
    (h : Segmentation source (front ++ later) left) :
    ∃ body back inner, source = body ++ back ∧ Segmentation body inner [] ∧
      inner.map (Piece.followedBy back) = front ∧ Segmentation back later left := by
  induction front generalizing source with
  | nil => exact ⟨[], source, [], rfl, .finish, rfl, h⟩
  | cons piece front ih =>
    obtain ⟨lexeme, spelling, rest⟩ := piece
    obtain ⟨split, segment, others⟩ := h.of_cons
    obtain ⟨body, back, inner, rfl, inside, rfl, behind⟩ := ih others
    have own : Piece.IsSegment ⟨lexeme, spelling, body⟩ :=
      segment.of_append fun run text => stop_of_cut (text ▸ segment) inside others
    refine ⟨spelling ++ body, back, ⟨lexeme, spelling, body⟩ :: inner, ?_, .segment rfl own inside,
      rfl, behind⟩
    rw [List.append_assoc]
    exact split.symm

/-! ## Joining -/

/-- The segments of two sources joined are those of both, but a run of text that ends the first
goes on in a run that begins the second. -/
inductive Piece.Joined (back : List Char) : List Piece → List Piece → List Piece → Prop
  | apart (front behind : List Piece) :
      Joined back front behind (front.map (followedBy back) ++ behind)
  | merged (front behind : List Piece) (a b rest : List Char) :
      Joined back (front ++ [⟨.text (String.ofList a), a, []⟩])
        (⟨.text (String.ofList b), b, rest⟩ :: behind)
        (front.map (followedBy back) ++ ⟨.text (String.ofList (a ++ b)), a ++ b, rest⟩ :: behind)

theorem Piece.Joined.cons {back : List Char} {front behind joined : List Piece}
    (h : Joined back front behind joined) (piece : Piece) :
    Joined back (piece :: front) behind (piece.followedBy back :: joined) := by
  cases h with
  | apart => exact .apart (piece :: front) behind
  | merged front behind a b rest => exact .merged (piece :: front) behind a b rest

/-- Two sources can be joined unless the first ends in braces that are never closed, or braces at
both sides of the seam make up opening braces. -/
theorem Segmentation.join {front back unread left : List Char} {pieces behind : List Piece}
    (h : Segmentation front pieces unread) (whole : unread = [])
    (h' : Segmentation back behind left)
    (shut : ∀ run, (pieces.map Piece.lexeme).getLast? = some (.text run) →
      ¬ opening <+: run.toList)
    (apart : ¬ (front.getLast? = some '{' ∧ back.head? = some '{')) :
    ∃ joined, Segmentation (front ++ back) joined left ∧
      Piece.Joined back pieces behind joined := by
  induction h with
  | finish => exact ⟨behind, h', .apart [] behind⟩
  | stuck stuck => exact absurd whole stuck.ne_nil
  | @segment source unread piece pieces split segment others ih =>
    subst split
    by_cases last : piece.rest = []
    · obtain ⟨lexeme, spelling, rest⟩ := piece
      subst last
      obtain rfl := others.eq_nil
      rw [List.append_nil] at apart ⊢
      cases segment with
      | marker marks =>
        exact ⟨_, .segment rfl (.marker marks) h', .apart [_] behind⟩
      | tail opened _ => exact absurd (by simpa using opened) (shut _ rfl)
      | run inhabited clear _ =>
        obtain ⟨unopened, _⟩ := clear_append_iff.1 clear
        by_cases stop : back = [] ∨ opening <+: back
        · have clear := clear_append_iff.2 ⟨unopened, apart⟩
          exact ⟨_, .segment rfl (.run inhabited clear stop) h', .apart [_] behind⟩
        · obtain ⟨some, shut'⟩ := not_or.1 stop
          cases h' with
          | finish => exact absurd rfl some
          | stuck stuck => exact absurd stuck.1 shut'
          | segment split' segment' others' =>
            subst split'
            cases segment' with
            | marker marks => exact absurd (marks.opened.trans (List.prefix_append _ _)) shut'
            | tail opened _ => exact absurd (opened.trans (List.prefix_append _ _)) shut'
            | run inhabited' clear' stop' =>
              have merged := Piece.IsSegment.merge unopened apart inhabited' clear' stop'
              exact ⟨_, .segment (by simp) merged others', .merged [] _ _ _ _⟩
    · have more : pieces ≠ [] := by
        rintro rfl
        have none := others.append_left
        exact last (by simpa [whole] using none.symm)
      have shut' : ∀ run, (pieces.map Piece.lexeme).getLast? = some (.text run) →
          ¬ opening <+: run.toList := by
        intro run atLast
        apply shut run
        rwa [List.map_cons, List.getLast?_cons_of_ne_nil (by simpa using more)]
      have apart' : ¬ (piece.rest.getLast? = some '{' ∧ back.head? = some '{') := by
        rwa [List.getLast?_append_of_ne_nil _ last] at apart
      obtain ⟨joined, segmentation, same⟩ := ih whole shut' apart'
      have own := segment.followedBy last back
      exact ⟨_, .segment (List.append_assoc ..).symm own segmentation, same.cons piece⟩

/-! ## The tokens of joined sources -/

def Lexeme.isText : Lexeme → Bool
  | .text _ => true
  | _ => false

/-- The tokens that are no text. -/
def markers (ts : List Token) : List Token := ts.filter fun t => !t.lexeme.isText

@[simp] theorem markers_nil : markers [] = [] := rfl

@[simp] theorem markers_append (ts us : List Token) :
    markers (ts ++ us) = markers ts ++ markers us :=
  List.filter_append ts us

@[simp] theorem markers_cons_text (run : String) (p : Position) (ts : List Token) :
    markers (⟨.text run, p⟩ :: ts) = markers ts :=
  List.filter_cons_of_neg (by simp [Lexeme.isText])

theorem markers_map_behind (front : List Char) (ts : List Token) :
    markers (ts.map (Token.behind front)) = (markers ts).map (Token.behind front) := by
  simp only [markers, List.filter_map]
  rfl

/-- The lexemes of two sources joined. -/
inductive Lexeme.Joined : List Lexeme → List Lexeme → List Lexeme → Prop
  | apart (front behind : List Lexeme) : Joined front behind (front ++ behind)
  | merged (front behind : List Lexeme) (a b : String) :
      Joined (front ++ [.text a]) (.text b :: behind) (front ++ .text (a ++ b) :: behind)

namespace Piece.Joined

variable {back : List Char} {front behind joined : List Piece}

theorem flatMap_spelling (h : Joined back front behind joined) :
    joined.flatMap spelling = front.flatMap spelling ++ behind.flatMap spelling := by
  cases h <;> simp

theorem lexemes (h : Joined back front behind joined) :
    Lexeme.Joined (front.map lexeme) (behind.map lexeme) (joined.map lexeme) := by
  cases h with
  | apart => simpa using Lexeme.Joined.apart (front.map lexeme) (behind.map lexeme)
  | merged front behind a b rest =>
    simpa using Lexeme.Joined.merged (front.map lexeme) (behind.map lexeme) (String.ofList a)
      (String.ofList b)

theorem markers_tokensFrom (h : Joined back front behind joined) (p : Position) :
    markers (tokensFrom p joined) = markers (tokensFrom p front) ++
      markers (tokensFrom (p.after (front.flatMap spelling)) behind) := by
  cases h <;> simp [tokensFrom]

end Piece.Joined

theorem ThroughClose.unique {span span' source : List Char} (h : ThroughClose span source)
    (h' : ThroughClose span' source) : span = span' := by
  have length : span.length = span'.length :=
    Nat.le_antisymm (h.2.2 span' h'.1 h'.2.1) (h'.2.2 span h.1 h.2.1)
  exact (List.prefix_of_prefix_length_le h.1 h'.1 length.le).eq_of_length length

theorem Cursor.Ends.behind {p : Position} {rest front : List Char} {fault? fault?' : Option Fault}
    (h : Cursor.Ends ⟨p, rest⟩ fault?) (h' : Cursor.Ends ⟨p.behind front, rest⟩ fault?') :
    fault?' = fault?.map (Fault.behind front) := by
  cases h with
  | finish read => simp [h'.of_nil read]
  | stray stuck through =>
    obtain ⟨span', through', rfl⟩ := h'.of_ne_nil stuck.ne_nil
    rw [through.unique through']
    rfl

/-- The tokens of a source are those of any segmentation of it. -/
theorem tokenize_of_segmentation {source : String} {pieces : List Piece} {left : List Char}
    (h : Segmentation source.toList pieces left) :
    (tokenize source).tokens = Piece.tokensFrom .start pieces ∧
      Cursor.Ends ⟨Position.start.after (pieces.flatMap Piece.spelling), left⟩
        (tokenize source).fault? := by
  obtain ⟨pieces', tokens, position, segmentation, ends⟩ := (Cursor.ofText source).scan_covers
  obtain ⟨rfl, rest⟩ := h.unique segmentation
  refine ⟨tokens, ?_⟩
  rw [← rest]
  have place : (Cursor.ofText source).scan.cursor =
      ⟨Position.start.after (pieces'.flatMap Piece.spelling),
        (Cursor.ofText source).scan.cursor.rest⟩ := by
    rw [← show _ = Position.start.after _ from position]
  rw [← place]
  exact ends

/-- **Joined sources have the tokens of both.** If the first is read to its end, and the seam makes
no new braces, the markers of the second follow those of the first, with the positions that the
longer source gives them, and reading ends as in the second. -/
theorem tokenize_join {first second : String} (read : (tokenize first).fault? = none)
    (shut : ∀ t run, (tokenize first).tokens.getLast? = some t → t.lexeme = .text run →
      ¬ opening <+: run.toList)
    (apart : ¬ (first.toList.getLast? = some '{' ∧ second.toList.head? = some '{')) :
    let front := first.toList
    (tokenize (first ++ second)).fault? = (tokenize second).fault?.map (Fault.behind front) ∧
      markers (tokenize (first ++ second)).tokens = markers (tokenize first).tokens ++
        (markers (tokenize second).tokens).map (Token.behind front) ∧
      Lexeme.Joined ((tokenize first).tokens.map Token.lexeme)
        ((tokenize second).tokens.map Token.lexeme)
        ((tokenize (first ++ second)).tokens.map Token.lexeme) := by
  obtain ⟨pieces, unread, segmentation⟩ := exists_segmentation first.toList
  obtain ⟨behind, left, segmentation'⟩ := exists_segmentation second.toList
  obtain ⟨tokens, ends⟩ := tokenize_of_segmentation segmentation
  obtain ⟨tokens', ends'⟩ := tokenize_of_segmentation segmentation'
  have whole : unread = [] := ends.eq_nil read
  have shut' : ∀ run, (pieces.map Piece.lexeme).getLast? = some (.text run) →
      ¬ opening <+: run.toList := by
    intro run last
    rw [← Piece.map_lexeme_tokensFrom .start, ← tokens, List.getLast?_map,
      Option.map_eq_some_iff] at last
    obtain ⟨t, last, text⟩ := last
    exact shut t run last text
  obtain ⟨joined, segmentationJoined, same⟩ := segmentation.join whole segmentation' shut' apart
  rw [← String.toList_append] at segmentationJoined
  obtain ⟨tokensJoined, endsJoined⟩ := tokenize_of_segmentation segmentationJoined
  have spelled : pieces.flatMap Piece.spelling = first.toList := by
    simpa [whole] using segmentation.append_left
  refine ⟨?_, ?_, ?_⟩
  · apply ends'.behind
    rw [Position.behind_after, ← Position.after_append]
    rwa [same.flatMap_spelling, spelled] at endsJoined
  · rw [tokensJoined, tokens, tokens', same.markers_tokensFrom, spelled, ← markers_map_behind]
    congr 2
    exact Piece.tokensFrom_behind first.toList [] behind
  · rw [tokensJoined, tokens, tokens']
    simpa only [Piece.map_lexeme_tokensFrom] using same.lexemes

end Stencil
