import Stencil.Markup.Cursor
import Stencil.Proofs.Markup.Spelling

/-!
# The segments of a source

* `Piece.IsSegment`: a piece is a marker, a run of text up to the next opening braces, or opening
  braces that are never closed together with all that follows;
* `Stuck`: opening braces that are closed but belong to no marker;
* `Segmentation`: a source written as segments from left to right, and what is left of it where no
  segment fits;
* `Piece.first_eq_ok_iff`: the front of a source is read as a segment and in no other way;
* `Segmentation.unique`, `exists_segmentation`: a source has exactly one segmentation;
* `tokenize_segmentation`: the tokens of a source are its segments, and the fault blames the place
  where it is stuck.
-/

namespace Stencil

/-- A run stops before the first opening braces after its start. -/
inductive Piece.IsSegment : Piece → Prop
  | marker {lexeme : Lexeme} {spelling rest : List Char} (marks : lexeme.Marks spelling) :
      IsSegment ⟨lexeme, spelling, rest⟩
  | run {spelling rest : List Char} (inhabited : spelling ≠ [])
      (clear : ∀ k < spelling.length, ¬ opening <+: (spelling ++ rest).drop k)
      (stop : rest = [] ∨ opening <+: rest) :
      IsSegment ⟨.text (String.ofList spelling), spelling, rest⟩
  | tail {spelling : List Char} (opened : opening <+: spelling)
      (unclosed : ¬ closing <:+: spelling) :
      IsSegment ⟨.text (String.ofList spelling), spelling, []⟩

def Stuck (source : List Char) : Prop :=
  opening <+: source ∧ closing <:+: source ∧
    ∀ lexeme spelling, Lexeme.Marks lexeme spelling → ¬ spelling <+: source

/-- The shortest part of a source from its front through closing braces. -/
def ThroughClose (span source : List Char) : Prop :=
  span <+: source ∧ closing <:+ span ∧
    ∀ other, other <+: source → closing <:+ other → span.length ≤ other.length

inductive Segmentation : List Char → List Piece → List Char → Prop
  | finish : Segmentation [] [] []
  | stuck {source : List Char} (stuck : Stuck source) : Segmentation source [] source
  | segment {source left : List Char} {piece : Piece} {pieces : List Piece}
      (split : piece.spelling ++ piece.rest = source) (segment : piece.IsSegment)
      (others : Segmentation piece.rest pieces left) : Segmentation source (piece :: pieces) left

/-! ## Braces -/

theorem Lexeme.Marks.opened {lexeme : Lexeme} {spelling : List Char} (h : lexeme.Marks spelling) :
    opening <+: spelling := by
  cases h <;> simp only [List.append_assoc] <;> exact List.prefix_append _ _

theorem Lexeme.Marks.closed {lexeme : Lexeme} {spelling : List Char} (h : lexeme.Marks spelling) :
    closing <:+ spelling := by
  cases h <;> exact List.suffix_append _ _

theorem opening_prefix_cons_iff {c : Char} {cs : List Char} :
    opening <+: c :: cs ↔ c = '{' ∧ cs.head? = some '{' := by
  cases cs with
  | nil => simp [opening]
  | cons d ds => simp [opening, eq_comm]

theorem closing_infix_cons_iff {c : Char} {cs : List Char} (h : c ≠ '}') :
    closing <:+: c :: cs ↔ closing <:+: cs := by
  rw [List.infix_cons_iff]
  simp [closing, h.symm]

/-- Opening braces begin in the first of two texts if it has them inside, or if it ends and the
other begins with one of the braces. -/
theorem clear_append_iff {front back : List Char} :
    (∀ k < front.length, ¬ opening <+: (front ++ back).drop k) ↔
      ¬ opening <:+: front ∧ ¬ (front.getLast? = some '{' ∧ back.head? = some '{') := by
  induction front with
  | nil => simp [opening]
  | cons c cs ih =>
    have later : (∀ k < (c :: cs).length, ¬ opening <+: (c :: cs ++ back).drop k) ↔
        ¬ opening <+: c :: (cs ++ back) ∧ ∀ k < cs.length, ¬ opening <+: (cs ++ back).drop k := by
      constructor
      · intro h
        exact ⟨h 0 (by simp), fun k hk => h (k + 1) (by simpa using hk)⟩
      · rintro ⟨first, others⟩ k hk
        cases k with
        | zero => exact first
        | succ k => exact others k (by simpa using hk)
    rw [later, ih, List.infix_cons_iff, opening_prefix_cons_iff, opening_prefix_cons_iff]
    cases cs with
    | nil => simp [opening]
    | cons d ds =>
      simp only [List.cons_append, List.head?_cons, List.getLast?_cons_cons]
      tauto

theorem head_of_opened {source : List Char} (h : opening <+: source) : source.head? = some '{' := by
  obtain ⟨rest, rfl⟩ := h
  rfl

theorem ThroughClose.cons {c : Char} {span source : List Char} (h : ThroughClose span source)
    (later : ¬ closing <+: c :: source) : ThroughClose (c :: span) (c :: source) := by
  obtain ⟨front, close, least⟩ := h
  refine ⟨List.cons_prefix_cons.2 ⟨rfl, front⟩, close.trans (List.suffix_cons _ _), ?_⟩
  intro other otherFront otherClose
  cases other with
  | nil => simp [closing] at otherClose
  | cons d ds =>
    obtain ⟨rfl, tailFront⟩ := List.cons_prefix_cons.1 otherFront
    rcases List.suffix_cons_iff.1 otherClose with same | tailClose
    · exact absurd (same ▸ otherFront) later
    · have shorter := least ds tailFront tailClose
      simp only [List.length_cons]
      omega

namespace Piece

theorem IsSegment.spelling_ne_nil {piece : Piece} (h : piece.IsSegment) : piece.spelling ≠ [] := by
  cases h with
  | marker marks =>
    rintro rfl
    simpa [opening] using marks.opened
  | run inhabited _ _ => exact inhabited
  | tail opened _ =>
    rintro rfl
    simp [opening] at opened

theorem throughClose?_eq_none_iff {source : List Char} :
    throughClose? source = none ↔ ¬ closing <:+: source := by
  fun_induction throughClose? source with
  | case1 => simp [closing]
  | case2 rest => simp [closing, List.infix_cons_iff]
  | case3 c rest other ih =>
    rw [Option.map_eq_map, Option.map_eq_none_iff, ih, List.infix_cons_iff]
    have : ¬ closing <+: c :: rest := by
      rintro ⟨behind, h⟩
      cases h
      exact other _ rfl rfl
    simp [this]

theorem throughClose?_through {source span : List Char} (h : throughClose? source = some span) :
    ThroughClose span source := by
  fun_induction throughClose? source generalizing span with
  | case1 => cases h
  | case2 rest =>
    cases h
    exact ⟨⟨rest, rfl⟩, List.suffix_refl _, fun other _ close => close.length_le⟩
  | case3 c rest other ih =>
    obtain ⟨inner, found, rfl⟩ := Option.map_eq_some_iff.1 h
    apply (ih found).cons
    rintro ⟨behind, h⟩
    cases h
    exact other behind rfl rfl

theorem strayBraces?_eq_none_iff {source : List Char} :
    strayBraces? source = none ↔ (opening <+: source → ¬ closing <:+: source) := by
  unfold strayBraces?
  split
  · next rest =>
    rw [Option.map_eq_map, Option.map_eq_none_iff, throughClose?_eq_none_iff,
      closing_infix_cons_iff (by decide), closing_infix_cons_iff (by decide)]
    simp [opening]
  · next shut =>
    simp only [true_iff]
    rintro ⟨rest, rfl⟩
    exact absurd rfl (shut rest)

theorem strayBraces?_through {source span : List Char} (h : strayBraces? source = some span) :
    ThroughClose span source := by
  unfold strayBraces? at h
  split at h
  · next rest =>
    obtain ⟨inner, found, rfl⟩ := Option.map_eq_some_iff.1 h
    have shut (cs : List Char) : ¬ closing <+: '{' :: cs := by simp [closing]
    exact ((throughClose?_through found).cons (shut _)).cons (shut _)
  · cases h

theorem splitRun_stops (source : List Char) :
    (∀ k < (splitRun source).1.length, ¬ opening <+: source.drop k) ∧
      ((splitRun source).2 = [] ∨ opening <+: (splitRun source).2) := by
  fun_induction splitRun source with
  | case1 => simp
  | case2 rest => simp [opening]
  | case3 c rest other split ih =>
    obtain ⟨clear, stop⟩ := ih
    refine ⟨?_, stop⟩
    intro k hk
    cases k with
    | zero =>
      rintro ⟨behind, h⟩
      cases h
      exact other behind rfl rfl
    | succ k => exact clear k (by simpa using hk)

theorem splitRun_append_of_stops {front back : List Char}
    (clear : ∀ k < front.length, ¬ opening <+: (front ++ back).drop k)
    (stop : back = [] ∨ opening <+: back) : splitRun (front ++ back) = (front, back) := by
  induction front with
  | nil =>
    rcases stop with rfl | ⟨rest, rfl⟩
    · rfl
    · rfl
  | cons c cs ih =>
    have ih := ih fun k hk => clear (k + 1) (by simpa using hk)
    rw [List.cons_append, splitRun, ih]
    rintro rest rfl hrest
    exact clear 0 (by simp) ⟨rest, by simp [opening, hrest]⟩

theorem marker?_eq_none_of_not_opened {source : List Char} (h : ¬ opening <+: source) :
    marker? source = none := by
  cases found : marker? source with
  | none => rfl
  | some piece =>
    obtain ⟨marks, rfl⟩ := marker?_eq_some_iff.1 found
    exact absurd (marks.opened.trans (List.prefix_append _ _)) h

theorem marker?_eq_none_of_not_closed {source : List Char} (h : ¬ closing <:+: source) :
    marker? source = none := by
  cases found : marker? source with
  | none => rfl
  | some piece =>
    obtain ⟨marks, rfl⟩ := marker?_eq_some_iff.1 found
    exact absurd (marks.closed.isInfix.trans (List.prefix_append _ _).isInfix) h

theorem run_of_opened {source : List Char} (h : opening <+: source) :
    run source = ⟨.text (String.ofList source), source, []⟩ := by
  obtain ⟨rest, rfl⟩ := h
  rfl

theorem run_of_not_opened {source : List Char} (h : ¬ opening <+: source) :
    run source =
      ⟨.text (String.ofList (splitRun source).1), (splitRun source).1, (splitRun source).2⟩ := by
  unfold run
  split
  · next rest => exact absurd ⟨rest, rfl⟩ h
  · rfl

theorem run_isSegment {source : List Char} (hne : source ≠ [])
    (h : opening <+: source → ¬ closing <:+: source) : (run source).IsSegment := by
  have inhabited := (run_fronts hne).2
  by_cases opened : opening <+: source
  · rw [run_of_opened opened]
    exact .tail opened (h opened)
  · rw [run_of_not_opened opened] at inhabited ⊢
    obtain ⟨clear, stop⟩ := splitRun_stops source
    refine .run inhabited ?_ stop
    intro k hk
    rw [splitRun_append]
    exact clear k hk

theorem first_isSegment {source : List Char} {piece : Piece} (hne : source ≠ [])
    (h : first source = .ok piece) : piece.IsSegment := by
  unfold first at h
  split at h
  · next found =>
    cases h
    exact .marker (marker?_eq_some_iff.1 found).1
  · split at h <;> cases h
    next unclosed => exact run_isSegment hne (strayBraces?_eq_none_iff.1 unclosed)

theorem first_of_isSegment {piece : Piece} (h : piece.IsSegment) :
    first (piece.spelling ++ piece.rest) = .ok piece := by
  cases h with
  | marker marks => simp [first, marker?_of_marks marks]
  | @run spelling rest inhabited clear stop =>
    have shut : ¬ opening <+: spelling ++ rest :=
      clear 0 (List.length_pos_iff.2 inhabited)
    have noStray : strayBraces? (spelling ++ rest) = none :=
      strayBraces?_eq_none_iff.2 fun opened => absurd opened shut
    simp [first, marker?_eq_none_of_not_opened shut, noStray, run_of_not_opened shut,
      splitRun_append_of_stops clear stop]
  | @tail spelling opened unclosed =>
    have noStray := strayBraces?_eq_none_iff.2 fun _ => unclosed
    simp [first, marker?_eq_none_of_not_closed unclosed, noStray, run_of_opened opened]

/-- The front of a source is read as a segment, and as no other. -/
theorem first_eq_ok_iff {source : List Char} {piece : Piece} (hne : source ≠ []) :
    first source = .ok piece ↔ piece.IsSegment ∧ piece.spelling ++ piece.rest = source := by
  constructor
  · exact fun h => ⟨first_isSegment hne h, first_split hne h⟩
  · rintro ⟨segment, rfl⟩
    exact first_of_isSegment segment

theorem stuck_of_first {source : List Char} {words : String} (h : first source = .error words) :
    Stuck source ∧ ∃ span, words = String.ofList span ∧ ThroughClose span source := by
  unfold first at h
  split at h
  · cases h
  · next unmarked =>
    split at h
    · next span found =>
      cases h
      have stray : ¬ (opening <+: source → ¬ closing <:+: source) := by
        simp [← strayBraces?_eq_none_iff, found]
      obtain ⟨opened, closed⟩ := Classical.not_imp.1 stray
      refine ⟨⟨opened, not_not.1 closed, ?_⟩, span, rfl, strayBraces?_through found⟩
      rintro lexeme spelling marks ⟨rest, rfl⟩
      simp [marker?_of_marks marks] at unmarked
    · cases h

theorem first_of_stuck {source : List Char} (h : Stuck source) :
    ∃ words, first source = .error words := by
  obtain ⟨opened, closed, unmarked⟩ := h
  have hne : source ≠ [] := by
    rintro rfl
    simp [opening] at opened
  cases found : first source with
  | error words => exact ⟨words, rfl⟩
  | ok piece =>
    obtain ⟨segment, rfl⟩ := (first_eq_ok_iff hne).1 found
    cases segment with
    | marker marks =>
      have unread := unmarked _ _ marks
      exact absurd (List.prefix_append _ _) unread
    | run inhabited clear _ =>
      have shut := clear 0 (List.length_pos_iff.2 inhabited)
      exact absurd opened shut
    | tail _ unclosed =>
      rw [List.append_nil] at closed
      exact absurd closed unclosed

end Piece

/-! ## Segmentations -/

theorem Stuck.ne_nil {source : List Char} (h : Stuck source) : source ≠ [] := by
  rintro rfl
  simpa [opening] using h.1

namespace Segmentation

theorem append_left {source left : List Char} {pieces : List Piece}
    (h : Segmentation source pieces left) : pieces.flatMap Piece.spelling ++ left = source := by
  induction h with
  | finish => rfl
  | stuck => rfl
  | segment split _ _ ih => rw [List.flatMap_cons, List.append_assoc, ih, split]

theorem isSegment {source left : List Char} {pieces : List Piece}
    (h : Segmentation source pieces left) : ∀ piece ∈ pieces, piece.IsSegment := by
  induction h with
  | finish => simp
  | stuck => simp
  | segment _ segment _ ih => exact List.forall_mem_cons.2 ⟨segment, ih⟩

/-- Where a segment fits the source neither ends nor is stuck, and no other segment fits. -/
theorem unique {source left left' : List Char} {pieces pieces' : List Piece}
    (h : Segmentation source pieces left) (h' : Segmentation source pieces' left') :
    pieces' = pieces ∧ left' = left := by
  induction h generalizing pieces' left' with
  | finish =>
    cases h' with
    | finish => exact ⟨rfl, rfl⟩
    | stuck stuck => exact absurd rfl stuck.ne_nil
    | segment split segment _ =>
      have empty := (List.append_eq_nil_iff.1 split).1
      exact absurd empty segment.spelling_ne_nil
  | @stuck source stuck =>
    cases h' with
    | finish => exact absurd rfl stuck.ne_nil
    | stuck => exact ⟨rfl, rfl⟩
    | segment split segment _ =>
      obtain ⟨words, fault⟩ := Piece.first_of_stuck stuck
      rw [← split, Piece.first_of_isSegment segment] at fault
      cases fault
  | @segment source left piece pieces split segment _ ih =>
    cases h' with
    | finish =>
      have empty := (List.append_eq_nil_iff.1 split).1
      exact absurd empty segment.spelling_ne_nil
    | stuck stuck =>
      obtain ⟨words, fault⟩ := Piece.first_of_stuck stuck
      rw [← split, Piece.first_of_isSegment segment] at fault
      cases fault
    | segment split' segment' others' =>
      have same := Piece.first_of_isSegment segment'
      rw [split', ← split, Piece.first_of_isSegment segment] at same
      cases same
      obtain ⟨rfl, rfl⟩ := ih others'
      exact ⟨rfl, rfl⟩

theorem eq_nil {pieces : List Piece} {left : List Char}
    (h : Segmentation [] pieces left) : pieces = [] :=
  (Segmentation.finish.unique h).1

end Segmentation

/-! ## The tokens of a segmentation -/

/-- The tokens that segments give if the first of them stands at the position. -/
def Piece.tokensFrom (position : Position) : List Piece → List Token
  | [] => []
  | piece :: pieces =>
    ⟨piece.lexeme, position⟩ :: tokensFrom (position.after piece.spelling) pieces

/-- The number of characters that segments spell. -/
@[simp]
def Piece.extent : List Piece → Nat
  | [] => 0
  | piece :: pieces => piece.spelling.length + extent pieces

theorem Piece.length_flatMap_spelling (pieces : List Piece) :
    (pieces.flatMap Piece.spelling).length = Piece.extent pieces := by
  induction pieces with
  | nil => rfl
  | cons piece pieces ih => simp [ih]

theorem Piece.map_lexeme_tokensFrom (position : Position) (pieces : List Piece) :
    (Piece.tokensFrom position pieces).map Token.lexeme = pieces.map Piece.lexeme := by
  induction pieces generalizing position with
  | nil => rfl
  | cons piece pieces ih => simp [Piece.tokensFrom, ih]

theorem Piece.offset_tokensFrom {position : Position} {pieces : List Piece} {k : Nat} {t : Token}
    (h : (Piece.tokensFrom position pieces)[k]? = some t) :
    t.position.offset = position.offset + Piece.extent (pieces.take k) := by
  induction pieces generalizing position k with
  | nil => simp [Piece.tokensFrom] at h
  | cons piece pieces ih =>
    cases k with
    | zero =>
      cases h
      simp
    | succ k =>
      have later := @ih (position.after piece.spelling) k (by simpa [Piece.tokensFrom] using h)
      simp [later, Nat.add_assoc]

/-- What a cursor meets where no token follows. -/
inductive Cursor.Ends : Cursor → Option Fault → Prop
  | finish {c : Cursor} (read : c.rest = []) : Ends c none
  | stray {c : Cursor} {span : List Char} (stuck : Stuck c.rest)
      (through : ThroughClose span c.rest) :
      Ends c (some ⟨.strayBraces (String.ofList span), c.position⟩)

theorem Cursor.Ends.of_nil {c : Cursor} {fault? : Option Fault} (h : c.Ends fault?)
    (read : c.rest = []) : fault? = none := by
  cases h with
  | finish => rfl
  | stray stuck _ => exact absurd read stuck.ne_nil

theorem Cursor.Ends.eq_nil {c : Cursor} {fault? : Option Fault} (h : c.Ends fault?)
    (none : fault? = none) : c.rest = [] := by
  cases h with
  | finish read => exact read
  | stray => cases none

theorem Cursor.Ends.of_ne_nil {c : Cursor} {fault? : Option Fault} (h : c.Ends fault?)
    (left : c.rest ≠ []) : ∃ span, ThroughClose span c.rest ∧
      fault? = some ⟨.strayBraces (String.ofList span), c.position⟩ := by
  cases h with
  | finish read => exact absurd read left
  | @stray span _ through => exact ⟨span, through, rfl⟩

theorem Cursor.step_finish {c : Cursor} (h : c.step = .finish) : c.rest = [] := by
  unfold Cursor.step at h
  split at h
  · assumption
  · split at h <;> cases h

theorem Cursor.step_fault {c : Cursor} {f : Fault} (h : c.step = .fault f) : c.Ends (some f) := by
  unfold Cursor.step at h
  split at h
  · cases h
  · split at h
    · next words found =>
      cases h
      obtain ⟨stuck, span, rfl, through⟩ := Piece.stuck_of_first found
      exact .stray stuck through
    · cases h

theorem Cursor.step_token {c next : Cursor} {t : Token} (h : c.step = .token t next) :
    ∃ piece : Piece, piece.IsSegment ∧ piece.spelling ++ piece.rest = c.rest ∧
      t = ⟨piece.lexeme, c.position⟩ ∧ next = ⟨c.position.after piece.spelling, piece.rest⟩ := by
  unfold Cursor.step at h
  split at h
  · cases h
  · next hne =>
    split at h
    · cases h
    · next piece found =>
      cases h
      obtain ⟨segment, split⟩ := (Piece.first_eq_ok_iff hne).1 found
      exact ⟨piece, segment, split, rfl, rfl⟩

/-- The tokens of a reading are those of the segments of the source, and the reading ends behind
the last of them. -/
structure Scan.Covers (scan : Scan) (c : Cursor) (pieces : List Piece) : Prop where
  tokens : scan.tokens = Piece.tokensFrom c.position pieces
  position : scan.cursor.position = c.position.after (pieces.flatMap Piece.spelling)
  segmentation : Segmentation c.rest pieces scan.cursor.rest
  ends : scan.cursor.Ends scan.fault?

theorem Cursor.scan_covers (c : Cursor) : ∃ pieces, c.scan.Covers c pieces := by
  fun_induction Cursor.scan c with
  | case1 c h =>
    have read := Cursor.step_finish h
    exact ⟨[], rfl, rfl, read ▸ .finish, .finish read⟩
  | case2 c f h =>
    have ends := Cursor.step_fault h
    cases ends with
    | stray stuck through => exact ⟨[], rfl, rfl, .stuck stuck, .stray stuck through⟩
  | case3 c t next h scan ih =>
    obtain ⟨piece, segment, split, rfl, rfl⟩ := Cursor.step_token h
    obtain ⟨pieces, tokens, position, segmentation, ends⟩ := ih
    refine ⟨piece :: pieces, ?_, ?_, .segment split segment segmentation, ends⟩
    · exact congrArg _ tokens
    · simpa using position

theorem exists_segmentation (source : List Char) :
    ∃ pieces left, Segmentation source pieces left := by
  obtain ⟨pieces, covers⟩ := Cursor.scan_covers ⟨.start, source⟩
  exact ⟨pieces, _, covers.segmentation⟩

theorem Segmentation.of_isSegment {piece : Piece} {pieces : List Piece} {source left : List Char}
    (segment : piece.IsSegment) (split : piece.spelling ++ piece.rest = source)
    (h : Segmentation source pieces left) :
    ∃ others, pieces = piece :: others ∧ Segmentation piece.rest others left := by
  obtain ⟨others, left', rest⟩ := exists_segmentation piece.rest
  obtain ⟨rfl, rfl⟩ := (Segmentation.segment split segment rest).unique h
  exact ⟨others, rfl, rest⟩

/-- **The tokens of a source are its segments.** A source is written as segments in one way only.
Its tokens are the segments in order, each at the sum of the lengths of those before it. Where the
source is stuck the reading ends with a fault that quotes the braces there. -/
theorem tokenize_segmentation (source : String) :
    ∃ pieces left, Segmentation source.toList pieces left ∧
      (∀ pieces' left', Segmentation source.toList pieces' left' →
        pieces' = pieces ∧ left' = left) ∧
      (∀ piece ∈ pieces, piece.spelling ≠ []) ∧
      pieces.flatMap Piece.spelling ++ left = source.toList ∧
      (tokenize source).tokens.map Token.lexeme = pieces.map Piece.lexeme ∧
      (∀ k t, (tokenize source).tokens[k]? = some t →
        t.position.offset = Piece.extent (pieces.take k)) ∧
      (left = [] → (tokenize source).fault? = none) ∧
      (left ≠ [] → ∃ span f, (tokenize source).fault? = some f ∧
        f.position.offset = Piece.extent pieces ∧ ThroughClose span left ∧
        f.cause.message = "Expected \x7b\x7b expression \x7d\x7d or \x7b\x7bt TemplateName" ++
          "\x7d\x7d ... \x7b\x7b/t\x7d\x7d but got " ++ String.ofList span) := by
  obtain ⟨pieces, tokens, position, segmentation, ends⟩ := (Cursor.ofText source).scan_covers
  refine ⟨pieces, _, segmentation, ?_, ?_, segmentation.append_left, ?_, ?_, ends.of_nil, ?_⟩
  · intro pieces' left' other
    exact segmentation.unique other
  · intro piece member
    exact (segmentation.isSegment piece member).spelling_ne_nil
  · rw [tokenize, tokens, Piece.map_lexeme_tokensFrom]
  · intro k t h
    rw [tokenize, tokens] at h
    simpa [Cursor.ofText, Position.start] using Piece.offset_tokensFrom h
  · intro stuck
    obtain ⟨span, through, fault⟩ := ends.of_ne_nil stuck
    refine ⟨span, _, fault, ?_, through, rfl⟩
    rw [position, Position.offset_after, Piece.length_flatMap_spelling]
    simp [Cursor.ofText, Position.start]

end Stencil
