import Stencil.Proofs.Template.Concatenation

/-!
# Sources that go on

* `Stuck.append`: braces at which reading is stuck are not mended by what is written behind them;
* `Piece.Settled`: a segment that stays whatever is written behind the source;
* `Segmentation.append`: the settled segments of a source are segments of every longer source;
* `settled`: the tokens of a source without a text at its end, which may go on;
* `append_stable`: a source that goes on keeps its settled tokens, and it keeps every fault but that
  of blocks left open.
-/

namespace Stencil

/-! ## Braces with something behind them -/

/-- A marker closes once, at its end. -/
theorem Lexeme.Marks.count_brace {lexeme : Lexeme} {spelling : List Char}
    (h : lexeme.Marks spelling) : spelling.count '}' = 2 := by
  have blankFree {blanks : List Char} (blank : ∀ c ∈ blanks, Text.isBlank c = true) :
      blanks.count '}' = 0 := by
    apply List.count_eq_zero.2
    intro member
    exact absurd (blank _ member) (by decide)
  have nameFree {name : List Char} (named : isName name = true) : name.count '}' = 0 := by
    apply List.count_eq_zero.2
    intro member
    exact absurd (all_isNameChar_of_isName named _ member) (by decide)
  cases h with
  | blockStart _ blank named => simp [opening, closing, blankFree blank, nameFree named]
  | blockStop => rfl
  | expression blankBefore blankBehind named _ =>
    simp [opening, closing, blankFree blankBefore, blankFree blankBehind, nameFree named]

/-- A marker that goes on behind the source would close once in the source and once more at its
own end. -/
theorem Stuck.append {source : List Char} (h : Stuck source) (back : List Char) :
    Stuck (source ++ back) := by
  obtain ⟨opened, closed, unmarked⟩ := h
  have front := List.prefix_append source back
  refine ⟨opened.trans front, closed.trans front.isInfix, ?_⟩
  intro lexeme spelling marks found
  rcases List.prefix_or_prefix_of_prefix found front with inside | ⟨rest, rfl⟩
  · exact unmarked _ _ marks inside
  · have more : rest ≠ [] := by
      rintro rfl
      rw [List.append_nil] at marks
      exact unmarked _ _ marks (List.prefix_refl _)
    have inSource : 2 ≤ source.count '}' := closed.sublist.count_le '}'
    have inRest : 0 < rest.count '}' := by
      apply List.count_pos_iff.2
      obtain ⟨inner, whole⟩ := marks.closed
      have last := congrArg List.getLast? whole
      rw [List.getLast?_append_of_ne_nil _ more,
        List.getLast?_append_of_ne_nil _ (by decide)] at last
      exact List.mem_of_getLast? last.symm
    have total := marks.count_brace
    rw [List.count_append] at total
    omega

theorem ThroughClose.append {span source : List Char} (h : ThroughClose span source)
    (back : List Char) : ThroughClose span (source ++ back) := by
  obtain ⟨front, close, least⟩ := h
  have longer := List.prefix_append source back
  refine ⟨front.trans longer, close, ?_⟩
  intro other otherFront otherClose
  by_cases inside : other.length ≤ source.length
  · exact least other (List.prefix_of_prefix_length_le otherFront longer inside) otherClose
  · have bound := front.length_le
    omega

/-! ## Segments that stay -/

/-- A marker stays, and so does a text that something follows. -/
def Piece.Settled (piece : Piece) : Prop :=
  piece.rest ≠ [] ∨ ∀ run, piece.lexeme ≠ .text run

theorem Piece.IsSegment.of_settled {piece : Piece} (h : piece.IsSegment) (settled : piece.Settled)
    (back : List Char) : (piece.followedBy back).IsSegment := by
  rcases settled with some | marker
  · exact h.followedBy some back
  · exact .marker (h.marks marker)

namespace Segmentation

/-- In front of another segment, and in front of braces at which reading is stuck, every segment is
settled. -/
theorem settled_of_more {source left : List Char} {front others : List Piece}
    (h : Segmentation source (front ++ others) left) (more : others ≠ [] ∨ left ≠ []) :
    ∀ piece ∈ front, piece.Settled := by
  induction front generalizing source with
  | nil => simp
  | cons piece front ih =>
    obtain ⟨_, _, later⟩ := h.of_cons
    refine List.forall_mem_cons.2 ⟨.inl ?_, ih later⟩
    intro read
    rw [read] at later
    obtain ⟨none, whole⟩ := Segmentation.finish.unique later
    have noOthers : others = [] := (List.append_eq_nil_iff.1 none).2
    rcases more with some | stuck
    · exact some noOthers
    · exact stuck whole

/-- Settled segments at the front of a source stay, whatever becomes of the rest of it. -/
theorem append {source left : List Char} {front others : List Piece}
    (h : Segmentation source (front ++ others) left) (settled : ∀ piece ∈ front, piece.Settled)
    (back : List Char) :
    ∃ rest, Segmentation rest others left ∧ ∀ others' left',
      Segmentation (rest ++ back) others' left' →
        Segmentation (source ++ back) (front.map (Piece.followedBy back) ++ others') left' := by
  induction front generalizing source with
  | nil => exact ⟨source, h, fun _ _ longer => longer⟩
  | cons piece front ih =>
    obtain ⟨split, segment, later⟩ := h.of_cons
    obtain ⟨own, others⟩ := List.forall_mem_cons.1 settled
    obtain ⟨rest, behind, extend⟩ := ih later others
    refine ⟨rest, behind, ?_⟩
    intro others' left' longer
    have joined : piece.spelling ++ (piece.rest ++ back) = source ++ back := by
      rw [← List.append_assoc, split]
    exact .segment joined (segment.of_settled own back) (extend _ _ longer)

end Segmentation

/-! ## Tokens that stay -/

/-- All tokens but a text at the end. -/
def settled (ts : List Token) : List Token :=
  match ts.getLast? with
  | some ⟨.text _, _⟩ => ts.dropLast
  | _ => ts

theorem settled_concat_text (ts : List Token) (run : String) (p : Position) :
    settled (ts ++ [⟨.text run, p⟩]) = ts := by
  simp [settled]

theorem settled_concat_marker (ts : List Token) {lexeme : Lexeme} (p : Position)
    (marker : ∀ run, lexeme ≠ .text run) :
    settled (ts ++ [⟨lexeme, p⟩]) = ts ++ [⟨lexeme, p⟩] := by
  unfold settled
  split
  · next last =>
    rw [List.getLast?_concat] at last
    cases last
    exact absurd rfl (marker _)
  · rfl

/-- The settled tokens of a source are those of settled segments at its front. -/
theorem Segmentation.settled_tokensFrom {source : List Char} {pieces : List Piece}
    {left : List Char} (h : Segmentation source pieces left) (p : Position) :
    ∃ front others, pieces = front ++ others ∧ (∀ piece ∈ front, piece.Settled) ∧
      settled (Piece.tokensFrom p pieces) = Piece.tokensFrom p front := by
  rcases List.eq_nil_or_concat pieces with rfl | ⟨front, last, rfl⟩
  · exact ⟨[], [], rfl, by simp, rfl⟩
  · rw [List.concat_eq_append] at h ⊢
    have before := h.settled_of_more (.inl (List.cons_ne_nil _ _))
    by_cases text : ∃ run, last.lexeme = .text run
    · obtain ⟨run, text⟩ := text
      refine ⟨front, [last], rfl, before, ?_⟩
      rw [Piece.tokensFrom_append, Piece.tokensFrom, text]
      exact settled_concat_text _ run _
    · have marker : ∀ run, last.lexeme ≠ .text run := fun run same => text ⟨run, same⟩
      refine ⟨front ++ [last], [], by simp, ?_, ?_⟩
      · exact List.forall_mem_append.2 ⟨before, List.forall_mem_singleton.2 (.inr marker)⟩
      · rw [Piece.tokensFrom_append, Piece.tokensFrom]
        exact settled_concat_marker _ _ marker

section
variable {source : String}

/-- Settled tokens come first in every longer source, where they stood. -/
theorem settled_prefix (source back : String) :
    settled (tokenize source).tokens <+: (tokenize (source ++ back)).tokens := by
  obtain ⟨pieces, left, segmentation⟩ := exists_segmentation source.toList
  rw [(tokenize_of_segmentation segmentation).1]
  obtain ⟨front, others, rfl, stays, same⟩ := segmentation.settled_tokensFrom .start
  obtain ⟨rest, _, extend⟩ := segmentation.append stays back.toList
  obtain ⟨others', left', behind⟩ := exists_segmentation (rest ++ back.toList)
  have longer := extend _ _ behind
  rw [← String.toList_append] at longer
  rw [same, (tokenize_of_segmentation longer).1, Piece.tokensFrom_append,
    Piece.tokensFrom_map_followedBy]
  exact List.prefix_append _ _

/-- A longer source is stuck where the shorter one is, behind the same tokens. -/
theorem tokenize_append_of_fault {f : Fault} (stray : (tokenize source).fault? = some f)
    (back : String) :
    (tokenize (source ++ back)).tokens = (tokenize source).tokens ∧
      (tokenize (source ++ back)).fault? = some f := by
  obtain ⟨pieces, left, segmentation⟩ := exists_segmentation source.toList
  obtain ⟨tokens, ends⟩ := tokenize_of_segmentation segmentation
  rw [stray] at ends
  cases ends with | @stray span stuck through => ?_
  dsimp only at stuck through
  have stays := (List.append_nil pieces ▸ segmentation).settled_of_more (.inr stuck.ne_nil)
  obtain ⟨rest, none, extend⟩ :=
    (List.append_nil pieces ▸ segmentation).append stays back.toList
  obtain rfl : left = rest := none.append_left
  have longer := extend _ _ (.stuck (stuck.append back.toList))
  rw [List.append_nil, ← String.toList_append] at longer
  obtain ⟨tokens', ends'⟩ := tokenize_of_segmentation longer
  obtain ⟨span', through', fault⟩ := ends'.of_ne_nil (stuck.append back.toList).ne_nil
  constructor
  · rw [tokens', tokens, Piece.tokensFrom_map_followedBy]
  · rw [fault, ← (through.append back.toList).unique through',
      Piece.flatMap_spelling_map_followedBy]

/-! ## Faults that stay -/

theorem markers_settled (ts : List Token) : markers (settled ts) = markers ts := by
  rcases List.eq_nil_or_concat ts with rfl | ⟨front, ⟨lexeme, p⟩, rfl⟩
  · rfl
  · rw [List.concat_eq_append]
    by_cases text : ∃ run, lexeme = .text run
    · obtain ⟨run, rfl⟩ := text
      rw [settled_concat_text]
      simp
    · rw [settled_concat_marker _ _ fun run same => text ⟨run, same⟩]

/-- What a scan objects to in a source it objects to in every longer source, before anything
else. -/
theorem complaints_prefix (source back : String) :
    complaints [] (tokenize source).tokens <+:
      complaints [] (tokenize (source ++ back)).tokens := by
  obtain ⟨later, longer⟩ := settled_prefix source back
  rw [← longer, complaints_append, ← complaints_markers [] (settled _), markers_settled,
    complaints_markers]
  exact List.prefix_append _ _

theorem Scan.blame?_of_head {scan : Scan} {f : Fault} (first : scan.faults.head? = some f) :
    scan.blame? = some f := by
  rw [blame?, first, Option.some_or]

/-- A fault that is not that of blocks left open is the first thing that the scan meets. -/
theorem Scan.head?_of_blame {scan : Scan} {f : Fault} (h : scan.blame? = some f)
    (closed : ∀ names, f.cause ≠ .unclosed names) : scan.faults.head? = some f := by
  rw [blame?, Option.or_eq_some_iff] at h
  rcases h with first | ⟨_, left⟩
  · exact first
  · cases starts : unmatchedStarts scan.tokens with
    | nil => simp [starts, unclosed?] at left
    | cons outermost others =>
      rw [starts, unclosed?, Option.some.injEq] at left
      subst left
      exact absurd rfl (closed _)

theorem compile_append_of_fault {f : Fault} (refused : (compile source).result = .error f)
    (closed : ∀ names, f.cause ≠ .unclosed names) (back : String) :
    (compile (source ++ back)).result = .error f := by
  rw [compile_eq_error_iff] at refused ⊢
  have first := Scan.head?_of_blame refused closed
  apply Scan.blame?_of_head
  cases stray : (tokenize source).fault? with
  | some g =>
    obtain ⟨tokens, fault⟩ := tokenize_append_of_fault stray back
    rwa [Scan.faults, tokens, fault, ← stray]
  | none =>
    rw [Scan.faults, stray, Option.toList_none, List.append_nil] at first
    obtain ⟨later, longer⟩ := complaints_prefix source back
    rw [Scan.faults, ← longer, List.append_assoc]
    rw [List.head?_append, first, Option.some_or]

end

/-- **A source that goes on keeps what is settled.** Where reading is stuck in a source, it is stuck
in every longer source, behind the same tokens and with the same fault. The tokens of a source come
first in every longer one, but for a text at its end. A source that is refused for anything but
blocks left open is refused for the same fault however it goes on. -/
theorem append_stable (source back : String) :
    (∀ f, (tokenize source).fault? = some f →
      (tokenize (source ++ back)).tokens = (tokenize source).tokens ∧
        (tokenize (source ++ back)).fault? = some f) ∧
    settled (tokenize source).tokens <+: (tokenize (source ++ back)).tokens ∧
    ∀ f, (compile source).result = .error f → (∀ names, f.cause ≠ .unclosed names) →
      (compile (source ++ back)).result = .error f := by
  refine ⟨?_, settled_prefix source back, ?_⟩
  · intro f stray
    exact tokenize_append_of_fault stray back
  · intro f refused closed
    exact compile_append_of_fault refused closed back

/-- A block that is left open and braces without a name: however the source goes on, the braces are
to blame, behind the same tokens. -/
theorem append_stable_of_stray :
    let source := "a\x7b\x7bt b\x7d\x7dc\x7b\x7b\x7d\x7d"
    let f : Fault := ⟨.strayBraces "\x7b\x7b\x7d\x7d", ⟨9, 1, 10⟩⟩
    (compile source).result = .error f ∧ ∀ back : String,
      (tokenize (source ++ back)).tokens = [⟨.text "a", ⟨0, 1, 1⟩⟩, ⟨.blockStart "b", ⟨1, 1, 2⟩⟩,
          ⟨.text "c", ⟨8, 1, 9⟩⟩] ∧
        (compile (source ++ back)).result = .error f := by
  intro source f
  have stray : (tokenize source).fault? = some f := by decide +kernel
  have refused : (compile source).result = .error f := by
    rw [compile_eq_error_iff]
    decide +kernel
  refine ⟨refused, fun back => ?_⟩
  obtain ⟨stuck, _, fails⟩ := append_stable source back
  constructor
  · rw [(stuck f stray).1]
    decide +kernel
  · exact fails f refused (by simp [f])

end Stencil
