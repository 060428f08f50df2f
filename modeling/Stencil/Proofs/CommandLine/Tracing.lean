import Stencil.Proofs.CommandLine.Process
import Stencil.Proofs.Template.Blame

/-!
# The trace of compiling

* `TraceLine.openNames`: the blocks that lines have opened and not closed;
* `TraceLine.Balanced`: lines in which every block that is opened is closed again behind the lines
  of the blocks inside of it;
* `Told`: the lines that tell of a row of tokens, read side by side with the open blocks;
* `Builder.acceptAll_told`: a builder tells of the tokens in front of the first that it refuses;
* `trace_faithful`: what the log holds after a compilation, and what can be read off it.
-/

namespace Stencil

/-! ## Lines by themselves -/

namespace TraceLine

/-- The block marker that a line tells of. -/
def marker? : TraceLine → Option Token
  | .opened name p => some ⟨.blockStart name, p⟩
  | .closed _ p => some ⟨.blockStop, p⟩
  | .tokenized .. => none

/-- The names of the open blocks after one more line, the innermost first. -/
def track (names : List String) : TraceLine → List String
  | .opened name _ => name :: names
  | .closed .. => names.tail
  | .tokenized .. => names

/-- The names of the blocks that lines have opened and not closed, the last one opened first. -/
def openNames (lines : List TraceLine) : List String := lines.foldl track []

/-- Every block is closed under the name that it was opened with, behind the lines of the blocks
inside of it. -/
inductive Balanced : List TraceLine → Prop
  | nil : Balanced []
  | block {name : String} {p q : Position} {inside rest : List TraceLine}
      (inner : Balanced inside) (others : Balanced rest) :
      Balanced (.opened name p :: (inside ++ .closed name q :: rest))

theorem Balanced.foldl_track {lines : List TraceLine} (h : Balanced lines) (names : List String) :
    lines.foldl track names = names := by
  induction h generalizing names with
  | nil => rfl
  | @block name p q inside rest _ _ ihInside ihRest =>
    rw [List.foldl_cons, List.foldl_append, ihInside, List.foldl_cons, ihRest]
    rfl

/-- Lines that close the blocks of the names, the first one first, and are balanced in between. -/
inductive Closing : List String → List TraceLine → Prop
  | none {lines : List TraceLine} (balanced : Balanced lines) : Closing [] lines
  | next {name : String} {names : List String} {q : Position} {inside rest : List TraceLine}
      (inner : Balanced inside) (others : Closing names rest) :
      Closing (name :: names) (inside ++ .closed name q :: rest)

/-- A block that is opened before such lines, which close it first, belongs to what is balanced in
front of the next block that they close. -/
theorem Closing.opened {name : String} {names : List String} {lines : List TraceLine}
    (h : Closing (name :: names) lines) (p : Position) :
    Closing names (.opened name p :: lines) := by
  cases h with | @next _ _ q inside rest inner others => ?_
  cases others with
  | none balanced => exact .none (.block inner balanced)
  | @next outer names r between behind balanced others =>
    have longer : TraceLine.opened name p :: (inside ++ .closed name q :: (between ++
        .closed outer r :: behind)) =
          (.opened name p :: (inside ++ .closed name q :: between)) ++
            .closed outer r :: behind := by
      simp
    rw [longer]
    exact .next (.block inner balanced) others

end TraceLine

/-! ## Lines about tokens -/

/-- Whether a token opens or closes a block. -/
def Token.isMarker (t : Token) : Bool :=
  match t.lexeme with
  | .blockStart _ | .blockStop => true
  | _ => false

/-- The names of block starts. -/
def namesOf (starts : List Token) : List String := starts.filterMap fun t => t.lexeme.payload?

/-- Behind open block starts, the lines tell of the tokens, and the last starts are open in the end.
A stop is told of with the name of the innermost open block. -/
inductive Told : List Token → List Token → List TraceLine → List Token → Prop
  | nil (starts : List Token) : Told starts [] [] starts
  | opened {starts ts last : List Token} {lines : List TraceLine} {t : Token} {name : String}
      (kind : t.lexeme = .blockStart name) (others : Told (t :: starts) ts lines last) :
      Told starts (t :: ts) (.opened name t.position :: lines) last
  | closed {starts ts last : List Token} {lines : List TraceLine} {t start : Token} {name : String}
      (kind : t.lexeme = .blockStop) (own : start.lexeme = .blockStart name)
      (others : Told starts ts lines last) :
      Told (start :: starts) (t :: ts) (.closed name t.position :: lines) last
  | other {starts ts last : List Token} {lines : List TraceLine} {t : Token}
      (kind : t.isMarker = false) (others : Told starts ts lines last) :
      Told starts (t :: ts) lines last

section
variable {t : Token} {name : String}

theorem Token.isMarker_of_blockStart (kind : t.lexeme = .blockStart name) : t.isMarker = true := by
  rw [isMarker, kind]

theorem Token.isMarker_of_blockStop (kind : t.lexeme = .blockStop) : t.isMarker = true := by
  rw [isMarker, kind]

theorem Token.track_of_not_isMarker (kind : t.isMarker = false) (starts : List Token) :
    t.track starts = starts := by
  unfold isMarker at kind
  unfold track
  cases lexeme : t.lexeme <;> simp_all

theorem namesOf_cons (kind : t.lexeme = .blockStart name) (starts : List Token) :
    namesOf (t :: starts) = name :: namesOf starts := by
  simp [namesOf, kind, Lexeme.payload?]

end

namespace Told

variable {starts ts last : List Token} {lines : List TraceLine}

/-- The lines are the block markers among the tokens. -/
theorem markers (h : Told starts ts lines last) :
    lines.filterMap TraceLine.marker? = ts.filter Token.isMarker := by
  induction h with
  | nil => rfl
  | @opened starts ts last lines t name kind _ ih =>
    have own : TraceLine.marker? (.opened name t.position) = some t := by
      rw [TraceLine.marker?, ← kind]
    rw [List.filterMap_cons, own, List.filter_cons_of_pos (Token.isMarker_of_blockStart kind), ih]
  | @closed starts ts last lines t start name kind _ _ ih =>
    have own : TraceLine.marker? (.closed name t.position) = some t := by
      rw [TraceLine.marker?, ← kind]
    rw [List.filterMap_cons, own, List.filter_cons_of_pos (Token.isMarker_of_blockStop kind), ih]
  | other kind _ ih => rw [List.filter_cons_of_neg (by simp [kind]), ih]

/-- No stop comes where no block is open. -/
theorem open_at_stop (h : Told starts ts lines last) {before after : List Token} {t : Token}
    (split : ts = before ++ t :: after) (stop : t.lexeme = .blockStop) :
    before.foldl Token.track starts ≠ [] := by
  induction h generalizing before with
  | nil => simp at split
  | @opened starts ts last lines u name kind _ ih =>
    cases before with
    | nil =>
      obtain ⟨rfl, -⟩ := List.cons.inj split
      rw [kind] at stop
      cases stop
    | cons v before =>
      obtain ⟨rfl, later⟩ := List.cons.inj split
      have step : u.track starts = u :: starts := by rw [Token.track, kind]
      rw [List.foldl_cons, step]
      exact ih later
  | @closed starts ts last lines u start name kind _ _ ih =>
    cases before with
    | nil => exact List.cons_ne_nil _ _
    | cons v before =>
      obtain ⟨rfl, later⟩ := List.cons.inj split
      have step : u.track (start :: starts) = starts := by rw [Token.track, kind, List.tail_cons]
      rw [List.foldl_cons, step]
      exact ih later
  | @other starts ts last lines u kind _ ih =>
    cases before with
    | nil =>
      obtain ⟨rfl, -⟩ := List.cons.inj split
      rw [Token.isMarker_of_blockStop stop] at kind
      cases kind
    | cons v before =>
      obtain ⟨rfl, later⟩ := List.cons.inj split
      rw [List.foldl_cons, Token.track_of_not_isMarker kind]
      exact ih later

/-- A block is closed under the name of the one that was opened last and is not closed yet. -/
theorem closes_innermost (h : Told starts ts lines last) {before after : List TraceLine}
    {name : String} {p : Position} (split : lines = before ++ .closed name p :: after) :
    (before.foldl TraceLine.track (namesOf starts)).head? = some name := by
  induction h generalizing before with
  | nil => simp at split
  | @opened starts ts last lines t own kind _ ih =>
    cases before with
    | nil => cases split
    | cons line before =>
      obtain ⟨rfl, later⟩ := List.cons.inj split
      have names := namesOf_cons kind starts
      rw [List.foldl_cons, TraceLine.track, ← names]
      exact ih later
  | @closed starts ts last lines t start own kind starts' _ ih =>
    have names := namesOf_cons starts' starts
    cases before with
    | nil =>
      cases split
      rw [List.foldl_nil, names, List.head?_cons]
    | cons line before =>
      obtain ⟨rfl, later⟩ := List.cons.inj split
      rw [List.foldl_cons, TraceLine.track, names, List.tail_cons]
      exact ih later
  | other _ _ ih => exact ih split

/-- The names that the lines leave open are those of the starts that are open in the end. -/
theorem foldl_track (h : Told starts ts lines last) :
    lines.foldl TraceLine.track (namesOf starts) = namesOf last := by
  induction h with
  | nil => rfl
  | opened kind _ ih => rwa [List.foldl_cons, TraceLine.track, ← namesOf_cons kind]
  | closed _ own _ ih =>
    rwa [List.foldl_cons, TraceLine.track, namesOf_cons own, List.tail_cons]
  | other _ _ ih => exact ih

theorem not_tokenized (h : Told starts ts lines last) (length count : Nat) :
    .tokenized length count ∉ lines := by
  induction h with
  | nil => exact List.not_mem_nil
  | opened _ _ ih => simpa using ih
  | closed _ _ _ ih => simpa using ih
  | other _ _ ih => exact ih

/-- Lines that leave nothing open close what was open before them. -/
theorem closing (h : Told starts ts lines last) (shut : last = []) :
    TraceLine.Closing (namesOf starts) lines := by
  induction h with
  | nil =>
    subst shut
    exact .none .nil
  | opened kind _ ih =>
    have inner := ih shut
    rw [namesOf_cons kind] at inner
    exact inner.opened _
  | closed _ own _ ih =>
    rw [namesOf_cons own]
    exact .next .nil (ih shut)
  | other _ _ ih => exact ih shut

end Told

/-! ## What a builder tells -/

namespace Builder

/-- A token is refused at its own position, or is told of. -/
theorem accept_told {b : Builder} {starts : List Token} (tracks : b.Tracks starts) (t : Token) :
    (∃ f, b.accept t = .error f ∧ f.position = t.position ∧ ∀ names, f.cause ≠ .unclosed names) ∨
    ∃ next line?, b.accept t = .ok (next, line?) ∧ next.Tracks (t.track starts) ∧
      ∀ ts lines last, Told (t.track starts) ts lines last →
        Told starts (t :: ts) (line?.toList ++ lines) last := by
  have step := accept_complaint tracks t
  cases wrong : t.complaint? starts with
  | some f =>
    rw [wrong] at step
    refine .inl ⟨f, step, Token.position_of_complaint wrong, ?_⟩
    intro names unclosed
    unfold Token.complaint? at wrong
    split at wrong
    · split at wrong <;> cases wrong
      cases unclosed
    · split at wrong <;> cases wrong
      cases unclosed
    · cases wrong
  | none =>
    rw [wrong] at step
    obtain ⟨next, line?, taken, later⟩ := step
    refine .inr ⟨next, line?, taken, later, ?_⟩
    intro ts lines last told
    cases kind : t.lexeme with
    | text run =>
      have plain : t.isMarker = false := by rw [Token.isMarker, kind]
      rw [Token.track_of_not_isMarker plain] at told
      simp only [accept, kind, Except.ok.injEq, Prod.mk.injEq] at taken
      obtain ⟨-, rfl⟩ := taken
      exact .other plain told
    | expression name =>
      have plain : t.isMarker = false := by rw [Token.isMarker, kind]
      rw [Token.track_of_not_isMarker plain] at told
      simp only [accept, kind, Except.ok.injEq, Prod.mk.injEq] at taken
      obtain ⟨-, rfl⟩ := taken
      exact .other plain told
    | blockStart name =>
      rw [Token.track, kind] at told
      simp only [accept, kind] at taken
      split at taken <;> cases taken
      exact .opened kind told
    | blockStop =>
      rw [Token.track, kind] at told
      obtain ⟨entries, opened⟩ := b
      cases tracks with
      | nil => simp [accept, kind] at taken
      | cons openedBy _ =>
        simp only [accept, kind, Except.ok.injEq, Prod.mk.injEq] at taken
        obtain ⟨-, rfl⟩ := taken
        exact .closed kind openedBy.1 told

/-- The lines tell of the tokens in front of the first one that is refused, and of all of them if
none is. -/
theorem acceptAll_told {b : Builder} {starts : List Token} (tracks : b.Tracks starts)
    (ts : List Token) :
    ∃ taken rest last, ts = taken ++ rest ∧ Told starts taken (b.acceptAll ts).1 last ∧
      (∀ f, (b.acceptAll ts).2 = .error f →
        (∀ names, f.cause ≠ .unclosed names) ∧
          ∃ t later, rest = t :: later ∧ f.position = t.position) ∧
      (∀ final, (b.acceptAll ts).2 = .ok final → rest = [] ∧ final.Tracks last) := by
  induction ts generalizing b starts with
  | nil =>
    refine ⟨[], [], starts, rfl, .nil starts, ?_, ?_⟩
    · intro f refused
      cases refused
    · intro final done
      cases done
      exact ⟨rfl, tracks⟩
  | cons t ts ih =>
    rcases accept_told tracks t with ⟨f, refused, position, closed⟩ |
      ⟨next, line?, step, tracks, tells⟩
    · rw [acceptAll, refused]
      refine ⟨[], t :: ts, starts, rfl, .nil starts, ?_, ?_⟩
      · intro g same
        cases same
        exact ⟨closed, t, ts, rfl, position⟩
      · intro final done
        cases done
    · obtain ⟨taken, rest, last, rfl, told, refused, done⟩ := ih tracks
      rw [acceptAll, step]
      exact ⟨t :: taken, rest, last, rfl, tells _ _ _ told, refused, done⟩

end Builder

/-! ## What the log holds after a compilation -/

/-- How compiling ends: a token is refused, reading is stuck behind the last token, blocks are left
open, or there is a template. The indices are the tokens that are not taken in, the starts that are
left open, and what is told behind the lines about blocks. -/
inductive CompileEnd (source : String) :
    List Token → List Token → List TraceLine → Except Fault Template → Prop
  | refused {t : Token} {later last : List Token} {f : Fault} (position : f.position = t.position)
      (closed : ∀ names, f.cause ≠ .unclosed names) :
      CompileEnd source (t :: later) last [] (.error f)
  | stuck {last : List Token} {f : Fault} (met : (tokenize source).fault? = some f)
      (closed : ∀ names, f.cause ≠ .unclosed names) : CompileEnd source [] last [] (.error f)
  | unclosed {last : List Token} {f : Fault} {names : List String}
      (read : (tokenize source).fault? = none) (some : namesOf last ≠ [])
      (cause : f.cause = .unclosed names) :
      CompileEnd source [] last [.tokenized source.length (tokenize source).tokens.length]
        (.error f)
  | success {t : Template} (read : (tokenize source).fault? = none) :
      CompileEnd source [] [] [.tokenized source.length (tokenize source).tokens.length] (.ok t)

/-- Compiling tells of the tokens that it takes in, and then ends in one of these ways. -/
theorem compile_ends (source : String) :
    ∃ taken rest last blocks tail, (tokenize source).tokens = taken ++ rest ∧
      Told [] taken blocks last ∧ (compile source).trace = blocks ++ tail ∧
      CompileEnd source rest last tail (compile source).result := by
  obtain ⟨taken, rest, last, split, told, refused, done⟩ :=
    @Builder.acceptAll_told .empty [] .nil (tokenize source).tokens
  obtain ⟨⟨blocks, result⟩, run⟩ :
      ∃ all, Builder.empty.acceptAll (tokenize source).tokens = all := ⟨_, rfl⟩
  rw [run] at told refused done
  rw [compile_eq_builder, Builder.compiled, run]
  cases result with
  | error f =>
    obtain ⟨closed, t, later, rfl, position⟩ := refused f rfl
    exact ⟨taken, t :: later, last, blocks, [], split, told, (List.append_nil _).symm,
      .refused position closed⟩
  | ok final =>
    obtain ⟨rfl, tracks⟩ := done final rfl
    cases met : (tokenize source).fault? with
    | some f =>
      obtain ⟨-, span, stray, -⟩ := tokenize_fault met
      have closed : ∀ names, f.cause ≠ .unclosed names := by simp [stray]
      exact ⟨taken, [], last, blocks, [], split, told, (List.append_nil _).symm,
        .stuck met closed⟩
    | none =>
      refine ⟨taken, [], last, blocks, _, split, told, rfl, ?_⟩
      have finish := @Builder.finish_tracks final last.reverse (by rwa [List.reverse_reverse])
      cases left : last.reverse with
      | nil =>
        rw [left] at finish
        obtain ⟨t, finished⟩ := finish
        obtain rfl := List.reverse_eq_nil_iff.1 left
        dsimp only
        rw [finished]
        exact .success met
      | cons outermost others =>
        rw [left] at finish
        have named : namesOf last = final.opened.map OpenBlock.name :=
          Builder.names_of_openedBy tracks
        have some : namesOf last ≠ [] := by
          intro none
          have length : final.opened.length = last.length := tracks.length_eq
          rw [List.map_eq_nil_iff.1 (named.symm.trans none), ← @List.length_reverse _ last, left]
            at length
          cases length
        dsimp only
        rw [finish]
        exact .unclosed met some rfl

/-- A row whose offsets increase has those smaller than that of one of its tokens in front of it. -/
theorem mem_front_iff {taken later : List Token} {t : Token}
    (increasing : (taken ++ t :: later).Pairwise fun t u => t.position.offset < u.position.offset)
    {u : Token} (member : u ∈ taken ++ t :: later) :
    u ∈ taken ↔ u.position.offset < t.position.offset := by
  obtain ⟨-, behind, apart⟩ := List.pairwise_append.1 increasing
  constructor
  · intro front
    exact apart u front t (List.mem_cons_self ..)
  · intro smaller
    rcases List.mem_append.1 member with front | back
    · exact front
    · rcases List.mem_cons.1 back with rfl | back
      · exact absurd smaller (Nat.lt_irrefl _)
      · have greater := (List.pairwise_cons.1 behind).1 u back
        exact absurd smaller (Nat.lt_asymm greater)

/-- A line that does not stand in the second of two rows stands in the first one. -/
theorem split_of_foreign {blocks tail before after : List TraceLine} {line : TraceLine}
    (split : blocks ++ tail = before ++ line :: after) (foreign : line ∉ tail) :
    ∃ inner, blocks = before ++ line :: inner := by
  rcases List.append_eq_append_iff.1 split with ⟨between, rfl, same⟩ | ⟨between, rfl, same⟩
  · have inTail : line ∈ between ++ line :: after := by simp
    exact absurd (same ▸ inTail) foreign
  · cases between with
    | nil =>
      rw [List.nil_append] at same
      have inTail : line ∈ line :: after := List.mem_cons_self ..
      exact absurd (same ▸ inTail) foreign
    | cons first inner =>
      obtain ⟨rfl, -⟩ := List.cons.inj same
      exact ⟨inner, rfl⟩

/-- A line that does not stand in front of the last line of a row is the last one. -/
theorem last_of_foreign {blocks before after : List TraceLine} {line last : TraceLine}
    (split : blocks ++ [last] = before ++ line :: after) (foreign : line ∉ blocks) :
    after = [] ∧ line = last := by
  rcases List.append_eq_append_iff.1 split with ⟨between, rfl, same⟩ | ⟨between, rfl, same⟩
  · cases between with
    | nil =>
      obtain ⟨rfl, rfl⟩ := List.cons.inj same
      exact ⟨rfl, rfl⟩
    | cons first inner => simp at same
  · cases between with
    | nil =>
      obtain ⟨rfl, rfl⟩ := List.cons.inj same
      exact ⟨rfl, rfl⟩
    | cons first inner =>
      obtain ⟨rfl, -⟩ := List.cons.inj same
      exact absurd (by simp) foreign

/-- What the lines about compiling a source say. `taken` are the tokens in front of the place where
compiling ends, and `rest` are the others. -/
structure Traces (source : String) (taken rest : List Token) (lines : List TraceLine) : Prop where
  tokens : (tokenize source).tokens = taken ++ rest
  /-- Compiling ends in front of its fault, -/
  upToFault : ∀ f, (compile source).result = .error f → (∀ names, f.cause ≠ .unclosed names) →
    ∀ t ∈ (tokenize source).tokens, t ∈ taken ↔ t.position.offset < f.position.offset
  /-- and behind all tokens if there is none but blocks that are left open. -/
  upToEnd : (∀ f, (compile source).result = .error f → ∃ names, f.cause = .unclosed names) →
    rest = []
  /-- The lines about blocks are the starts and the stops with their positions. -/
  markers : lines.filterMap TraceLine.marker? = taken.filter Token.isMarker
  /-- Every stop has a start that it belongs to. -/
  matched : ∀ before t after, taken = before ++ t :: after → t.lexeme = .blockStop →
    openStarts before ≠ []
  /-- A block is closed under the name of the one that was opened last and is not closed yet. -/
  innermost : ∀ before name p after, lines = before ++ .closed name p :: after →
    (TraceLine.openNames before).head? = some name
  /-- There is a line about all tokens if all of them are read and taken in, -/
  complete : (∃ length count, .tokenized length count ∈ lines) ↔
    (tokenize source).fault? = none ∧ rest = []
  /-- and then it is the last line, with the length of the source and the number of tokens. -/
  lastLine : ∀ before length count after, lines = before ++ .tokenized length count :: after →
    after = [] ∧ length = source.length ∧ count = (tokenize source).tokens.length
  /-- Compiling succeeds if that line stands behind lines that close every block they open. -/
  success : (∃ t, (compile source).result = .ok t) ↔
    ∃ blocks length count, lines = blocks ++ [.tokenized length count] ∧ TraceLine.Balanced blocks

namespace CompileEnd

variable {source : String} {taken rest last : List Token} {blocks tail : List TraceLine}
  {result : Except Fault Template}

theorem tail_cases (h : CompileEnd source rest last tail result) :
    tail = [] ∨ tail = [.tokenized source.length (tokenize source).tokens.length] := by
  cases h with
  | refused | stuck => exact .inl rfl
  | unclosed | success => exact .inr rfl

theorem upToFault (h : CompileEnd source rest last tail result)
    (split : (tokenize source).tokens = taken ++ rest) {f : Fault} (failed : result = .error f)
    (closed : ∀ names, f.cause ≠ .unclosed names) {t : Token}
    (member : t ∈ (tokenize source).tokens) :
    t ∈ taken ↔ t.position.offset < f.position.offset := by
  obtain ⟨increasing, behind⟩ := tokenize_increasing source
  cases h with
  | refused position =>
    obtain rfl := Except.error.inj failed
    rw [position]
    exact mem_front_iff (split ▸ increasing) (split ▸ member)
  | stuck met =>
    obtain rfl := Except.error.inj failed
    rw [List.append_nil] at split
    exact iff_of_true (split ▸ member) (behind t member _ met)
  | unclosed _ _ cause =>
    obtain rfl := Except.error.inj failed
    exact absurd cause (closed _)
  | success => cases failed

theorem upToEnd (h : CompileEnd source rest last tail result)
    (unclosed : ∀ f, result = .error f → ∃ names, f.cause = .unclosed names) : rest = [] := by
  cases h with
  | refused _ closed =>
    obtain ⟨names, cause⟩ := unclosed _ rfl
    exact absurd cause (closed names)
  | stuck | unclosed | success => rfl

theorem complete (h : CompileEnd source rest last tail result)
    (untold : ∀ length count, .tokenized length count ∉ blocks) :
    (∃ length count, .tokenized length count ∈ blocks ++ tail) ↔
      (tokenize source).fault? = none ∧ rest = [] := by
  have shut : ¬ ∃ length count, TraceLine.tokenized length count ∈ blocks ++ [] := by
    rintro ⟨length, count, member⟩
    rw [List.append_nil] at member
    exact untold length count member
  have told (line : TraceLine) : line ∈ blocks ++ [line] :=
    List.mem_append_right _ (List.mem_singleton_self line)
  cases h with
  | refused => exact iff_of_false shut fun finished => by cases finished.2
  | stuck met => exact iff_of_false shut fun finished => by cases met.symm.trans finished.1
  | unclosed read | success read => exact iff_of_true ⟨_, _, told _⟩ ⟨read, rfl⟩

theorem lastLine (h : CompileEnd source rest last tail result)
    (untold : ∀ length count, .tokenized length count ∉ blocks) {before after : List TraceLine}
    {length count : Nat} (front : blocks ++ tail = before ++ .tokenized length count :: after) :
    after = [] ∧ length = source.length ∧ count = (tokenize source).tokens.length := by
  rcases h.tail_cases with rfl | rfl
  · rw [List.append_nil] at front
    exact absurd (by simp [front]) (untold length count)
  · obtain ⟨none, same⟩ := last_of_foreign front (untold length count)
    obtain ⟨rfl, rfl⟩ := TraceLine.tokenized.inj same
    exact ⟨none, rfl, rfl⟩

/-- The lines about blocks are balanced if no block is left open, and only then. -/
theorem success_iff (h : CompileEnd source rest last tail result)
    (told : Told [] taken blocks last) :
    (∃ t, result = .ok t) ↔ ∃ inner length count,
      blocks ++ tail = inner ++ [.tokenized length count] ∧ TraceLine.Balanced inner := by
  have shut : ¬ ∃ inner length count,
      blocks ++ [] = inner ++ [.tokenized length count] ∧ TraceLine.Balanced inner := by
    rintro ⟨inner, length, count, front, -⟩
    rw [List.append_nil] at front
    exact told.not_tokenized length count (by simp [front])
  cases h with
  | refused | stuck => exact iff_of_false (by simp) shut
  | unclosed _ some _ =>
    refine iff_of_false (by simp) ?_
    rintro ⟨inner, length, count, front, balanced⟩
    obtain ⟨rfl, -⟩ := List.append_inj' front rfl
    have names := told.foldl_track
    rw [balanced.foldl_track] at names
    exact some names.symm
  | success =>
    have balanced : TraceLine.Balanced blocks := by
      cases told.closing rfl with
      | none balanced => exact balanced
    exact iff_of_true ⟨_, rfl⟩ ⟨blocks, _, _, rfl, balanced⟩

end CompileEnd

theorem compile_traces (source : String) :
    ∃ taken rest, Traces source taken rest (compile source).trace := by
  obtain ⟨taken, rest, last, blocks, tail, split, told, trace, ends⟩ := compile_ends source
  have markers : (blocks ++ tail).filterMap TraceLine.marker? = taken.filter Token.isMarker := by
    rw [List.filterMap_append, told.markers]
    rcases ends.tail_cases with rfl | rfl <;> simp [TraceLine.marker?]
  have innermost : ∀ before name p after, blocks ++ tail = before ++ .closed name p :: after →
      (TraceLine.openNames before).head? = some name := by
    intro before name p after front
    have foreign : .closed name p ∉ tail := by rcases ends.tail_cases with rfl | rfl <;> simp
    obtain ⟨inner, inside⟩ := split_of_foreign front foreign
    exact told.closes_innermost inside
  rw [trace]
  refine ⟨taken, rest, ?_⟩
  exact {
    tokens := split
    upToFault := fun _ failed closed _ member => ends.upToFault split failed closed member
    upToEnd := ends.upToEnd
    markers := markers
    matched := fun _ _ _ => told.open_at_stop
    innermost := innermost
    complete := ends.complete told.not_tokenized
    lastLine := fun _ _ _ _ => ends.lastLine told.not_tokenized
    success := ends.success_iff told }

/-- **The log is a faithful trace of compiling.** A log that lets lines for finding faults through
holds lines about the tokens in front of the place where compiling ends: in front of the fault, or
all tokens if there is none but blocks that are left open. The lines about blocks are the block
starts and the block stops among these tokens, in order and with their positions, and each of these
stops has a block to close. A block is closed under the name of the one that was opened last and is
not closed yet. The line about all tokens is there if reading met no fault and no token was refused;
it is the last one, with the length of the source and the number of the tokens. Compiling succeeds
if and only if it is there behind lines that close every block that they open. -/
theorem trace_faithful {log : Log} (handled : log.IsHandled) (on : log.isDebug = true)
    (source : String) :
    ∃ taken rest, Traces source taken rest (log.passed (compile source).trace) := by
  rw [Log.passed_eq handled, if_pos on]
  exact compile_traces source

/-- Two blocks, one of them inside the other, under a log that was set up for finding faults. -/
theorem trace_faithful_of_nested :
    let log := Log.fresh.setUp true none
    let source := "\x7b\x7bt a\x7d\x7dx\x7b\x7bt b\x7d\x7d\x7b\x7b/t\x7d\x7d\x7b\x7b/t\x7d\x7d"
    let lines : List TraceLine := [.opened "a" ⟨0, 1, 1⟩, .opened "b" ⟨8, 1, 9⟩,
      .closed "b" ⟨15, 1, 16⟩, .closed "a" ⟨21, 1, 22⟩, .tokenized 27 5]
    log.IsHandled ∧ log.isDebug = true ∧ log.passed (compile source).trace = lines ∧
      ∃ t, (compile source).result = .ok t := by
  intro log source lines
  have handled : log.IsHandled := rfl
  have logged : log.passed (compile source).trace = lines := by decide +kernel
  obtain ⟨taken, rest, traces⟩ := trace_faithful handled rfl source
  refine ⟨handled, rfl, logged, traces.success.2 ⟨lines.dropLast, 27, 5, logged, ?_⟩⟩
  exact .block (.block .nil .nil) .nil

end Stencil
