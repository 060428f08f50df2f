import Stencil.Proofs.Markup.Placement
import Stencil.Proofs.Template.Enclosure

/-!
# The fault that compiling blames

* `openStarts`: the block starts that are open behind a row of tokens;
* `unmatchedStarts`: the block starts whose stop is missing, which are the open ones in order
  (`openStarts_eq_reverse`);
* `Scan.Meets`: what a scan of the tokens objects to on its way;
* `Builder.acceptAll_complaints`: a builder refuses the first token that the scan objects to;
* `compile_blames`: compiling blames the first thing that the scan meets, and the outermost block
  left open if it meets nothing.
-/

namespace Stencil

/-! ## Open blocks -/

/-- A start opens a block and a stop closes the innermost one. -/
def Token.track (starts : List Token) (t : Token) : List Token :=
  match t.lexeme with
  | .blockStart _ => t :: starts
  | .blockStop => starts.tail
  | _ => starts

/-- The block starts that are open behind a row of tokens, the innermost first. -/
def openStarts (ts : List Token) : List Token := ts.foldl Token.track []

/-- The block starts that no stop matches, in order. -/
def unmatchedStarts : List Token → List Token
  | [] => []
  | t :: ts =>
    match t.lexeme, ending? 0 ts with
    | .blockStart _, none => t :: unmatchedStarts ts
    | _, _ => unmatchedStarts ts

theorem unmatchedStarts_sublist (ts : List Token) : (unmatchedStarts ts).Sublist ts := by
  induction ts with
  | nil => exact .slnil
  | cons t ts ih =>
    unfold unmatchedStarts
    split
    · exact ih.cons_cons t
    · exact ih.cons t

/-- The number of stops that match no start. -/
def surplusStops : List Token → Nat
  | [] => 0
  | t :: ts =>
    match t.lexeme with
    | .blockStart _ => surplusStops ts - 1
    | .blockStop => surplusStops ts + 1
    | _ => surplusStops ts

/-- A block has no end if too few stops follow. -/
theorem ending?_eq_none_iff {depth : Nat} {ts : List Token} :
    ending? depth ts = none ↔ surplusStops ts ≤ depth := by
  induction ts generalizing depth with
  | nil => simp [ending?, surplusStops]
  | cons t ts ih =>
    cases kind : t.lexeme with
    | text run => simp [ending?, surplusStops, kind, ih]
    | expression name => simp [ending?, surplusStops, kind, ih]
    | blockStart name => simp [ending?, surplusStops, kind, ih]
    | blockStop => cases depth <;> simp [ending?, surplusStops, kind, ih]

theorem foldl_track_eq (starts ts : List Token) :
    ts.foldl Token.track starts =
      (unmatchedStarts ts).reverse ++ starts.drop (surplusStops ts) := by
  induction ts generalizing starts with
  | nil => simp [unmatchedStarts, surplusStops]
  | cons t ts ih =>
    rw [List.foldl_cons, ih]
    cases kind : t.lexeme with
    | text run => simp [Token.track, unmatchedStarts, surplusStops, kind]
    | expression name => simp [Token.track, unmatchedStarts, surplusStops, kind]
    | blockStart name =>
      cases ends : ending? 0 ts with
      | none =>
        have none := ending?_eq_none_iff.1 ends
        have : surplusStops ts = 0 := by omega
        simp [Token.track, unmatchedStarts, surplusStops, kind, ends, this]
      | some e =>
        have some : surplusStops ts ≠ 0 := by
          intro none
          simp [ending?_eq_none_iff.2 (Nat.le_of_eq none)] at ends
        obtain ⟨n, surplus⟩ := Nat.exists_eq_succ_of_ne_zero some
        simp [Token.track, unmatchedStarts, surplusStops, kind, ends, surplus]
    | blockStop => simp [Token.track, unmatchedStarts, surplusStops, kind]

/-- The open blocks are those whose stop is missing. -/
theorem openStarts_eq_reverse (ts : List Token) : openStarts ts = (unmatchedStarts ts).reverse := by
  simp [openStarts, foldl_track_eq]

/-! ## What a scan objects to -/

/-- What is wrong with a token behind open blocks. -/
def Token.complaint? (starts : List Token) (t : Token) : Option Fault :=
  match t.lexeme with
  | .blockStart name => if name = rootName then some ⟨.reservedName, t.position⟩ else none
  | .blockStop => if starts = [] then some ⟨.unexpectedStop, t.position⟩ else none
  | _ => none

/-- What is wrong with the tokens of a row behind open blocks, in order. -/
def complaints (starts : List Token) : List Token → List Fault
  | [] => []
  | t :: ts => (t.complaint? starts).toList ++ complaints (t.track starts) ts

/-- A scan meets stops where no block is open, starts of blocks with the reserved name, and the
braces at which reading ended. -/
inductive Scan.Meets (scan : Scan) : Fault → Prop
  | unexpectedStop {before after : List Token} {t : Token}
      (read : scan.tokens = before ++ t :: after) (kind : t.lexeme = .blockStop)
      (shut : openStarts before = []) : Meets scan ⟨.unexpectedStop, t.position⟩
  | reservedName {before after : List Token} {t : Token} (read : scan.tokens = before ++ t :: after)
      (kind : t.lexeme = .blockStart rootName) : Meets scan ⟨.reservedName, t.position⟩
  | stray {f : Fault} (met : scan.fault? = some f) : Meets scan f

/-- Everything that a scan meets, in order. -/
def Scan.faults (scan : Scan) : List Fault := complaints [] scan.tokens ++ scan.fault?.toList

theorem Token.position_of_complaint {starts : List Token} {t : Token} {f : Fault}
    (h : t.complaint? starts = some f) : f.position = t.position := by
  unfold complaint? at h
  split at h
  · split at h <;> cases h
    rfl
  · split at h <;> cases h
    rfl
  · cases h

theorem mem_complaints_iff {starts ts : List Token} {f : Fault} :
    f ∈ complaints starts ts ↔
      ∃ before t after, ts = before ++ t :: after ∧
        t.complaint? (before.foldl Token.track starts) = some f := by
  induction ts generalizing starts with
  | nil => simp [complaints]
  | cons t ts ih =>
    rw [complaints, List.mem_append, Option.mem_toList, ih]
    constructor
    · rintro (own | ⟨before, u, after, rfl, later⟩)
      · exact ⟨[], t, ts, rfl, own⟩
      · exact ⟨t :: before, u, after, rfl, later⟩
    · rintro ⟨before, u, after, split, wrong⟩
      cases before with
      | nil =>
        obtain ⟨rfl, rfl⟩ := List.cons.inj split
        exact .inl wrong
      | cons _ before =>
        obtain ⟨rfl, rfl⟩ := List.cons.inj split
        exact .inr ⟨before, u, after, rfl, wrong⟩

theorem Scan.mem_faults_iff {scan : Scan} {f : Fault} : f ∈ scan.faults ↔ scan.Meets f := by
  rw [faults, List.mem_append, Option.mem_toList, mem_complaints_iff]
  constructor
  · rintro (⟨before, t, after, read, wrong⟩ | met)
    · unfold Token.complaint? at wrong
      split at wrong
      · next name kind =>
        split at wrong <;> cases wrong
        next reserved => exact .reservedName read (reserved ▸ kind)
      · next kind =>
        split at wrong <;> cases wrong
        next shut => exact .unexpectedStop read kind shut
      · cases wrong
    · exact .stray met
  · intro h
    cases h with
    | unexpectedStop read kind shut =>
      refine .inl ⟨_, _, _, read, ?_⟩
      rw [openStarts] at shut
      simp [Token.complaint?, kind, shut]
    | reservedName read kind =>
      refine .inl ⟨_, _, _, read, ?_⟩
      simp [Token.complaint?, kind]
    | stray met => exact .inr met

/-- A token is complained of where it stands, and at most once. -/
theorem complaints_sublist (starts ts : List Token) :
    ((complaints starts ts).map Fault.position).Sublist (ts.map Token.position) := by
  induction ts generalizing starts with
  | nil => exact .slnil
  | cons t ts ih =>
    have others := ih (t.track starts)
    cases wrong : t.complaint? starts with
    | none =>
      rw [complaints, wrong]
      exact others.cons _
    | some f =>
      rw [complaints, wrong]
      simp only [Option.toList_some, List.singleton_append, List.map_cons,
        Token.position_of_complaint wrong]
      exact others.cons_cons _

/-- What a scan of a source meets stands one behind the other. -/
theorem faults_increasing (source : String) :
    (tokenize source).faults.Pairwise fun f g => f.position.offset < g.position.offset := by
  obtain ⟨increasing, behind⟩ := tokenize_increasing source
  have tokens : ((complaints [] (tokenize source).tokens).map Fault.position).Pairwise
      fun p q => p.offset < q.offset := by
    apply List.Pairwise.sublist (complaints_sublist [] _)
    exact List.pairwise_map.2 increasing
  rw [List.pairwise_map] at tokens
  refine List.pairwise_append.2 ⟨tokens, ?_, ?_⟩
  · cases (tokenize source).fault? <;> simp
  · intro f complained g met
    obtain ⟨before, t, after, read, wrong⟩ := mem_complaints_iff.1 complained
    rw [Token.position_of_complaint wrong]
    exact behind t (by simp [read]) g (by simpa using met)

/-- The fault of starts whose stops are missing: the first of them is to blame for all. -/
def unclosed? : List Token → Option Fault
  | [] => none
  | first :: others =>
    some ⟨.unclosed ((first :: others).filterMap fun t => t.lexeme.payload?), first.position⟩

/-- The first thing that a scan meets, and if it meets nothing what is left open at the end. -/
def Scan.blame? (scan : Scan) : Option Fault :=
  scan.faults.head?.or (unclosed? (unmatchedStarts scan.tokens))

/-! ## The builder and the scan -/

/-- The block was opened by the token. -/
def OpenBlock.OpenedBy (block : OpenBlock) (start : Token) : Prop :=
  start.lexeme = .blockStart block.name ∧ start.position = block.position

namespace Builder

/-- The blocks that the builder has open are those of the starts. -/
def Tracks (b : Builder) (starts : List Token) : Prop :=
  List.Forall₂ OpenBlock.OpenedBy b.opened starts

/-- A token is refused for what the scan objects to, and else the builder keeps track. -/
theorem accept_complaint {b : Builder} {starts : List Token} (tracks : b.Tracks starts)
    (t : Token) :
    match t.complaint? starts with
    | some f => b.accept t = .error f
    | none => ∃ next line?, b.accept t = .ok (next, line?) ∧ next.Tracks (t.track starts) := by
  cases kind : t.lexeme with
  | text run => simpa [Token.complaint?, accept, Token.track, kind, Tracks, add] using tracks
  | expression name => simpa [Token.complaint?, accept, Token.track, kind, Tracks, add] using tracks
  | blockStart name =>
    by_cases reserved : name = rootName
    · simp [Token.complaint?, accept, kind, reserved]
    · simpa [Token.complaint?, accept, Token.track, kind, reserved, Tracks, OpenBlock.OpenedBy]
        using tracks
  | blockStop =>
    obtain ⟨entries, opened⟩ := b
    cases tracks with
    | nil => simp [Token.complaint?, accept, kind]
    | cons _ others => simpa [Token.complaint?, accept, Token.track, kind, Tracks] using others

/-- The builder refuses the first token that the scan objects to. -/
theorem acceptAll_complaints {b : Builder} {starts : List Token} (tracks : b.Tracks starts)
    (ts : List Token) :
    match (complaints starts ts).head? with
    | some f => (b.acceptAll ts).2 = .error f
    | none =>
      ∃ last, (b.acceptAll ts).2 = .ok last ∧ last.Tracks (ts.foldl Token.track starts) := by
  induction ts generalizing b starts with
  | nil => exact ⟨b, rfl, tracks⟩
  | cons t ts ih =>
    have step := accept_complaint tracks t
    cases wrong : t.complaint? starts with
    | some f =>
      rw [wrong] at step
      simp [complaints, wrong, acceptAll, step]
    | none =>
      rw [wrong] at step
      obtain ⟨next, line?, taken, tracks⟩ := step
      have later := ih tracks
      rw [acceptAll_cons_of_accept taken]
      simpa [complaints, wrong] using later

theorem names_of_openedBy {opened : List OpenBlock} {starts : List Token}
    (h : List.Forall₂ OpenBlock.OpenedBy opened starts) :
    starts.filterMap (fun t => t.lexeme.payload?) = opened.map OpenBlock.name := by
  induction h with
  | nil => rfl
  | @cons block start _ _ head _ ih =>
    have name : start.lexeme.payload? = some block.name := by rw [head.1, Lexeme.payload?]
    rw [List.filterMap_cons, name, ih, List.map_cons]

/-- Blocks that are left open are blamed on the outermost one. -/
theorem finish_tracks {b : Builder} {starts : List Token} (tracks : b.Tracks starts.reverse) :
    match unclosed? starts with
    | some f => b.finish = .error f
    | none => ∃ t, b.finish = .ok t := by
  have outward := List.forall₂_reverse_iff.2 tracks
  rw [List.reverse_reverse] at outward
  have names := names_of_openedBy outward
  unfold finish
  rw [← List.head?_reverse]
  generalize b.opened.reverse = opened at outward names ⊢
  cases outward with
  | nil => exact ⟨_, rfl⟩
  | cons outermost _ => simp [unclosed?, names, outermost.2]

end Builder

/-- Compiling fails with the fault that the scan blames, and with no other. -/
theorem compile_eq_error_iff {source : String} {f : Fault} :
    (compile source).result = .error f ↔ (tokenize source).blame? = some f := by
  have run := @Builder.acceptAll_complaints .empty [] .nil (tokenize source).tokens
  rw [compile_eq_builder]
  unfold Builder.compiled Scan.blame? Scan.faults
  dsimp only
  generalize Builder.empty.acceptAll (tokenize source).tokens = taken at run ⊢
  obtain ⟨lines, result⟩ := taken
  cases wrong : (complaints [] (tokenize source).tokens).head? with
  | some g =>
    rw [wrong] at run
    obtain rfl : result = .error g := run
    simp [wrong]
  | none =>
    rw [wrong] at run
    obtain ⟨last, rfl, tracks⟩ := run
    rw [← openStarts, openStarts_eq_reverse] at tracks
    have finish := Builder.finish_tracks tracks
    rw [List.head?_eq_none_iff] at wrong
    cases (tokenize source).fault? with
    | some g => simp [wrong]
    | none =>
      cases left : unclosed? (unmatchedStarts (tokenize source).tokens) with
      | some g =>
        rw [left] at finish
        simp [wrong, finish]
      | none =>
        rw [left] at finish
        obtain ⟨t, finish⟩ := finish
        simp [wrong, finish]

namespace Scan

theorem exists_blame_iff {scan : Scan} :
    (∃ f, scan.blame? = some f) ↔
      (∃ f, scan.Meets f) ∨ scan.fault? = none ∧ openStarts scan.tokens ≠ [] := by
  simp only [← mem_faults_iff, openStarts_eq_reverse, ne_eq, List.reverse_eq_nil_iff, blame?]
  cases met : scan.faults with
  | cons f others => simp
  | nil =>
    have read : scan.fault? = none := by
      rw [faults, List.append_eq_nil_iff] at met
      simpa using met.2
    cases unmatchedStarts scan.tokens <;> simp [unclosed?, read]

/-- Of what a scan meets the first is blamed. -/
theorem blame?_of_meets {scan : Scan}
    (increasing : scan.faults.Pairwise fun f g => f.position.offset < g.position.offset)
    (h : ∃ f, scan.Meets f) :
    ∃ f, scan.blame? = some f ∧ scan.Meets f ∧
      ∀ g, scan.Meets g → g = f ∨ f.position.offset < g.position.offset := by
  simp only [← mem_faults_iff, blame?] at h ⊢
  cases met : scan.faults with
  | nil => simp [met] at h
  | cons f others =>
    rw [met] at increasing
    obtain ⟨later, _⟩ := List.pairwise_cons.1 increasing
    refine ⟨f, rfl, List.mem_cons_self .., ?_⟩
    intro g member
    exact (List.mem_cons.1 member).imp id (later g)

/-- Where a scan meets nothing the first start whose stop is missing is blamed for all of them. -/
theorem blame?_of_clean {scan : Scan} (clean : ∀ f, ¬ scan.Meets f) :
    scan.blame? = unclosed? (unmatchedStarts scan.tokens) := by
  have none : scan.faults = [] := by
    apply List.eq_nil_iff_forall_not_mem.2
    intro f member
    exact clean f (mem_faults_iff.1 member)
  rw [blame?, none]
  rfl

/-- Whatever is blamed was met, or is the start of a block that was left open. -/
theorem position_of_blame {scan : Scan} {f : Fault} (h : scan.blame? = some f) :
    (∃ t ∈ scan.tokens, f.position = t.position ∧ ∀ span, f.cause ≠ .strayBraces span) ∨
      scan.fault? = some f := by
  rw [blame?, Option.or_eq_some_iff] at h
  rcases h with first | ⟨_, left⟩
  · cases mem_faults_iff.1 (List.mem_of_mem_head? first) with
    | @unexpectedStop before after t read =>
      exact .inl ⟨t, by simp [read], rfl, fun span => by simp⟩
    | @reservedName before after t read =>
      exact .inl ⟨t, by simp [read], rfl, fun span => by simp⟩
    | stray met => exact .inr met
  · cases starts : unmatchedStarts scan.tokens with
    | nil => simp [starts, unclosed?] at left
    | cons outermost others =>
      have member : outermost ∈ scan.tokens :=
        (unmatchedStarts_sublist _).subset (by simp [starts])
      rw [starts, unclosed?, Option.some.injEq] at left
      subst left
      exact .inl ⟨outermost, member, rfl, fun span => by simp⟩

end Scan

/-- **Compiling blames the right place.** A source is refused if and only if the scan of its tokens
meets something or blocks are open at the end. The first thing that the scan meets is to blame for
the refusal. If it meets nothing, the outermost block left open is, and the message lists all the
starts whose stops are missing. The line and the column are those of the place to blame. -/
theorem compile_blames (source : String) :
    ((∃ f, (compile source).result = .error f) ↔
      (∃ f, (tokenize source).Meets f) ∨
        (tokenize source).fault? = none ∧ openStarts (tokenize source).tokens ≠ []) ∧
    ((∃ f, (tokenize source).Meets f) →
      ∃ f, (compile source).result = .error f ∧ (tokenize source).Meets f ∧
        ∀ g, (tokenize source).Meets g → g = f ∨ f.position.offset < g.position.offset) ∧
    ((∀ f, ¬ (tokenize source).Meets f) → openStarts (tokenize source).tokens ≠ [] →
      ∃ first others f, unmatchedStarts (tokenize source).tokens = first :: others ∧
        (compile source).result = .error f ∧ f.position = first.position ∧
        f.cause.message = "Missing one or more \x7b\x7b/t\x7d\x7d (unclosed: " ++
          String.intercalate ", " ((first :: others).filterMap fun t => t.lexeme.payload?) ++
          ")") ∧
    ∀ f, (compile source).result = .error f →
      f.position.PlacedIn source ∧
        ∀ span, f.cause = .strayBraces span →
          ThroughClose span.toList (source.toList.drop f.position.offset) := by
  simp only [compile_eq_error_iff]
  refine ⟨Scan.exists_blame_iff, Scan.blame?_of_meets (faults_increasing source), ?_, ?_⟩
  · intro clean left
    rw [Scan.blame?_of_clean clean]
    rw [openStarts_eq_reverse, ne_eq, List.reverse_eq_nil_iff] at left
    obtain ⟨first, others, starts⟩ := List.exists_cons_of_ne_nil left
    rw [starts]
    exact ⟨first, others, _, rfl, rfl, rfl, rfl⟩
  · intro f blamed
    rcases Scan.position_of_blame blamed with ⟨t, member, position, marked⟩ | met
    · rw [position]
      exact ⟨tokenize_placed member, fun span stray => absurd stray (marked span)⟩
    · obtain ⟨placed, span, cause, through⟩ := tokenize_fault met
      refine ⟨placed, ?_⟩
      intro words stray
      rw [cause] at stray
      cases stray
      simpa using through

end Stencil
