import Stencil.Markup.Session
import Stencil.Proofs.Markup.Segmentation

/-!
# Readers that share a cursor

* `Position.IsEndOf`: the line and the column at the end of a text, read off the whole text;
* `Cursor.Reads`: the tokens between two places of a cursor;
* `Session.serve_reads`, `Session.serveAll_reads`: a request, and any row of requests, moves the
  shared cursor over the tokens that it hands out;
* `Session.after_of_fault`: a cursor that has met a fault stays where it is;
* `Session.shared_reading`: any readers together are handed the tokens of the source in order and
  once each, and the cursor stands at the end of the last of them.
-/

namespace Stencil

/-! ## Positions read off the text -/

/-- Columns count from the last line feed of the text. -/
structure Position.IsEndOf (p : Position) (before : List Char) : Prop where
  offset : p.offset = before.length
  line : p.line = 1 + before.count '\n'
  column_of_newline : ∀ i, before[i]? = some '\n' →
    (∀ j, i < j → before[j]? ≠ some '\n') → p.column = p.offset - i
  column_of_none : '\n' ∉ before → p.column = p.offset + 1

theorem Position.sinceNewline_of_last {cs : List Char} {i : Nat} (newline : cs[i]? = some '\n')
    (last : ∀ j, i < j → cs[j]? ≠ some '\n') : sinceNewline cs + 1 = cs.length - i := by
  obtain ⟨bound, same⟩ := List.getElem?_eq_some_iff.1 newline
  have behind : '\n' ∉ cs.drop (i + 1) := by
    intro h
    obtain ⟨j, hj⟩ := List.mem_iff_getElem?.1 h
    exact last (i + 1 + j) (by omega) (by rw [← List.getElem?_drop, hj])
  have split : cs = cs.take i ++ ['\n'] ++ cs.drop (i + 1) := by
    rw [← same, List.append_assoc, List.singleton_append, List.getElem_cons_drop,
      List.take_append_drop]
  conv_lhs => rw [split]
  rw [sinceNewline_append, if_neg behind, sinceNewline_append, if_pos (List.mem_singleton.2 rfl)]
  simp [sinceNewline]
  omega

/-- Moving over pieces keeps the line and the column that the whole text has at its end. -/
theorem Position.after_start_isEndOf (cs : List Char) : (start.after cs).IsEndOf cs := by
  refine ⟨by simp [start], by simp [start], ?_, ?_⟩
  · intro i newline last
    rw [column_after_of_mem _ (List.mem_of_getElem? newline), sinceNewline_of_last newline last]
    simp [start]
  · intro none
    rw [column_after_of_not_mem _ none]
    simp [start, Nat.add_comm]

/-! ## Reading on -/

/-- From the first cursor to the second one takes the tokens, one at a time. -/
inductive Cursor.Reads : Cursor → List Token → Cursor → Prop
  | refl (c : Cursor) : Reads c [] c
  | token {c d e : Cursor} {t : Token} {ts : List Token} (taken : c.step = .token t d)
      (others : Reads d ts e) : Reads c (t :: ts) e

namespace Cursor

theorem scan_of_fault {c : Cursor} {f : Fault} (h : c.step = .fault f) :
    c.scan = ⟨[], some f, c⟩ := by
  rw [scan]
  split <;> simp_all

theorem scan_of_token {c d : Cursor} {t : Token} (h : c.step = .token t d) :
    c.scan = { d.scan with tokens := t :: d.scan.tokens } := by
  rw [scan]
  split <;> simp_all

theorem scan_reads (c : Cursor) : c.Reads c.scan.tokens c.scan.cursor := by
  fun_induction scan c with
  | case1 c h => exact .refl c
  | case2 c f h => exact .refl c
  | case3 c t next h scan ih => exact .token h ih

theorem step_scan_cursor (c : Cursor) :
    c.scan.cursor.step = match c.scan.fault? with | none => .finish | some f => .fault f := by
  fun_induction scan c with
  | case1 c h => exact h
  | case2 c f h => exact h
  | case3 c t next h scan ih => exact ih

namespace Reads

theorem eq_of_nil {c d : Cursor} (h : c.Reads [] d) : d = c := by
  cases h
  rfl

theorem append {c d e : Cursor} {ts us : List Token} (h : c.Reads ts d) (h' : d.Reads us e) :
    c.Reads (ts ++ us) e := by
  induction h with
  | refl => exact h'
  | token taken _ ih => exact .token taken (ih h')

/-- What is read is what all reading begins with, and the rest is read from where it ends. -/
theorem scan_tokens {c d : Cursor} {ts : List Token} (h : c.Reads ts d) :
    c.scan.tokens = ts ++ d.scan.tokens := by
  induction h with
  | refl => rfl
  | token taken _ ih => rw [scan_of_token taken]; simp [ih]

/-- The tokens are those of the first segments, and the place behind them is the end of these. -/
theorem covers {c d : Cursor} {ts : List Token} {pieces : List Piece} {left : List Char}
    (h : c.Reads ts d) (segmentation : Segmentation c.rest pieces left) :
    d.position = c.position.after ((pieces.take ts.length).flatMap Piece.spelling) ∧
      c.rest = (pieces.take ts.length).flatMap Piece.spelling ++ d.rest := by
  induction h generalizing pieces with
  | refl => simp
  | token taken others ih =>
    obtain ⟨piece, segment, split, rfl, rfl⟩ := step_token taken
    obtain ⟨later, rfl, behind⟩ := segmentation.of_isSegment segment split
    obtain ⟨position, rest⟩ := ih behind
    simp only [List.length_cons, List.take_succ_cons, List.flatMap_cons, Position.after_append,
      List.append_assoc]
    constructor
    · exact position
    · rw [← split, ← rest]

/-- The cursor stands at the end of the segments whose tokens have been read. -/
theorem stands {source : String} {c : Cursor} {ts : List Token} {pieces : List Piece}
    {left : List Char} (h : (ofText source).Reads ts c)
    (segmentation : Segmentation source.toList pieces left) :
    c.position.offset = Piece.extent (pieces.take ts.length) ∧
      c.position.IsEndOf (source.toList.take c.position.offset) ∧
      (c.hasMore = false ↔ c.position.offset = source.length) := by
  obtain ⟨position, rest⟩ := h.covers segmentation
  have offset : c.position.offset =
      ((pieces.take ts.length).flatMap Piece.spelling).length := by
    simp [position, ofText, Position.start]
  refine ⟨by rw [offset, Piece.length_flatMap_spelling], ?_, ?_⟩
  · have front : source.toList.take c.position.offset =
        (pieces.take ts.length).flatMap Piece.spelling := by
      rw [offset, show source.toList = _ from rest, List.take_left]
    rw [front, position]
    exact Position.after_start_isEndOf _
  · have length := congrArg List.length rest
    rw [List.length_append, ← offset] at length
    simp only [ofText, String.length_toList] at length
    simp only [hasMore, Bool.not_eq_false', List.isEmpty_iff, ← List.length_eq_zero_iff]
    omega

end Reads

end Cursor

/-! ## Requests -/

/-- The tokens that a reply hands out. -/
def Reply.tokens : Reply → List Token
  | .token (some t) => [t]
  | .drained ts _ => ts
  | _ => []

/-- The fault that a reply raises. -/
def Reply.fault? : Reply → Option Fault
  | .fault f => some f
  | .drained _ f? => f?
  | _ => none

/-- A reader that gets such a reply has come to its end. -/
def Reply.Ends : Reply → Prop
  | .stopped | .fault _ => True
  | _ => False

/-- The tokens handed out by several replies, in the order of the requests. -/
def handed (answers : List (Reply × Cursor)) : List Token := answers.flatMap fun a => a.1.tokens

namespace Session

/-- The session after several requests. -/
def after (s : Session) (requests : List Request) : Session :=
  requests.foldl (fun s request => (s.serve request).2) s

/-- A request moves the shared cursor over the tokens that it hands out, and no further. -/
theorem serve_reads (s : Session) (request : Request) :
    s.cursor.Reads (s.serve request).1.tokens (s.serve request).2.cursor := by
  cases request with
  | next =>
    simp only [serve]
    split
    · exact .refl _
    · exact .refl _
    · next taken => exact .token taken (.refl _)
  | drain => exact s.cursor.scan_reads
  | look => exact .refl _
  | advance reader =>
    simp only [serve, advance]
    split
    · exact .refl _
    · split
      · exact .refl _
      · exact .refl _
      · next taken => exact .token taken (.refl _)

/-- Where a request has raised a fault the cursor has met the fault. -/
theorem step_of_serve_fault {s : Session} {request : Request} {f : Fault}
    (h : (s.serve request).1.fault? = some f) : (s.serve request).2.cursor.step = .fault f := by
  cases request with
  | next =>
    simp only [serve] at h ⊢
    split at h <;> simp_all [Reply.fault?]
  | drain =>
    have fault : s.cursor.scan.fault? = some f := h
    have met := s.cursor.step_scan_cursor
    rw [fault] at met
    exact met
  | look => cases h
  | advance reader =>
    simp only [serve, advance] at h ⊢
    split at h
    · cases h
    · split at h <;> simp_all [Reply.fault?]

/-- The answer to a request is the reply in the session that the earlier requests leave. -/
theorem getElem?_serveAll (s : Session) (requests : List Request) (k : Nat) :
    (s.serveAll requests)[k]? = requests[k]?.map fun request =>
      (((s.after (requests.take k)).serve request).1,
        ((s.after (requests.take k)).serve request).2.cursor) := by
  induction requests generalizing s k with
  | nil => simp [serveAll]
  | cons request requests ih =>
    cases k with
    | zero => rfl
    | succ k => exact ih (s.serve request).2 k

theorem take_serveAll (s : Session) (requests : List Request) (k : Nat) :
    (s.serveAll requests).take k = s.serveAll (requests.take k) := by
  induction requests generalizing s k with
  | nil => simp [serveAll]
  | cons request requests ih =>
    cases k with
    | zero => rfl
    | succ k => exact congrArg _ (ih (s.serve request).2 k)

theorem after_append (s : Session) (earlier later : List Request) :
    s.after (earlier ++ later) = (s.after earlier).after later :=
  List.foldl_append

theorem after_take_succ (s : Session) {requests : List Request} {k : Nat} {request : Request}
    (h : requests[k]? = some request) :
    s.after (requests.take (k + 1)) = ((s.after (requests.take k)).serve request).2 := by
  simp [after, List.take_add_one, h]

theorem after_take_of_lt (s : Session) (requests : List Request) {j k : Nat} (later : j < k) :
    s.after (requests.take k) =
      (s.after (requests.take (j + 1))).after ((requests.take k).drop (j + 1)) := by
  have front : requests.take (j + 1) = (requests.take k).take (j + 1) := by
    rw [List.take_take, Nat.min_eq_left later]
  rw [front, ← after_append, List.take_append_drop]

theorem serveAll_reads (s : Session) (requests : List Request) :
    s.cursor.Reads (handed (s.serveAll requests)) (s.after requests).cursor := by
  induction requests generalizing s with
  | nil => exact .refl _
  | cons request requests ih => exact (s.serve_reads request).append (ih (s.serve request).2)

/-! ## Faults and readers that have ended -/

theorem serve_of_fault {s : Session} {f : Fault} (met : s.cursor.step = .fault f)
    (request : Request) : (s.serve request).2.cursor = s.cursor := by
  cases request with
  | next => simp [serve, met]
  | drain => simp [serve, Cursor.scan_of_fault met]
  | look => rfl
  | advance reader =>
    simp only [serve, advance, met]
    split <;> rfl

/-- A cursor that has met a fault stays there, whatever is requested. -/
theorem after_of_fault {s : Session} {f : Fault} (met : s.cursor.step = .fault f)
    (requests : List Request) : (s.after requests).cursor = s.cursor := by
  induction requests generalizing s with
  | nil => rfl
  | cons request requests ih =>
    have same := serve_of_fault met request
    exact (ih (same ▸ met)).trans same

theorem ended_serve {s : Session} {reader : String} (h : reader ∈ s.ended) (request : Request) :
    reader ∈ (s.serve request).2.ended := by
  cases request with
  | next => simp only [serve]; split <;> exact h
  | drain => exact h
  | look => exact h
  | advance other =>
    simp only [serve, advance]
    split
    · exact h
    · split
      · exact List.mem_cons_of_mem _ h
      · exact List.mem_cons_of_mem _ h
      · exact h

theorem ended_after {s : Session} {reader : String} (h : reader ∈ s.ended)
    (requests : List Request) : reader ∈ (s.after requests).ended := by
  induction requests generalizing s with
  | nil => exact h
  | cons request requests ih => exact ih (ended_serve h request)

/-- A reader is among those that have ended exactly from the reply on that ended it. -/
theorem mem_ended_serve_iff {s : Session} {reader : String} {request : Request} :
    reader ∈ (s.serve request).2.ended ↔
      reader ∈ s.ended ∨ request = .advance reader ∧ (s.serve request).1.Ends := by
  cases request with
  | next => simp only [serve]; split <;> simp
  | drain => simp [serve]
  | look => simp [serve]
  | advance other =>
    simp only [serve, advance]
    split
    · next mem =>
      constructor
      · exact .inl
      · rintro (h | ⟨same, _⟩)
        · exact h
        · cases same; exact mem
    · split <;> simp [Reply.Ends, or_comm, eq_comm]

/-- A reader has ended only if some answer to it has ended it. -/
theorem exists_ends_of_ended {s : Session} {reader : String} {requests : List Request}
    (h : reader ∈ (s.after requests).ended) (fresh : reader ∉ s.ended) :
    ∃ (i : Nat) (answer : Reply × Cursor), requests[i]? = some (.advance reader) ∧
      (s.serveAll requests)[i]? = some answer ∧ answer.1.Ends := by
  induction requests generalizing s with
  | nil => exact absurd h fresh
  | cons request requests ih =>
    by_cases now : reader ∈ (s.serve request).2.ended
    · rcases mem_ended_serve_iff.1 now with old | ⟨rfl, ends⟩
      · exact absurd old fresh
      · exact ⟨0, _, rfl, rfl, ends⟩
    · obtain ⟨i, answer, asked, answered, ends⟩ := ih h now
      exact ⟨i + 1, answer, asked, answered, ends⟩

/-- A reader that no answer so far has ended is still reading. -/
theorem not_ended_of_unended {s : Session} {requests : List Request} {k : Nat} {reader : String}
    (fresh : reader ∉ s.ended)
    (unended : ∀ (i : Nat) (answer : Reply × Cursor), i < k →
      requests[i]? = some (.advance reader) → (s.serveAll requests)[i]? = some answer →
        ¬ answer.1.Ends) : reader ∉ (s.after (requests.take k)).ended := by
  intro ended
  obtain ⟨i, answer, asked, answered, ends⟩ := exists_ends_of_ended ended fresh
  obtain ⟨bound, _⟩ := List.getElem?_eq_some_iff.1 asked
  have before : i < k := by
    rw [List.length_take] at bound
    omega
  rw [List.getElem?_take_of_lt before] at asked
  rw [← take_serveAll, List.getElem?_take_of_lt before] at answered
  exact unended i answer before asked answered ends

/-- The session that several requests leave is the one in which the next of them is served. -/
theorem answer_eq {s : Session} {requests : List Request} {k : Nat} {reply : Reply} {c : Cursor}
    (h : (s.serveAll requests)[k]? = some (reply, c)) :
    ∃ request, requests[k]? = some request ∧ reply = ((s.after (requests.take k)).serve request).1 ∧
      c = (s.after (requests.take (k + 1))).cursor := by
  rw [getElem?_serveAll] at h
  obtain ⟨request, asked, same⟩ := Option.map_eq_some_iff.1 h
  cases same
  exact ⟨request, asked, rfl, by rw [after_take_succ s asked]⟩

/-- The cursor behind an answer, where the cursor before the requests counts as the first. -/
theorem cursor_before {s : Session} {requests : List Request} {k : Nat} {answer : Reply × Cursor}
    (h : (s.serveAll requests)[k]? = some answer) :
    (s.cursor :: (s.serveAll requests).map Prod.snd)[k]? =
      some (s.after (requests.take k)).cursor := by
  cases k with
  | zero => rfl
  | succ k =>
    obtain ⟨bound, _⟩ := List.getElem?_eq_some_iff.1 h
    rw [List.getElem?_cons_succ, List.getElem?_map,
      List.getElem?_eq_getElem (show k < (s.serveAll requests).length by omega)]
    obtain ⟨request, _, _, cursor⟩ := answer_eq
      (List.getElem?_eq_getElem (show k < (s.serveAll requests).length by omega))
    exact congrArg some cursor

/-- Once an answer has raised a fault the cursor stays at the fault. -/
theorem met_of_raised {s : Session} {requests : List Request} {j k : Nat} {reply : Reply}
    {f : Fault} {c : Cursor} (h : (s.serveAll requests)[j]? = some (reply, c))
    (raised : reply.fault? = some f) (later : j < k) :
    (s.after (requests.take k)).cursor = c ∧ c.step = .fault f := by
  obtain ⟨request, asked, rfl, rfl⟩ := answer_eq h
  have met : (s.after (requests.take (j + 1))).cursor.step = .fault f := by
    rw [after_take_succ s asked]
    exact step_of_serve_fault raised
  refine ⟨?_, met⟩
  rw [after_take_of_lt s requests later]
  exact after_of_fault met _

/-- A reader that some answer has ended is among those that have ended. -/
theorem ended_of_ends {s : Session} {requests : List Request} {j k : Nat} {reader : String}
    {answer : Reply × Cursor} (asked : requests[j]? = some (.advance reader))
    (h : (s.serveAll requests)[j]? = some answer) (ends : answer.1.Ends) (later : j < k) :
    reader ∈ (s.after (requests.take k)).ended := by
  obtain ⟨request, same, reply, _⟩ := answer_eq h
  cases same.symm.trans asked
  have now : reader ∈ (s.after (requests.take (j + 1))).ended := by
    rw [after_take_succ s asked]
    exact mem_ended_serve_iff.2 (.inr ⟨rfl, reply ▸ ends⟩)
  rw [after_take_of_lt s requests later]
  exact ended_after now _

/-- **A shared cursor is safe.** Whatever several readers request of one cursor, in any order:

* the tokens handed out are, in the order of the requests, the first tokens of the source;
* the cursor always stands at the end of the last token handed out, with the line and the column
  of that place, and has more to read unless it is at the end of the source;
* a request that raises a fault and hands out nothing leaves the cursor as it was;
* from then on every request for the next token raises the same fault, on behalf of every reader
  that has not ended;
* a reader that has stopped or got a fault stops from then on. -/
theorem shared_reading (source : String) (requests : List Request) :
    let answers := (ofText source).serveAll requests
    let cursors := Cursor.ofText source :: answers.map Prod.snd
    handed answers <+: (tokenize source).tokens ∧
    (∃ pieces left, Segmentation source.toList pieces left ∧
      ∀ (k : Nat) (reply : Reply) (c : Cursor), answers[k]? = some (reply, c) →
        c.position.offset = Piece.extent (pieces.take (handed (answers.take (k + 1))).length) ∧
        c.position.IsEndOf (source.toList.take c.position.offset) ∧
        (c.hasMore = false ↔ c.position.offset = source.length)) ∧
    (∀ (k : Nat) (reply : Reply) (f : Fault) (c : Cursor), answers[k]? = some (reply, c) →
      reply.fault? = some f → reply.tokens = [] → cursors[k]? = some c) ∧
    (∀ (j k : Nat) (reply : Reply) (f : Fault) (c : Cursor), j < k →
      answers[j]? = some (reply, c) → reply.fault? = some f →
      (requests[k]? = some .next → answers[k]? = some (.fault f, c)) ∧
      (∀ reader, requests[k]? = some (.advance reader) →
        (∀ (i : Nat) (answer : Reply × Cursor), i < k → requests[i]? = some (.advance reader) →
          answers[i]? = some answer → ¬ answer.1.Ends) →
        answers[k]? = some (.fault f, c))) ∧
    (∀ (j k : Nat) (reader : String) (answer : Reply × Cursor), j < k →
      requests[j]? = some (.advance reader) → requests[k]? = some (.advance reader) →
      answers[j]? = some answer → answer.1.Ends → ∃ c, answers[k]? = some (.stopped, c)) := by
  dsimp only
  refine ⟨?_, ?_, ?_, ?_, ?_⟩
  · have reads := serveAll_reads (ofText source) requests
    exact ⟨_, reads.scan_tokens.symm⟩
  · obtain ⟨pieces, left, segmentation⟩ := exists_segmentation source.toList
    refine ⟨pieces, left, segmentation, ?_⟩
    intro k reply c h
    obtain ⟨request, asked, _, rfl⟩ := answer_eq h
    have reads := serveAll_reads (ofText source) (requests.take (k + 1))
    rw [take_serveAll]
    exact reads.stands segmentation
  · intro k reply f c h _ none
    obtain ⟨request, asked, rfl, rfl⟩ := answer_eq h
    have reads := serve_reads ((ofText source).after (requests.take k)) request
    rw [none] at reads
    rw [after_take_succ _ asked, reads.eq_of_nil]
    exact cursor_before h
  · intro j k reply f c later h raised
    obtain ⟨rfl, met⟩ := met_of_raised h raised later
    constructor
    · intro asked
      rw [getElem?_serveAll, asked]
      simp [serve, met]
    · intro reader asked unended
      have fresh := not_ended_of_unended (by simp [ofText]) unended
      rw [getElem?_serveAll, asked]
      simp [serve, advance, fresh, met]
  · intro j k reader answer later asked again h ends
    have ended := ended_of_ends asked h ends later
    rw [getElem?_serveAll, again]
    exact ⟨((ofText source).after (requests.take k)).cursor, by simp [serve, advance, ended]⟩

/-- A request for all tokens that are left can hand out tokens before it raises a fault. The cursor
is then not where it was before the request. -/
theorem drain_moves_before_fault :
    ((ofText "a\x7b\x7b\x7d\x7d").serve .drain).1.fault? =
        some ⟨.strayBraces "\x7b\x7b\x7d\x7d", ⟨1, 1, 2⟩⟩ ∧
      (ofText "a\x7b\x7b\x7d\x7d").cursor.position = ⟨0, 1, 1⟩ ∧
      ((ofText "a\x7b\x7b\x7d\x7d").serve .drain).2.cursor.position = ⟨1, 1, 2⟩ := by
  decide +kernel

end Session

end Stencil
