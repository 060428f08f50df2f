import Stencil.Proofs.Template.Assembling

/-!
# Trees as nested tokens

* `Entry.lexemes`: the lexemes that a row of entries comes from, each block between its start and
  its stop;
* `ReadAs`: the tokens that are read as a row of entries;
* `Builder.lexemes`: the lexemes that a builder has taken in, read off its open blocks;
* `Builder.acceptAll_lexemes`: taking in tokens adds their lexemes and forgets none;
* `Builder.acceptAll_of_readAs`: the tokens of entries are taken in, and give the entries back;
* `compile_eq_ok_iff`: a source compiles to the tree whose entries its tokens are read as.
-/

namespace Stencil

@[simp]
def Entry.lexemes : List Entry → List Lexeme
  | [] => []
  | .text run :: rest => .text run :: lexemes rest
  | .expression name :: rest => .expression name :: lexemes rest
  | .block name body :: rest => .blockStart name :: (lexemes body ++ .blockStop :: lexemes rest)

namespace Entry

/-- Induction on a row of entries: a block comes after its body and after the rest of the row. -/
@[elab_as_elim]
theorem row_induction {motive : List Entry → Prop} (nil : motive [])
    (text : ∀ run rest, motive rest → motive (.text run :: rest))
    (expression : ∀ name rest, motive rest → motive (.expression name :: rest))
    (block : ∀ name body rest, motive body → motive rest → motive (.block name body :: rest))
    (entries : List Entry) : motive entries :=
  lexemes.induct motive nil text expression block entries

@[simp] theorem lexemes_append (front back : List Entry) :
    lexemes (front ++ back) = lexemes front ++ lexemes back := by
  induction front using row_induction with
  | nil => simp
  | text run rest ih => simp [ih]
  | expression name rest ih => simp [ih]
  | block name body rest _ ih => simp [ih]

end Entry

/-! ## Tokens that are read as entries -/

/-- Tokens are read as entries if they are the lexemes of the entries. -/
def ReadAs (ts : List Token) (entries : List Entry) : Prop :=
  ts.map Token.lexeme = Entry.lexemes entries

namespace ReadAs

theorem nil_iff {ts : List Token} : ReadAs ts [] ↔ ts = [] := by
  simp [ReadAs]

theorem text_iff {ts : List Token} {run : String} {rest : List Entry} :
    ReadAs ts (.text run :: rest) ↔
      ∃ t others, ts = t :: others ∧ t.lexeme = .text run ∧ ReadAs others rest := by
  simp [ReadAs, List.map_eq_cons_iff]

theorem expression_iff {ts : List Token} {name : String} {rest : List Entry} :
    ReadAs ts (.expression name :: rest) ↔
      ∃ t others, ts = t :: others ∧ t.lexeme = .expression name ∧ ReadAs others rest := by
  simp [ReadAs, List.map_eq_cons_iff]

theorem block_iff {ts : List Token} {name : String} {body rest : List Entry} :
    ReadAs ts (.block name body :: rest) ↔
      ∃ start inside stop others, ts = start :: (inside ++ stop :: others) ∧
        start.lexeme = .blockStart name ∧ ReadAs inside body ∧ stop.lexeme = .blockStop ∧
          ReadAs others rest := by
  simp only [ReadAs, Entry.lexemes, List.map_eq_cons_iff, List.map_eq_append_iff]
  constructor
  · rintro ⟨start, _, rfl, kind, inside, _, rfl, same, stop, others, rfl, stopKind, behind⟩
    exact ⟨start, inside, stop, others, rfl, kind, same, stopKind, behind⟩
  · rintro ⟨start, inside, stop, others, rfl, kind, same, stopKind, behind⟩
    exact ⟨start, _, rfl, kind, inside, _, rfl, same, stop, others, rfl, stopKind, behind⟩

end ReadAs

/-! ## What a builder has taken in -/

/-- The lexemes up to the start of an open block, from the start of the node around it. -/
def OpenBlock.lexemes (block : OpenBlock) : List Lexeme :=
  Entry.lexemes block.before.reverse ++ [.blockStart block.name]

namespace Builder

def lexemes (b : Builder) : List Lexeme :=
  b.opened.reverse.flatMap OpenBlock.lexemes ++ Entry.lexemes b.entries.reverse

/-- What taking in a token can do. -/
theorem accept_cases {b next : Builder} {t : Token} {line? : Option TraceLine}
    (h : b.accept t = .ok (next, line?)) :
    (∃ run, t.lexeme = .text run ∧ next = b.add (.text run)) ∨
    (∃ name, t.lexeme = .expression name ∧ next = b.add (.expression name)) ∨
    (∃ name, t.lexeme = .blockStart name ∧ name ≠ rootName ∧
      next = ⟨[], ⟨name, t.position, b.entries⟩ :: b.opened⟩) ∨
    (∃ block opened, t.lexeme = .blockStop ∧ b.opened = block :: opened ∧
      next = ⟨.block block.name b.entries.reverse :: block.before, opened⟩) := by
  unfold accept at h
  cases kind : t.lexeme with
  | text run =>
    simp only [kind, Except.ok.injEq, Prod.mk.injEq] at h
    exact .inl ⟨run, rfl, h.1.symm⟩
  | expression name =>
    simp only [kind, Except.ok.injEq, Prod.mk.injEq] at h
    exact .inr (.inl ⟨name, rfl, h.1.symm⟩)
  | blockStart name =>
    simp only [kind] at h
    split at h
    · cases h
    · next unreserved =>
      simp only [Except.ok.injEq, Prod.mk.injEq] at h
      exact .inr (.inr (.inl ⟨name, rfl, unreserved, h.1.symm⟩))
  | blockStop =>
    simp only [kind] at h
    split at h
    · cases h
    · next block opened heq =>
      simp only [Except.ok.injEq, Prod.mk.injEq] at h
      exact .inr (.inr (.inr ⟨block, opened, rfl, heq, h.1.symm⟩))

/-- A token that is taken in comes behind everything taken in before. -/
theorem accept_lexemes {b next : Builder} {t : Token} {line? : Option TraceLine}
    (h : b.accept t = .ok (next, line?)) : next.lexemes = b.lexemes ++ [t.lexeme] := by
  rcases accept_cases h with ⟨run, kind, rfl⟩ | ⟨name, kind, rfl⟩ | ⟨name, kind, _, rfl⟩ |
    ⟨block, opened, kind, top, rfl⟩
  · simp [lexemes, add, kind]
  · simp [lexemes, add, kind]
  · simp [lexemes, OpenBlock.lexemes, kind]
  · simp [lexemes, OpenBlock.lexemes, kind, top]

theorem accept_unreserved {b next : Builder} {t : Token} {line? : Option TraceLine}
    (h : b.accept t = .ok (next, line?)) : t.lexeme ≠ .blockStart rootName := by
  rcases accept_cases h with ⟨run, kind, _⟩ | ⟨name, kind, _⟩ | ⟨name, kind, unreserved, _⟩ |
    ⟨block, opened, kind, _, _⟩
  · simp [kind]
  · simp [kind]
  · simpa [kind] using unreserved
  · simp [kind]

theorem acceptAll_cons {b : Builder} {t : Token} {ts : List Token} {last : Builder}
    (h : (b.acceptAll (t :: ts)).2 = .ok last) :
    ∃ next line?, b.accept t = .ok (next, line?) ∧ (next.acceptAll ts).2 = .ok last := by
  unfold acceptAll at h
  split at h
  · cases h
  · next next line? step => exact ⟨next, line?, step, h⟩

theorem acceptAll_lexemes {b last : Builder} {ts : List Token}
    (h : (b.acceptAll ts).2 = .ok last) : last.lexemes = b.lexemes ++ ts.map Token.lexeme := by
  induction ts generalizing b with
  | nil => cases h; simp
  | cons t ts ih =>
    obtain ⟨next, _, step, others⟩ := acceptAll_cons h
    rw [ih others, accept_lexemes step]
    simp

theorem acceptAll_unreserved {b last : Builder} {ts : List Token}
    (h : (b.acceptAll ts).2 = .ok last) : .blockStart rootName ∉ ts.map Token.lexeme := by
  induction ts generalizing b with
  | nil => simp
  | cons t ts ih =>
    obtain ⟨next, _, step, others⟩ := acceptAll_cons h
    rw [List.map_cons, List.mem_cons, not_or]
    exact ⟨(accept_unreserved step).symm, ih others⟩

theorem acceptAll_cons_of_accept {b next : Builder} {t : Token} {line? : Option TraceLine}
    (h : b.accept t = .ok (next, line?)) (ts : List Token) :
    (b.acceptAll (t :: ts)).2 = (next.acceptAll ts).2 := by
  rw [acceptAll, h]

/-- Tokens that are read as entries are taken in and give these entries, whatever follows them. -/
theorem acceptAll_of_readAs {entries : List Entry}
    (unreserved : .blockStart rootName ∉ Entry.lexemes entries) (b : Builder) {ts : List Token}
    (read : ReadAs ts entries) (later : List Token) :
    (b.acceptAll (ts ++ later)).2 =
      (Builder.acceptAll ⟨entries.reverse ++ b.entries, b.opened⟩ later).2 := by
  induction entries using Entry.row_induction generalizing b ts later with
  | nil =>
    obtain rfl := ReadAs.nil_iff.1 read
    rfl
  | text run rest ih =>
    obtain ⟨t, ts, rfl, kind, others⟩ := ReadAs.text_iff.1 read
    have step : b.accept t = .ok (b.add (.text run), none) := by simp [accept, kind]
    rw [List.cons_append, acceptAll_cons_of_accept step, ih (by simpa using unreserved) _ others]
    simp [add]
  | expression name rest ih =>
    obtain ⟨t, ts, rfl, kind, others⟩ := ReadAs.expression_iff.1 read
    have step : b.accept t = .ok (b.add (.expression name), none) := by simp [accept, kind]
    rw [List.cons_append, acceptAll_cons_of_accept step, ih (by simpa using unreserved) _ others]
    simp [add]
  | block name body rest ihBody ih =>
    simp only [Entry.lexemes, List.mem_cons, List.mem_append, not_or] at unreserved
    obtain ⟨fresh, inBody, _, inRest⟩ := unreserved
    obtain ⟨start, inside, stop, ts, rfl, kind, readBody, stopKind, readRest⟩ :=
      ReadAs.block_iff.1 read
    have named : name ≠ rootName := fun reserved => fresh (reserved ▸ rfl)
    -- The body is taken in while the row so far waits in the open block, and the stop brings both
    -- together again.
    have opens : b.accept start =
        .ok (⟨[], ⟨name, start.position, b.entries⟩ :: b.opened⟩,
          some (.opened name start.position)) := by
      simp [accept, kind, named]
    have closes : Builder.accept
        ⟨body.reverse ++ [], ⟨name, start.position, b.entries⟩ :: b.opened⟩ stop =
        .ok (⟨.block name body :: b.entries, b.opened⟩, some (.closed name stop.position)) := by
      simp [accept, stopKind]
    rw [List.cons_append, acceptAll_cons_of_accept opens, List.append_assoc,
      ihBody inBody _ readBody, List.cons_append, acceptAll_cons_of_accept closes,
      ih inRest _ readRest]
    simp

end Builder

/-! ## Compiled trees -/

theorem Builder.finish_eq_ok_iff {b : Builder} {t : Template} :
    b.finish = .ok t ↔ b.opened = [] ∧ t = ⟨rootName, b.entries.reverse⟩ := by
  unfold finish
  cases last : b.opened.getLast? with
  | none => simp [List.getLast?_eq_none_iff.1 last, eq_comm]
  | some block =>
    have : b.opened ≠ [] := by
      rintro none
      simp [none] at last
    simp [this]

/-- A source compiles if all its tokens are read and taken in and no block is left open. -/
theorem compile_eq_ok_iff_builder {source : String} {t : Template} :
    (compile source).result = .ok t ↔
      (tokenize source).fault? = none ∧
        ∃ b, (Builder.empty.acceptAll (tokenize source).tokens).2 = .ok b ∧ b.finish = .ok t := by
  rw [compile_eq_builder]
  unfold Builder.compiled
  dsimp only
  generalize Builder.empty.acceptAll (tokenize source).tokens = taken
  obtain ⟨lines, result⟩ := taken
  cases result with
  | error f => simp
  | ok b => cases (tokenize source).fault? <;> simp

/-- A source compiles to the tree whose entries its tokens are read as. Only the root has the
reserved name. -/
theorem compile_eq_ok_iff {source : String} {t : Template} :
    (compile source).result = .ok t ↔
      t.name = rootName ∧ (tokenize source).fault? = none ∧
        ReadAs (tokenize source).tokens t.entries ∧
        .blockStart rootName ∉ Entry.lexemes t.entries := by
  rw [compile_eq_ok_iff_builder]
  constructor
  · rintro ⟨read, b, taken, finished⟩
    obtain ⟨shut, rfl⟩ := Builder.finish_eq_ok_iff.1 finished
    have same := Builder.acceptAll_lexemes taken
    have unreserved := Builder.acceptAll_unreserved taken
    simp only [Builder.lexemes, shut, Builder.empty, List.reverse_nil, List.flatMap_nil,
      Entry.lexemes, List.nil_append] at same
    exact ⟨rfl, read, same.symm, same ▸ unreserved⟩
  · rintro ⟨root, read, same, unreserved⟩
    have taken := Builder.acceptAll_of_readAs unreserved .empty same []
    rw [List.append_nil] at taken
    refine ⟨read, _, taken, Builder.finish_eq_ok_iff.2 ⟨rfl, ?_⟩⟩
    cases t
    simp_all [Builder.empty]

end Stencil
