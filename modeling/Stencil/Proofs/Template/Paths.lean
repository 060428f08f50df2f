import Stencil.Proofs.Template.Enclosure

/-!
# The paths of blocks

* `blockPath`: the path of the block that starts behind some tokens;
* `foldl_pass_of_readAs`: a path passes over the tokens of entries by counting their blocks;
* `node_of_start`: a start among the tokens of entries is that of the node at its path;
* `start_of_node`: a node below entries has such a start.
-/

namespace Stencil

/-- The path of the next block, the innermost index first. An index counts the blocks that are over
on its level. -/
def Token.pass (path : List Nat) (t : Token) : List Nat :=
  match t.lexeme with
  | .text _ => path
  | .expression _ => path
  | .blockStart _ => 0 :: path
  | .blockStop =>
    match path with
    | _ :: i :: outer => (i + 1) :: outer
    | path => path

namespace Token

variable {t : Token}

theorem pass_of_text {run : String} (kind : t.lexeme = .text run) (path : List Nat) :
    t.pass path = path := by
  simp [pass, kind]

theorem pass_of_expression {name : String} (kind : t.lexeme = .expression name)
    (path : List Nat) : t.pass path = path := by
  simp [pass, kind]

theorem pass_of_blockStart {name : String} (kind : t.lexeme = .blockStart name)
    (path : List Nat) : t.pass path = 0 :: path := by
  simp [pass, kind]

theorem pass_of_blockStop (kind : t.lexeme = .blockStop) (i j : Nat) (outer : List Nat) :
    t.pass (i :: j :: outer) = (j + 1) :: outer := by
  simp [pass, kind]

end Token

/-- The path of the block that starts behind the tokens. -/
def blockPath (before : List Token) : List Nat := (before.foldl Token.pass [0]).reverse

/-- Behind the tokens of entries the path has passed over the blocks among these entries. -/
theorem foldl_pass_of_readAs {entries : List Entry} {ts : List Token} (read : ReadAs ts entries)
    (n : Nat) (outer : List Nat) :
    ts.foldl Token.pass (n :: outer) =
      (n + (entries.filterMap Entry.template?).length) :: outer := by
  induction entries using Entry.row_induction generalizing ts n outer with
  | nil =>
    rw [ReadAs.nil_iff.1 read]
    rfl
  | text run rest ih =>
    obtain ⟨t, others, rfl, kind, read⟩ := ReadAs.text_iff.1 read
    rw [List.foldl_cons, Token.pass_of_text kind, ih read]
    rfl
  | expression name rest ih =>
    obtain ⟨t, others, rfl, kind, read⟩ := ReadAs.expression_iff.1 read
    rw [List.foldl_cons, Token.pass_of_expression kind, ih read]
    rfl
  | block name body rest ihBody ih =>
    obtain ⟨start, inside, stop, others, rfl, kind, readBody, stopKind, read⟩ :=
      ReadAs.block_iff.1 read
    rw [List.foldl_cons, Token.pass_of_blockStart kind, List.foldl_append, ihBody readBody,
      List.foldl_cons, Token.pass_of_blockStop stopKind, ih read]
    simp only [Entry.template?, List.filterMap_cons, List.length_cons, List.cons.injEq, and_true]
    omega

/-- Two different tokens of a row stand one behind the other. -/
theorem apart_of_append {front back front' back' : List Token} {t u : Token} (different : t ≠ u)
    (same : front ++ t :: back = front' ++ u :: back') :
    (∃ between, front' = front ++ t :: between ∧ back = between ++ u :: back') ∨
      ∃ between, front = front' ++ u :: between ∧ back' = between ++ t :: back := by
  rcases List.append_eq_append_iff.1 same with ⟨later, rfl, split⟩ | ⟨later, rfl, split⟩
  · rcases List.cons_eq_append_iff.1 split with ⟨rfl, equal⟩ | ⟨between, rfl, rfl⟩
    · exact absurd (List.cons.inj equal).1.symm different
    · exact .inl ⟨between, rfl, rfl⟩
  · rcases List.cons_eq_append_iff.1 split with ⟨rfl, equal⟩ | ⟨between, rfl, rfl⟩
    · exact absurd (List.cons.inj equal).1 different
    · exact .inr ⟨between, rfl, rfl⟩

/-- A start among the tokens of entries is that of a node below them, and the path behind the
tokens in front of it leads to this node. -/
theorem node_of_start {entries : List Entry} {before after : List Token} {start : Token}
    {name : String} (read : ReadAs (before ++ start :: after) entries)
    (kind : start.lexeme = .blockStart name) (root : String) (n : Nat) (outer : List Nat) :
    ∃ i path node inside stop rest, after = inside ++ stop :: rest ∧
      Part.ReadAs (.block start inside stop) (.block node.name node.entries) ∧
        Template.at? ⟨root, entries⟩ (i :: path) = some node ∧
          before.foldl Token.pass (n :: outer) = path.reverse ++ (n + i) :: outer := by
  induction entries using Entry.row_induction generalizing root before after n outer with
  | nil => simpa using ReadAs.nil_iff.1 read
  | text run rest ih =>
    obtain ⟨t, others, same, textKind, read⟩ := ReadAs.text_iff.1 read
    rcases List.append_eq_cons_iff.1 same with ⟨rfl, equal⟩ | ⟨before, rfl, rfl⟩
    · obtain ⟨rfl, rfl⟩ := List.cons.inj equal
      simp [kind] at textKind
    · rw [List.foldl_cons, Token.pass_of_text textKind]
      exact ih read root n outer
  | expression shown rest ih =>
    obtain ⟨t, others, same, expressionKind, read⟩ := ReadAs.expression_iff.1 read
    rcases List.append_eq_cons_iff.1 same with ⟨rfl, equal⟩ | ⟨before, rfl, rfl⟩
    · obtain ⟨rfl, rfl⟩ := List.cons.inj equal
      simp [kind] at expressionKind
    · rw [List.foldl_cons, Token.pass_of_expression expressionKind]
      exact ih read root n outer
  | block child body rest ihBody ih =>
    obtain ⟨first, inside, stop, others, same, firstKind, readBody, stopKind, read⟩ :=
      ReadAs.block_iff.1 read
    rcases List.append_eq_cons_iff.1 same with ⟨rfl, equal⟩ | ⟨before, rfl, equal⟩
    · obtain ⟨rfl, rfl⟩ := List.cons.inj equal
      exact ⟨0, [], ⟨child, body⟩, inside, stop, others, rfl, .block firstKind stopKind readBody,
        rfl, rfl⟩
    · have different : start ≠ stop := by
        rintro rfl
        simp [kind] at stopKind
      rw [List.foldl_cons, Token.pass_of_blockStart firstKind]
      rcases apart_of_append different equal.symm with ⟨more, rfl, rfl⟩ | ⟨more, rfl, rfl⟩
      · -- The start stands inside the first block.
        obtain ⟨i, path, node, inner, close, later, rfl, block, reached, place⟩ :=
          ihBody readBody child 0 (n :: outer)
        refine ⟨0, i :: path, node, inner, close, later ++ stop :: others, by simp, block, reached,
          ?_⟩
        rw [place]
        simp
      · -- The start stands behind the first block.
        obtain ⟨i, path, node, inner, close, later, rfl, block, reached, place⟩ :=
          ih read root (n + 1) outer
        refine ⟨i + 1, path, node, inner, close, later, rfl, block, reached, ?_⟩
        rw [List.foldl_append, foldl_pass_of_readAs readBody, List.foldl_cons,
          Token.pass_of_blockStop stopKind, place]
        congr 2
        omega

/-- A node below entries comes from a start among their tokens that has its path. -/
theorem start_of_node {entries : List Entry} {ts : List Token} (read : ReadAs ts entries)
    (root : String) {i : Nat} {path : List Nat} {node : Template}
    (reached : Template.at? ⟨root, entries⟩ (i :: path) = some node) (n : Nat)
    (outer : List Nat) :
    ∃ before start inside stop rest, ts = before ++ start :: (inside ++ stop :: rest) ∧
      Part.ReadAs (.block start inside stop) (.block node.name node.entries) ∧
        before.foldl Token.pass (n :: outer) = path.reverse ++ (n + i) :: outer := by
  induction entries using Entry.row_induction generalizing root ts i path n outer with
  | nil => cases reached
  | text run rest ih =>
    obtain ⟨t, others, rfl, kind, read⟩ := ReadAs.text_iff.1 read
    obtain ⟨before, start, inside, stop, later, rfl, block, place⟩ :=
      ih read root reached n outer
    refine ⟨t :: before, start, inside, stop, later, rfl, block, ?_⟩
    rw [List.foldl_cons, Token.pass_of_text kind, place]
  | expression shown rest ih =>
    obtain ⟨t, others, rfl, kind, read⟩ := ReadAs.expression_iff.1 read
    obtain ⟨before, start, inside, stop, later, rfl, block, place⟩ :=
      ih read root reached n outer
    refine ⟨t :: before, start, inside, stop, later, rfl, block, ?_⟩
    rw [List.foldl_cons, Token.pass_of_expression kind, place]
  | block child body rest ihBody ih =>
    obtain ⟨first, inside, stop, others, rfl, kind, readBody, stopKind, read⟩ :=
      ReadAs.block_iff.1 read
    cases i with
    | zero =>
      cases path with
      | nil =>
        cases reached
        exact ⟨[], first, inside, stop, others, rfl, .block kind stopKind readBody, rfl⟩
      | cons j path =>
        obtain ⟨before, start, inner, close, later, rfl, block, place⟩ :=
          ihBody readBody child reached 0 (n :: outer)
        refine ⟨first :: before, start, inner, close, later ++ stop :: others, by simp, block, ?_⟩
        rw [List.foldl_cons, Token.pass_of_blockStart kind, place]
        simp
    | succ i =>
      obtain ⟨before, start, inner, close, later, rfl, block, place⟩ :=
        ih read root reached (n + 1) outer
      refine ⟨first :: (inside ++ stop :: before), start, inner, close, later, by simp, block, ?_⟩
      rw [List.foldl_cons, Token.pass_of_blockStart kind, List.foldl_append,
        foldl_pass_of_readAs readBody, List.foldl_cons, Token.pass_of_blockStop stopKind, place]
      congr 2
      omega

end Stencil
