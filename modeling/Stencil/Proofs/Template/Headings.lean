import Stencil.Proofs.Template.Blame
import Stencil.Proofs.Template.Drafting
import Stencil.Proofs.Template.Paths

/-!
# Outlines and block starts

* `headings`: the names of the block starts in a row of tokens, with their depths;
* `openStarts_append`: the tokens of entries leave no block open;
* `headings_of_readAs`: the headings of the tokens of entries are the outlines of these entries;
* `Outline.preorder_add`: an outline that is read from a greater depth has all its depths greater;
* `outline_headings`: the outline of a template has its headings in order, and that of a block has
  those of its own tokens.
-/

namespace Stencil

/-- The names of the block starts in a row of tokens behind other tokens, each with its depth, which
is one more than the number of blocks that are open at the start. -/
def headings (before : List Token) : List Token → List (Nat × String)
  | [] => []
  | t :: ts =>
    match t.lexeme with
    | .blockStart name => (1 + (openStarts before).length, name) :: headings (before ++ [t]) ts
    | _ => headings (before ++ [t]) ts

/-! ## One token -/

theorem openStarts_concat (before : List Token) (t : Token) :
    openStarts (before ++ [t]) = t.track (openStarts before) := by
  simp [openStarts]

section
variable {t : Token}

theorem openStarts_of_blockStart {name : String} (kind : t.lexeme = .blockStart name)
    (before : List Token) : openStarts (before ++ [t]) = t :: openStarts before := by
  rw [openStarts_concat, Token.track, kind]

theorem openStarts_of_blockStop (kind : t.lexeme = .blockStop) (before : List Token) :
    openStarts (before ++ [t]) = (openStarts before).tail := by
  rw [openStarts_concat, Token.track, kind]

/-- A token that is no block marker opens and closes nothing. -/
theorem openStarts_of_other (noStart : ∀ name, t.lexeme ≠ .blockStart name)
    (noStop : t.lexeme ≠ .blockStop) (before : List Token) :
    openStarts (before ++ [t]) = openStarts before := by
  rw [openStarts_concat, Token.track]
  split
  · next name kind => exact absurd kind (noStart name)
  · next kind => exact absurd kind noStop
  · rfl

theorem headings_of_blockStart {name : String} (kind : t.lexeme = .blockStart name)
    (before ts : List Token) :
    headings before (t :: ts) =
      (1 + (openStarts before).length, name) :: headings (before ++ [t]) ts := by
  simp [headings, kind]

theorem headings_of_other (other : ∀ name, t.lexeme ≠ .blockStart name) (before ts : List Token) :
    headings before (t :: ts) = headings (before ++ [t]) ts := by
  rw [headings]
  split
  · next name kind => exact absurd kind (other name)
  · rfl

end

theorem headings_append (before ts us : List Token) :
    headings before (ts ++ us) = headings before ts ++ headings (before ++ ts) us := by
  induction ts generalizing before with
  | nil => simp [headings]
  | cons t ts ih =>
    have later := ih (before ++ [t])
    rw [List.append_assoc, List.singleton_append] at later
    by_cases starts : ∃ name, t.lexeme = .blockStart name
    · obtain ⟨name, kind⟩ := starts
      rw [List.cons_append, headings_of_blockStart kind, headings_of_blockStart kind, later,
        List.cons_append]
    · rw [not_exists] at starts
      rw [List.cons_append, headings_of_other starts, headings_of_other starts, later]

/-! ## The tokens of entries -/

/-- The tokens of entries close every block that they open. -/
theorem openStarts_append {entries : List Entry} {ts : List Token} (read : ReadAs ts entries)
    (before : List Token) : openStarts (before ++ ts) = openStarts before := by
  induction entries using Entry.row_induction generalizing ts before with
  | nil => rw [ReadAs.nil_iff.1 read, List.append_nil]
  | text run rest ih =>
    obtain ⟨t, others, rfl, kind, read⟩ := ReadAs.text_iff.1 read
    rw [List.append_cons, ih read, openStarts_of_other (by simp [kind]) (by simp [kind])]
  | expression name rest ih =>
    obtain ⟨t, others, rfl, kind, read⟩ := ReadAs.expression_iff.1 read
    rw [List.append_cons, ih read, openStarts_of_other (by simp [kind]) (by simp [kind])]
  | block name body rest ihBody ih =>
    obtain ⟨start, inside, stop, others, rfl, kind, readBody, stopKind, read⟩ :=
      ReadAs.block_iff.1 read
    rw [List.append_cons, ← List.append_assoc, List.append_cons, ih read,
      openStarts_of_blockStop stopKind, ihBody readBody, openStarts_of_blockStart kind,
      List.tail_cons]

/-- The headings of the tokens of entries are the names in the outlines of these entries. -/
theorem headings_of_readAs {entries : List Entry} {ts : List Token} (read : ReadAs ts entries)
    (before : List Token) :
    headings before ts =
      Outline.preorders (1 + (openStarts before).length) (Entry.outlines entries) := by
  induction entries using Entry.row_induction generalizing ts before with
  | nil =>
    rw [ReadAs.nil_iff.1 read]
    rfl
  | text run rest ih =>
    obtain ⟨t, others, rfl, kind, read⟩ := ReadAs.text_iff.1 read
    rw [headings_of_other (by simp [kind]), ih read,
      openStarts_of_other (by simp [kind]) (by simp [kind])]
    rfl
  | expression name rest ih =>
    obtain ⟨t, others, rfl, kind, read⟩ := ReadAs.expression_iff.1 read
    rw [headings_of_other (by simp [kind]), ih read,
      openStarts_of_other (by simp [kind]) (by simp [kind])]
    rfl
  | block name body rest ihBody ih =>
    obtain ⟨start, inside, stop, others, rfl, kind, readBody, stopKind, read⟩ :=
      ReadAs.block_iff.1 read
    have deeper := openStarts_of_blockStart kind before
    have back : openStarts (before ++ [start] ++ inside ++ [stop]) = openStarts before := by
      rw [openStarts_of_blockStop stopKind, openStarts_append readBody, deeper, List.tail_cons]
    have ofBody := ihBody readBody (before ++ [start])
    have ofRest := ih read (before ++ [start] ++ inside ++ [stop])
    rw [deeper, List.length_cons, ← Nat.add_assoc] at ofBody
    rw [back] at ofRest
    rw [headings_of_blockStart kind, headings_append, headings_of_other (by simp [stopKind]),
      ofBody, ofRest]
    rfl

/-! ## Outlines of nodes -/

mutual

theorem Outline.preorder_add (more depth : Nat) : (o : Outline) →
    o.preorder (more + depth) = (o.preorder depth).map fun item => (more + item.1, item.2)
  | .node name children => by
    have below := Outline.preorders_add more (depth + 1) children
    rw [← Nat.add_assoc] at below
    rw [Outline.preorder, Outline.preorder, below, List.map_cons]

theorem Outline.preorders_add (more depth : Nat) : (os : List Outline) →
    Outline.preorders (more + depth) os =
      (Outline.preorders depth os).map fun item => (more + item.1, item.2)
  | [] => rfl
  | o :: rest => by
    rw [Outline.preorders, Outline.preorders, List.map_append, Outline.preorder_add more depth o,
      Outline.preorders_add more depth rest]

end

/-- The headings of a block are the names in the outline of its node. -/
theorem headings_of_block {start stop : Token} {inside : List Token} {node : Template}
    (block : Part.ReadAs (.block start inside stop) (.block node.name node.entries))
    (before : List Token) :
    headings before (start :: inside) =
      (node.outline.preorder 0).map fun item =>
        (1 + (openStarts before).length + item.1, item.2) := by
  cases block with | block starts stops read => ?_
  rw [← Outline.preorder_add, Template.outline_eq, Outline.preorder, headings_of_blockStart starts,
    headings_of_readAs read, openStarts_of_blockStart starts, List.length_cons]
  rfl

/-- **The outline is the nesting of the block markers.** In a source that compiles, the names in the
outline of the root are that of the root and the headings of all tokens. A node below it is that of
the block whose start has its path. The names in the outline of such a node are the headings of the
start and of the tokens inside the block, which stand together in the outline of the root, and their
depths there are counted from that of the node. -/
theorem outline_headings {source : String} {t : Template}
    (compiled : (compile source).result = .ok t) :
    t.outline.preorder 0 = (0, rootName) :: headings [] (tokenize source).tokens ∧
    ∀ path node, path ≠ [] → t.at? path = some node →
      ∃ before start inside stop rest,
        (tokenize source).tokens = before ++ start :: (inside ++ stop :: rest) ∧
          blockPath before = path ∧ start.lexeme = .blockStart node.name ∧
            ending? 0 (inside ++ stop :: rest) = some ⟨inside, stop, rest⟩ ∧
              (node.outline.preorder 0).map
                  (fun item => (1 + (openStarts before).length + item.1, item.2)) =
                headings before (start :: inside) ∧
              t.outline.preorder 0 =
                (0, rootName) :: headings [] before ++ headings before (start :: inside) ++
                  headings (before ++ start :: inside) (stop :: rest) := by
  obtain ⟨root, _, same, _⟩ := compile_eq_ok_iff.1 compiled
  have whole : t.outline.preorder 0 = (0, rootName) :: headings [] (tokenize source).tokens := by
    rw [Template.outline_eq, Outline.preorder, root, headings_of_readAs same]
    rfl
  refine ⟨whole, ?_⟩
  intro path node below reached
  obtain ⟨i, path, rfl⟩ := List.exists_cons_of_ne_nil below
  obtain ⟨before, start, inside, stop, rest, split, block, place⟩ :=
    start_of_node same t.name reached 0 []
  have own := headings_of_block block before
  have parts : headings [] (tokenize source).tokens =
      headings [] before ++ headings before (start :: inside) ++
        headings (before ++ start :: inside) (stop :: rest) := by
    rw [split, ← List.cons_append, headings_append, headings_append, List.nil_append,
      List.append_assoc]
  cases block with | block starts stops read => ?_
  refine ⟨before, start, inside, stop, rest, split, ?_, starts, ending?_of_readAs read stops rest,
    own.symm, ?_⟩
  · rw [blockPath, place]
    simp
  · rw [whole, parts, List.cons_append, List.cons_append]

/-- Two blocks of one name, one of them inside a third block. -/
theorem outline_headings_of_nested :
    let source := "\x7b\x7bt a\x7d\x7dx\x7b\x7bt b\x7d\x7d\x7b\x7by\x7d\x7d\x7b\x7b/t\x7d\x7d" ++
      "\x7b\x7b/t\x7d\x7d\x7b\x7bt b\x7d\x7d\x7b\x7b/t\x7d\x7d"
    let t : Template :=
      ⟨rootName, [.block "a" [.text "x", .block "b" [.expression "y"]], .block "b" []]⟩
    (compile source).result = .ok t ∧
      t.outline.preorder 0 = [(0, rootName), (1, "a"), (2, "b"), (1, "b")] ∧
        ∃ before start inside, blockPath before = [0, 0] ∧ start.lexeme = .blockStart "b" ∧
          headings before (start :: inside) = [(1 + (openStarts before).length, "b")] := by
  intro source t
  have compiled : (compile source).result = .ok t := by
    rw [compile_eq_ok_iff]
    simp only [t, ReadAs, Entry.lexemes, List.nil_append, List.cons_append]
    decide +kernel
  obtain ⟨whole, blocks⟩ := outline_headings compiled
  refine ⟨compiled, ?_, ?_⟩
  · rw [whole]
    decide +kernel
  · obtain ⟨before, start, inside, _, _, _, place, kind, _, own, _⟩ :=
      blocks [0, 0] ⟨"b", [.expression "y"]⟩ (List.cons_ne_nil _ _) rfl
    rw [Template.outline_eq] at own
    exact ⟨before, start, inside, place, kind, own.symm⟩

end Stencil
