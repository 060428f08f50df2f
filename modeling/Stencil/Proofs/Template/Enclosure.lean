import Mathlib.Data.List.Forall2
import Stencil.Proofs.Template.Nesting

/-!
# Blocks in a row of tokens

* `ending?`: where a block ends whose start has just been passed: at the stop that matches it;
* `parts`: the tokens outside all blocks and the outermost blocks, in order;
* `insideAt?`: the tokens inside the block at the end of a path of indices of blocks;
* `parts_single`, `parts_block`: a token of its own and a block are one part each;
* `parts_match`: the parts of the tokens of a row of entries are those entries one by one;
* `insideAt?_match`: the same paths lead to a node of a tree and to the tokens inside its block.
-/

namespace Stencil

/-- The end of a block: the tokens inside it, its stop, and the tokens behind it. -/
structure Ending where
  inside : List Token
  stop : Token
  rest : List Token

/-- The same end, seen from before tokens that are inside the block. -/
def Ending.before (ts : List Token) (e : Ending) : Ending := { e with inside := ts ++ e.inside }

/-- The end of a block inside of which `depth` blocks are open. -/
def ending? : Nat → List Token → Option Ending
  | _, [] => none
  | depth, t :: ts =>
    match t.lexeme with
    | .text _ | .expression _ => (ending? depth ts).map (.before [t])
    | .blockStart _ => (ending? (depth + 1) ts).map (.before [t])
    | .blockStop =>
      match depth with
      | 0 => some ⟨[], t, ts⟩
      | depth + 1 => (ending? depth ts).map (.before [t])

theorem ending?_length {depth : Nat} {ts : List Token} {e : Ending}
    (h : ending? depth ts = some e) : e.rest.length < ts.length := by
  induction ts generalizing depth e with
  | nil => simp [ending?] at h
  | cons t ts ih =>
    have passed {depth : Nat} (h : (ending? depth ts).map (.before [t]) = some e) :
        e.rest.length < (t :: ts).length := by
      obtain ⟨inner, found, rfl⟩ := Option.map_eq_some_iff.1 h
      have shorter := ih found
      exact Nat.lt_succ_of_lt shorter
    unfold ending? at h
    split at h
    · exact passed h
    · exact passed h
    · exact passed h
    · split at h
      · cases h
        exact Nat.lt_succ_self _
      · exact passed h

/-- What stands in a row of tokens: a token of its own, or a block. -/
inductive Part where
  | single (t : Token)
  | block (start : Token) (inside : List Token) (stop : Token)

/-- The tokens inside a block. -/
def Part.inside? : Part → Option (List Token)
  | .single _ => none
  | .block _ inside _ => some inside

def parts : List Token → List Part
  | [] => []
  | t :: ts =>
    match t.lexeme with
    | .blockStart _ =>
      match _ : ending? 0 ts with
      | some e => .block t e.inside e.stop :: parts e.rest
      | none => .single t :: parts ts
    | _ => .single t :: parts ts
termination_by ts => ts.length
decreasing_by
  · have := ending?_length ‹ending? 0 ts = some e›
    simp only [List.length_cons]
    omega
  all_goals simp

/-- The tokens inside the block at the end of a path: of the block with that index among the
outermost ones, then of the one with the next index among the blocks inside it, and so on. -/
def insideAt? (ts : List Token) : List Nat → Option (List Token)
  | [] => some ts
  | i :: path =>
    match ((parts ts).filterMap Part.inside?)[i]? with
    | some inside => insideAt? inside path
    | none => none

/-! ## The tokens of a row of entries -/

/-- A part is read as a single entry. -/
inductive Part.ReadAs : Part → Entry → Prop
  | text {t : Token} {run : String} (kind : t.lexeme = .text run) :
      Part.ReadAs (.single t) (.text run)
  | expression {t : Token} {name : String} (kind : t.lexeme = .expression name) :
      Part.ReadAs (.single t) (.expression name)
  | block {start stop : Token} {name : String} {inside : List Token} {body : List Entry}
      (startKind : start.lexeme = .blockStart name) (stopKind : stop.lexeme = .blockStop)
      (read : Stencil.ReadAs inside body) :
      Part.ReadAs (.block start inside stop) (.block name body)

namespace Ending

@[simp] theorem before_nil : before [] = id := by
  funext e
  simp [before]

@[simp] theorem before_comp (front back : List Token) :
    before front ∘ before back = before (front ++ back) := by
  funext e
  simp [before]

end Ending

/-- The search for the end of a block passes over everything that is read as entries: it opens and
closes blocks of its own only. -/
theorem ending?_append {entries : List Entry} {ts : List Token} (read : ReadAs ts entries)
    (depth : Nat) (later : List Token) :
    ending? depth (ts ++ later) = (ending? depth later).map (.before ts) := by
  induction entries using Entry.row_induction generalizing ts depth later with
  | nil =>
    rw [ReadAs.nil_iff.1 read]
    simp
  | text run rest ih =>
    obtain ⟨t, others, rfl, kind, read⟩ := ReadAs.text_iff.1 read
    simp [ending?, kind, ih read]
  | expression name rest ih =>
    obtain ⟨t, others, rfl, kind, read⟩ := ReadAs.expression_iff.1 read
    simp [ending?, kind, ih read]
  | block name body rest ihBody ih =>
    obtain ⟨start, inside, stop, others, rfl, kind, readBody, stopKind, read⟩ :=
      ReadAs.block_iff.1 read
    simp [ending?, kind, ihBody readBody, stopKind, ih read]

/-- The end of a block whose body is read as entries is the stop behind that body. -/
theorem ending?_of_readAs {entries : List Entry} {inside : List Token}
    (read : ReadAs inside entries) {stop : Token} (kind : stop.lexeme = .blockStop)
    (later : List Token) : ending? 0 (inside ++ stop :: later) = some ⟨inside, stop, later⟩ := by
  simp [ending?_append read, ending?, kind, Ending.before]

theorem parts_single {t : Token} (single : ∀ name, t.lexeme ≠ .blockStart name) (ts : List Token) :
    parts (t :: ts) = .single t :: parts ts := by
  rw [parts]
  split
  · next name kind => exact absurd kind (single name)
  · rfl

theorem parts_block {start stop : Token} {inside : List Token} {name : String} {body : List Entry}
    (kind : start.lexeme = .blockStart name) (read : ReadAs inside body)
    (stopKind : stop.lexeme = .blockStop) (others : List Token) :
    parts (start :: (inside ++ stop :: others)) = .block start inside stop :: parts others := by
  have ends := ending?_of_readAs read stopKind others
  rw [parts, kind]
  dsimp only
  split
  · next e found =>
    obtain rfl := Option.some.inj (ends.symm.trans found)
    rfl
  · next missing => simp [ends] at missing

/-- Tokens that are read as entries have one part for each entry. -/
theorem parts_match {entries : List Entry} {ts : List Token} (read : ReadAs ts entries) :
    List.Forall₂ Part.ReadAs (parts ts) entries := by
  induction entries using Entry.row_induction generalizing ts with
  | nil =>
    rw [ReadAs.nil_iff.1 read, parts]
    exact .nil
  | text run rest ih =>
    obtain ⟨t, others, rfl, kind, read⟩ := ReadAs.text_iff.1 read
    rw [parts_single (by simp [kind])]
    exact .cons (.text kind) (ih read)
  | expression name rest ih =>
    obtain ⟨t, others, rfl, kind, read⟩ := ReadAs.expression_iff.1 read
    rw [parts_single (by simp [kind])]
    exact .cons (.expression kind) (ih read)
  | block name body rest _ ih =>
    obtain ⟨start, inside, stop, others, rfl, kind, readBody, stopKind, read⟩ :=
      ReadAs.block_iff.1 read
    rw [parts_block kind readBody stopKind]
    exact .cons (.block kind stopKind readBody) (ih read)

theorem Part.inside?_match ⦃p : Part⦄ ⦃e : Entry⦄ (read : p.ReadAs e) :
    Option.Rel (fun inside child => Stencil.ReadAs inside child.entries)
      p.inside? e.template? := by
  cases read with
  | text => exact .none
  | expression => exact .none
  | block _ _ read => exact .some read

/-- The blocks among the parts are the children of the node. -/
theorem blocks_match {t : Template} {ts : List Token} (read : ReadAs ts t.entries) :
    List.Forall₂ (fun inside child => ReadAs inside child.entries)
      ((parts ts).filterMap Part.inside?) t.children :=
  List.rel_filterMap Part.inside?_match (parts_match read)

theorem getElem?_match {α β : Type} {R : α → β → Prop} {xs : List α} {ys : List β}
    (matched : List.Forall₂ R xs ys) (i : Nat) : Option.Rel R xs[i]? ys[i]? := by
  induction matched generalizing i with
  | nil => exact .none
  | cons head _ ih =>
    cases i with
    | zero => exact .some head
    | succ i => simpa using ih i

/-- A path leads into the tokens of a node wherever it leads to a node below it, and the tokens at
its end are read as the entries of that node. -/
theorem insideAt?_match (path : List Nat) {t : Template} {ts : List Token}
    (read : ReadAs ts t.entries) :
    Option.Rel (fun inside node => ReadAs inside node.entries) (insideAt? ts path)
      (t.at? path) := by
  induction path generalizing t ts with
  | nil => exact .some read
  | cons i path ih =>
    have step := getElem?_match (blocks_match read) i
    rw [insideAt?, Template.at?]
    generalize ((parts ts).filterMap Part.inside?)[i]? = inside? at step ⊢
    generalize t.children[i]? = child? at step ⊢
    cases step with
    | none => exact .none
    | some read => exact ih read

end Stencil
