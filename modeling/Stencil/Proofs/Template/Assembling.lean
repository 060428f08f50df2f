import Mathlib.Data.List.Basic
import Stencil.Template.Compile

/-!
# Trees by taking in tokens

* `Builder`: the tree under construction as the entries of its open blocks;
* `Assembly.Holds`: the items of a node stand for entries, whose nodes take up a stretch of places;
* `Assembly.tree_of_holds`: such nodes make the tree of these entries;
* `Assembly.Stands`: the open nodes hold what the builder holds in its open blocks;
* `Assembly.accept_pictures`: taking in a token keeps it so;
* `compile_eq_builder`: a source compiles as the builder says.

A builder has no nodes that refer to each other, so what it has taken in can be read off it.
-/

namespace Stencil

/-- A block that is not closed yet, and the entries before it in the node around it, the last of
them first. -/
structure OpenBlock where
  name : String
  position : Position
  before : List Entry
  deriving Repr, BEq

/-- The entries of the innermost open node, the last of them first, and the open blocks, the
innermost first. -/
structure Builder where
  entries : List Entry
  opened : List OpenBlock
  deriving Repr, BEq

namespace Builder

def empty : Builder := ⟨[], []⟩

/-- Adds an entry to the innermost open node. -/
def add (b : Builder) (e : Entry) : Builder := { b with entries := e :: b.entries }

/-- Takes in one token, and tells of it if it opens or closes a block. -/
def accept (b : Builder) (t : Token) : Except Fault (Builder × Option TraceLine) :=
  match t.lexeme with
  | .text run => .ok (b.add (.text run), none)
  | .expression name => .ok (b.add (.expression name), none)
  | .blockStart name =>
    if name = rootName then .error ⟨.reservedName, t.position⟩
    else
      .ok (⟨[], ⟨name, t.position, b.entries⟩ :: b.opened⟩, some (.opened name t.position))
  | .blockStop =>
    match b.opened with
    | [] => .error ⟨.unexpectedStop, t.position⟩
    | block :: opened =>
      .ok (⟨.block block.name b.entries.reverse :: block.before, opened⟩,
        some (.closed block.name t.position))

/-- The tree, if no block is left open. The outermost one is to blame for all of them. -/
def finish (b : Builder) : Except Fault Template :=
  match b.opened.getLast? with
  | none => .ok ⟨rootName, b.entries.reverse⟩
  | some outermost =>
    .error ⟨.unclosed (b.opened.reverse.map OpenBlock.name), outermost.position⟩

/-- Takes in tokens up to the first that is refused. -/
def acceptAll (b : Builder) : List Token → List TraceLine × Except Fault Builder
  | [] => ([], .ok b)
  | t :: rest =>
    match b.accept t with
    | .error f => ([], .error f)
    | .ok (next, line?) =>
      let (lines, result) := next.acceptAll rest
      (line?.toList ++ lines, result)

end Builder

/-- Compiling with a builder. -/
def Builder.compiled (source : String) : Compilation :=
  let scan := tokenize source
  let (trace, result) := Builder.empty.acceptAll scan.tokens
  match result, scan.fault? with
  | .error f, _ => ⟨trace, .error f⟩
  | .ok _, some f => ⟨trace, .error f⟩
  | .ok b, none => ⟨trace ++ [.tokenized source.length scan.tokens.length], b.finish⟩

namespace Assembly

/-! ## What a stretch of places holds -/

/-- The items stand for the entries. The nodes of the blocks among these, at any depth, take up the
places from `first` on up to `next`, in the order of reading. -/
inductive Holds (nodes : List Node) : Nat → List Item → List Entry → Nat → Prop
  | nil {first : Nat} : Holds nodes first [] [] first
  | text {first next : Nat} {items : List Item} {entries : List Entry} (run : String)
      (rest : Holds nodes first items entries next) :
      Holds nodes first (.text run :: items) (.text run :: entries) next
  | expression {first next : Nat} {items : List Item} {entries : List Entry} (name : String)
      (rest : Holds nodes first items entries next) :
      Holds nodes first (.expression name :: items) (.expression name :: entries) next
  | block {first behind next : Nat} {node : Node} {items : List Item} {body entries : List Entry}
      (found : nodes[first]? = some node) (inside : Holds nodes (first + 1) node.items body behind)
      (rest : Holds nodes behind items entries next) :
      Holds nodes first (.block first :: items) (.block node.name body :: entries) next

namespace Holds

variable {nodes nodes' : List Node} {first next : Nat} {items : List Item} {entries : List Entry}

/-- Every block takes up one place. -/
theorem next_eq (h : Holds nodes first items entries next) :
    next = first + Entry.blocksIn entries := by
  induction h with
  | nil => rfl
  | text run _ ih => simpa [Entry.blocksIn, Entry.blocks] using ih
  | expression name _ ih => simpa [Entry.blocksIn, Entry.blocks] using ih
  | block _ _ _ ihInside ihRest =>
    rw [ihRest, ihInside, Entry.blocksIn, Entry.blocks]
    omega

theorem first_le (h : Holds nodes first items entries next) : first ≤ next :=
  h.next_eq ▸ Nat.le_add_right ..

theorem append {last : Nat} {items' : List Item} {entries' : List Entry}
    (h : Holds nodes first items entries next) (h' : Holds nodes next items' entries' last) :
    Holds nodes first (items ++ items') (entries ++ entries') last := by
  induction h with
  | nil => exact h'
  | text run _ ih => exact .text run (ih h')
  | expression name _ ih => exact .expression name (ih h')
  | block found inside _ _ ihRest => exact .block found inside (ihRest h')

/-- Only the places of the stretch matter. -/
theorem congr (h : Holds nodes first items entries next)
    (same : ∀ i, first ≤ i → i < next → nodes'[i]? = nodes[i]?) :
    Holds nodes' first items entries next := by
  induction h with
  | nil => exact .nil
  | text run _ ih => exact .text run (ih same)
  | expression name _ ih => exact .expression name (ih same)
  | block found inside rest ihInside ihRest =>
    have outward := inside.first_le
    have onward := rest.first_le
    refine .block ?_ (ihInside fun i from_ bound => ?_) (ihRest fun i from_ bound => ?_)
    · rw [same _ (Nat.le_refl _) (by omega), found]
    · exact same i (by omega) (by omega)
    · exact same i (by omega) bound

end Holds

/-! ## The tree of nodes -/

/-- The tree of a node is made of the trees of the nodes behind it. -/
theorem lookup_trees (place i : Nat) (nodes : List Node) :
    (trees place nodes).lookup (place + i) =
      nodes[i]?.map fun node => ⟨node.name, node.items.filterMap
        (Item.entry? (trees (place + i + 1) (nodes.drop (i + 1))))⟩ := by
  induction nodes generalizing place i with
  | nil => rfl
  | cons node rest ih =>
    cases i with
    | zero => simp [trees]
    | succ i =>
      have other : (place + (i + 1) == place) = false := beq_false_of_ne (by omega)
      have shift : place + (i + 1) = place + 1 + i := by omega
      rw [trees, List.lookup_cons, other, shift]
      exact ih (place + 1) i

/-- The items are the entries that they stand for, whatever nodes there are besides. -/
theorem Holds.filterMap_eq {nodes : List Node} {first next : Nat} {items : List Item}
    {entries : List Entry} (h : Holds nodes first items entries next) {place : Nat}
    (before : place ≤ first) :
    items.filterMap (Item.entry? (trees place (nodes.drop place))) = entries := by
  induction h generalizing place with
  | nil => rfl
  | text run _ ih => exact congrArg (Entry.text run :: ·) (ih before)
  | expression name _ ih => exact congrArg (Entry.expression name :: ·) (ih before)
  | @block first behind next node items body entries found inside rest ihInside ihRest =>
    obtain ⟨i, rfl⟩ := Nat.exists_eq_add_of_le before
    have outward := inside.first_le
    have there := lookup_trees place i (nodes.drop place)
    rw [List.getElem?_drop, found, List.drop_drop, Option.map_some, ← Nat.add_assoc,
      ihInside (Nat.le_refl _)] at there
    have block : Item.entry? (trees place (nodes.drop place)) (.block (place + i)) =
        some (.block node.name body) := by rw [Item.entry?, there, Option.map_some]
    rw [List.filterMap_cons_some block, ihRest (by omega)]

theorem tree_of_holds {nodes : List Node} {root : Node} {entries : List Entry} {next : Nat}
    (found : nodes[0]? = some root) (name : root.name = rootName)
    (holds : Holds nodes 1 root.items entries next) : tree nodes = ⟨rootName, entries⟩ := by
  have there := lookup_trees 0 0 nodes
  rw [found, Option.map_some, name, holds.filterMap_eq (Nat.le_refl _)] at there
  rw [tree, there, Option.getD_some]

/-! ## Open nodes and open blocks -/

/-- The innermost open node holds the entries, whose nodes end before the place `next`, and behind
them what is pending. In every other open node the block around which it is open is pending behind
the entries before that block. -/
inductive Stands (nodes : List Node) :
    Nat → List Item → List Entry → List OpenBlock → List OpenNode → Prop
  | root {next : Nat} {node : Node} {items pending : List Item} {entries : List Entry}
      (found : nodes[0]? = some node) (named : node.name = rootName)
      (split : node.items = items ++ pending) (holds : Holds nodes 1 items entries.reverse next) :
      Stands nodes next pending entries [] []
  | inner {next place : Nat} {node : Node} {items pending : List Item} {entries before : List Entry}
      {position : Position} {blocks : List OpenBlock} {opened : List OpenNode}
      (found : nodes[place]? = some node) (split : node.items = items ++ pending)
      (holds : Holds nodes (place + 1) items entries.reverse next)
      (outer : Stands nodes place [.block place] before blocks opened) :
      Stands nodes next pending entries (⟨node.name, position, before⟩ :: blocks)
        (⟨place, node.name, position⟩ :: opened)

namespace Stands

variable {nodes nodes' : List Node} {next : Nat} {pending : List Item} {entries : List Entry}
  {blocks : List OpenBlock} {opened : List OpenNode}

/-- Only the places up to the next one matter. -/
theorem congr (h : Stands nodes next pending entries blocks opened)
    (same : ∀ i, i < next → nodes'[i]? = nodes[i]?) :
    Stands nodes' next pending entries blocks opened := by
  induction h with
  | root found named split holds =>
    have bound := holds.first_le
    refine .root ?_ named split (holds.congr fun i _ => same i)
    rw [same 0 (by omega), found]
  | inner found split holds _ ih =>
    have bound := holds.first_le
    refine .inner ?_ split (holds.congr fun i _ => same i) (ih fun i inside => same i (by omega))
    rw [same _ (by omega), found]

theorem top_lt (h : Stands nodes next pending entries blocks opened) : top opened < next := by
  cases h with
  | root _ _ _ holds => exact holds.first_le
  | inner _ _ holds _ => exact holds.first_le

/-- What is added to the innermost open node is pending there. -/
theorem change (h : Stands nodes next pending entries blocks opened) {f : Node → Node}
    {more : List Item} (keeps : ∀ node, (f node).name = node.name)
    (adds : ∀ node, (f node).items = node.items ++ more) :
    Stands (nodes.modify (top opened) f) next (pending ++ more) entries blocks opened := by
  have elsewhere : ∀ i, top opened ≠ i → (nodes.modify (top opened) f)[i]? = nodes[i]? := by
    intro i other
    simp [other]
  cases h with
  | @root _ node items _ _ found named split holds =>
    have changed : (nodes.modify 0 f)[0]? = some (f node) := by simp [found]
    refine .root changed (by rw [keeps, named]) ?_ (holds.congr ?_)
    · rw [adds, split, List.append_assoc]
    · exact fun i from_ _ => elsewhere i (by simp only [top]; omega)
  | @inner _ place node items _ _ _ position _ _ found split holds outer =>
    have changed : (nodes.modify place f)[place]? = some (f node) := by simp [found]
    rw [← keeps node]
    refine .inner changed ?_ (holds.congr ?_) (outer.congr ?_)
    · rw [adds, split, List.append_assoc]
    · exact fun i from_ _ => elsewhere i (by simp only [top]; omega)
    · exact fun i bound => elsewhere i (by simp only [top]; omega)

/-- What is pending belongs to the entries once it stands for entries itself. -/
theorem settle {last : Nat} {more : List Entry}
    (h : Stands nodes next pending entries blocks opened)
    (holds : Holds nodes next pending more last) :
    Stands nodes last [] (more.reverse ++ entries) blocks opened := by
  cases h with
  | root found named split earlier =>
    refine .root found named (split.trans (List.append_nil _).symm) ?_
    rw [List.reverse_append, List.reverse_reverse]
    exact earlier.append holds
  | inner found split earlier outer =>
    refine .inner found (split.trans (List.append_nil _).symm) ?_ outer
    rw [List.reverse_append, List.reverse_reverse]
    exact earlier.append holds

end Stands

/-! ## Taking in tokens -/

/-- The nodes hold what the builder holds. -/
def Pictures (a : Assembly) (b : Builder) : Prop :=
  Stands a.nodes a.nodes.length [] b.entries b.opened a.opened

theorem empty_pictures : Pictures empty .empty :=
  .root rfl rfl (List.append_nil []).symm .nil

variable {a : Assembly} {b : Builder}

/-- What is no block is added to the entries at once. -/
theorem add_pictures (pictures : Pictures a b) {item : Item} {e : Entry}
    (same : ∀ nodes next, Holds nodes next [item] [e] next) : Pictures (a.add item) (b.add e) := by
  have changed := Stands.change pictures (f := .hold item) (fun _ => rfl) fun _ => rfl
  have settled := changed.settle (same _ _)
  rw [Pictures, add, Builder.add, List.length_modify]
  exact settled

/-- A new block is pending in the node around it. -/
theorem enter_pictures (pictures : Pictures a b) (name : String) (position : Position) :
    Pictures (a.enter name position) ⟨[], ⟨name, position, b.entries⟩ :: b.opened⟩ := by
  have changed := Stands.change pictures (f := .adopt name a.nodes.length) (fun _ => rfl)
    fun _ => rfl
  let nodes := a.nodes.modify (top a.opened) (.adopt name a.nodes.length)
  have length : nodes.length = a.nodes.length := List.length_modify ..
  have outer : Stands (nodes ++ [.bare name]) a.nodes.length [.block a.nodes.length] b.entries
      b.opened a.opened := by
    refine changed.congr fun i bound => ?_
    rw [List.getElem?_append_left (by omega)]
  have found : (nodes ++ [Node.bare name])[a.nodes.length]? = some (.bare name) := by
    rw [List.getElem?_append_right (by omega), length, Nat.sub_self]
    rfl
  have holds : Holds (nodes ++ [.bare name]) (a.nodes.length + 1) [] []
      (nodes ++ [Node.bare name]).length := by
    rw [List.length_append, length]
    exact .nil
  exact .inner found (List.append_nil []).symm holds outer

/-- A token is refused by both for the same fault, or it is taken in by both. -/
theorem accept_pictures (pictures : Pictures a b) (t : Token) :
    match b.accept t with
    | .error f => a.accept t = .error f
    | .ok (next, line?) => ∃ a', a.accept t = .ok (a', line?) ∧ Pictures a' next := by
  cases kind : t.lexeme with
  | text run =>
    simp only [Builder.accept, accept, kind]
    exact ⟨_, rfl, add_pictures pictures fun _ _ => .text run .nil⟩
  | expression name =>
    simp only [Builder.accept, accept, kind]
    exact ⟨_, rfl, add_pictures pictures fun _ _ => .expression name .nil⟩
  | blockStart name =>
    by_cases reserved : name = rootName
    · simp [Builder.accept, accept, kind, reserved]
    · simp only [Builder.accept, accept, kind, reserved, ↓reduceIte]
      exact ⟨_, rfl, enter_pictures pictures name t.position⟩
  | blockStop =>
    obtain ⟨nodes, opened⟩ := a
    obtain ⟨entries, blocks⟩ := b
    cases pictures with
    | root => simp [Builder.accept, accept, kind]
    | @inner _ place node _ _ _ before position blocks opened found split holds outer =>
      simp only [Builder.accept, accept, kind]
      refine ⟨_, rfl, ?_⟩
      rw [List.append_nil] at split
      rw [← split] at holds
      exact outer.settle (.block found holds .nil)

theorem acceptAll_pictures (pictures : Pictures a b) (ts : List Token) :
    (a.acceptAll ts).1 = (b.acceptAll ts).1 ∧
      match (b.acceptAll ts).2 with
      | .error f => (a.acceptAll ts).2 = .error f
      | .ok next => ∃ a', (a.acceptAll ts).2 = .ok a' ∧ Pictures a' next := by
  induction ts generalizing a b with
  | nil => exact ⟨rfl, a, rfl, pictures⟩
  | cons t ts ih =>
    have step := accept_pictures pictures t
    cases taken : b.accept t with
    | error f =>
      rw [taken] at step
      simp [acceptAll, Builder.acceptAll, taken, step]
    | ok result =>
      obtain ⟨next, line?⟩ := result
      rw [taken] at step
      obtain ⟨a', step, pictures⟩ := step
      obtain ⟨trace, rest⟩ := ih pictures
      simp only [acceptAll, Builder.acceptAll, taken, step]
      exact ⟨by rw [trace], rest⟩

/-- The open nodes are the open blocks. -/
theorem Stands.opened_eq {nodes : List Node} {next : Nat} {pending : List Item}
    {entries : List Entry} {blocks : List OpenBlock} {opened : List OpenNode}
    (h : Stands nodes next pending entries blocks opened) :
    opened.map (fun block => (block.name, block.position)) =
      blocks.map fun block => (block.name, block.position) := by
  induction h with
  | root => rfl
  | inner _ _ _ _ ih => rw [List.map_cons, List.map_cons, ih]

theorem finish_pictures (pictures : Pictures a b) : a.finish.map tree = b.finish := by
  have outermost : a.opened.getLast?.map (fun block => (block.name, block.position)) =
      b.opened.getLast?.map fun block => (block.name, block.position) := by
    rw [← List.getLast?_map, ← List.getLast?_map, Stands.opened_eq pictures]
  have names : a.opened.reverse.map OpenNode.name = b.opened.reverse.map OpenBlock.name := by
    have := congrArg (fun pairs => (pairs.map Prod.fst).reverse) (Stands.opened_eq pictures)
    simpa [List.map_reverse, Function.comp_def] using this
  cases last : b.opened.getLast? with
  | none =>
    have closed : a.opened.getLast? = none := by simpa [last] using outermost
    rw [finish, Builder.finish, last, closed]
    obtain ⟨nodes, opened⟩ := a
    obtain ⟨entries, blocks⟩ := b
    cases pictures with
    | inner => simp at last
    | root found named split holds =>
      rw [List.append_nil] at split
      rw [← split] at holds
      exact congrArg Except.ok (tree_of_holds found named holds)
  | some block =>
    rw [last] at outermost
    obtain ⟨node, final, same⟩ := Option.map_eq_some_iff.1 outermost
    have position : node.position = block.position := (Prod.mk.inj same).2
    simp only [finish, Builder.finish, last, final, names, position, Except.map]

end Assembly

/-- A source compiles as the builder says. -/
theorem compile_eq_builder (source : String) : compile source = Builder.compiled source := by
  obtain ⟨trace, taken⟩ := Assembly.acceptAll_pictures Assembly.empty_pictures
    (tokenize source).tokens
  rw [compile, assemble, Builder.compiled]
  cases result : (Builder.empty.acceptAll (tokenize source).tokens).2 with
  | error f =>
    rw [result] at taken
    simp [taken, result, trace, Except.map]
  | ok b =>
    rw [result] at taken
    obtain ⟨a, taken, pictures⟩ := taken
    cases stopped : (tokenize source).fault? with
    | some f => simp [taken, result, trace, Except.map]
    | none => simp [taken, result, trace, Assembly.finish_pictures pictures]

end Stencil
