import Stencil.Markup.Cursor
import Stencil.Template.Basic

/-!
# Compiling templates

* `Assembly`: the nodes under construction, which refer to each other by their places, and the
  blocks that are open;
* `Assembly.tree`: the tree that nodes make;
* `assemble`: the nodes of a source or the fault in it, and the trace of the work;
* `compile`: the same with the tree of the source;
* `TraceLine`: a step worth telling.
-/

namespace Stencil

/-- Steps are told where a block is opened, where one is closed, and when all tokens are read. -/
inductive TraceLine where
  | opened (name : String) (position : Position)
  | closed (name : String) (position : Position)
  | tokenized (length count : Nat)
  deriving DecidableEq, Repr

def TraceLine.text : TraceLine → String
  | .opened name p => s!"Opened block {Text.quote name} at {p.line}:{p.column}"
  | .closed name p => s!"Closed block {Text.quote name} at {p.line}:{p.column}"
  | .tokenized length count => s!"Tokenized template of length {length} into {count} tokens"

namespace Assembly

/-- What a node under construction holds. A block is told by the place of its node. -/
inductive Item where
  | text (run : String)
  | expression (name : String)
  | block (place : Nat)
  deriving DecidableEq, Repr

/-- A node under construction: what it holds in order, its blocks, and the first block of each name,
these by their places among all nodes. -/
structure Node where
  name : String
  items : List Item
  children : List Nat
  registry : List (String × Nat)
  deriving DecidableEq, Repr

structure OpenNode where
  place : Nat
  name : String
  position : Position
  deriving DecidableEq, Repr

def Node.bare (name : String) : Node := ⟨name, [], [], []⟩

def Node.hold (item : Item) (node : Node) : Node := { node with items := node.items ++ [item] }

def Node.adopt (name : String) (place : Nat) (node : Node) : Node :=
  { node with
    items := node.items ++ [.block place]
    children := node.children ++ [place]
    registry := Registry.add node.registry name place }

end Assembly

/-- The nodes so far, the root first, and the blocks that are open, the innermost first. A node is
changed in its place, and a block belongs to the node around it from its start on. -/
structure Assembly where
  nodes : List Assembly.Node
  opened : List Assembly.OpenNode
  deriving DecidableEq, Repr

namespace Assembly

def empty : Assembly := ⟨[.bare rootName], []⟩

def top : List OpenNode → Nat
  | [] => 0
  | block :: _ => block.place

def add (a : Assembly) (item : Item) : Assembly :=
  { a with nodes := a.nodes.modify (top a.opened) (.hold item) }

def enter (a : Assembly) (name : String) (position : Position) : Assembly :=
  let place := a.nodes.length
  { nodes := a.nodes.modify (top a.opened) (.adopt name place) ++ [.bare name]
    opened := ⟨place, name, position⟩ :: a.opened }

def accept (a : Assembly) (t : Token) : Except Fault (Assembly × Option TraceLine) :=
  match t.lexeme with
  | .text run => .ok (a.add (.text run), none)
  | .expression name => .ok (a.add (.expression name), none)
  | .blockStart name =>
    if name = rootName then .error ⟨.reservedName, t.position⟩
    else .ok (a.enter name t.position, some (.opened name t.position))
  | .blockStop =>
    match a.opened with
    | [] => .error ⟨.unexpectedStop, t.position⟩
    | block :: opened => .ok ({ a with opened }, some (.closed block.name t.position))

def acceptAll (a : Assembly) : List Token → List TraceLine × Except Fault Assembly
  | [] => ([], .ok a)
  | t :: rest =>
    match a.accept t with
    | .error f => ([], .error f)
    | .ok (next, line?) =>
      let (lines, result) := next.acceptAll rest
      (line?.toList ++ lines, result)

/-- The nodes, if no block is left open. The outermost one is to blame for all of them. -/
def finish (a : Assembly) : Except Fault (List Node) :=
  match a.opened.getLast? with
  | none => .ok a.nodes
  | some outermost =>
    .error ⟨.unclosed (a.opened.reverse.map OpenNode.name), outermost.position⟩

def Item.entry? (trees : List (Nat × Template)) : Item → Option Entry
  | .text run => some (.text run)
  | .expression name => some (.expression name)
  | .block place => (trees.lookup place).map fun t => .block t.name t.entries

/-- The trees of the nodes from a place on, each with its place. The blocks of a node stand behind
it. -/
def trees (place : Nat) : List Node → List (Nat × Template)
  | [] => []
  | node :: rest =>
    let behind := trees (place + 1) rest
    (place, ⟨node.name, node.items.filterMap (Item.entry? behind)⟩) :: behind

def tree (nodes : List Node) : Template := ((trees 0 nodes).lookup 0).getD ⟨rootName, []⟩

end Assembly

/-- Tokens are taken in as they are read, so of two faults the one that comes first in the source
counts, and blocks left open count only at the end. -/
def assemble (source : String) : List TraceLine × Except Fault (List Assembly.Node) :=
  let scan := tokenize source
  let (trace, result) := Assembly.empty.acceptAll scan.tokens
  match result, scan.fault? with
  | .error f, _ => (trace, .error f)
  | .ok _, some f => (trace, .error f)
  | .ok a, none => (trace ++ [.tokenized source.length scan.tokens.length], a.finish)

structure Compilation where
  trace : List TraceLine
  result : Except Fault Template

def compile (source : String) : Compilation :=
  let (trace, result) := assemble source
  ⟨trace, result.map Assembly.tree⟩

def Scan.trace (scan : Scan) (source : String) : List TraceLine :=
  match scan.fault? with
  | none => [.tokenized source.length scan.tokens.length]
  | some _ => []

end Stencil
