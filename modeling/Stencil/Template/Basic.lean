import Stencil.Markup.Fault
import Stencil.Text.Quoted

/-!
# Template trees

* `Entry`: a run of text, an expression, or a block with entries of its own;
* `Template`: a named node of the tree, which is the root or a block;
* `Template.children`, `Template.registry`: the blocks directly inside a node, and the first of
  each name;
* `Template.at?`: the node at the end of a path of child indices.
-/

namespace Stencil

inductive Entry where
  | text (run : String)
  | expression (name : String)
  | block (name : String) (body : List Entry)
  deriving Repr, BEq

structure Template where
  name : String
  entries : List Entry
  deriving Repr, BEq

/-- Puts a name into a registry, with an index, unless the name is there. -/
def Registry.add (registry : List (String × Nat)) (name : String) (index : Nat) :
    List (String × Nat) :=
  if registry.any fun entry => entry.1 == name then registry else registry ++ [(name, index)]

def Entry.template? : Entry → Option Template
  | .block name body => some ⟨name, body⟩
  | _ => none

namespace Template

def children (t : Template) : List Template := t.entries.filterMap Entry.template?

def register (registry : List (String × Nat)) (child : Template × Nat) : List (String × Nat) :=
  Registry.add registry child.1.name child.2

/-- The names of the children in the order of their first appearance, each with the index of the
first child of that name. -/
def registry (t : Template) : List (String × Nat) := t.children.zipIdx.foldl register []

def at? (t : Template) : List Nat → Option Template
  | [] => some t
  | i :: path =>
    match t.children[i]? with
    | some child => child.at? path
    | none => none

def isRoot (t : Template) : Bool := t.name == rootName

def literal (t : Template) : String :=
  s!"Template({Text.quote t.name}, entries={t.entries.length}, children={t.children.length})"

end Template

mutual

def Entry.blocks : Entry → Nat
  | .block _ body => 1 + Entry.blocksIn body
  | _ => 0

def Entry.blocksIn : List Entry → Nat
  | [] => 0
  | e :: rest => e.blocks + Entry.blocksIn rest

end

end Stencil
