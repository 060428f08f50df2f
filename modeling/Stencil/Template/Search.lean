import Stencil.Error
import Stencil.Template.Basic

/-!
# Finding blocks

* `Template.search`: the block of a name nearest to the top, with the path that leads to it;
* `Template.find`: the same, where there must be such a block.
-/

namespace Stencil

structure Site where
  path : List Nat
  template : Template
  deriving Repr, BEq

namespace Site

def below (s : Site) : List Site :=
  s.template.children.zipIdx.map fun child => ⟨s.path ++ [child.2], child.1⟩

def nodes : List Site → Nat
  | [] => 0
  | s :: rest => 1 + Entry.blocksIn s.template.entries + nodes rest

theorem nodes_map_zipIdx (path : List Nat) (entries : List Entry) (n : Nat) :
    nodes (((entries.filterMap Entry.template?).zipIdx n).map fun child =>
      ⟨path ++ [child.2], child.1⟩) = Entry.blocksIn entries := by
  induction entries generalizing n with
  | nil => rfl
  | cons e entries ih =>
    cases e with
    | text => simpa [List.filterMap_cons, Entry.template?, Entry.blocksIn, Entry.blocks] using ih n
    | expression =>
      simpa [List.filterMap_cons, Entry.template?, Entry.blocksIn, Entry.blocks] using ih n
    | block name body =>
      simpa [List.filterMap_cons, Entry.template?, Entry.blocksIn, Entry.blocks, nodes]
        using ih (n + 1)

theorem nodes_below (s : Site) : nodes s.below = Entry.blocksIn s.template.entries :=
  nodes_map_zipIdx s.path s.template.entries 0

def registered? (s : Site) (name : String) : Option Site :=
  (s.template.registry.lookup name).bind fun i => s.below[i]?

/-- How much is still to be visited. A node counts twice, for it is taken from its level and then
opens one. -/
def weight : List (List Site) → Nat
  | [] => 0
  | level :: levels => 1 + 2 * nodes level + weight levels

/-- The first block of a name below the pending sites, those of the innermost level first. Each site
is asked for the child that its registry has for the name, and if there is none, its children are a
level of their own and come before the sites after it. -/
def firstBelow (name : String) : List (List Site) → Option Site
  | [] => none
  | [] :: levels => firstBelow name levels
  | (s :: rest) :: levels =>
    match s.registered? name with
    | some child => some child
    | none => firstBelow name (s.below :: rest :: levels)
termination_by levels => weight levels
decreasing_by
  · simp only [weight]
    omega
  · simp only [weight, nodes_below, nodes]
    omega

end Site

namespace Template

/-- The node itself if it bears the name, and else the first block of that name below it. -/
def search (t : Template) (name : String) : Option Site :=
  let here : Site := ⟨[], t⟩
  if t.name = name then some here else Site.firstBelow name [[here]]

def find (t : Template) (name : String) : Except Error Site :=
  match t.search name with
  | some site => .ok site
  | none => .error (.notFound name)

end Template

end Stencil
