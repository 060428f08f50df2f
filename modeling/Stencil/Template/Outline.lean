import Stencil.Template.Basic

/-!
# Outlines

* `Outline`: the names of blocks as they are nested;
* `Sketch`: an outline in the making, as drafts that refer to each other by their places;
* `Template.outline`: the outline of a node, with the node itself at the top;
* `Outline.preorder`: the names of an outline with their depths.
-/

namespace Stencil

inductive Outline where
  | node (name : String) (children : List Outline)
  deriving Repr, BEq

/-- A node of an outline that is not complete yet. Its children are told by their places among all
drafts. -/
structure Draft where
  name : String
  children : List Nat
  deriving Repr, BEq

/-- The drafts so far, and the nodes whose children are still to be drafted, each with the place of
its own draft, the last one added first. -/
structure Sketch where
  drafts : List Draft
  pending : List (Template × Nat)
  deriving Repr, BEq

namespace Sketch

def start (t : Template) : Sketch := ⟨[⟨t.name, []⟩], [(t, 0)]⟩

/-- Drafts a node without children, hangs it to the draft at a place behind the children that are
there, and leaves its own children for later. -/
def hang (place : Nat) (s : Sketch) (child : Template) : Sketch :=
  let last := s.drafts.length
  { drafts := (s.drafts ++ [Draft.mk child.name []]).modify place fun parent =>
      { parent with children := parent.children ++ [last] }
    pending := (child, last) :: s.pending }

def weight : List (Template × Nat) → Nat
  | [] => 0
  | (node, _) :: rest => 1 + Entry.blocksIn node.entries + weight rest

theorem weight_foldl_hang (place : Nat) (entries : List Entry) (s : Sketch) :
    weight ((entries.filterMap Entry.template?).foldl (hang place) s).pending =
      Entry.blocksIn entries + weight s.pending := by
  induction entries generalizing s with
  | nil => simp [Entry.blocksIn]
  | cons e entries ih =>
    cases e with
    | text => simpa [List.filterMap_cons, Entry.template?, Entry.blocksIn, Entry.blocks] using ih s
    | expression =>
      simpa [List.filterMap_cons, Entry.template?, Entry.blocksIn, Entry.blocks] using ih s
    | block name body =>
      have later := ih (hang place s ⟨name, body⟩)
      simp only [hang, weight] at later
      simp only [List.filterMap_cons, Entry.template?, List.foldl_cons, Entry.blocksIn,
        Entry.blocks, hang, later]
      omega

/-- The drafts of all nodes. The children of the pending node that was added last are hung to its
draft in order, until no node is pending. -/
def drafted : Sketch → List Draft
  | ⟨drafts, []⟩ => drafts
  | ⟨drafts, (node, place) :: rest⟩ => drafted (node.children.foldl (hang place) ⟨drafts, rest⟩)
termination_by s => weight s.pending
decreasing_by
  rw [Template.children, weight_foldl_hang]
  simp only [weight]
  omega

end Sketch

/-- The outlines of the drafts from a place on, each with its place. The children of a draft stand
behind it. -/
def Draft.outlines (place : Nat) : List Draft → List (Nat × Outline)
  | [] => []
  | draft :: rest =>
    let behind := outlines (place + 1) rest
    (place, .node draft.name (draft.children.filterMap fun child => behind.lookup child)) :: behind

def Template.outline (t : Template) : Outline :=
  ((Draft.outlines 0 (Sketch.start t).drafted).lookup 0).getD (.node t.name [])

mutual

def Outline.preorder (depth : Nat) : Outline → List (Nat × String)
  | .node name children => (depth, name) :: Outline.preorders (depth + 1) children

def Outline.preorders (depth : Nat) : List Outline → List (Nat × String)
  | [] => []
  | o :: rest => o.preorder depth ++ Outline.preorders depth rest

end

end Stencil
