import Stencil.Yaml.Valuation

/-!
# Filling collections

* `Backlog`: the collections that are still to be filled;
* `Node.valueAfter`: the value of a root node, behind a backlog.

Collections are filled one level after the other, outer ones before those inside them, and of
several faults the first one met counts. What a fault leaves undone stays in the backlog and comes
before the next document.
-/

namespace Stencil.Yaml

mutual

/-- The number of collections inside each other, and one for what is inside them all. -/
def Node.depth : Node → Nat
  | .scalar _ _ _ => 1
  | .sequence _ items => 1 + Node.depths items
  | .mapping _ merged own _ => 1 + max (Node.pairDepths merged) (Node.pairDepths own)

def Node.depths : List Node → Nat
  | [] => 0
  | n :: rest => max n.depth (Node.depths rest)

def Node.pairDepths : List (Node × Node) → Nat
  | [] => 0
  | (_, n) :: rest => max n.depth (Node.pairDepths rest)

end

/-- The collections that are still to be filled, outer ones before those inside them, and whether
everything inside a collection is to be read at once. -/
structure Backlog where
  pending : List Node
  isDeep : Bool
  deriving Repr

def Backlog.empty : Backlog := ⟨[], false⟩

/-- Filling may meet a fault, and then leaves a backlog behind. -/
abbrev Filling (α : Type) := ExceptT Fault (StateM Backlog) α

namespace Filling

/-- Meets a node: a scalar is read, and a collection is put off. -/
def meet (n : Node) : Filling Unit := do
  let isCollection := n.tag == .sequence || n.tag == .mapping
  if isCollection && !(← get).isDeep then
    modify fun b => { b with pending := b.pending ++ [n] }
  else discard (MonadExcept.ofExcept n.value)

/-- Reads a key with everything inside it. A fault met there leaves the reading as deep as that. -/
def key (k : Node) : Filling Value :=
  match k.inKey k.value with
  | .ok v => MonadExcept.ofExcept (keyOf v)
  | .error f => do
    modify fun b => { b with isDeep := true }
    throw f

def meetPairs (checked : Bool) (seen : List Value) : List (Node × Node) → Filling Unit
  | [] => return
  | (k, n) :: rest => do
    let k ← key k
    meet n
    MonadExcept.ofExcept (checkKey checked seen k)
    meetPairs checked (k :: seen) rest

def fill (n : Node) : Filling Unit := do
  if (← get).isDeep then discard (MonadExcept.ofExcept n.value)
  else
    match n with
    | .sequence .sequence items => items.forM meet
    | .mapping .mapping merged own none =>
      meetPairs false [] merged
      meetPairs merged.isEmpty [] own
    | n => discard (MonadExcept.ofExcept n.value)

/-- Fills the collections that are put off, and then those put off in doing so. -/
def rounds (fuel : Nat) : Filling Unit :=
  match fuel with
  | 0 => return
  | fuel + 1 => do
    let pending := (← get).pending
    if !pending.isEmpty then
      modify fun b => { b with pending := [] }
      pending.forM fill
      rounds fuel

/-- The value of the root node of a document. Nothing is left to be done if there is one. -/
def root (n : Node) : Filling Value := do
  meet n
  rounds (Node.depths (← get).pending)
  let v ← MonadExcept.ofExcept n.value
  set Backlog.empty
  return v

end Filling

/-- The value of a root node, once the backlog before it is done, and the backlog behind it. -/
def Node.valueAfter (n : Node) (b : Backlog) : Except Fault Value × Backlog :=
  (Filling.root n).run.run b

end Stencil.Yaml
