import Stencil.Yaml.Content
import Stencil.Yaml.Node

/-!
# Values of nodes

* `putPair`, `checkKey`: what it takes to put a pair into a dictionary;
* `Node.value`: the value of a node, with everything inside it.

Of several faults the first one met counts: everything inside a part comes before the next part.
-/

namespace Stencil.Yaml

/-- A list becomes a tuple where it serves as a key, and a dictionary cannot serve as one. -/
def keyOf (v : Value) : Except Fault Value :=
  match v with
  | .list items => .ok (.tuple items)
  | .dict _ => .error (.form .compoundKey)
  | v => .ok v

/-- Puts a pair into a dictionary: in the place of its key if there is one, and else at the end. -/
def putPair (pairs : List (Value × Value)) (pair : Value × Value) : List (Value × Value) :=
  if pairs.any fun p => p.1.same pair.1 then
    pairs.map fun p => if p.1.same pair.1 then (p.1, pair.2) else p
  else pairs ++ [pair]

mutual

/-- The first part of a value that may change, and so keeps it from being a key. -/
def changeable? : Value → Option Value
  | .list items => some (.list items)
  | .dict pairs => some (.dict pairs)
  | .tuple items => changeableItem? items
  | _ => none

def changeableItem? : List Value → Option Value
  | [] => none
  | v :: rest => (changeable? v).or (changeableItem? rest)

end

/-- Whether a key may join those of a mapping. Where the keys are checked, none may come twice. -/
def checkKey (checked : Bool) (seen : List Value) (key : Value) : Except Fault Unit :=
  match changeable? key with
  | some v => .error (.content (.key v.typeName))
  | none => if checked && seen.any key.same then .error (.form .duplicateKey) else .ok ()

/-- The value of a mapping that is tagged as a scalar: that of its default value, if it has one. -/
def defaultValue (tag : Tag) (content? : Option (String × Nat)) : Except Fault Value :=
  match content? with
  | some (content, number) =>
    if tag = .timestamp then .error (.form .collectionTag) else scalarValue tag content number
  | none => .error (.form .collectionTag)

/-- The value of a node where it is a key, given its value elsewhere: the mark of a default value is
a text. -/
def Node.inKey (k : Node) (v : Except Fault Value) : Except Fault Value :=
  match k with
  | .scalar .value content _ => .ok (.text content)
  | _ => v

mutual

def Node.value : Node → Except Fault Value
  | .scalar tag content number => scalarValue tag content number
  | .sequence tag items =>
    match tag with
    | .sequence => .list <$> Node.values items
    | _ => .error (.form .collectionTag)
  | .mapping tag merged own problem? =>
    match tag, problem? with
    | .mapping, some p => .error (.form p)
    | .mapping, none => do
      return .dict (← Node.pairs merged.isEmpty (← Node.pairs false [] merged) own)
    | tag, _ => defaultValue tag (Node.defaultContent? own)

def Node.values : List Node → Except Fault (List Value)
  | [] => .ok []
  | n :: rest => do
    let v ← n.value
    return v :: (← Node.values rest)

/-- The dictionary `done` with the pairs of a mapping put into it. -/
def Node.pairs (checked : Bool) (done : List (Value × Value)) :
    List (Node × Node) → Except Fault (List (Value × Value))
  | [] => .ok done
  | (k, n) :: rest => do
    let key ← keyOf (← k.inKey k.value)
    let v ← n.value
    checkKey checked (done.map Prod.fst) key
    Node.pairs checked (putPair done (key, v)) rest

end

end Stencil.Yaml
