import Stencil.Yaml.Fault
import Stencil.Yaml.Schema

/-!
# Nodes of documents

* `Node`: scalars, sequences and mappings, each with its tag;
* `Node.ofPairs`: a mapping, with what is merged into it;
* `Node.content?`: the content of a node that stands for a scalar.
-/

namespace Stencil.Yaml

/-- A scalar has a number that tells it apart from the others of its document. A mapping keeps the
pairs that are merged into it apart from its own; where the merging is not possible it has a problem
instead. -/
inductive Node where
  | scalar (tag : Tag) (content : String) (number : Nat)
  | sequence (tag : Tag) (items : List Node)
  | mapping (tag : Tag) (merged own : List (Node × Node)) (problem? : Option Problem)
  deriving Repr

def Tag.ofName (name : String) : Tag :=
  match name with
  | "tag:yaml.org,2002:null" => .null
  | "tag:yaml.org,2002:bool" => .bool
  | "tag:yaml.org,2002:int" => .int
  | "tag:yaml.org,2002:float" => .float
  | "tag:yaml.org,2002:timestamp" => .timestamp
  | "tag:yaml.org,2002:merge" => .merge
  | "tag:yaml.org,2002:value" => .value
  | "tag:yaml.org,2002:str" => .text
  | "tag:yaml.org,2002:binary" => .binary
  | "tag:yaml.org,2002:seq" => .sequence
  | "tag:yaml.org,2002:map" => .mapping
  | name => .other name

namespace Node

def tag : Node → Tag
  | .scalar tag _ _ => tag
  | .sequence tag _ => tag
  | .mapping tag _ _ _ => tag

def missing : Node := .scalar .null "" 0

def allPairs : Node → Except Problem (List (Node × Node))
  | .mapping _ merged own none => .ok (merged ++ own)
  | .mapping _ _ _ (some p) => .error p
  | _ => .error .merge

/-- The pairs that a merge brings: those of a mapping, or those of several, the last of them
first. -/
def broughtPairs : Node → Except Problem (List (Node × Node))
  | .sequence _ items =>
    items.foldlM (fun brought item => do return (← item.allPairs) ++ brought) []
  | n => n.allPairs

/-- The pairs that the merges of a mapping bring. There may be a second one only if the first one
brings nothing. -/
def mergeAll (merges : List (Node × Node)) : Except Problem (List (Node × Node)) :=
  merges.foldlM
    (fun merged merge => if merged.isEmpty then merge.2.broughtPairs else .error .duplicateKey) []

/-- The mapping of the given pairs, of which those with a merge for a key bring pairs from
elsewhere. -/
def ofPairs (tag : Tag) (pairs : List (Node × Node)) : Node :=
  let merges := pairs.filter fun pair => pair.1.tag == .merge
  let own := pairs.filter fun pair => pair.1.tag != .merge
  match mergeAll merges with
  | .ok merged => .mapping tag merged own none
  | .error p => .mapping tag [] own (some p)

mutual

/-- The content and the number of a scalar; a mapping has those of its default value. -/
def content? : Node → Option (String × Nat)
  | .scalar _ content number => some (content, number)
  | .sequence _ _ => none
  | .mapping _ _ own _ => defaultContent? own

def defaultContent? : List (Node × Node) → Option (String × Nat)
  | [] => none
  | (k, n) :: rest => if k.tag == .value then n.content? else defaultContent? rest

end

end Node

end Stencil.Yaml
