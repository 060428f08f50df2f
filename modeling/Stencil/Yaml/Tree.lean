import Stencil.Yaml.Node
import Stencil.Yaml.Stream

/-!
# Trees of nodes

* `Compose`: reading the tokens of a document, with the anchors so far;
* `Node.ofText?`: the root of the tree that a text holds, if it holds any.

Anchors are resolved on the way: an alias is the node that it stands for.
-/

namespace Stencil.Yaml

/-- The tokens still to be read, the nodes that have anchors, and a number that is not less than
that of the characters. -/
structure Composing where
  reading : Reading
  anchors : List (String × Node)
  limit : Nat

/-- Composing reads tokens and may find that they make no node. -/
abbrev Compose (α : Type) := StateT Composing (Except Fault) α

namespace Compose

/-- The next token, for which no more is read than it takes to know it. -/
def peek : Compose Token := do
  let s ← get
  let reading ← s.reading.settle s.limit
  set { s with reading }
  return reading.head

def next : Compose Token := do
  let t ← peek
  modify fun s => { s with reading := s.reading.next }
  return t

def scalar (tag : Tag) (content : String) : Compose Node := do
  return .scalar tag content (← get).reading.taken

def refuse {α : Type} (p : Problem) : Compose α := throw (.form p)

def expect (t : Token) : Compose Unit := do
  if (← peek) = t then let _ ← next else refuse .unexpectedToken

def accept (t : Token) : Compose Bool := do
  if (← peek) = t then let _ ← next; return true else return false

def meets (ts : List Token) : Compose Bool := do return ts.contains (← peek)

def bind (name? : Option String) (n : Node) : Compose Unit :=
  match name? with
  | some name => modify fun s => { s with anchors := (name, n) :: s.anchors }
  | none => return

/-- The tag with its handle, which must be one of the two that need no declaration. -/
def fullTag (handle? : Option String) (suffix : String) : Compose String :=
  match handle? with
  | none => return suffix
  | some "!" => return "!" ++ suffix
  | some "!!" => return "tag:yaml.org,2002:" ++ suffix
  | some _ => refuse .tag

def properties : Compose (Option String × Option String) := do
  match ← peek with
  | .anchor name =>
    let _ ← next
    match ← peek with
    | .tag handle? suffix =>
      let _ ← next
      return (some name, some (← fullTag handle? suffix))
    | _ => return (some name, none)
  | .tag handle? suffix =>
    let _ ← next
    match ← peek with
    | .anchor name =>
      let _ ← next
      return (some name, some (← fullTag handle? suffix))
    | _ => return (none, some (← fullTag handle? suffix))
  | _ => return (none, none)

/-- A tag that says nothing is as good as none. -/
def tagOr (tag? : Option String) (default : Tag) : Tag :=
  match tag? with
  | none => default
  | some "!" => default
  | some name => .ofName name

/-- Without a tag, a plain scalar has the type of its form and a quoted one is a text. The tag that
says nothing makes any scalar plain. -/
def scalarTag (tag? : Option String) (isPlain : Bool) (content : String) : Tag :=
  tagOr tag? (if isPlain || tag? == some "!" then Schema.kind content else .text)

/-- Where a node may stand: in a flow collection, in a block, or in a block mapping, where a
sequence needs no indentation. -/
inductive Slot where
  | flow
  | block
  | entry
  deriving DecidableEq, Repr

/-- Only a node with an anchor or a tag may have no content. -/
def absent (anchor? tag? : Option String) : Compose Node :=
  if anchor?.isNone ∧ tag?.isNone then refuse .unexpectedToken
  else do
    let n ← scalar (tagOr tag? .null) ""
    bind anchor? n
    return n

/-- A collection, which its anchor refers to as an empty one until it is complete. -/
def collection (anchor? : Option String) (empty : Node) (read : Compose Node) : Compose Node := do
  bind anchor? empty
  let n ← read
  bind anchor? n
  return n

def orMissing (ts : List Token) (read : Compose Node) : Compose Node := do
  if ← meets ts then return .missing else read

mutual

def node (fuel : Nat) (slot : Slot) : Compose Node :=
  match fuel with
  | 0 => refuse .unexpectedToken
  | fuel + 1 => do
    if let .reference name ← peek then
      let _ ← next
      match (← get).anchors.find? fun anchor => anchor.1 == name with
      | some (_, n) => return n
      | none => refuse (.unknownAlias name)
    else
      let (anchor?, tag?) ← properties
      let sequenceTag := tagOr tag? .sequence
      let mappingTag := tagOr tag? .mapping
      let sequence (read : Compose (List Node)) : Compose Node :=
        collection anchor? (.sequence sequenceTag []) do
          return .sequence sequenceTag (← read)
      let mapping (read : Compose (List (Node × Node))) : Compose Node :=
        collection anchor? (.ofPairs mappingTag []) do
          return .ofPairs mappingTag (← read)
      match ← peek, slot with
      | .scalar isPlain content, _ =>
        let _ ← next
        let n ← scalar (scalarTag tag? isPlain content) content
        bind anchor? n
        return n
      | .blockEntry, .entry => sequence (indentlessItems fuel)
      | .flowSequenceStart, _ => sequence do let _ ← next; flowItems fuel true
      | .flowMappingStart, _ => mapping do let _ ← next; flowPairs fuel true
      | .blockSequenceStart, .block | .blockSequenceStart, .entry =>
        sequence do let _ ← next; blockItems fuel
      | .blockMappingStart, .block | .blockMappingStart, .entry =>
        mapping do let _ ← next; blockPairs fuel
      | _, _ => absent anchor? tag?

def blockItems (fuel : Nat) : Compose (List Node) :=
  match fuel with
  | 0 => refuse .unexpectedToken
  | fuel + 1 => do
    if ← accept .blockEntry then
      let item ← orMissing [.blockEntry, .blockEnd] (node fuel .block)
      return item :: (← blockItems fuel)
    else
      expect .blockEnd
      return []

/-- The items of a block sequence that has no indentation of its own, and so no end either. -/
def indentlessItems (fuel : Nat) : Compose (List Node) :=
  match fuel with
  | 0 => refuse .unexpectedToken
  | fuel + 1 => do
    if ← accept .blockEntry then
      let item ← orMissing [.blockEntry, .key, .value, .blockEnd] (node fuel .block)
      return item :: (← indentlessItems fuel)
    else return []

def blockPairs (fuel : Nat) : Compose (List (Node × Node)) :=
  match fuel with
  | 0 => refuse .unexpectedToken
  | fuel + 1 => do
    let ends : List Token := [.key, .value, .blockEnd]
    let hasKey ← accept .key
    if hasKey || (← peek) = .value then
      let key ← if hasKey then orMissing ends (node fuel .entry) else pure .missing
      let value ← if ← accept .value then orMissing ends (node fuel .entry) else pure .missing
      return (key, value) :: (← blockPairs fuel)
    else
      expect .blockEnd
      return []

/-- A pair of a flow collection that ends with the given token: its key if it has one, behind the
mark of the key, and its value if it has one. -/
def flowPair (fuel : Nat) (stop : Token) (hasKey : Bool) : Compose (Node × Node) :=
  match fuel with
  | 0 => refuse .unexpectedToken
  | fuel + 1 => do
    let key ←
      if hasKey then orMissing [.value, .flowEntry, stop] (node fuel .flow) else pure .missing
    let value ←
      if ← accept .value then orMissing [.flowEntry, stop] (node fuel .flow) else pure .missing
    return (key, value)

/-- The items of a flow sequence, behind its start or behind an item. A pair is an item too. -/
def flowItems (fuel : Nat) (first : Bool) : Compose (List Node) :=
  match fuel with
  | 0 => refuse .unexpectedToken
  | fuel + 1 => do
    if ← accept .flowSequenceEnd then return []
    if !first then expect .flowEntry
    if ← accept .key then
      let pair ← flowPair fuel .flowSequenceEnd true
      return .ofPairs .mapping [pair] :: (← flowItems fuel false)
    else if ← accept .flowSequenceEnd then return []
    else
      let item ← node fuel .flow
      return item :: (← flowItems fuel false)

/-- The pairs of a flow mapping, behind its start or behind a pair. A node alone is a key. -/
def flowPairs (fuel : Nat) (first : Bool) : Compose (List (Node × Node)) :=
  match fuel with
  | 0 => refuse .unexpectedToken
  | fuel + 1 => do
    if ← accept .flowMappingEnd then return []
    if !first then expect .flowEntry
    if ← accept .key then
      let pair ← flowPair fuel .flowMappingEnd true
      return pair :: (← flowPairs fuel false)
    else if (← peek) = .value then
      let pair ← flowPair fuel .flowMappingEnd false
      return pair :: (← flowPairs fuel false)
    else if ← accept .flowMappingEnd then return []
    else
      let key ← node fuel .flow
      return (key, .missing) :: (← flowPairs fuel false)

end

def directives (fuel : Nat) : Compose Unit :=
  match fuel with
  | 0 => return
  | fuel + 1 => do if ← accept .directive then directives fuel else return

/-- The single document of a stream. It may begin without a mark, unless it is empty. -/
def document (fuel : Nat) : Compose (Option Node) := do
  if ← meets [.directive, .documentStart, .streamEnd] then
    if ← accept .streamEnd then return none
    directives fuel
    expect .documentStart
    let n ← orMissing [.directive, .documentStart, .documentEnd, .streamEnd] (node fuel .block)
    finish n
  else
    finish (← node fuel .block)
where
  finish (n : Node) : Compose (Option Node) := do
    let _ ← accept .documentEnd
    if (← peek) = .streamEnd then return some n else refuse .secondDocument

end Compose

def Node.ofText? (text : String) : Except Fault (Option Node) := do
  let limit := text.length + 2
  (Compose.document (12 * limit)).run' ⟨← Reading.start text, [], limit⟩

end Stencil.Yaml
