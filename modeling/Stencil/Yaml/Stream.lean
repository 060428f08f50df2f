import Stencil.Yaml.Block
import Stencil.Yaml.Plain
import Stencil.Yaml.Quoted
import Stencil.Yaml.Token

/-!
# The tokens of a document

* `Reading`: the tokens at hand, with the indentation and the keys that are still open;
* `Reading.settle`: reads on until it is known which token comes next;
* `Reading.next`: the reading behind that token.

What a colon follows turns out to be a key only when the colon is met. So tokens that may begin a
key are remembered and held back, and those that do get their key tokens then. Nothing is read
before it is asked for.
-/

namespace Stencil.Yaml

/-- A token that may begin a key: its number and its place. One that stands where the entries of a
block mapping begin has to be a key. -/
structure Candidate where
  number : Nat
  required : Bool
  index : Nat
  line : Nat
  column : Nat
  deriving DecidableEq, Repr

/-- The tokens at hand are those behind the first `taken` ones. Candidates belong to levels of flow
collections, one to each. -/
structure Reading where
  place : Place
  queue : List Token
  taken : Nat
  isOver : Bool
  flow : List Char
  indent : Int
  outer : List Int
  keyAllowed : Bool
  candidates : List (Nat × Candidate)

namespace Reading

def isFlow (s : Reading) : Bool := !s.flow.isEmpty

def level (s : Reading) : Nat := s.flow.length

def push (s : Reading) (t : Token) : Reading := { s with queue := s.queue ++ [t] }

def insert (s : Reading) (number : Nat) (ts : List Token) : Reading :=
  let ahead := number - s.taken
  { s with queue := s.queue.take ahead ++ ts ++ s.queue.drop ahead }

def take (s : Reading) (t : Token) (width : Nat) : Reading :=
  { s.push t with place := s.place.advance width }

/-- A key may not go on over a line break, nor be longer than 1024 characters. -/
def dropStale (s : Reading) : Except Fault Reading :=
  let stale (c : Candidate) : Bool := c.line != s.place.line || 1024 < s.place.index - c.index
  if s.candidates.any fun c => stale c.2 && c.2.required then .error (.form .missingColon)
  else .ok { s with candidates := s.candidates.filter fun c => !stale c.2 }

def dropCandidate (s : Reading) : Except Fault Reading :=
  if s.candidates.any fun c => c.1 == s.level && c.2.required then .error (.form .missingColon)
  else .ok { s with candidates := s.candidates.filter fun c => c.1 != s.level }

/-- Remembers the next token as a candidate, where a key may begin. -/
def saveCandidate (s : Reading) : Except Fault Reading := do
  if s.keyAllowed then
    let required := !s.isFlow && s.indent == s.place.column
    let candidate : Candidate :=
      ⟨s.taken + s.queue.length, required, s.place.index, s.place.line, s.place.column⟩
    let s ← s.dropCandidate
    return { s with candidates := (s.level, candidate) :: s.candidates }
  else return s

/-- Closes the block collections that are indented further than a column. -/
def closeTo (column : Int) (s : Reading) : List Int → Reading
  | [] => s
  | outer :: rest =>
    if column < s.indent then
      closeTo column { s.push .blockEnd with indent := outer, outer := rest } rest
    else s

/-- Inside flow collections the indentation does not matter. -/
def unwind (s : Reading) (column : Int) : Reading :=
  if s.isFlow then s else closeTo column s s.outer

def indentTo (s : Reading) (column : Nat) : Bool × Reading :=
  if s.indent < column then (true, { s with indent := column, outer := s.indent :: s.outer })
  else (false, s)

/-- Past blanks, comments and line breaks. A new line may begin with a key. -/
def skipToToken (fuel : Nat) (s : Reading) : Reading :=
  match fuel with
  | 0 => s
  | fuel + 1 =>
    let p := s.place.skip fun c => c == ' ' || (s.isFlow && c == '\t')
    let p := if p.peek = '#' then p.skip fun c => !isEnd c else p
    match p.lineBreak with
    | ([], _) => { s with place := p }
    | (_, next) =>
      skipToToken fuel { s with place := next, keyAllowed := s.keyAllowed || !s.isFlow }

/-- A separator of documents, which closes all block collections. -/
def separator (s : Reading) (t : Token) (width : Nat) : Except Fault Reading := do
  let s ← (s.unwind (-1)).dropCandidate
  return { s.take t width with keyAllowed := false }

def openFlow (s : Reading) (t : Token) (mark : Char) : Except Fault Reading := do
  let s ← s.saveCandidate
  return { s.take t 1 with flow := mark :: s.flow, keyAllowed := true }

def closeFlow (s : Reading) (t : Token) : Except Fault Reading := do
  let s ← s.dropCandidate
  return { s.take t 1 with flow := s.flow.drop 1, keyAllowed := false }

def flowEntry (s : Reading) : Except Fault Reading := do
  let s ← s.dropCandidate
  return { s.take .flowEntry 1 with keyAllowed := true }

/-- The mark of an entry or of a key that is not followed by a colon on its line. Outside flow
collections it may begin a block collection. -/
def indicator (s : Reading) (t start : Token) (problem : Problem) (allows : Bool) :
    Except Fault Reading := do
  if !s.isFlow ∧ !s.keyAllowed then throw (.form problem)
  let (begins, s) := if s.isFlow then (false, s) else s.indentTo s.place.column
  let s := if begins then s.push start else s
  let s ← s.dropCandidate
  return { s.take t 1 with keyAllowed := allows }

/-- A colon makes a key of the candidate before it, and else belongs to a key of its own. -/
def colon (s : Reading) : Except Fault Reading := do
  match s.candidates.find? fun c => c.1 == s.level with
  | some (_, c) =>
    let s := { s with candidates := s.candidates.filter fun c => c.1 != s.level }
    let (begins, s) := if s.isFlow then (false, s) else s.indentTo c.column
    let s := s.insert c.number (if begins then [.blockMappingStart, .key] else [.key])
    return { s.take .value 1 with keyAllowed := false }
  | none => s.indicator .value .blockMappingStart .misplacedValue (!s.isFlow)

/-- A token that may begin a key, and after which no other key may begin. -/
def candidate (s : Reading) (read : Place → Except Fault (Token × Place)) :
    Except Fault Reading := do
  let s ← s.saveCandidate
  let (t, place) ← read s.place
  return { s.push t with place, keyAllowed := false }

def blockScalar (s : Reading) : Except Fault Reading := do
  let s ← s.dropCandidate
  let (content, place) ← s.place.block (s.indent + 1).toNat
  return { s.push (.scalar false (String.ofList content)) with place, keyAllowed := true }

def plainScalar (s : Reading) : Except Fault Reading := do
  let s ← s.saveCandidate
  let (content, place, ended) := s.place.plain s.isFlow (s.indent + 1)
  return { s.push (.scalar true (String.ofList content)) with place, keyAllowed := ended }

/-- Whether a colon here is the mark of a value. In braces it is one even if no gap follows, but
not straight behind another such mark, if that one is still at hand. -/
def isColon (s : Reading) : Bool :=
  match s.flow with
  | '\x7b' :: _ => isGap (s.place.peekAt 1) || s.queue.getLast? != some .value
  | _ => isGap (s.place.peekAt 1)

def isPlainStart (s : Reading) : Bool :=
  let c := s.place.peek
  let next := s.place.peekAt 1
  let isMark := isGap c || isBreak c || "-?:,[]\x7b\x7d#&*!|>'\"%@\x60".toList.contains c
  !isMark || (!isGap next && (c == '-' || (!s.isFlow && (c == '?' || c == ':')))) ||
    (c == ':' && s.isFlow && next != ' ' && next != '\t')

/-- Reads one token, with the starts and the ends of block collections before it. -/
def step (s : Reading) : Except Fault Reading := do
  let s ← (s.skipToToken s.place.rest.length.succ).dropStale
  let s := s.unwind s.place.column
  let c := s.place.peek
  let gap := isGap (s.place.peekAt 1)
  let first := s.place.column = 0
  if s.place.rest.isEmpty then return { (← s.separator .streamEnd 0) with isOver := true }
  else if c = '%' ∧ first then
    s.separator .directive (s.place.rest.takeWhile fun c => !isEnd c).length
  else if first ∧ s.place.isSeparator '-' then s.separator .documentStart 3
  else if first ∧ s.place.isSeparator '.' then s.separator .documentEnd 3
  else if c = '[' then s.openFlow .flowSequenceStart c
  else if c = '\x7b' then s.openFlow .flowMappingStart c
  else if c = ']' then s.closeFlow .flowSequenceEnd
  else if c = '\x7d' then s.closeFlow .flowMappingEnd
  else if c = ',' then s.flowEntry
  else if c = '-' ∧ gap then s.indicator .blockEntry .blockSequenceStart .misplacedEntry true
  else if c = '?' ∧ (s.isFlow ∨ gap) then
    s.indicator .key .blockMappingStart .misplacedKey (!s.isFlow)
  else if c = ':' ∧ s.isColon then s.colon
  else if c = '*' then
    s.candidate fun p => do let (name, q) ← p.named; return (.reference name, q)
  else if c = '&' then s.candidate fun p => do let (name, q) ← p.named; return (.anchor name, q)
  else if c = '!' then s.candidate Place.tag
  else if (c = '|' ∨ c = '>') ∧ !s.isFlow then s.blockScalar
  else if c = '\'' ∨ c = '"' then
    s.candidate fun p => do
      let (content, q) ← p.quoted
      return (.scalar false (String.ofList content), q)
  else if s.isPlainStart then s.plainScalar
  else .error (.form (.unexpectedCharacter c))

/-- Reads on until there is a next token that cannot turn out to begin a key any more. -/
def settle (fuel : Nat) (s : Reading) : Except Fault Reading :=
  match fuel with
  | 0 => .ok s
  | fuel + 1 =>
    if s.isOver then .ok s
    else if s.queue.isEmpty then do settle fuel (← s.step)
    else do
      let s ← s.dropStale
      if s.candidates.any fun c => c.2.number == s.taken then settle fuel (← s.step)
      else return s

/-- The next token of a settled reading; the last one stays the next. -/
def head (s : Reading) : Token := s.queue.head?.getD .streamEnd

def next (s : Reading) : Reading := { s with queue := s.queue.drop 1, taken := s.taken + 1 }

end Reading

def isAllowed (c : Char) : Bool :=
  let n := c.toNat
  n == 0x9 || n == 0xA || n == 0xD || (0x20 ≤ n && n ≤ 0x7E) || n == 0x85 ||
    (0xA0 ≤ n && n != 0xFFFE && n != 0xFFFF)

/-- A document before its first token. A byte order mark at its very beginning does not count. -/
def Reading.start (text : String) : Except Fault Reading :=
  match text.toList.find? fun c => !isAllowed c with
  | some c => .error (.form (.unprintable c))
  | none =>
    let place := Place.start text
    let place := if place.peek = '\ufeff' then place.next else place
    .ok ⟨place, [], 0, false, [], -1, [], true, []⟩

end Stencil.Yaml
