/-!
# Places in a document

* `Place`: what is left of a document, and where that begins;
* `Place.advance`, `Place.take`: the place some characters on;
* `isBreak`, `isEnd`, `isGap`: the characters that end lines, and those that set tokens apart.

Past the end of a document stands the character zero, which no document may contain.
-/

namespace Stencil.Yaml

/-- The columns of a line are counted from zero. -/
structure Place where
  rest : List Char
  index : Nat
  line : Nat
  column : Nat
  deriving DecidableEq, Repr

def isBreak (c : Char) : Bool :=
  c == '\n' || c == '\r' || c == '\x85' || c == '\u2028' || c == '\u2029'

def isEnd (c : Char) : Bool := isBreak c || c == '\x00'

def isGap (c : Char) : Bool := isEnd c || c == ' ' || c == '\t'

namespace Place

def start (text : String) : Place := ⟨text.toList, 0, 0, 0⟩

/-- The character `k` places on, or zero past the end. -/
def peekAt (p : Place) (k : Nat) : Char := p.rest[k]?.getD '\x00'

def peek (p : Place) : Char := p.rest.head?.getD '\x00'

/-- One character on. Of all breaks only a line feed begins a new line of the count, and a byte
order mark takes no column. -/
def next (p : Place) : Place :=
  match p.rest with
  | [] => p
  | c :: rest =>
    if c = '\n' then ⟨rest, p.index + 1, p.line + 1, 0⟩
    else ⟨rest, p.index + 1, p.line, if c = '\ufeff' then p.column else p.column + 1⟩

def advance (p : Place) (n : Nat) : Place := n.repeat next p

def span (p : Place) (holds : Char → Bool) : List Char × Place :=
  let taken := p.rest.takeWhile holds
  (taken, p.advance taken.length)

def skip (p : Place) (holds : Char → Bool) : Place := (p.span holds).2

/-- The line break here, as it is kept in a text, and the place behind it; nothing if there is
none. -/
def lineBreak (p : Place) : List Char × Place :=
  let c := p.peek
  if c = '\n' ∨ c = '\r' ∨ c = '\x85' then (['\n'], p.next)
  else if c = '\u2028' ∨ c = '\u2029' then ([c], p.next)
  else ([], p)

/-- Three equal marks, set apart from what follows. -/
def isSeparator (p : Place) (mark : Char) : Bool :=
  p.peek == mark && p.peekAt 1 == mark && p.peekAt 2 == mark && isGap (p.peekAt 3)

/-- Three hyphens or three points, which begin and end documents. -/
def atSeparator (p : Place) : Bool := p.isSeparator '-' || p.isSeparator '.'

/-- Folds a line break and the breaks of the empty lines after it: a single one is a space. -/
def fold (first : List Char) (others : List Char) : List Char :=
  if first ≠ ['\n'] then first ++ others else if others.isEmpty then [' '] else others

end Place

end Stencil.Yaml
