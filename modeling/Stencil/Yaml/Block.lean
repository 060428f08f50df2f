import Stencil.Yaml.Fault
import Stencil.Yaml.Place

/-!
# Block scalars

* `Place.block`: the content of a literal or of a folded scalar.

The header says whether the final line breaks are kept, and may say how far the lines are indented;
if it does not, the first line that is not empty does.
-/

namespace Stencil.Yaml

/-- What becomes of the line breaks at the end: all go, all stay, or one stays. -/
inductive Chomping where
  | strip
  | clip
  | keep
  deriving DecidableEq, Repr

structure BlockHeader where
  chomping : Chomping
  increment : Option Nat
  deriving DecidableEq, Repr

namespace Place

def chomping? (c : Char) : Option Chomping :=
  if c = '+' then some .keep else if c = '-' then some .strip else none

/-- A digit for the indentation and a sign for the chomping, in either order; both may be left
out, and the digit may not be zero. -/
def blockIndicators (p : Place) : Except Fault (BlockHeader × Place) :=
  let digit? (c : Char) : Option Nat := if c.isDigit then some (c.toNat - 48) else none
  let (header, p) : BlockHeader × Place :=
    match chomping? p.peek, digit? p.peek with
    | some chomping, _ =>
      match digit? (p.peekAt 1) with
      | some n => (⟨chomping, some n⟩, p.advance 2)
      | none => (⟨chomping, none⟩, p.next)
    | none, some n =>
      match chomping? (p.peekAt 1) with
      | some chomping => (⟨chomping, some n⟩, p.advance 2)
      | none => (⟨.clip, some n⟩, p.next)
    | none, none => (⟨.clip, none⟩, p)
  if header.increment = some 0 then .error (.form .blockHeader) else .ok (header, p)

/-- The rest of the header line, on which only a comment may stand. -/
def blockHeaderEnd (p : Place) : Except Fault Place :=
  let behind := p.skip (· == ' ')
  let behind := if behind.peek = '#' then behind.skip fun c => !isEnd c else behind
  if isEnd behind.peek then .ok behind.lineBreak.2 else .error (.form .blockHeader)

/-- What stands before the first line that is not empty: the line breaks, the indentation of the
first empty line, and the widest indentation of any of them or of the line after them. -/
structure BlockLead where
  breaks : List Char
  first? : Option Nat
  widest : Nat
  place : Place

def blockLead (fuel : Nat) (lead : BlockLead) : BlockLead :=
  match fuel with
  | 0 => lead
  | fuel + 1 =>
    let p := lead.place
    if p.peek = ' ' then
      blockLead fuel { lead with widest := max lead.widest p.next.column, place := p.next }
    else
      match p.lineBreak with
      | ([], _) => lead
      | (found, next) =>
        blockLead fuel
          { lead with
            breaks := lead.breaks ++ found
            first? := some (lead.first?.getD p.column)
            place := next }

/-- Of lines that have to show the indentation of a scalar, the first one may not have less than
the others, unless it has none. -/
def BlockLead.isUneven (lead : BlockLead) : Bool :=
  match lead.first? with
  | some first => 0 < first && first < lead.widest
  | none => false

def skipIndent (p : Place) (indent : Nat) : Place :=
  p.advance ((p.rest.take (indent - p.column)).takeWhile (· == ' ')).length

def blockBreaks (fuel : Nat) (indent : Nat) (p : Place) (breaks : List Char) : List Char × Place :=
  let p := p.skipIndent indent
  match fuel with
  | 0 => (breaks, p)
  | fuel + 1 =>
    match p.lineBreak with
    | ([], _) => (breaks, p)
    | (found, next) => blockBreaks fuel indent next (breaks ++ found)

/-- What a block scalar has come to: its lines, the last piece first, the break after the last
line, and the empty lines after that. -/
structure BlockLines where
  pieces : List (List Char)
  last : List Char
  empty : List Char
  place : Place

/-- Reads lines as long as they are indented; outside all collections a separator of documents ends
them too. A break between two lines of text is folded into a space, unless either of the lines
begins with a blank. -/
def blockLines (fuel : Nat) (folded outer : Bool) (indent : Nat) (lines : BlockLines) :
    BlockLines :=
  match fuel with
  | 0 => lines
  | fuel + 1 =>
    let p := lines.place
    if p.column ≠ indent ∨ p.rest.isEmpty then lines
    else
      let isText (c : Char) : Bool := !(c == ' ' || c == '\t')
      let leading := isText p.peek
      let (line, behind) := p.span fun c => !isEnd c
      let (last, next) := behind.lineBreak
      let (empty, place) := blockBreaks next.rest.length.succ indent next []
      let pieces := line :: lines.empty :: lines.pieces
      if place.column ≠ indent ∨ place.rest.isEmpty ∨
          (outer ∧ place.column = 0 ∧ place.atSeparator) then
        ⟨pieces, last, empty, place⟩
      else
        let between :=
          if folded ∧ last = ['\n'] ∧ leading ∧ isText place.peek then
            (if empty.isEmpty then [' '] else [])
          else last
        blockLines fuel folded outer indent ⟨between :: pieces, [], empty, place⟩

/-- The content of the block scalar whose mark stands here, and the place behind it. The lines of
the scalar stand at `least` columns or more. -/
def block (p : Place) (least : Nat) : Except Fault (List Char × Place) := do
  let folded := p.peek == '>'
  let (header, p) ← p.next.blockIndicators
  let p ← p.blockHeaderEnd
  let fuel := p.rest.length.succ
  let (indent, empty, place) ←
    match header.increment with
    | none =>
      let lead := blockLead fuel ⟨[], none, 0, p⟩
      if lead.isUneven then throw (.form .blockIndent)
      pure (max least lead.widest, lead.breaks, lead.place)
    | some n =>
      let indent := max least 1 + n - 1
      let (breaks, place) := blockBreaks fuel indent p []
      pure (indent, breaks, place)
  let lines := blockLines fuel folded (least == 0) indent ⟨[], [], empty, place⟩
  let text := lines.pieces.reverse.flatten
  return match header.chomping with
    | .strip => (text, lines.place)
    | .clip => (text ++ lines.last, lines.place)
    | .keep => (text ++ lines.last ++ lines.empty, lines.place)

end Place

end Stencil.Yaml
