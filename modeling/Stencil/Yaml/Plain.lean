import Stencil.Yaml.Place

/-!
# Plain scalars

* `Place.plain`: the content of a scalar without quotes, which may go on over several lines.

Inside brackets and braces it ends at the marks of flow collections, outside of them where the
indentation falls back. A comment or a separator of documents ends it too.
-/

namespace Stencil.Yaml

/-- Marks that structure flow collections, and so end a plain scalar there. -/
def isFlowMark (c : Char) : Bool :=
  c == ',' || c == '[' || c == ']' || c == '\x7b' || c == '\x7d'

namespace Place

/-- The number of characters up to the end of the line or of the scalar, blanks not included. A
colon ends the scalar only where a gap follows. -/
def plainLength (flow : Bool) : List Char → Nat
  | [] => 0
  | c :: rest =>
    let next := rest.head?.getD '\x00'
    if c = ':' ∧ !isGap next then 1 + plainLength flow rest
    else if c = '?' then 1 + plainLength flow rest
    else if isGap c ∨ c = ':' ∨ (flow ∧ isFlowMark c) then 0
    else 1 + plainLength flow rest

/-- Empty lines and indentation, with the line breaks that are kept. A separator of documents ends
the scalar, and nothing is kept then. -/
def plainBreaks (fuel : Nat) (p : Place) (breaks : List Char) : Option (List Char) × Place :=
  match fuel with
  | 0 => (some breaks, p)
  | fuel + 1 =>
    if p.peek = ' ' then plainBreaks fuel p.next breaks
    else
      match p.lineBreak with
      | ([], _) => (some breaks, p)
      | (found, next) =>
        if next.atSeparator then (none, next) else plainBreaks fuel next (breaks ++ found)

/-- The space after a part of a scalar: what it contributes if the scalar goes on, the place behind
it, and whether a line ended in it. -/
def plainSpace (p : Place) : List Char × Place × Bool :=
  let (blanks, behind) := p.span (· == ' ')
  match behind.lineBreak with
  | ([], _) => (blanks, behind, false)
  | (found, next) =>
    if next.atSeparator then ([], next, true)
    else
      match plainBreaks next.rest.length.succ next [] with
      | (none, last) => ([], last, true)
      | (some breaks, last) => (fold found breaks, last, true)

/-- Parts of a scalar from here on. The answer tells the content, the place behind the scalar, and
whether a line ended after its last part. Outside flow collections the scalar goes on only in
columns from `indent` on. -/
def plainFrom (fuel : Nat) (flow : Bool) (indent : Int) (p : Place) (space : List Char)
    (ended : Bool) (pieces : List (List Char)) : List Char × Place × Bool :=
  let stop := (pieces.reverse.flatten, p, ended)
  match fuel with
  | 0 => stop
  | fuel + 1 =>
    if p.peek = '#' then stop
    else
      let length := plainLength flow p.rest
      if length = 0 then stop
      else
        let part := p.rest.take length
        let pieces := part :: space :: pieces
        let (space, behind, ended) := (p.advance length).plainSpace
        if space.isEmpty ∨ behind.peek = '#' ∨ (!flow ∧ (behind.column : Int) < indent) then
          (pieces.reverse.flatten, behind, ended)
        else plainFrom fuel flow indent behind space ended pieces

def plain (p : Place) (flow : Bool) (indent : Int) : List Char × Place × Bool :=
  plainFrom p.rest.length.succ flow indent p [] false []

end Place

end Stencil.Yaml
