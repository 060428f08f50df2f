import Stencil.Text.Utf8
import Stencil.Yaml.Fault
import Stencil.Yaml.Place

/-!
# Tokens of documents

* `Token`: scalars, the properties of nodes, and the marks that structure collections;
* `Place.named`: the name of an anchor or of an alias;
* `Place.tag`: a tag in any of its forms.
-/

namespace Stencil.Yaml

/-- Block collections have starts and ends by their indentation, flow collections by brackets and
braces. A tag has a handle unless it is given in full. -/
inductive Token where
  | streamEnd
  | directive
  | documentStart
  | documentEnd
  | blockSequenceStart
  | blockMappingStart
  | blockEnd
  | flowSequenceStart
  | flowSequenceEnd
  | flowMappingStart
  | flowMappingEnd
  | flowEntry
  | blockEntry
  | key
  | value
  | reference (name : String)
  | anchor (name : String)
  | tag (handle? : Option String) (suffix : String)
  | scalar (isPlain : Bool) (content : String)
  deriving DecidableEq, Repr

/-- Characters of the names of anchors: all that have a shape, but not the marks of flow
collections. -/
def isAnchorChar (c : Char) : Bool :=
  let n := c.toNat
  ((0x21 ≤ n && n ≤ 0x7E) || (0xA0 ≤ n && n ≤ 0xFFFD && n != 0xFEFF) || 0x10000 ≤ n) &&
    !(c == ',' || c == '[' || c == ']' || c == '\x7b' || c == '\x7d')

def isTagChar (c : Char) : Bool :=
  c.isAlphanum || "-;/?:@&=+$,_.!~*'()[]%#".toList.contains c

namespace Place

def named (p : Place) : Except Fault (String × Place) :=
  let (name, behind) := p.next.span isAnchorChar
  let closes (c : Char) : Bool :=
    isGap c || isBreak c || "?:,[]\x7b\x7d%@\x60".toList.contains c
  if name.isEmpty ∨ !closes behind.peek then .error (.form .anchor)
  else .ok (String.ofList name, behind)

/-- A tag with what its percent signs stand for: each of them, with the two hexadecimal digits
behind it, for a byte, and those in a row for text in UTF-8. `bytes` are those of the row so far. -/
def percentDecoded (bytes : List UInt8) : List Char → Option (List Char)
  | '%' :: high :: low :: rest => do
    percentDecoded (bytes ++ [UInt8.ofNat (← Text.ofHex? [high, low])]) rest
  | c :: rest => do
    if c = '%' then none
    else return (← (Text.decode bytes).toOption) ++ c :: (← percentDecoded [] rest)
  | [] => (Text.decode bytes).toOption

/-- The part of a tag behind its handle; it may not be empty. -/
def tagSuffix (p : Place) : Except Fault (String × Place) :=
  let (suffix, behind) := p.span isTagChar
  match if suffix.isEmpty then none else percentDecoded [] suffix with
  | some text => .ok (String.ofList text, behind)
  | none => .error (.form .tag)

/-- A handle: letters, digits, hyphens and underscores between two exclamation marks. -/
def tagHandle (p : Place) : Except Fault (String × Place) :=
  let (word, behind) := p.next.span fun c => c.isAlphanum || c == '-' || c == '_'
  if behind.peek = '!' then .ok ("!" ++ String.ofList word ++ "!", behind.next)
  else .error (.form .tag)

/-- The tag that begins here and the place behind it: in full between angle brackets, a short
handle alone, or a suffix with the short handle or with one in its place. A blank must follow. -/
def tag (p : Place) : Except Fault (Token × Place) := do
  let isDouble := p.peekAt 1 == '!'
  let short := if isDouble then "!!" else "!"
  let mark := if isDouble then p.next else p
  let c := mark.peekAt 1
  let (found, behind) ←
    if c = '<' then do
      let (suffix, behind) ← (mark.advance 2).tagSuffix
      if behind.peek = '>' then pure (Token.tag none suffix, behind.next)
      else .error (.form .tag)
    else if isGap c then pure (Token.tag none short, mark.next)
    else do
      let word := mark.next.rest.takeWhile fun c => !(c == ' ' || isBreak c)
      let (handle, behind) ←
        if word.contains '!' then mark.tagHandle else pure (short, mark.next)
      let (suffix, behind) ← behind.tagSuffix
      pure (Token.tag (some handle) suffix, behind)
  if behind.peek = ' ' ∨ isEnd behind.peek then .ok (found, behind)
  else .error (.form .tag)

end Place

end Stencil.Yaml
