import Stencil.Text.Hex
import Stencil.Text.Printable

/-!
# Quoted text

How texts and byte strings are shown inside messages.

* `quote`: a text between quotes on one printable line;
* `quoteBytes`: the same for bytes, after the letter `b`, in ASCII only.
-/

namespace Stencil.Text

/-- Single quotes enclose, unless the content has some and has no double quotes. -/
def enclosing (hasSingle hasDouble : Bool) : Char :=
  if hasSingle && !hasDouble then '"' else '\''

def escape? (mark c : Char) : Option (List Char) :=
  if c = mark ∨ c = '\\' then some ['\\', c]
  else if c = '\n' then some ['\\', 'n']
  else if c = '\r' then some ['\\', 'r']
  else if c = '\t' then some ['\\', 't']
  else none

/-- A character by its code point, in the shortest of the three widths. -/
def escapeCode (n : Nat) : List Char :=
  if n < 0x100 then '\\' :: 'x' :: hex 2 n
  else if n < 0x10000 then '\\' :: 'u' :: hex 4 n
  else '\\' :: 'U' :: hex 8 n

def quoteChar (mark c : Char) : List Char :=
  match escape? mark c with
  | some written => written
  | none => if isPrintable c then [c] else escapeCode c.toNat

/-- A text between quotes, with everything unprintable escaped. -/
def quote (s : String) : String :=
  let cs := s.toList
  let mark := enclosing (cs.contains '\'') (cs.contains '"')
  String.ofList (mark :: cs.flatMap (quoteChar mark) ++ [mark])

def quoteByte (mark : Char) (b : UInt8) : List Char :=
  let c := Char.ofNat b.toNat
  match escape? mark c with
  | some written => written
  | none => if 0x20 ≤ b ∧ b < 0x7F then [c] else escapeCode b.toNat

def quoteBytes (bytes : List UInt8) : String :=
  let mark := enclosing (bytes.contains 0x27) (bytes.contains 0x22)
  String.ofList ('b' :: mark :: bytes.flatMap (quoteByte mark) ++ [mark])

end Stencil.Text
