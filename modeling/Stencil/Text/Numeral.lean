import Stencil.Text.Blank
import Stencil.Text.Digit
import Stencil.Text.Hex

/-!
# Numerals

* `numeral`: a text that stands for a number, in ASCII where it can be, without its padding;
* `splitSign`: whether a minus stands before a text, and the text behind its sign;
* `integer?`: the integer that a text stands for in a base.
-/

namespace Stencil.Text

/-- A digit of any script becomes an ASCII one, and a blank beyond ASCII becomes a space. -/
def asciiChar (c : Char) : Char :=
  if c.toNat < 0x80 then c
  else if isBlank c then ' '
  else
    match digitValue? c with
    | some d => Char.ofNat (0x30 + d)
    | none => c

/-- Blanks that may pad a number, of which the information separators are none. -/
def isPadding (c : Char) : Bool := c == ' ' || ('\t' ≤ c && c ≤ '\r')

def numeral (cs : List Char) : List Char :=
  (((cs.map asciiChar).dropWhile isPadding).reverse.dropWhile isPadding).reverse

def splitSign : List Char → Bool × List Char
  | c :: rest => if c = '+' ∨ c = '-' then (c = '-', rest) else (false, c :: rest)
  | [] => (false, [])

/-- The letter behind a zero that announces a base. -/
def baseMark? (base : Nat) : Option Char :=
  match base with
  | 2 => some 'b'
  | 8 => some 'o'
  | 16 => some 'x'
  | _ => none

def withoutMark (base : Nat) (cs : List Char) : List Char :=
  match cs with
  | '0' :: c :: rest => if baseMark? base = some c.toLower then rest else cs
  | cs => cs

def ofDigits? (base : Nat) (cs : List Char) : Option Nat :=
  if cs.isEmpty then none
  else
    cs.foldlM
      (fun n c =>
        match hexValue? c with
        | some d => if d < base then some (base * n + d) else none
        | none => none)
      0

/-- The integer of a text: digits of the base, with perhaps a sign and the mark of the base before
them and blanks around them. -/
def integer? (base : Nat) (cs : List Char) : Option Int :=
  let (negative, digits) := splitSign (numeral cs)
  (ofDigits? base (withoutMark base digits)).map fun n => if negative then -n else n

end Stencil.Text
