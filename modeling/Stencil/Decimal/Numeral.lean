import Stencil.Decimal.Binary64
import Stencil.Text.Numeral

/-!
# Reading decimals

* `decimal?`: the coefficient and the exponent of a decimal number;
* `Binary64.ofText?`: the number that a text stands for.
-/

namespace Stencil

namespace Decimal

def ofDigits (cs : List Char) : Nat := cs.foldl (fun n c => 10 * n + (c.toNat - 0x30)) 0

/-- The mark of an exponent, perhaps a sign, and digits; where nothing is left the exponent is
zero. -/
def exponent? (cs : List Char) : Option Int :=
  match cs with
  | [] => some 0
  | c :: behind =>
    let (negative, digits) := Text.splitSign behind
    if (c = 'e' ∨ c = 'E') ∧ !digits.isEmpty ∧ digits.all Char.isDigit then
      some (Binary64.signed negative (ofDigits digits))
    else none

/-- A decimal number: digits with perhaps a point among them, and perhaps an exponent. The answer
is a coefficient and the exponent of ten that goes with it. -/
def decimal? (cs : List Char) : Option (Nat × Int) :=
  let whole := cs.takeWhile Char.isDigit
  let behind := cs.dropWhile Char.isDigit
  let (fraction, rest) :=
    match behind with
    | '.' :: more => (more.takeWhile Char.isDigit, more.dropWhile Char.isDigit)
    | behind => ([], behind)
  if whole.isEmpty ∧ fraction.isEmpty then none
  else (exponent? rest).map fun e => (ofDigits (whole ++ fraction), e - fraction.length)

end Decimal

namespace Binary64

/-- The number of a text: a decimal, or a word for what is no decimal, in either case of letters,
with perhaps a sign before it and blanks around it. -/
def ofText? (cs : List Char) : Option Binary64 :=
  let (negative, body) := Text.splitSign (Text.numeral cs)
  let word := String.ofList (body.map Char.toLower)
  if word = "inf" ∨ word = "infinity" then some (infinity negative)
  else if word = "nan" then some nan
  else (Decimal.decimal? body).map fun (coefficient, e) => ofDecimal negative coefficient e

end Binary64

end Stencil
