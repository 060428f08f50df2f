import Stencil.Decimal.Shortest

/-!
# Decimal notation

* `Layout`: the decisions of a decimal notation;
* `Layout.write`: a binary64 number in that notation, with the fewest digits that identify it.
-/

namespace Stencil.Decimal

structure Layout where
  /-- the least exponent of the leading digit written positionally -/
  least : Int
  /-- the greatest such exponent -/
  greatest : Int
  /-- what follows the point of a number without a fraction -/
  whole : String
  /-- the mark before the exponent -/
  mark : String
  /-- the least number of digits of the exponent -/
  width : Nat
  nan : String
  infinity : String
  deriving Repr

/-- The number `0.d₁d₂…dₙ · 10 ^ (lead + 1)` without an exponent. -/
def Layout.positional (l : Layout) (digits : String) (lead : Int) : String :=
  match lead with
  | .negSucc k => "0." ++ String.ofList (List.replicate k '0') ++ digits
  | .ofNat k =>
    let padded := digits.toList ++ List.replicate (k + 1 - digits.length) '0'
    let fraction := padded.drop (k + 1)
    let tail := if fraction.isEmpty then l.whole else "." ++ String.ofList fraction
    String.ofList (padded.take (k + 1)) ++ tail

def Layout.scientific (l : Layout) (digits : String) (lead : Int) : String :=
  let fraction := digits.toList.drop 1
  let point := if fraction.isEmpty then "" else "."
  let exponent := toString lead.natAbs
  let padding := String.ofList (List.replicate (l.width - exponent.length) '0')
  let sign := if lead < 0 then "-" else "+"
  String.ofList (digits.toList.take 1) ++ point ++ String.ofList fraction ++ l.mark ++ sign ++
    padding ++ exponent

def Layout.place (l : Layout) (d : Scaled) : String :=
  let all := Nat.toDigits 10 d.coefficient
  let digits := String.ofList (all.take 1 ++ ((all.drop 1).reverse.dropWhile (· == '0')).reverse)
  let lead := d.exponent + all.length - 1
  if l.least ≤ lead ∧ lead ≤ l.greatest then l.positional digits lead else l.scientific digits lead

/-- A number in the notation. Zero is positional and keeps its sign. -/
def Layout.write (l : Layout) (x : Binary64) : String :=
  let sign (negative : Bool) : String := if negative then "-" else ""
  match x.shape with
  | .nan => l.nan
  | .infinite negative => sign negative ++ l.infinity
  | .finite negative m q =>
    sign negative ++ if m = 0 then l.positional "0" 0 else l.place (shortest m q)

end Stencil.Decimal
