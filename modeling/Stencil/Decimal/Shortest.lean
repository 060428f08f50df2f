import Stencil.Decimal.Binary64

/-!
# Shortest decimals

* `Interval`: the reals that round to one binary64 number;
* `shortest`: the decimal with the fewest digits in that interval, of those the nearest to the
  number itself.
-/

namespace Stencil.Decimal

structure Scaled where
  coefficient : Nat
  exponent : Int
  deriving DecidableEq, Repr

/-- The number `value / unit` and the two bounds, over the same `unit`, of the reals that round to
it. A tie goes to the even significand, so the bounds belong to it exactly then. -/
structure Interval where
  low : Nat
  value : Nat
  high : Nat
  unit : Nat
  closed : Bool
  deriving DecidableEq, Repr

/-- Around `m · 2 ^ q` the bounds lie half a unit away, but a quarter below a power of two whose
lower neighbour is twice as near. -/
def Interval.around (m : Nat) (q : Int) : Interval :=
  let scale := Nat.pow 2 (q - 2).toNat
  let below := if m = Nat.pow 2 52 ∧ -1074 < q then 1 else 2
  { low := (4 * m - below) * scale, value := 4 * m * scale, high := (4 * m + 2) * scale,
    unit := Nat.pow 2 (2 - q).toNat, closed := m % 2 = 0 }

def Interval.contains (i : Interval) (c : Nat) (p : Int) : Bool :=
  let x := c * Nat.pow 10 p.toNat * i.unit
  let scale := Nat.pow 10 (-p).toNat
  if i.closed then i.low * scale ≤ x && x ≤ i.high * scale
  else i.low * scale < x && x < i.high * scale

def Interval.floor (i : Interval) (p : Int) : Nat :=
  i.value * Nat.pow 10 (-p).toNat / (i.unit * Nat.pow 10 p.toNat)

/-- The exponent of the leading decimal digit: at least `10 ^ -340` is assumed of the number. -/
def Interval.leading (i : Interval) : Int :=
  (Nat.toDigits 10 (i.value * Nat.pow 10 340 / i.unit)).length - 341

/-- Of the two multiples of `10 ^ p` next to the number, the nearer one that rounds to it; of two
equally near, the even one. -/
def Interval.nearest? (i : Interval) (p : Int) : Option Nat :=
  let c := i.floor p
  let twice := 2 * i.value * Nat.pow 10 (-p).toNat
  let middle := (2 * c + 1) * i.unit * Nat.pow 10 p.toNat
  let upper := if twice = middle then c % 2 == 1 else decide (middle < twice)
  match i.contains c p, i.contains (c + 1) p with
  | true, true => some (if upper then c + 1 else c)
  | true, false => some c
  | false, true => some (c + 1)
  | false, false => none

/-- Seventeen digits are always enough, and the exact floor stands in after them. -/
def shortest (m : Nat) (q : Int) : Scaled :=
  let i := Interval.around m q
  let position (n : Nat) : Int := i.leading - n
  let found? := (List.range 17).findSome? fun n =>
    (i.nearest? (position n)).map fun c => (⟨c, position n⟩ : Scaled)
  found?.getD ⟨i.floor (position 16), position 16⟩

end Stencil.Decimal
