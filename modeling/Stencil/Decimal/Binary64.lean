/-!
# Binary64 numbers

* `Binary64`: a double-precision number, as its 64 bits;
* `Binary64.shape`: what the bits stand for, finite numbers as `± m · 2 ^ q`;
* `Binary64.integer?`: the integer that a number is equal to, if it is one;
* `Binary64.ofDecimal`: the number nearest to a decimal one.
-/

namespace Stencil

structure Binary64 where
  bits : UInt64
  deriving DecidableEq, Repr

namespace Binary64

inductive Shape where
  | nan
  | infinite (negative : Bool)
  | finite (negative : Bool) (significand : Nat) (exponent : Int)
  deriving DecidableEq, Repr

/-- The sign is the highest bit, the exponent the next eleven. Exponent zero has no hidden bit, and
the greatest exponent stands for infinities and for what is not a number. -/
def shape (x : Binary64) : Shape :=
  let negative := decide (Nat.pow 2 63 ≤ x.bits.toNat)
  let exponent : Nat := x.bits.toNat / Nat.pow 2 52 % Nat.pow 2 11
  let fraction : Nat := x.bits.toNat % Nat.pow 2 52
  if exponent = 2047 then
    if fraction = 0 then .infinite negative else .nan
  else if exponent = 0 then .finite negative fraction (-1074)
  else .finite negative (Nat.pow 2 52 + fraction) (exponent - 1075)

def nan : Binary64 := ⟨0x7FF8000000000000⟩

def infinity (negative : Bool) : Binary64 :=
  ⟨if negative then 0xFFF0000000000000 else 0x7FF0000000000000⟩

def signed (negative : Bool) (n : Int) : Int := if negative then -n else n

/-- The integer that the number is equal to; both zeros are 0. -/
def integer? (x : Binary64) : Option Int :=
  match x.shape with
  | .finite negative m (.ofNat q) => some (signed negative (m * Nat.pow 2 q : Nat))
  | .finite negative m (.negSucc q) =>
    if m % Nat.pow 2 (q + 1) = 0 then some (signed negative (m / Nat.pow 2 (q + 1) : Nat))
    else none
  | _ => none

def isZero (x : Binary64) : Bool := x.integer? == some 0

/-- The quotient rounded to the nearest number, to the even one of two. -/
def roundDiv (num den : Nat) : Nat :=
  let q := num / den
  let twice := 2 * (num % den)
  if twice < den then q else if den < twice then q + 1 else q + q % 2

/-- The nearest number to the positive fraction `num / den`, to the even one of two. The unit in
the last place is chosen so that the significand has 53 bits, or is the least there is. -/
def ofFraction (negative : Bool) (num den : Nat) : Binary64 :=
  let guess : Int := (Nat.log2 num : Int) - Nat.log2 den - 52
  let fits (q : Int) : Bool :=
    Nat.pow 2 52 * den * Nat.pow 2 q.toNat ≤ num * Nat.pow 2 (-q).toNat
  let q := max (-1074) (if fits guess then guess else guess - 1)
  let m := roundDiv (num * Nat.pow 2 (-q).toNat) (den * Nat.pow 2 q.toNat)
  let magnitude :=
    if m < Nat.pow 2 52 then m else (q + 1075).toNat * Nat.pow 2 52 + (m - Nat.pow 2 52)
  if 0x7FF0000000000000 ≤ magnitude then infinity negative
  else ⟨UInt64.ofNat (magnitude + if negative then Nat.pow 2 63 else 0)⟩

/-- The number nearest to `± digits · 10 ^ exponent`. Beyond 400 decimal places on either side the
answer is an infinity or a zero, whatever the digits are. -/
def ofDecimal (negative : Bool) (digits : Nat) (exponent : Int) : Binary64 :=
  let zero : Binary64 := ⟨if negative then 0x8000000000000000 else 0⟩
  if digits = 0 then zero
  else
    let size := exponent + (Nat.toDigits 10 digits).length
    if 400 < size then infinity negative
    else if size < -400 then zero
    else ofFraction negative (digits * Nat.pow 10 exponent.toNat) (Nat.pow 10 (-exponent).toNat)

end Binary64

end Stencil
