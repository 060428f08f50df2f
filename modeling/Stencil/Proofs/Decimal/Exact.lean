import Mathlib.Algebra.Order.Field.Rat
import Mathlib.Data.Int.Cast.Lemmas
import Mathlib.Tactic.FieldSimp
import Mathlib.Tactic.Linarith
import Mathlib.Tactic.NormNum
import Mathlib.Tactic.Positivity
import Mathlib.Tactic.Ring
import Stencil.Decimal.Binary64

/-!
# Exact values of binary64 numbers

* `Binary64.value?`: the rational number that 64 bits stand for, by the fields of the format;
* `Binary64.value?_eq_shape`: the same by the significand and the exponent;
* `Binary64.integer?_eq_some_iff`: a number is told to be an integer exactly if its value is that
  integer.
-/

namespace Stencil.Binary64

/-- The highest bit is the sign, the next eleven are the exponent with a bias of 1023, and the other
52 are the fraction. The least exponent has no hidden bit, and the greatest has no numbers. -/
def value? (x : Binary64) : Option ℚ :=
  let sign : ℕ := x.bits.toNat / 2 ^ 63
  let exponent : ℕ := x.bits.toNat / 2 ^ 52 % 2 ^ 11
  let fraction : ℕ := x.bits.toNat % 2 ^ 52
  if exponent = 2047 then none
  else if exponent = 0 then some ((-1) ^ sign * (fraction / 2 ^ 52) * 2 ^ (-1022 : ℤ))
  else some ((-1) ^ sign * (1 + fraction / 2 ^ 52) * 2 ^ (exponent - 1023 : ℤ))

/-- A sign as a factor. -/
def factor (negative : Bool) : ℤ := if negative then -1 else 1

theorem sign_eq (x : Binary64) :
    (-1 : ℚ) ^ (x.bits.toNat / 2 ^ 63) = factor (decide (Nat.pow 2 63 ≤ x.bits.toNat)) := by
  have bound : x.bits.toNat < 2 ^ 64 := x.bits.toNat_lt
  have power : Nat.pow 2 63 = 9223372036854775808 := rfl
  rw [power]
  by_cases negative : 9223372036854775808 ≤ x.bits.toNat
  · have one : x.bits.toNat / 2 ^ 63 = 1 := by omega
    rw [one]
    simp [negative, factor]
  · have zero : x.bits.toNat / 2 ^ 63 = 0 := by omega
    rw [zero]
    simp [negative, factor]

/-- The fraction counts units of the last place, which is 52 places behind the point. -/
theorem scale_eq (e : ℤ) : (2 : ℚ) ^ e = 2 ^ 52 * 2 ^ (e - 52) := by
  rw [← zpow_natCast, ← zpow_add₀ two_ne_zero]
  congr 1
  push_cast
  ring

theorem value?_eq_shape (x : Binary64) :
    x.value? =
      match x.shape with
      | .finite negative m q => some (factor negative * m * 2 ^ q)
      | _ => none := by
  have places : Nat.pow 2 52 = 2 ^ 52 := rfl
  have width : Nat.pow 2 11 = 2 ^ 11 := rfl
  unfold value? shape
  dsimp only
  rw [sign_eq, places, width]
  generalize decide (Nat.pow 2 63 ≤ x.bits.toNat) = negative
  generalize x.bits.toNat / 2 ^ 52 % 2 ^ 11 = exponent
  generalize x.bits.toNat % 2 ^ 52 = fraction
  by_cases greatest : exponent = 2047
  · by_cases infinite : fraction = 0 <;> simp [greatest, infinite]
  · rw [if_neg greatest, if_neg greatest]
    by_cases least : exponent = 0
    · have last : (-1022 - 52 : ℤ) = -1074 := by norm_num
      rw [if_pos least, if_pos least, scale_eq (-1022), last]
      congr 1
      ring
    · have last : (exponent - 1023 - 52 : ℤ) = exponent - 1075 := by ring
      rw [if_neg least, if_neg least, scale_eq (exponent - 1023), last]
      congr 1
      push_cast
      ring

/-- A multiple of a negative power of two is an integer exactly if the power divides it. -/
theorem scaled_eq_intCast_iff (negative : Bool) (m k : ℕ) (n : ℤ) :
    (factor negative * m * 2 ^ (-(k : ℤ)) : ℚ) = n ↔
      m % 2 ^ k = 0 ∧ factor negative * (m / 2 ^ k : ℕ) = n := by
  have positive : (2 : ℚ) ^ k ≠ 0 := by positivity
  have whole : (factor negative * m * 2 ^ (-(k : ℤ)) : ℚ) = n ↔
      factor negative * m = n * 2 ^ k := by
    rw [zpow_neg, zpow_natCast, ← div_eq_mul_inv, div_eq_iff positive]
    norm_cast
  rw [whole]
  have unit : factor negative * factor negative = 1 := by cases negative <;> rfl
  constructor
  · intro same
    have divides : (2 ^ k : ℕ) ∣ m := by
      refine Int.natCast_dvd_natCast.1 ⟨factor negative * n, ?_⟩
      push_cast
      calc (m : ℤ) = factor negative * (factor negative * m) := by rw [← mul_assoc, unit, one_mul]
        _ = 2 ^ k * (factor negative * n) := by rw [same]; ring
    obtain ⟨c, rfl⟩ := divides
    refine ⟨Nat.mul_mod_right .., ?_⟩
    rw [Nat.mul_div_cancel_left c (by positivity)]
    have nonzero : (2 : ℤ) ^ k ≠ 0 := by positivity
    apply mul_right_cancel₀ nonzero
    rw [← same]
    push_cast
    ring
  · rintro ⟨divides, rfl⟩
    obtain ⟨c, rfl⟩ := Nat.dvd_of_mod_eq_zero divides
    rw [Nat.mul_div_cancel_left c (by positivity)]
    push_cast
    ring

theorem signed_eq (negative : Bool) (n : ℤ) : signed negative n = factor negative * n := by
  cases negative <;> simp [signed, factor]

/-- A number is told to be an integer exactly if its value is that integer. -/
theorem integer?_eq_some_iff {x : Binary64} {n : ℤ} :
    x.integer? = some n ↔ x.value? = some (n : ℚ) := by
  rw [value?_eq_shape, integer?]
  have powers (k : ℕ) : Nat.pow 2 k = 2 ^ k := rfl
  cases x.shape with
  | nan => simp
  | infinite negative => simp
  | finite negative m q =>
    cases q with
    | ofNat k =>
      simp only [Option.some.injEq, signed_eq, powers, Int.ofNat_eq_natCast, zpow_natCast]
      rw [← Int.cast_inj (α := ℚ)]
      push_cast
      rw [mul_assoc]
    | negSucc k =>
      have exponent : Int.negSucc k = -((k + 1 : ℕ) : ℤ) := Int.negSucc_eq k
      simp only [Option.some.injEq, powers]
      rw [exponent, scaled_eq_intCast_iff]
      by_cases divides : m % 2 ^ (k + 1) = 0
      · simp [divides, signed_eq]
      · simp [divides]

end Stencil.Binary64
