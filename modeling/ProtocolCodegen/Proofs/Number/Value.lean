import Mathlib
import ProtocolCodegen.Number.Binary64

/-!
# What numbers stand for

The rational number for which a floating-point number stands, and when it is whole.
-/

namespace ProtocolCodegen.Binary64

/-- The rational number for which a finite number stands. -/
def value? : Binary64 → Option ℚ
  | .finite negative significand exponent =>
      some ((if negative then -1 else 1) * (significand * (2 : ℚ) ^ exponent))
  | .nan | .infinite _ => none

theorem whole_quotient_iff {numerator denominator : Nat} (positive : 0 < denominator)
    {quotient : ℤ} :
    (numerator % denominator = 0 ∧ ((numerator / denominator : Nat) : ℤ) = quotient) ↔
      (numerator : ℤ) = quotient * denominator := by
  constructor
  · rintro ⟨divides, rfl⟩
    exact_mod_cast (Nat.div_mul_cancel (Nat.dvd_of_mod_eq_zero divides)).symm
  · intro product
    have divides : (denominator : ℤ) ∣ numerator := ⟨quotient, by rw [product, mul_comm]⟩
    refine ⟨Nat.mod_eq_zero_of_dvd (Int.natCast_dvd_natCast.mp divides), ?_⟩
    rw [Int.natCast_div, product, Int.mul_ediv_cancel _ (by omega)]

theorem mul_two_zpow_neg_eq_iff {significand power : Nat} {whole : ℤ} :
    (significand : ℚ) * (2 : ℚ) ^ (-(power : ℤ)) = whole ↔
      (significand : ℤ) = whole * (2 ^ power : Nat) := by
  have positive : (2 : ℚ) ^ power ≠ 0 := by positivity
  rw [zpow_neg, zpow_natCast, ← div_eq_mul_inv, div_eq_iff positive]
  exact_mod_cast Iff.rfl

/-- A number is read as an integer if and only if it stands for that integer. -/
theorem toInt?_eq_some_iff {number : Binary64} {whole : ℤ} :
    number.toInt? = some whole ↔ number.value? = some (whole : ℚ) := by
  cases number with
  | nan => simp [toInt?, value?]
  | infinite negative => simp [toInt?, value?]
  | finite negative significand exponent =>
      rw [value?, Option.some.injEq, toInt?]
      split
      · rename_i nonnegative
        obtain ⟨power, rfl⟩ := Int.eq_ofNat_of_zero_le nonnegative
        rw [Option.some.injEq, Int.toNat_natCast, zpow_natCast, ← @Int.cast_inj ℚ]
        cases negative <;> simp
      · rename_i below
        obtain ⟨power, rfl⟩ : ∃ power : Nat, exponent = -(power : ℤ) :=
          ⟨(-exponent).toNat, by omega⟩
        have positive : 0 < 2 ^ power := Nat.two_pow_pos power
        simp only [neg_neg, Int.toNat_natCast, Nat.pow_eq, Option.ite_none_right_eq_some,
          Option.some.injEq]
        cases negative with
        | false =>
            simp only [Bool.false_eq_true, if_false, one_mul, mul_two_zpow_neg_eq_iff,
              whole_quotient_iff positive]
        | true =>
            simp only [if_true, neg_one_mul, neg_eq_iff_eq_neg, ← Int.cast_neg,
              mul_two_zpow_neg_eq_iff, whole_quotient_iff positive]

end ProtocolCodegen.Binary64
