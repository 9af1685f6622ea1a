import Mathlib.Algebra.Field.Rat
import Mathlib.Tactic.NormNum.Basic
import RecordRules.Number.Decimal
import RecordRules.Proofs.Number.Whole

/-!
# Decimals are rounded once

The absolute value of a decimal is a rational number (`Decimal.absValue`), and the binary64
number of the decimal is the one nearest to it, whatever quotient it is written as
(`Decimal.toBinary64_eq_ofRatio`).

This would follow from the definition at once, did that not cut the powers of ten. From 10⁴⁰⁰ on
a number is infinite anyway (`Binary64.roundedMagnitude_eq_infinite`), and where the divisor is
cut the quotient is less than half a unit (`Binary64.roundedMagnitude_eq_zero`).
-/

namespace RecordRules

namespace Binary64

/-- **Numbers from 10⁴⁰⁰ on** are rounded to infinity. -/
theorem roundedMagnitude_eq_infinite {num : ℕ} (h : 10 ^ 400 ≤ num) :
    roundedMagnitude num 1 = infiniteMagnitude := by
  have hleast : roundedMagnitude (10 ^ 400) 1 = infiniteMagnitude := by decide +kernel
  exact Nat.le_antisymm (roundedMagnitude_le num 1) (hleast ▸ roundedMagnitude_mono 1 h)

end Binary64

namespace Decimal

open Binary64

/-- **The absolute value of the decimal**, rounded nowhere. -/
def absValue (d : Decimal) : ℚ := d.significand * 10 ^ d.exponent

/-- Where a power of ten is cut the number is infinite, or zero. -/
theorem roundedMagnitude_cut (significand e : ℕ) :
    roundedMagnitude (significand * 10 ^ min e 400) 1
      = roundedMagnitude (significand * 10 ^ e) 1 := by
  rcases Nat.le_total e 400 with h | h
  · rw [min_eq_left h]
  · rw [min_eq_right h]
    rcases Nat.eq_zero_or_pos significand with rfl | hpos
    · rw [Nat.zero_mul, Nat.zero_mul]
    · have hpow : 10 ^ 400 ≤ 10 ^ e := by
        rw [Nat.pow_le_pow_iff_right (by decide)]
        exact h
      have hcut : 10 ^ 400 ≤ significand * 10 ^ 400 := Nat.le_mul_of_pos_left (10 ^ 400) hpos
      have hwhole : 10 ^ e ≤ significand * 10 ^ e := Nat.le_mul_of_pos_left (10 ^ e) hpos
      rw [roundedMagnitude_eq_infinite hcut, roundedMagnitude_eq_infinite (hpow.trans hwhole)]

/-- A divisor that is cut is too large for anything but zero. -/
theorem two_mul_units_lt (significand : ℕ) :
    2 * (significand * unitsInOne) < 10 ^ (400 + Nat.log2 significand) := by
  have hsignificand : significand < 2 ^ (Nat.log2 significand + 1) := Nat.lt_log2_self
  have hconstant : 2 * 2 * unitsInOne < 10 ^ 400 := by decide +kernel
  calc 2 * (significand * unitsInOne)
      ≤ 2 * (2 ^ (Nat.log2 significand + 1) * unitsInOne) :=
        Nat.mul_le_mul_left 2 (Nat.mul_le_mul_right _ hsignificand.le)
    _ = 2 * 2 * unitsInOne * 2 ^ Nat.log2 significand := by rw [Nat.pow_succ]; ring
    _ < 10 ^ 400 * 2 ^ Nat.log2 significand :=
        Nat.mul_lt_mul_of_pos_right hconstant (Nat.two_pow_pos _)
    _ ≤ 10 ^ 400 * 10 ^ Nat.log2 significand :=
        Nat.mul_le_mul_left _ (Nat.pow_le_pow_left (by decide) _)
    _ = 10 ^ (400 + Nat.log2 significand) := by rw [Nat.pow_add]

/-- Where a divisor is cut the number is zero. -/
theorem roundedMagnitude_div_cut (significand e : ℕ) :
    roundedMagnitude significand (10 ^ min e (400 + Nat.log2 significand))
      = roundedMagnitude significand (10 ^ e) := by
  rcases Nat.le_total e (400 + Nat.log2 significand) with h | h
  · rw [min_eq_left h]
  · have hlt := two_mul_units_lt significand
    have hpow : 10 ^ (400 + Nat.log2 significand) ≤ 10 ^ e := Nat.pow_le_pow_right (by decide) h
    rw [min_eq_right h, roundedMagnitude_eq_zero hlt, roundedMagnitude_eq_zero (hlt.trans_le hpow)]

/-- **A decimal is rounded once**: its number is the one nearest to any quotient that has its
value. -/
theorem toBinary64_eq_ofRatio {d : Decimal} {num den : ℕ} (hden : 0 < den)
    (h : d.absValue = num / den) : d.toBinary64 = .ofRatio d.negative num den := by
  obtain ⟨negative, significand, exponent⟩ := d
  have hden' : (den : ℚ) ≠ 0 := Nat.cast_ne_zero.mpr hden.ne'
  cases exponent with
  | ofNat e =>
    have hvalue : significand * 10 ^ e * den = num * 1 := by
      rw [absValue, Int.ofNat_eq_natCast, zpow_natCast, eq_div_iff hden'] at h
      rw [Nat.mul_one]
      exact_mod_cast h
    refine ofRatio_of_magnitude_eq ((roundedMagnitude_cut significand e).trans ?_)
    exact roundedMagnitude_congr Nat.one_pos hden hvalue
  | negSucc e =>
    have hvalue : significand * den = num * 10 ^ (e + 1) := by
      have hten : ((10 : ℚ) ^ (e + 1)) ≠ 0 := pow_ne_zero _ (by norm_num)
      rw [absValue, zpow_negSucc, ← div_eq_mul_inv, div_eq_div_iff hten hden'] at h
      exact_mod_cast h
    refine ofRatio_of_magnitude_eq ((roundedMagnitude_div_cut significand (e + 1)).trans ?_)
    exact roundedMagnitude_congr (Nat.pow_pos (by decide)) hden hvalue

end Decimal

end RecordRules
