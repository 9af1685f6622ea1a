import RecordRules.Proofs.Number.Rounding

/-!
# Whole numbers

A whole number is **exact** if it is a binary64 number, so that nothing is lost when it is
rounded to one (`Binary64.Exact`). All numbers of 53 bits are, and so are their products with
powers of two (`Binary64.exact_of_eq`). Products and quotients of exact numbers are rounded
once, when they are formed (`Binary64.mul_ofNat`, `Binary64.div_ofNat`).

Rounding an integer keeps the order (`Binary64.rank_ofInt_mono`). Up to 2⁵³ it keeps integers
apart, too (`Binary64.rank_ofInt_lt_iff`); from there on neighbours may become the same number.
-/

namespace RecordRules.Binary64

variable {negative : Bool} {num den num' den' : ℕ}

/-- A sign and a magnitude are all that there is to a number. -/
theorem ofRatio_of_magnitude_eq (h : roundedMagnitude num den = roundedMagnitude num' den') :
    ofRatio negative num den = ofRatio negative num' den' := by
  rw [← rank_inj, rank, rank, magnitude_ofRatio, magnitude_ofRatio, negative_ofRatio,
    negative_ofRatio, h]

/-- The quotient alone matters to the number. -/
theorem ofRatio_congr (hden : 0 < den) (hden' : 0 < den') (h : num * den' = num' * den) :
    ofRatio negative num den = ofRatio negative num' den' :=
  ofRatio_of_magnitude_eq (roundedMagnitude_congr hden hden' h)

/-- A number or an infinity is its own rounding. -/
theorem ofRatio_units {x : Binary64} (h : x.magnitude ≤ infiniteMagnitude) :
    ofRatio x.negative x.units unitsInOne = x := by
  have hmagnitude : roundedMagnitude x.units unitsInOne = x.magnitude :=
    roundedMagnitude_of_eq unitsInOne_pos h (by rw [units])
  rw [← rank_inj, rank, rank, magnitude_ofRatio, negative_ofRatio, hmagnitude]

/-- Zero is rounded to zero. -/
theorem ofRatio_zero (negative : Bool) (den : ℕ) : ofRatio negative 0 den = zero negative := by
  rw [← rank_inj, rank, rank, negative_ofRatio, magnitude_ofRatio, roundedMagnitude_zero]
  rfl

/-! ## Exact numbers -/

/-- **The whole number is a binary64 number**: it has as many units when it is rounded. -/
def Exact (n : ℕ) : Prop := (ofNat n).units = n * unitsInOne

instance (n : ℕ) : Decidable (Exact n) := inferInstanceAs (Decidable (_ = _))

/-- **Numbers of 53 bits are exact**, and so are their products with powers of two, unless they
are too large. -/
theorem exact_of_eq {n k shift : ℕ} (hk : k ≤ 2 * exponentWeight) (hshift : shift ≤ 971)
    (h : n = k * 2 ^ shift) : Exact n := by
  obtain ⟨m, hm⟩ := exists_unitsOf_eq (shift + 1074) hk
  have hscaled : n * unitsInOne = unitsOf m * 1 := by
    rw [hm, h, unitsInOne_eq, Nat.mul_assoc, ← Nat.pow_add, Nat.mul_one]
  have hle := le_infiniteMagnitude_of_unitsOf_eq hk (by omega) hm
  rw [Exact, hscaled, Nat.mul_one]
  show unitsOf (roundedMagnitude n 1) = unitsOf m
  rw [roundedMagnitude_of_eq Nat.one_pos hle hscaled]

theorem exact_of_le {n : ℕ} (h : n ≤ 2 * exponentWeight) : Exact n :=
  exact_of_eq h (Nat.zero_le 971) (Nat.mul_one n).symm

/-- **Powers of ten are exact** up to the twenty-second. -/
theorem exact_pow_ten {power : ℕ} (h : power ≤ 22) : Exact (10 ^ power) := by
  have hfive : 5 ^ power ≤ 2 * exponentWeight :=
    (Nat.pow_le_pow_right (by decide) h).trans (by decide : 5 ^ 22 ≤ 2 * exponentWeight)
  have hten : 10 ^ power = 5 ^ power * 2 ^ power := Nat.mul_pow 5 2 power
  exact exact_of_eq hfive (by omega) hten

/-- **The product of exact numbers** is rounded when it is formed, and not before. -/
theorem mul_ofNat {a b : ℕ} (ha : Exact a) (hb : Exact b) :
    (ofNat a).mul (ofNat b) = ofNat (a * b) := by
  have hscaled : a * unitsInOne * (b * unitsInOne) = a * b * (unitsInOne * unitsInOne) := by ring
  rw [mul, ha, hb, hscaled, ofNat, ofNat, ofNat]
  refine ofRatio_congr (Nat.mul_pos unitsInOne_pos unitsInOne_pos) Nat.one_pos ?_
  rw [Nat.mul_one]

/-- Nothing happens to a number that is multiplied by one. -/
theorem mul_ofNat_one (a : ℕ) : (ofNat a).mul (ofNat 1) = ofNat a := by
  have hone : Exact 1 := exact_of_le (by decide)
  have hself : ofRatio false (ofNat a).units unitsInOne = ofNat a :=
    ofRatio_units (x := ofNat a) (roundedMagnitude_le a 1)
  have hsign : ((ofNat a).negative != (ofNat 1).negative) = false := rfl
  rw [mul, hone, Nat.one_mul, hsign]
  refine (ofRatio_congr (Nat.mul_pos unitsInOne_pos unitsInOne_pos) unitsInOne_pos ?_).trans hself
  rw [Nat.mul_assoc]

/-- **The quotient of exact numbers** is rounded when it is formed, and not before. -/
theorem div_ofNat {a b : ℕ} (ha : Exact a) (hb : Exact b) (hpos : 0 < b) :
    (ofNat a).div (ofNat b) = ofRatio false a b := by
  have hsign : ((ofNat a).negative != (ofNat b).negative) = false := rfl
  rw [div, ha, hb, hsign]
  refine ofRatio_congr (Nat.mul_pos hpos unitsInOne_pos) hpos ?_
  rw [Nat.mul_assoc, Nat.mul_comm unitsInOne]

/-- Zero has no units. -/
theorem units_ofNat_zero : (ofNat 0).units = 0 := by
  have hexact : (ofNat 0).units = 0 * unitsInOne := exact_of_le (Nat.zero_le _)
  rwa [Nat.zero_mul] at hexact

/-- Zero stays zero when it is multiplied. -/
theorem mul_ofNat_zero (b : ℕ) : (ofNat 0).mul (ofNat b) = zero false := by
  have hsign : ((ofNat 0).negative != (ofNat b).negative) = false := rfl
  rw [mul, units_ofNat_zero, Nat.zero_mul, hsign, ofRatio_zero]

/-- Zero stays zero when it is divided. -/
theorem div_ofNat_zero (b : ℕ) : (ofNat 0).div (ofNat b) = zero false := by
  have hsign : ((ofNat 0).negative != (ofNat b).negative) = false := rfl
  rw [div, units_ofNat_zero, hsign, ofRatio_zero]

/-! ## The order of integers -/

/-- An integer is rounded away from its sign. -/
theorem rank_ofInt (i : ℤ) :
    (ofInt i).rank
      = if i < 0 then -1 - (roundedMagnitude i.natAbs 1 : ℤ) else roundedMagnitude i.natAbs 1 := by
  rw [rank, ofInt, negative_ofRatio, magnitude_ofRatio]
  simp only [decide_eq_true_eq]

/-- **Rounding integers keeps their order.** -/
theorem rank_ofInt_mono {i j : ℤ} (h : i ≤ j) : (ofInt i).rank ≤ (ofInt j).rank := by
  rw [rank_ofInt, rank_ofInt]
  rcases lt_or_ge i 0 with hi | hi
  · rcases lt_or_ge j 0 with hj | hj
    · have hmono := roundedMagnitude_mono 1 (by omega : j.natAbs ≤ i.natAbs)
      rw [if_pos hi, if_pos hj]
      omega
    · rw [if_pos hi, if_neg hj.not_gt]
      omega
  · have hmono := roundedMagnitude_mono 1 (by omega : i.natAbs ≤ j.natAbs)
    rw [if_neg hi.not_gt, if_neg (hi.trans h).not_gt]
    omega

/-- Exact numbers are kept apart. -/
theorem roundedMagnitude_lt_of_exact {m n : ℕ} (hm : Exact m) (hn : Exact n) (h : m < n) :
    roundedMagnitude m 1 < roundedMagnitude n 1 := by
  rw [← unitsOf_strictMono.lt_iff_lt]
  calc unitsOf (roundedMagnitude m 1) = m * unitsInOne := hm
    _ < n * unitsInOne := Nat.mul_lt_mul_of_pos_right h unitsInOne_pos
    _ = unitsOf (roundedMagnitude n 1) := hn.symm

/-- Exact integers stay in their order. -/
theorem rank_ofInt_lt {i j : ℤ} (hi : Exact i.natAbs) (hj : Exact j.natAbs) (h : i < j) :
    (ofInt i).rank < (ofInt j).rank := by
  rw [rank_ofInt, rank_ofInt]
  rcases lt_or_ge i 0 with hneg | hnonneg
  · rcases lt_or_ge j 0 with hneg' | hnonneg'
    · have hlt := roundedMagnitude_lt_of_exact hj hi (by omega)
      rw [if_pos hneg, if_pos hneg']
      omega
    · rw [if_pos hneg, if_neg hnonneg'.not_gt]
      omega
  · have hlt := roundedMagnitude_lt_of_exact hi hj (by omega)
    rw [if_neg hnonneg.not_gt, if_neg (hnonneg.trans h.le).not_gt]
    omega

/-- **Rounding keeps exact integers apart.** -/
theorem rank_ofInt_lt_iff {i j : ℤ} (hi : Exact i.natAbs) (hj : Exact j.natAbs) :
    (ofInt i).rank < (ofInt j).rank ↔ i < j := by
  refine ⟨fun h => ?_, rank_ofInt_lt hi hj⟩
  by_contra hle
  exact h.not_ge (rank_ofInt_mono (not_lt.mp hle))

end RecordRules.Binary64
