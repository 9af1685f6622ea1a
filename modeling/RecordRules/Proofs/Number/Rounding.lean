import Mathlib.Order.Monotone.Basic
import Mathlib.Tactic.Ring
import RecordRules.Number.Binary64

/-!
# Magnitudes and rounding

A magnitude is either a fraction field alone, or a significand with a leading one that is
shifted by the exponent field (`Binary64.magnitude_cases`). Told apart so, the units of the
magnitudes are counted: a greater magnitude has more units (`Binary64.unitsOf_strictMono`), and
every number of 53 bits that is shifted by any number of places is among them
(`Binary64.exists_unitsOf_eq`).

Rounding a quotient to a magnitude does two things at once, it picks the shift and rounds the
shifted quotient to an integer. Three facts are all that is needed of it. The quotient alone
matters, and not how it is written (`Binary64.roundedMagnitude_congr`); a greater quotient is
never rounded to a smaller magnitude (`Binary64.roundedMagnitude_mono`); and a quotient that is
a magnitude already is rounded to that one (`Binary64.roundedMagnitude_of_eq`).
-/

namespace RecordRules.Binary64

/-! ## The units of magnitudes -/

theorem exponentWeight_pos : 0 < exponentWeight := by decide

theorem unitsInOne_eq : unitsInOne = 2 ^ 1074 := by decide +kernel

theorem unitsInOne_pos : 0 < unitsInOne := by decide +kernel

/-- **A magnitude** is a fraction alone, or it has a shift, and a leading one before the
fraction. -/
theorem magnitude_cases (m : ℕ) :
    m < exponentWeight
      ∨ ∃ shift f, f < exponentWeight ∧ m = (shift + 1) * exponentWeight + f := by
  rcases Nat.lt_or_ge m exponentWeight with h | h
  · exact .inl h
  · refine .inr ⟨m / exponentWeight - 1, m % exponentWeight, Nat.mod_lt _ exponentWeight_pos, ?_⟩
    have hquotient : 1 ≤ m / exponentWeight := Nat.div_pos h exponentWeight_pos
    rw [Nat.sub_add_cancel hquotient, Nat.mul_comm, Nat.div_add_mod]

/-- A fraction alone counts for itself. -/
theorem unitsOf_of_lt {m : ℕ} (h : m < exponentWeight) : unitsOf m = m := if_pos h

/-- A significand counts as often as its shift doubles it. -/
theorem unitsOf_shifted {shift f : ℕ} (hf : f < exponentWeight) :
    unitsOf ((shift + 1) * exponentWeight + f) = (exponentWeight + f) * 2 ^ shift := by
  have hle : exponentWeight ≤ (shift + 1) * exponentWeight + f := by
    rw [Nat.succ_mul]
    omega
  rw [unitsOf, if_neg (Nat.not_lt.mpr hle), Nat.mul_add_mod_self_right, Nat.mod_eq_of_lt hf,
    Nat.mul_comm (shift + 1), Nat.mul_add_div exponentWeight_pos, Nat.div_eq_of_lt hf]
  rfl

/-- **A greater magnitude has more units.** -/
theorem unitsOf_strictMono : StrictMono unitsOf := by
  refine strictMono_nat_of_lt_succ fun m => ?_
  rcases magnitude_cases m with h | ⟨shift, f, hf, rfl⟩
  · rcases Nat.lt_or_ge (m + 1) exponentWeight with hsucc | hsucc
    · rw [unitsOf_of_lt h, unitsOf_of_lt hsucc]
      exact Nat.lt_succ_self m
    · have hfirst : m + 1 = (0 + 1) * exponentWeight + 0 := by omega
      rw [unitsOf_of_lt h, hfirst, unitsOf_shifted exponentWeight_pos]
      omega
  · rcases Nat.lt_or_ge (f + 1) exponentWeight with hsucc | hsucc
    · rw [Nat.add_assoc, unitsOf_shifted hf, unitsOf_shifted hsucc]
      exact Nat.mul_lt_mul_of_pos_right (by omega) (Nat.two_pow_pos shift)
    · -- the fraction is full, and the next magnitude is the first with the next shift
      have hnext : (shift + 1) * exponentWeight + f + 1
          = (shift + 1 + 1) * exponentWeight + 0 := by
        rw [Nat.succ_mul (shift + 1)]
        omega
      rw [hnext, unitsOf_shifted hf, unitsOf_shifted exponentWeight_pos, Nat.pow_succ,
        Nat.mul_comm (2 ^ shift), ← Nat.mul_assoc]
      exact Nat.mul_lt_mul_of_pos_right (by omega) (Nat.two_pow_pos shift)

/-- **Numbers of 53 bits** are counted by magnitudes, whatever they are shifted by. -/
theorem exists_unitsOf_eq (shift : ℕ) {k : ℕ} (hk : k ≤ 2 * exponentWeight) :
    ∃ m, unitsOf m = k * 2 ^ shift := by
  induction shift generalizing k with
  | zero =>
    rcases Nat.lt_or_ge k exponentWeight with h | h
    · exact ⟨k, by rw [unitsOf_of_lt h, Nat.pow_zero, Nat.mul_one]⟩
    · rcases Nat.eq_or_lt_of_le hk with rfl | hlt
      · exact ⟨(1 + 1) * exponentWeight + 0, by
          rw [unitsOf_shifted exponentWeight_pos, Nat.add_zero, Nat.pow_zero]; omega⟩
      · refine ⟨(0 + 1) * exponentWeight + (k - exponentWeight), ?_⟩
        rw [unitsOf_shifted (by omega), Nat.add_sub_cancel' h]
  | succ shift ih =>
    rcases Nat.lt_or_ge k exponentWeight with h | h
    · obtain ⟨m, hm⟩ := ih (k := 2 * k) (by omega)
      exact ⟨m, by rw [hm, Nat.pow_succ]; ring⟩
    · rcases Nat.eq_or_lt_of_le hk with rfl | hlt
      · refine ⟨(shift + 2 + 1) * exponentWeight + 0, ?_⟩
        rw [unitsOf_shifted exponentWeight_pos, Nat.pow_succ, Nat.pow_succ]
        ring
      · refine ⟨(shift + 1 + 1) * exponentWeight + (k - exponentWeight), ?_⟩
        rw [unitsOf_shifted (by omega), Nat.add_sub_cancel' h]

/-- **Numbers of 53 bits are finite or infinite** up to the last shift but one. -/
theorem le_infiniteMagnitude_of_unitsOf_eq {m k shift : ℕ} (hk : k ≤ 2 * exponentWeight)
    (hshift : shift + 2 ≤ 2047) (h : unitsOf m = k * 2 ^ shift) : m ≤ infiniteMagnitude := by
  have hunits : unitsOf m ≤ unitsOf ((shift + 1 + 1) * exponentWeight + 0) := by
    rw [h, unitsOf_shifted exponentWeight_pos, Nat.add_zero, Nat.pow_succ', ← Nat.mul_assoc,
      Nat.mul_comm exponentWeight]
    exact Nat.mul_le_mul_right _ hk
  have hle := unitsOf_strictMono.le_iff_le.mp hunits
  have hshifted : (shift + 2) * exponentWeight ≤ 2047 * exponentWeight :=
    Nat.mul_le_mul_right exponentWeight hshift
  rw [Nat.add_zero] at hle
  exact hle.trans hshifted

/-! ## The nearest integer -/

section roundQuotient

variable {num num' den : ℕ}

/-- The nearest integer is one of the two next to the quotient. -/
theorem div_le_roundQuotient (num den : ℕ) : num / den ≤ roundQuotient num den := by
  unfold roundQuotient
  dsimp only
  split
  · exact Nat.le_refl _
  · split <;> omega

/-- The nearest integer is one of the two next to the quotient. -/
theorem roundQuotient_le (num den : ℕ) : roundQuotient num den ≤ num / den + 1 := by
  unfold roundQuotient
  dsimp only
  split
  · omega
  · split <;> omega

/-- A whole quotient is its own nearest integer. -/
theorem roundQuotient_mul (k : ℕ) (hden : 0 < den) : roundQuotient (k * den) den = k := by
  have hremainder : 2 * (k * den % den) < den := by rwa [Nat.mul_mod_left]
  unfold roundQuotient
  dsimp only
  rw [if_pos hremainder, Nat.mul_div_cancel k hden]

/-- **A greater quotient** has no smaller nearest integer. -/
theorem roundQuotient_mono (h : num ≤ num') :
    roundQuotient num den ≤ roundQuotient num' den := by
  rcases Nat.lt_or_ge (num / den) (num' / den) with hlt | hge
  · calc roundQuotient num den ≤ num / den + 1 := roundQuotient_le num den
      _ ≤ num' / den := hlt
      _ ≤ roundQuotient num' den := div_le_roundQuotient num' den
  · -- the same whole part, so that the remainders decide
    have hwhole : num / den = num' / den := Nat.le_antisymm (Nat.div_le_div_right h) hge
    have hremainder : num % den ≤ num' % den := by
      have hdiv := Nat.div_add_mod num den
      have hdiv' := Nat.div_add_mod num' den
      rw [hwhole] at hdiv
      omega
    unfold roundQuotient
    dsimp only
    rw [hwhole]
    split <;> split <;> (try split) <;> (try split) <;> omega

/-- The nearest integer depends on the quotient alone. -/
theorem roundQuotient_mul_mul {c : ℕ} (hc : 0 < c) (num den : ℕ) :
    roundQuotient (num * c) (den * c) = roundQuotient num den := by
  have hdouble : 2 * (num * c % (den * c)) = 2 * (num % den) * c := by
    rw [Nat.mul_mod_mul_right, Nat.mul_assoc]
  unfold roundQuotient
  dsimp only
  rw [hdouble, Nat.mul_div_mul_right _ _ hc]
  simp only [Nat.mul_lt_mul_right hc]

end roundQuotient

/-! ## The nearest magnitude -/

/-- How far a quotient of units has to be shifted for a significand to be left. -/
def shiftOf (quotient : ℕ) : ℕ := Nat.log2 quotient - 52

/-- **Rounding is shifting and rounding** to an integer. -/
theorem roundedMagnitude_eq (num den : ℕ) :
    roundedMagnitude num den
      = min (shiftOf (num * unitsInOne / den) * exponentWeight
          + roundQuotient (num * unitsInOne) (den * 2 ^ shiftOf (num * unitsInOne / den)))
        infiniteMagnitude := by
  rw [roundedMagnitude, ← Nat.pow_eq]
  rfl

/-- A significand has 53 bits at most. -/
theorem div_shiftOf_lt (num den : ℕ) :
    num / (den * 2 ^ shiftOf (num / den)) < 2 * exponentWeight := by
  rw [← Nat.div_div_eq_div_mul, Nat.div_lt_iff_lt_mul (Nat.two_pow_pos _)]
  calc num / den < 2 ^ (Nat.log2 (num / den) + 1) := Nat.lt_log2_self
    _ ≤ 2 ^ (53 + shiftOf (num / den)) :=
      Nat.pow_le_pow_right (by decide) (by unfold shiftOf; omega)
    _ = 2 * exponentWeight * 2 ^ shiftOf (num / den) := by rw [Nat.pow_add]; rfl

/-- A significand that was shifted has 53 bits. -/
theorem le_div_shiftOf {num den : ℕ} (h : 0 < shiftOf (num / den)) :
    exponentWeight ≤ num / (den * 2 ^ shiftOf (num / den)) := by
  have hne : num / den ≠ 0 := by
    intro hzero
    rw [hzero, shiftOf, Nat.log2_zero] at h
    omega
  rw [← Nat.div_div_eq_div_mul, Nat.le_div_iff_mul_le (Nat.two_pow_pos _)]
  calc exponentWeight * 2 ^ shiftOf (num / den)
      = 2 ^ (52 + shiftOf (num / den)) := by rw [Nat.pow_add]; rfl
    _ = 2 ^ Nat.log2 (num / den) := by
      unfold shiftOf at h ⊢
      rw [Nat.add_sub_cancel' (by omega)]
    _ ≤ num / den := Nat.log2_self_le hne

theorem shiftOf_mono {m n : ℕ} (h : m ≤ n) : shiftOf m ≤ shiftOf n := by
  rcases Nat.eq_zero_or_pos m with rfl | hm
  · rw [shiftOf, Nat.log2_zero]
    omega
  · have hlog : Nat.log2 m ≤ Nat.log2 n :=
      (Nat.le_log2 (by omega)).mpr ((Nat.log2_self_le (by omega)).trans h)
    exact Nat.sub_le_sub_right hlog 52

/-- **A greater quotient** is rounded to no smaller magnitude. -/
theorem roundedMagnitude_mono {num num' : ℕ} (den : ℕ) (h : num ≤ num') :
    roundedMagnitude num den ≤ roundedMagnitude num' den := by
  have hscaled : num * unitsInOne ≤ num' * unitsInOne := Nat.mul_le_mul_right _ h
  rw [roundedMagnitude_eq, roundedMagnitude_eq]
  refine min_le_min_right _ ?_
  generalize num * unitsInOne = a at hscaled ⊢
  generalize num' * unitsInOne = a' at hscaled ⊢
  have hshift : shiftOf (a / den) ≤ shiftOf (a' / den) :=
    shiftOf_mono (Nat.div_le_div_right hscaled)
  rcases Nat.eq_or_lt_of_le hshift with heq | hlt
  · rw [heq]
    exact Nat.add_le_add_left (roundQuotient_mono hscaled) _
  · -- the smaller one is rounded up to the first magnitude of the next shift at most
    have hhigh := (roundQuotient_le a (den * 2 ^ shiftOf (a / den))).trans (div_shiftOf_lt a den)
    have hlow := (le_div_shiftOf (Nat.zero_lt_of_lt hlt)).trans (div_le_roundQuotient a' _)
    calc shiftOf (a / den) * exponentWeight + roundQuotient a (den * 2 ^ shiftOf (a / den))
        ≤ shiftOf (a / den) * exponentWeight + 2 * exponentWeight := Nat.add_le_add_left hhigh _
      _ = (shiftOf (a / den) + 1) * exponentWeight + exponentWeight := by ring
      _ ≤ shiftOf (a' / den) * exponentWeight + exponentWeight :=
        Nat.add_le_add_right (Nat.mul_le_mul_right _ hlt) _
      _ ≤ _ := Nat.add_le_add_left hlow _

/-- The rounded magnitude is that of a number or of infinity. -/
theorem roundedMagnitude_le (num den : ℕ) : roundedMagnitude num den ≤ infiniteMagnitude :=
  min_le_right _ _

/-- **Less than half a unit** is rounded to zero. -/
theorem roundedMagnitude_eq_zero {num den : ℕ} (h : 2 * (num * unitsInOne) < den) :
    roundedMagnitude num den = 0 := by
  rw [roundedMagnitude_eq]
  generalize num * unitsInOne = scaled at h
  have hquotient : scaled / den = 0 := Nat.div_eq_of_lt (by omega)
  have hremainder : 2 * (scaled % den) < den := by rwa [Nat.mod_eq_of_lt (by omega)]
  have hround : roundQuotient scaled den = 0 := by
    unfold roundQuotient
    dsimp only
    rw [if_pos hremainder, hquotient]
  rw [hquotient, shiftOf, Nat.log2_zero, Nat.zero_sub, Nat.pow_zero, Nat.mul_one, hround,
    Nat.zero_mul, Nat.zero_add, Nat.zero_min]

/-- Zero is rounded to zero. -/
theorem roundedMagnitude_zero (den : ℕ) : roundedMagnitude 0 den = 0 := by
  rcases Nat.eq_zero_or_pos den with rfl | hden
  · decide +kernel
  · exact roundedMagnitude_eq_zero (by rwa [Nat.zero_mul])

theorem roundedMagnitude_mul_mul {c : ℕ} (hc : 0 < c) (num den : ℕ) :
    roundedMagnitude (num * c) (den * c) = roundedMagnitude num den := by
  have hscaled : num * c * unitsInOne = num * unitsInOne * c := Nat.mul_right_comm _ _ _
  rw [roundedMagnitude_eq, roundedMagnitude_eq, hscaled, Nat.mul_div_mul_right _ _ hc,
    Nat.mul_right_comm den, roundQuotient_mul_mul hc]

/-- **The quotient alone matters**, and not how it is written. -/
theorem roundedMagnitude_congr {num den num' den' : ℕ} (hden : 0 < den) (hden' : 0 < den')
    (h : num * den' = num' * den) : roundedMagnitude num den = roundedMagnitude num' den' := by
  rw [← roundedMagnitude_mul_mul hden', h, Nat.mul_comm den, roundedMagnitude_mul_mul hden]

/-- **A quotient that is a magnitude already** is rounded to that one. -/
theorem roundedMagnitude_of_eq {num den m : ℕ} (hden : 0 < den) (hm : m ≤ infiniteMagnitude)
    (h : num * unitsInOne = unitsOf m * den) : roundedMagnitude num den = m := by
  rw [roundedMagnitude_eq, h, Nat.mul_div_cancel _ hden]
  rcases magnitude_cases m with hlt | ⟨shift, f, hf, rfl⟩
  · have hshift : shiftOf m = 0 := by
      rcases Nat.eq_zero_or_pos m with rfl | hpos
      · rfl
      · have hlog := (Nat.log2_lt (by omega : m ≠ 0) (k := 52)).mpr hlt
        unfold shiftOf
        omega
    rw [unitsOf_of_lt hlt, hshift, Nat.pow_zero, Nat.mul_one, roundQuotient_mul m hden,
      Nat.zero_mul, Nat.zero_add, min_eq_left hm]
  · have hshift : shiftOf ((exponentWeight + f) * 2 ^ shift) = shift := by
      have hlog : Nat.log2 ((exponentWeight + f) * 2 ^ shift) = 52 + shift := by
        refine (Nat.log2_eq_iff ?_).mpr ⟨?_, ?_⟩
        · exact (Nat.mul_pos (by have := exponentWeight_pos; omega) (Nat.two_pow_pos shift)).ne'
        · rw [Nat.pow_add]
          exact Nat.mul_le_mul_right _ (Nat.le_add_right exponentWeight f)
        · rw [Nat.add_right_comm, Nat.pow_add]
          refine Nat.mul_lt_mul_of_pos_right ?_ (Nat.two_pow_pos shift)
          unfold exponentWeight at hf ⊢
          omega
      unfold shiftOf
      omega
    have hquotient : (exponentWeight + f) * 2 ^ shift * den
        = (exponentWeight + f) * (den * 2 ^ shift) := by ring
    have hsum : shift * exponentWeight + (exponentWeight + f)
        = (shift + 1) * exponentWeight + f := by ring
    rw [unitsOf_shifted hf, hshift, hquotient,
      roundQuotient_mul _ (Nat.mul_pos hden (Nat.two_pow_pos shift)), hsum, min_eq_left hm]

end RecordRules.Binary64
