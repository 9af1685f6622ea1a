import Mathlib.Data.EReal.Operations
import RecordRules.Proofs.Number.Rounding
import RecordRules.Tree.Evaluate

/-!
# Numbers are compared by their values

A condition compares the word of a record with the word that its literal is read as, by the
order of all words. That order knows nothing of signs, exponents and fractions; it goes by the
rank of the words. A word that is a number has a value in the extended reals, too
(`Binary64.value`), and the two orders agree: the words are ranked as their values are ordered
(`Binary64.value_lt_value_iff`).

One pair of words is the exception. The two zeros have the same value and are ranked one below
the other, so that a record with the negative zero does not satisfy `x = 0`
(`Condition.zeros_are_told_apart`). Zeros of one sign aside, words are of the same value only if
they are the same, so there is no other exception (`Condition.evaluate_eq_relates_value`).
-/

namespace RecordRules

namespace Comparison

variable {α β : Type}

/-- **What the comparison says** of two members of an order. -/
def Relates [LinearOrder α] : Comparison → α → α → Prop
  | greater, a, b => a > b
  | less, a, b => a < b
  | equal, a, b => a = b
  | greaterEqual, a, b => a ≥ b
  | lessEqual, a, b => a ≤ b
  | notEqual, a, b => a ≠ b

instance [LinearOrder α] (op : Comparison) (a b : α) : Decidable (op.Relates a b) :=
  match op with
  | greater => inferInstanceAs (Decidable (a > b))
  | less => inferInstanceAs (Decidable (a < b))
  | equal => inferInstanceAs (Decidable (a = b))
  | greaterEqual => inferInstanceAs (Decidable (a ≥ b))
  | lessEqual => inferInstanceAs (Decidable (a ≤ b))
  | notEqual => inferInstanceAs (Decidable (a ≠ b))

/-- A comparison accepts an order if it says so of members that stand in this order. -/
theorem accepts_cmp [LinearOrder α] (op : Comparison) (a b : α) :
    op.accepts (cmp a b) = decide (op.Relates a b) := by
  rcases lt_trichotomy a b with h | h | h
  · rw [cmp_eq_lt_iff _ _ |>.mpr h]
    cases op <;> simp [accepts, Relates, h, h.le, h.ne, h.not_ge, h.not_gt]
  · rw [cmp_eq_eq_iff _ _ |>.mpr h]
    cases op <;> simp [accepts, Relates, h]
  · rw [cmp_eq_gt_iff _ _ |>.mpr h]
    cases op <;> simp [accepts, Relates, h, h.le, h.ne', h.not_ge, h.not_gt]

/-- Members that are ordered alike are related alike. -/
theorem relates_congr [LinearOrder α] [LinearOrder β] {a b : α} {a' b' : β}
    (hlt : a < b ↔ a' < b') (hgt : b < a ↔ b' < a') (op : Comparison) :
    op.Relates a b ↔ op.Relates a' b' := by
  have hne : a ≠ b ↔ a' ≠ b' :=
    ne_iff_lt_or_gt.trans ((or_congr hlt hgt).trans ne_iff_lt_or_gt.symm)
  cases op with
  | greater => exact hgt
  | less => exact hlt
  | equal => exact not_iff_not.mp hne
  | greaterEqual => exact not_lt.symm.trans ((not_congr hlt).trans not_lt)
  | lessEqual => exact not_lt.symm.trans ((not_congr hgt).trans not_lt)
  | notEqual => exact hne

end Comparison

namespace Binary64

variable {x y : Binary64}

/-- Words are ordered as their ranks are. -/
theorem totalCompare_eq_cmp (x y : Binary64) : x.totalCompare y = cmp x.rank y.rank := by
  rcases lt_trichotomy x.rank y.rank with h | h | h
  · rw [totalCompare, if_pos h, (cmp_eq_lt_iff _ _).mpr h]
  · rw [totalCompare, if_neg h.not_lt, if_pos h, (cmp_eq_eq_iff _ _).mpr h]
  · rw [totalCompare, if_neg h.not_gt, if_neg h.ne', (cmp_eq_gt_iff _ _).mpr h]

/-! ## Values -/

/-- The value of a magnitude: so many units of 2⁻¹⁰⁷⁴, or infinity. -/
noncomputable def magnitudeValue (magnitude : ℕ) : EReal :=
  if magnitude < infiniteMagnitude then ((unitsOf magnitude / unitsInOne : ℝ) : EReal) else ⊤

/-- **The value of a number**, in the extended reals. A word that is not a number has none, and
what is said here of such words does not matter. -/
noncomputable def value (x : Binary64) : EReal :=
  if x.negative then -magnitudeValue x.magnitude else magnitudeValue x.magnitude

/-- **A greater magnitude has the greater value**, up to infinity. -/
theorem magnitudeValue_strictMonoOn :
    StrictMonoOn magnitudeValue (Set.Iic infiniteMagnitude) := by
  intro m _ n (hn : n ≤ infiniteMagnitude) h
  have hm : m < infiniteMagnitude := h.trans_le hn
  rw [magnitudeValue, if_pos hm]
  rcases hn.lt_or_eq with hlt | heq
  · rw [magnitudeValue, if_pos hlt, EReal.coe_lt_coe_iff]
    have hunits : (unitsOf m : ℝ) < unitsOf n := Nat.cast_lt.mpr (unitsOf_strictMono h)
    exact div_lt_div_of_pos_right hunits (Nat.cast_pos.mpr unitsInOne_pos)
  · rw [magnitudeValue, if_neg heq.not_lt]
    exact EReal.coe_lt_top _

@[simp] theorem magnitudeValue_zero : magnitudeValue 0 = 0 := by
  have hpos : 0 < infiniteMagnitude := by decide
  rw [magnitudeValue, if_pos hpos, unitsOf_of_lt exponentWeight_pos, Nat.cast_zero, zero_div,
    EReal.coe_zero]

/-- A magnitude has no negative value. -/
theorem magnitudeValue_nonneg {m : ℕ} (hm : m ≤ infiniteMagnitude) : 0 ≤ magnitudeValue m := by
  rw [← magnitudeValue_zero]
  exact (magnitudeValue_strictMonoOn.le_iff_le (Nat.zero_le _) hm).mpr (Nat.zero_le m)

/-- Only one magnitude has the value zero. -/
theorem magnitudeValue_pos_iff {m : ℕ} (hm : m ≤ infiniteMagnitude) :
    0 < magnitudeValue m ↔ 0 < m := by
  rw [← magnitudeValue_zero]
  exact magnitudeValue_strictMonoOn.lt_iff_lt (Nat.zero_le _) hm

/-- **The two zeros**: one word has each sign. -/
def OppositeZeros (x y : Binary64) : Prop :=
  x.magnitude = 0 ∧ y.magnitude = 0 ∧ x.negative ≠ y.negative

instance (x y : Binary64) : Decidable (OppositeZeros x y) :=
  inferInstanceAs (Decidable (_ ∧ _))

theorem OppositeZeros.symm (h : OppositeZeros x y) : OppositeZeros y x :=
  ⟨h.2.1, h.1, h.2.2.symm⟩

/-- The negative zero is ranked below the positive one. -/
theorem OppositeZeros.rank_lt_iff (h : OppositeZeros x y) :
    x.rank < y.rank ↔ (!x.negative) < !y.negative := by
  obtain ⟨s, m, _⟩ := x
  obtain ⟨t, n, _⟩ := y
  obtain ⟨rfl, rfl, hne⟩ : m = 0 ∧ n = 0 ∧ s ≠ t := h
  cases s with
  | false =>
    cases t with
    | false => exact absurd rfl hne
    | true => exact iff_of_false (by decide : ¬ (0 : ℤ) < -1 - 0) (lt_asymm Bool.false_lt_true)
  | true =>
    cases t with
    | false => exact iff_of_true (by decide : (-1 - 0 : ℤ) < 0) Bool.false_lt_true
    | true => exact absurd rfl hne

/-- A word is a number up to infinity. -/
theorem magnitude_le_of_not_isNaN (h : x.isNaN = false) : x.magnitude ≤ infiniteMagnitude :=
  Nat.not_lt.mp (of_decide_eq_false h)

/-- **Numbers are ranked as their values are ordered**, the two zeros apart. -/
theorem value_lt_value_iff (hx : x.isNaN = false) (hy : y.isNaN = false)
    (hzeros : ¬ OppositeZeros x y) : x.value < y.value ↔ x.rank < y.rank := by
  have hm := magnitude_le_of_not_isNaN hx
  have hn := magnitude_le_of_not_isNaN hy
  obtain ⟨s, m, hlt⟩ := x
  obtain ⟨t, n, hlt'⟩ := y
  dsimp only at hm hn
  cases s with
  | false =>
    cases t with
    | false =>
      show magnitudeValue m < magnitudeValue n ↔ (m : ℤ) < n
      rw [magnitudeValue_strictMonoOn.lt_iff_lt hm hn, Int.ofNat_lt]
    | true =>
      show magnitudeValue m < -magnitudeValue n ↔ (m : ℤ) < -1 - n
      have hle : -magnitudeValue n ≤ magnitudeValue m :=
        (EReal.neg_le_zero.mpr (magnitudeValue_nonneg hn)).trans (magnitudeValue_nonneg hm)
      exact iff_of_false hle.not_gt (by omega)
  | true =>
    cases t with
    | false =>
      show -magnitudeValue m < magnitudeValue n ↔ -1 - (m : ℤ) < n
      refine iff_of_true ?_ (by omega)
      rcases Nat.eq_zero_or_pos m with rfl | hpos
      · have hpos' : 0 < n := Nat.pos_of_ne_zero fun h => hzeros ⟨rfl, h, nofun⟩
        rw [magnitudeValue_zero, neg_zero]
        exact (magnitudeValue_pos_iff hn).mpr hpos'
      · have hneg := EReal.neg_lt_neg_iff.mpr ((magnitudeValue_pos_iff hm).mpr hpos)
        rw [neg_zero] at hneg
        exact hneg.trans_le (magnitudeValue_nonneg hn)
    | true =>
      show -magnitudeValue m < -magnitudeValue n ↔ -1 - (m : ℤ) < -1 - n
      rw [EReal.neg_lt_neg_iff, magnitudeValue_strictMonoOn.lt_iff_lt hn hm]
      omega

end Binary64

/-! ## Conditions on numbers -/

namespace Condition

variable {c : Condition} {record : Record} {v l : Binary64}

/-- A condition on a number compares the ranks of the two words. -/
theorem evaluate_number (hvalue : record.get? c.name = some (.number v))
    (hliteral : Decimal.ofLiteral? c.unquoted = some l) :
    c.evaluate record = .ok (decide (c.comparison.Relates v.rank l.rank)) := by
  rw [evaluate, hvalue]
  dsimp only
  rw [Datum.order, hliteral]
  dsimp only
  rw [Except.map, Binary64.totalCompare_eq_cmp, Comparison.accepts_cmp]

/-- What a literal is read as is a number. -/
theorem isNaN_of_ofLiteral? {literal : String} (h : Decimal.ofLiteral? literal = some l) :
    l.isNaN = false := by
  have hfilter := (Option.filter_eq_some_iff.mp h).2
  simpa using hfilter

/-- **Numbers are compared by their values**, the two zeros apart: of these the negative one is
the smaller. -/
theorem evaluate_eq_relates_value (c : Condition) (record : Record) (v l : Binary64)
    (hvalue : record.get? c.name = some (.number v)) (hnumber : v.isNaN = false)
    (hliteral : Decimal.ofLiteral? c.unquoted = some l) :
    (¬ v.OppositeZeros l →
        (Tree.leaf c).evaluate record = .ok (decide (c.comparison.Relates v.value l.value)))
      ∧ (v.OppositeZeros l →
        (Tree.leaf c).evaluate record
          = .ok (decide (c.comparison.Relates (!v.negative) (!l.negative)))) := by
  have hevaluate : (Tree.leaf c).evaluate record = _ := evaluate_number hvalue hliteral
  rw [hevaluate]
  have hnumber' := isNaN_of_ofLiteral? hliteral
  refine ⟨fun hzeros => ?_, fun hzeros => ?_⟩
  · have hlt := Binary64.value_lt_value_iff hnumber hnumber' hzeros
    have hgt := Binary64.value_lt_value_iff hnumber' hnumber fun h => hzeros h.symm
    rw [decide_eq_decide.mpr (Comparison.relates_congr hlt hgt _)]
  · have hlt := hzeros.rank_lt_iff
    have hgt := hzeros.symm.rank_lt_iff
    rw [decide_eq_decide.mpr (Comparison.relates_congr hlt hgt _)]

/-- The negative number next to zero is smaller than a literal that is rounded to the negative
zero. -/
theorem evaluate_of_least_negative :
    (Table.empty.insert "x" (Datum.number (.ofBits 0x8000000000000001))).get? "x"
        = some (.number (.ofBits 0x8000000000000001))
      ∧ (Binary64.ofBits 0x8000000000000001).isNaN = false
      ∧ Decimal.ofLiteral? (unquoted ⟨"x", .less, "'-1e-999'"⟩) = some (.zero true)
      ∧ ¬ (Binary64.ofBits 0x8000000000000001).OppositeZeros (.zero true)
      ∧ (Tree.leaf ⟨"x", .less, "'-1e-999'"⟩).evaluate
          (Table.empty.insert "x" (.number (.ofBits 0x8000000000000001)))
        = .ok (decide (Comparison.less.Relates
            (Binary64.ofBits 0x8000000000000001).value (Binary64.zero true).value)) := by
  have hvalue := Table.get?_insert_self Table.empty "x" (Datum.number (.ofBits 0x8000000000000001))
  have hnumber : (Binary64.ofBits 0x8000000000000001).isNaN = false := by decide +kernel
  have hliteral : Decimal.ofLiteral? (unquoted ⟨"x", .less, "'-1e-999'"⟩) = some (.zero true) := by
    decide +kernel
  have hzeros : ¬ (Binary64.ofBits 0x8000000000000001).OppositeZeros (.zero true) := by
    decide +kernel
  exact ⟨hvalue, hnumber, hliteral, hzeros,
    (evaluate_eq_relates_value _ _ _ _ hvalue hnumber hliteral).1 hzeros⟩

/-- The negative zero of a record and the zero of a literal are the same number, and are not
equal to the condition. -/
theorem zeros_are_told_apart :
    (Table.empty.insert "x" (Datum.number (.zero true))).get? "x" = some (.number (.zero true))
      ∧ (Binary64.zero true).isNaN = false
      ∧ Decimal.ofLiteral? (unquoted ⟨"x", .equal, "0"⟩) = some (.zero false)
      ∧ Comparison.equal.Relates (Binary64.zero true).value (Binary64.zero false).value
      ∧ (Tree.leaf ⟨"x", .equal, "0"⟩).evaluate
          (Table.empty.insert "x" (.number (.zero true)))
        = .ok false := by
  refine ⟨Table.get?_insert_self _ _ _, by decide, by decide +kernel, ?_, by decide +kernel⟩
  show -Binary64.magnitudeValue 0 = Binary64.magnitudeValue 0
  rw [Binary64.magnitudeValue_zero, neg_zero]

end Condition

end RecordRules
