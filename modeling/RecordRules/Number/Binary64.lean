/-!
# Binary floating-point numbers

A **binary64 number** is a sign and a magnitude of 63 bits, the exponent field
above the fraction field. The layout is what makes the order simple: among
numbers of one sign the magnitudes, read as integers, are ordered as the
numbers are, infinity is the magnitude of the exponent field that is all ones,
and what lies above it is not a number. `Binary64.totalCompare` is that order,
with every negative word below every positive one, so it has an answer for
the two zeros and for the words that are not numbers.

A finite magnitude stands for a whole number of **units**, the unit being the
smallest positive number, 2⁻¹⁰⁷⁴. Conversions and arithmetic round the exact
quotient of two integers once, to the nearest number and, of two that are
equally near, to the one with the even magnitude (`Binary64.ofRatio`).
-/

namespace RecordRules

/-- **A binary64 number**, any of the 2⁶⁴ words. -/
structure Binary64 where
  /-- The sign bit. -/
  negative : Bool
  /-- The exponent and fraction fields, read as one integer. -/
  magnitude : Nat
  /-- The two fields have 63 bits. -/
  magnitude_lt : magnitude < 0x8000000000000000
  deriving DecidableEq, Repr

namespace Binary64

/-! ## Words -/

/-- The weight of the sign bit, 2⁶³. -/
def signWeight : Nat := 0x8000000000000000

/-- The weight of the lowest bit of the exponent field, 2⁵². -/
def exponentWeight : Nat := 0x10000000000000

/-- The number with these bits. -/
def ofBits (word : UInt64) : Binary64 :=
  ⟨decide (signWeight ≤ word.toNat), word.toNat % signWeight, Nat.mod_lt _ (by decide)⟩

/-- The bits of the number. -/
def bits (x : Binary64) : UInt64 :=
  UInt64.ofNat ((if x.negative then signWeight else 0) + x.magnitude)

/-- The magnitude of the two infinities. -/
def infiniteMagnitude : Nat := 2047 * exponentWeight

/-- The infinity of the sign. -/
def infinite (negative : Bool) : Binary64 :=
  ⟨negative, infiniteMagnitude, by decide⟩

/-- The zero of the sign. -/
def zero (negative : Bool) : Binary64 := ⟨negative, 0, by decide⟩

/-- The word of the sign that is not a number, with the top bit of the
fraction set and no other. -/
def notANumber (negative : Bool) : Binary64 :=
  ⟨negative, infiniteMagnitude + exponentWeight / 2, by decide⟩

/-- Whether the word is not a number. -/
def isNaN (x : Binary64) : Bool := decide (infiniteMagnitude < x.magnitude)

/-- Whether the number is one of the infinities. -/
def isInfinite (x : Binary64) : Bool := x.magnitude == infiniteMagnitude

/-- The number with the other sign. -/
def neg (x : Binary64) : Binary64 := { x with negative := !x.negative }

/-! ## Order -/

/-- The place of the word in the order of all words: from -2⁶³ for the
greatest negative magnitude up, the two zeros at -1 and 0. -/
def rank (x : Binary64) : Int :=
  if x.negative then -1 - (x.magnitude : Int) else x.magnitude

/-- **The total order of the words**: by rank. -/
def totalCompare (x y : Binary64) : Ordering :=
  if x.rank < y.rank then .lt else if x.rank = y.rank then .eq else .gt

/-- Words are equal in the order only if they are the same. -/
theorem rank_inj {x y : Binary64} : x.rank = y.rank ↔ x = y := by
  obtain ⟨s, m, hm⟩ := x
  obtain ⟨t, n, hn⟩ := y
  cases s <;> cases t <;> simp [rank] <;> omega

@[simp] theorem totalCompare_eq_iff {x y : Binary64} :
    x.totalCompare y = .eq ↔ x = y := by
  rw [← rank_inj, totalCompare]
  repeat' split
  · rename_i h; simp; omega
  · rename_i h; simp [h]
  · rename_i h; simpa using h

/-! ## Exact values and rounding -/

/-- How many units there are in the number one. -/
def unitsInOne : Nat := Nat.pow 2 1074

/-- The value of a finite magnitude, in units of 2⁻¹⁰⁷⁴: below the least
exponent the fraction field itself, and else the fraction field with a leading
one, shifted by the exponent field. -/
def unitsOf (magnitude : Nat) : Nat :=
  if magnitude < exponentWeight then magnitude
  else
    (exponentWeight + magnitude % exponentWeight)
      * Nat.pow 2 (magnitude / exponentWeight - 1)

/-- The absolute value of a finite number, in units of 2⁻¹⁰⁷⁴. -/
def units (x : Binary64) : Nat := unitsOf x.magnitude

/-- **The nearest integer** to a quotient, the even one of two that are
equally near. -/
def roundQuotient (num den : Nat) : Nat :=
  let q := num / den
  let r := num % den
  if 2 * r < den then q
  else if den < 2 * r then q + 1
  else q + q % 2

/-- **The magnitude nearest to a quotient.** The quotient in units is rounded
to 53 significant bits: what is cut off is as many bits as its whole part has
beyond these. -/
def roundedMagnitude (num den : Nat) : Nat :=
  let scaled := num * unitsInOne
  let shift := Nat.log2 (scaled / den) - 52
  min (shift * exponentWeight + roundQuotient scaled (den * Nat.pow 2 shift))
    infiniteMagnitude

/-- **The number nearest to a quotient** of two natural numbers, the second of
which is not zero; infinite if no finite number is near. -/
def ofRatio (negative : Bool) (num den : Nat) : Binary64 :=
  ⟨negative, roundedMagnitude num den,
    Nat.lt_of_le_of_lt (Nat.min_le_right _ _) (by decide)⟩

/-- The number nearest to a natural number. -/
def ofNat (n : Nat) : Binary64 := ofRatio false n 1

/-- The number nearest to an integer. -/
def ofInt (i : Int) : Binary64 := ofRatio (decide (i < 0)) i.natAbs 1

/-- The product of two finite numbers, rounded. -/
def mul (x y : Binary64) : Binary64 :=
  ofRatio (x.negative != y.negative) (x.units * y.units)
    (unitsInOne * unitsInOne)

/-- The quotient of two finite numbers, rounded; the second is not zero. -/
def div (x y : Binary64) : Binary64 :=
  ofRatio (x.negative != y.negative) x.units y.units

@[simp] theorem negative_ofRatio (negative : Bool) (num den : Nat) :
    (ofRatio negative num den).negative = negative := rfl

@[simp] theorem magnitude_ofRatio (negative : Bool) (num den : Nat) :
    (ofRatio negative num den).magnitude = roundedMagnitude num den := rfl

end Binary64

end RecordRules
