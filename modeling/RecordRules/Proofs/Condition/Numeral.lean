import RecordRules.Proofs.Condition.Spelling
import RecordRules.Proofs.Json.Numeral
import RecordRules.Proofs.Number.Value
import RecordRules.Proofs.Number.Whole

/-!
# Numerals as literals

A numeral stands for a decimal (`Json.Numeral.toDecimal`). Written as a literal it is read as
the binary64 number nearest to this decimal, however it is written
(`Json.Numeral.ofLiteral?_of_writtenAs`). So it makes no difference to the literal whether the
numeral was meant for a rule or for JSON text.

The digits of an integer are a numeral (`Json.Numeral.exists_writtenAs_toString`), and the
literal is the integer rounded to a binary64 number. An integer of a record is rounded in the
same way, so that conditions compare integers as far as rounding keeps them apart
(`Condition.evaluate_ofInt`).
-/

namespace RecordRules

open Json (Numeral Exponent)

/-! ## Reading decimals -/

namespace Decimal

open Json.Numeral (takeSign_digits noDigit_append noDigit_cons fractionChars signChars)

variable {cs : List Char} {digits : List Digit}

/-- An exponent is read with the sign and the digits after its letter. -/
theorem readExponent?_cons {letter : Char} (hletter : letter = 'e' ∨ letter = 'E')
    {negative : Bool} (hne : digits ≠ [])
    (hsign : takeSign cs = (negative, digits.map Digit.toChar)) :
    readExponent? (letter :: cs) = some (Exponent.toInt ⟨negative, digits⟩) := by
  have htake : takeDigits (digits.map Digit.toChar) = (digits, []) :=
    takeDigits_eq_iff.mpr ⟨(List.append_nil _).symm, nofun⟩
  have hif : (letter == 'e' || letter == 'E') = true := by
    rcases hletter with rfl | rfl <;> rfl
  rw [readExponent?, if_pos hif, hsign]
  dsimp only
  rw [htake]
  cases digits with
  | nil => exact absurd rfl hne
  | cons d ds => rfl

/-- **The exponent of a numeral** is read, as zero if there is none. -/
theorem readExponent?_of_writtenAs {e : Option Exponent} {es : List Char}
    (h : Exponent.WrittenAs e es) :
    readExponent? es = some ((e.map Exponent.toInt).getD 0) := by
  cases h with
  | none => rfl
  | bare hletter hne =>
    have hsign := takeSign_digits hne []
    rw [List.append_nil] at hsign
    exact readExponent?_cons hletter hne hsign
  | plus hletter hne => exact readExponent?_cons hletter hne rfl
  | minus hletter hne => exact readExponent?_cons hletter hne rfl

/-- **What follows the sign of a numeral** is read as its decimal. -/
theorem readUnsigned?_of_writtenAs (negative : Bool) {whole : List Digit}
    (hne : whole ≠ []) (fraction : List Digit) {e : Option Exponent} {es : List Char}
    (h : Exponent.WrittenAs e es) :
    readUnsigned? negative (whole.map Digit.toChar ++ (fractionChars fraction ++ es))
      = some ⟨negative, ofDigits (whole ++ fraction),
          (e.map Exponent.toInt).getD 0 - (fraction.length : ℤ)⟩ := by
  have hends : NoDigit (es ++ []) ∧ (es ++ []).head? ≠ some '.' := noDigit_append h nofun
  rw [List.append_nil] at hends
  have hexponent := readExponent?_of_writtenAs h
  have hempty : whole.isEmpty = false := List.isEmpty_eq_false_iff.mpr hne
  cases fraction with
  | nil =>
    have hwhole : takeDigits (whole.map Digit.toChar ++ es) = (whole, es) :=
      takeDigits_eq_iff.mpr ⟨rfl, hends.1⟩
    have hpoint : ∀ cs, es ≠ '.' :: cs := by
      rintro cs rfl
      exact hends.2 rfl
    show readUnsigned? negative (whole.map Digit.toChar ++ es) = _
    rw [readUnsigned?, hwhole]
    dsimp only
    split
    · exact absurd rfl (hpoint _)
    · rw [hempty, hexponent]
      rfl
  | cons d ds =>
    have hwhole : takeDigits (whole.map Digit.toChar
        ++ '.' :: ((d :: ds).map Digit.toChar ++ es))
        = (whole, '.' :: ((d :: ds).map Digit.toChar ++ es)) :=
      takeDigits_eq_iff.mpr ⟨rfl, noDigit_cons (by decide) _⟩
    have hfraction : takeDigits ((d :: ds).map Digit.toChar ++ es) = (d :: ds, es) :=
      takeDigits_eq_iff.mpr ⟨rfl, hends.1⟩
    show readUnsigned? negative
      (whole.map Digit.toChar ++ '.' :: ((d :: ds).map Digit.toChar ++ es)) = _
    rw [readUnsigned?, hwhole]
    simp only [hfraction, hempty, hexponent]
    rfl

/-- A sign is taken if it is a minus sign, and digits have none. -/
theorem takeSign_append (negative : Bool) (hne : digits ≠ []) (rest : List Char) :
    takeSign (signChars negative ++ (digits.map Digit.toChar ++ rest))
      = (negative, digits.map Digit.toChar ++ rest) := by
  cases negative with
  | true => rfl
  | false => exact takeSign_digits hne rest

/-- A decimal is rounded to a number or to an infinity. -/
theorem isNaN_toBinary64 (d : Decimal) : d.toBinary64.isNaN = false := by
  refine decide_eq_false (Nat.not_lt.mpr ?_)
  unfold toBinary64
  split <;> exact Binary64.roundedMagnitude_le _ _

end Decimal

/-! ## Numerals -/

namespace Json.Numeral

open Decimal (ofDigits)

/-- **The decimal that a numeral stands for**: all digits, times ten to the exponent, less one
for each digit after the point. -/
def toDecimal (n : Numeral) : Decimal :=
  ⟨n.negative, ofDigits (n.whole ++ n.fraction),
    (n.exponent.map Exponent.toInt).getD 0 - (n.fraction.length : ℤ)⟩

variable {n : Numeral} {cs : List Char}

/-- **A numeral is read as its decimal**, rounded. -/
theorem readBinary64?_of_writtenAs (h : n.WrittenAs cs) :
    Decimal.readBinary64? cs = some n.toDecimal.toBinary64 := by
  obtain ⟨hne, -, hexponent⟩ := h
  have hunsigned := Decimal.readUnsigned?_of_writtenAs n.negative hne n.fraction hexponent
  rw [Decimal.readBinary64?, Decimal.takeSign_append _ hne]
  dsimp only
  rw [hunsigned]
  obtain ⟨d, ds, hwhole⟩ := List.exists_cons_of_ne_nil hne
  have hletter : ∀ d : Digit, d.toChar.toLower ≠ 'i' ∧ d.toChar.toLower ≠ 'n' := by decide
  rw [hwhole, List.map_cons, List.cons_append, List.map_cons]
  rw [if_neg, if_neg]
  · rw [Option.map_some, toDecimal, hwhole]
  · exact fun h => (hletter d).2 (List.cons.inj h).1
  · rw [Bool.or_eq_true, decide_eq_true_eq, decide_eq_true_eq]
    rintro (h | h) <;> exact (hletter d).1 (List.cons.inj h).1

/-- **A numeral is made of bare characters**, so that it needs no quotes. -/
theorem isBare_of_writtenAs (h : n.WrittenAs cs) : ∀ c ∈ cs, Condition.isBare c = true := by
  have hdigits (digits : List Digit) :
      ∀ c ∈ digits.map Digit.toChar, Condition.isBare c = true := by
    have hdigit : ∀ d : Digit, Condition.isBare d.toChar = true := by decide
    exact List.forall_mem_map.mpr fun d _ => hdigit d
  have hletter {letter : Char} (h : letter = 'e' ∨ letter = 'E') :
      Condition.isBare letter = true := by
    rcases h with rfl | rfl <;> decide
  obtain ⟨negative, whole, fraction, exponent⟩ := n
  obtain ⟨-, -, hexponent⟩ := h
  dsimp only at hexponent ⊢
  refine List.forall_mem_append.mpr ⟨?_, List.forall_mem_append.mpr
    ⟨hdigits whole, List.forall_mem_append.mpr ⟨?_, ?_⟩⟩⟩
  · cases negative with
    | false => exact nofun
    | true => exact List.forall_mem_singleton.mpr (by decide)
  · cases fraction with
    | nil => exact nofun
    | cons d ds => exact List.forall_mem_cons.mpr ⟨by decide, hdigits (d :: ds)⟩
  · cases hexponent with
    | none => exact nofun
    | bare h _ => exact List.forall_mem_cons.mpr ⟨hletter h, hdigits _⟩
    | plus h _ =>
      exact List.forall_mem_cons.mpr
        ⟨hletter h, List.forall_mem_cons.mpr ⟨by decide, hdigits _⟩⟩
    | minus h _ =>
      exact List.forall_mem_cons.mpr
        ⟨hletter h, List.forall_mem_cons.mpr ⟨by decide, hdigits _⟩⟩

/-- **A numeral as a literal** is the number nearest to its decimal. -/
theorem ofLiteral?_of_writtenAs {literal : String} (h : n.WrittenAs literal.toList) :
    Decimal.ofLiteral? literal = some n.toDecimal.toBinary64 := by
  have hblank : ∀ c ∈ literal.toList, Text.isBlank c = false := fun c hc =>
    (Condition.isBare_iff.mp (isBare_of_writtenAs h c hc)).1
  have htrimmed : Text.Trimmed literal.toList :=
    ⟨fun c hc => hblank c (List.mem_of_mem_head? hc),
      fun c hc => hblank c (List.mem_of_mem_getLast? hc)⟩
  rw [Decimal.ofLiteral?, Text.strip_eq_self htrimmed, readBinary64?_of_writtenAs h,
    Option.filter_some, Decimal.isNaN_toBinary64]
  rfl

/-- Bare characters have no quotes to take off, and a numeral is made of them. -/
theorem unquoted_of_writtenAs {name literal : String} {op : Comparison}
    (h : n.WrittenAs literal.toList) :
    Condition.unquoted ⟨name, op, literal⟩ = literal := by
  have hquote : ∀ c ∈ literal.toList, Condition.isQuote c = false := fun c hc =>
    (Condition.isBare_iff.mp (isBare_of_writtenAs h c hc)).2.1
  have hunquote : Condition.unquote literal.toList = literal.toList := by
    cases hcs : literal.toList with
    | nil => rfl
    | cons c cs =>
      rw [hcs] at hquote
      rw [Condition.unquote, hquote c List.mem_cons_self, Bool.false_and, if_neg Bool.false_ne_true]
  rw [Condition.unquoted, hunquote, String.ofList_toList]

/-! ## Integers -/

/-- The digit that is the last one of a number. -/
theorem toChar_ofNat_mod (k : ℕ) :
    Digit.toChar ⟨k % 10, Nat.mod_lt k (by decide)⟩ = (k % 10).digitChar := by
  have hdigit : ∀ d : Digit, d.toChar = d.val.digitChar := by decide
  exact hdigit ⟨k % 10, _⟩

/-- **A natural number is written in digits**, and the first of them is zero for zero alone. -/
theorem exists_digits (k : ℕ) :
    ∃ d ds, Nat.toDigits 10 k = (d :: ds).map Digit.toChar ∧ ofDigits (d :: ds) = k
      ∧ (d = 0 → k = 0 ∧ ds = []) := by
  induction k using Nat.strong_induction_on with
  | _ k ih =>
    rw [Nat.toDigits_eq_if (by decide)]
    split
    · next hlt =>
      have hlast := toChar_ofNat_mod k
      simp only [Nat.mod_eq_of_lt hlt] at hlast
      refine ⟨⟨k, hlt⟩, [], congrArg (· :: []) hlast.symm, Nat.zero_add k, fun hzero => ?_⟩
      exact ⟨congrArg Fin.val hzero, rfl⟩
    · next hge =>
      obtain ⟨d, ds, hdigits, hvalue, hzero⟩ := ih (k / 10) (by omega)
      refine ⟨d, ds ++ [⟨k % 10, Nat.mod_lt k (by decide)⟩], ?_, ?_, fun h => ?_⟩
      · rw [hdigits, ← List.cons_append, List.map_append, List.map_singleton, toChar_ofNat_mod]
      · rw [← List.cons_append, ofDigits, List.foldl_append]
        show ofDigits (d :: ds) * 10 + k % 10 = k
        omega
      · have := (hzero h).1
        omega

/-- **The digits of an integer are a numeral**, and the integer is its decimal. -/
theorem exists_writtenAs_toString (j : ℤ) :
    ∃ n : Numeral, n.WrittenAs (toString j).toList
      ∧ n.toDecimal = ⟨decide (j < 0), j.natAbs, 0⟩ := by
  obtain ⟨d, ds, hdigits, hvalue, hzero⟩ := exists_digits j.natAbs
  refine ⟨⟨decide (j < 0), d :: ds, [], none⟩, ?_, ?_⟩
  · have hspelled : (toString j).toList
        = signChars (decide (j < 0))
          ++ ((d :: ds).map Digit.toChar ++ (fractionChars [] ++ [])) := by
      rw [Int.toString_eq_repr, Int.repr_eq_if, List.append_nil, fractionChars, List.isEmpty_nil,
        if_pos rfl, List.append_nil, ← hdigits]
      rcases lt_or_ge j 0 with hneg | hnonneg
      · rw [if_neg hneg.not_ge, decide_eq_true hneg, String.toList_append, Nat.toList_repr,
          (by omega : (-j).toNat = j.natAbs)]
        rfl
      · rw [if_pos hnonneg, decide_eq_false hnonneg.not_gt, Nat.toList_repr,
          (by omega : j.toNat = j.natAbs)]
        rfl
    rw [hspelled]
    refine .mk (List.cons_ne_nil d ds) ?_ .none
    rintro tail htail
    obtain ⟨rfl, rfl⟩ := List.cons.inj htail
    exact (hzero rfl).2
  · rw [toDecimal]
    dsimp only
    rw [List.append_nil, hvalue]
    rfl

/-- An integer is a decimal that is rounded once. -/
theorem toBinary64_ofInt (j : ℤ) :
    Decimal.toBinary64 ⟨decide (j < 0), j.natAbs, 0⟩ = .ofInt j := by
  show Binary64.ofRatio (decide (j < 0)) (j.natAbs * 1) 1 = _
  rw [Nat.mul_one, Binary64.ofInt]

end Json.Numeral

/-! ## Conditions on integers -/

namespace Condition

/-- **Integers are compared as integers**, up to what rounding leaves of them: neighbours may
become equal beyond 2⁵³, and are never exchanged. -/
theorem evaluate_ofInt (i j : ℤ) (name : String) (record : Record)
    (hvalue : record.get? name = some (.number (.ofInt i))) :
    (i = j → (Tree.leaf ⟨name, .equal, toString j⟩).evaluate record = .ok true)
      ∧ (i ≥ j → (Tree.leaf ⟨name, .greaterEqual, toString j⟩).evaluate record = .ok true)
      ∧ (i ≤ j → (Tree.leaf ⟨name, .lessEqual, toString j⟩).evaluate record = .ok true)
      ∧ (i.natAbs ≤ 2 ^ 53 → j.natAbs ≤ 2 ^ 53 → ∀ op : Comparison,
        (Tree.leaf ⟨name, op, toString j⟩).evaluate record
          = .ok (decide (op.Relates i j))) := by
  obtain ⟨n, hn, hdecimal⟩ := Numeral.exists_writtenAs_toString j
  have hevaluate (op : Comparison) :
      (Tree.leaf ⟨name, op, toString j⟩).evaluate record
        = .ok (decide (op.Relates (Binary64.ofInt i).rank (Binary64.ofInt j).rank)) := by
    have hliteral : Decimal.ofLiteral? (unquoted ⟨name, op, toString j⟩) = some (.ofInt j) := by
      rw [Numeral.unquoted_of_writtenAs hn, Numeral.ofLiteral?_of_writtenAs hn, hdecimal,
        Numeral.toBinary64_ofInt]
    exact evaluate_number hvalue hliteral
  refine ⟨fun h => ?_, fun h => ?_, fun h => ?_, fun hi hj op => ?_⟩
  · rw [hevaluate, h]
    exact congrArg Except.ok (decide_eq_true rfl)
  · rw [hevaluate]
    exact congrArg Except.ok (decide_eq_true (Binary64.rank_ofInt_mono h))
  · rw [hevaluate]
    exact congrArg Except.ok (decide_eq_true (Binary64.rank_ofInt_mono h))
  · have hexact : Binary64.Exact i.natAbs := Binary64.exact_of_le hi
    have hexact' : Binary64.Exact j.natAbs := Binary64.exact_of_le hj
    have hlt := Binary64.rank_ofInt_lt_iff hexact hexact'
    have hgt := Binary64.rank_ofInt_lt_iff hexact' hexact
    rw [hevaluate, decide_eq_decide.mpr (Comparison.relates_congr hlt hgt op)]

/-- The greatest integers up to which all are kept apart. -/
theorem evaluate_ofInt_of_greatest :
    (Table.empty.insert "x" (Datum.number (.ofInt (2 ^ 53)))).get? "x"
        = some (.number (.ofInt (2 ^ 53)))
      ∧ (2 ^ 53 : ℤ).natAbs ≤ 2 ^ 53
      ∧ (2 ^ 53 - 1 : ℤ).natAbs ≤ 2 ^ 53
      ∧ (Tree.leaf ⟨"x", .greater, toString (2 ^ 53 - 1 : ℤ)⟩).evaluate
          (Table.empty.insert "x" (.number (.ofInt (2 ^ 53))))
        = .ok (decide (Comparison.greater.Relates (2 ^ 53 : ℤ) (2 ^ 53 - 1))) := by
  have hvalue := Table.get?_insert_self Table.empty "x" (Datum.number (.ofInt (2 ^ 53)))
  have hi : (2 ^ 53 : ℤ).natAbs ≤ 2 ^ 53 := by decide
  have hj : (2 ^ 53 - 1 : ℤ).natAbs ≤ 2 ^ 53 := by decide
  exact ⟨hvalue, hi, hj, (evaluate_ofInt _ _ _ _ hvalue).2.2.2 hi hj .greater⟩

end Condition

end RecordRules
