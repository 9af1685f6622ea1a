import RecordRules.Proofs.Condition.Numeral
import RecordRules.Proofs.Json.Value
import RecordRules.Proofs.Number.Decimal
import RecordRules.Record.Json

/-!
# Numbers in records and in rules

The same numeral may stand in the JSON text of a record and in a rule. The rule rounds its
decimal once. The record is read by the quick conversion, which gathers the digits into a word,
rounds the word, and scales it by a power of ten (`Json.Numeral.gathered`), so that up to three
roundings add up: a record with `3e23` does not satisfy `x = 3e23`
(`Record.numeral_read_otherwise`).

Nothing goes wrong where only one of the steps rounds (`Json.Numeral.RoundedOnce`): no digit is
lost, and either there is no power of ten to scale by, or the word and the power are binary64
numbers themselves. So it is for integers of 64 bits, and for numbers of 53 bits with a power of
ten of 22 at most (`Json.Numeral.roundedOnce_of_lt`, `Json.Numeral.roundedOnce_of_le`). There the
two numbers are the same (`Record.evaluate_ofJson_number`).
-/

namespace RecordRules

open Json (Numeral Exponent Value Quoted)
open Binary64 (Exact)

namespace Json.Numeral

open Decimal (ofDigits)

variable {n : Numeral} {word : ℕ}

/-! ## Gathering digits -/

/-- Digits make a number no smaller. -/
theorem le_foldl_digits (digits : List Digit) (word : ℕ) :
    word ≤ digits.foldl (fun n d => n * 10 + d.val) word := by
  induction digits generalizing word with
  | nil => exact Nat.le_refl word
  | cons d ds ih => exact (by omega : word ≤ word * 10 + d.val).trans (ih _)

/-- **All digits are gathered** if their number fits into a word. -/
theorem gather_of_lt {digits : List Digit}
    (h : digits.foldl (fun n d => n * 10 + d.val) word < wordCount) :
    gather word digits = (digits.foldl (fun n d => n * 10 + d.val) word, []) := by
  induction digits generalizing word with
  | nil => rfl
  | cons d ds ih =>
    rw [List.foldl_cons] at h ⊢
    rw [gather, if_pos ((le_foldl_digits ds _).trans_lt h), ih h]

/-- **What the digits are gathered into**: the word, and the power of ten that is left. -/
def gathered (n : Numeral) : ℕ × ℤ :=
  let (word, dropped) := gather 0 n.whole
  let (word, unread) := gather word n.fraction
  (word, (dropped.length : ℤ) - ((n.fraction.length : ℤ) - unread.length)
    + (n.exponent.map Exponent.toInt).getD 0)

/-- **The quick conversion** rounds the word and scales it. -/
theorem toBinary64?_eq (n : Numeral) :
    n.toBinary64? = (scale? (.ofNat n.gathered.1) n.gathered.2).map
      fun x => if n.negative then x.neg else x := rfl

/-- **Nothing is lost** if all the digits fit into a word. -/
theorem gathered_of_lt (h : n.toDecimal.significand < wordCount) :
    n.gathered = (n.toDecimal.significand, n.toDecimal.exponent) := by
  have hdigits : n.toDecimal.significand
      = n.fraction.foldl (fun n d => n * 10 + d.val) (ofDigits n.whole) := List.foldl_append
  rw [hdigits] at h ⊢
  have hwhole : gather 0 n.whole = (ofDigits n.whole, []) :=
    gather_of_lt ((le_foldl_digits _ _).trans_lt h)
  rw [gathered, hwhole]
  dsimp only
  rw [gather_of_lt h, toDecimal]
  dsimp only [List.length_nil]
  rw [Prod.mk.injEq]
  exact ⟨rfl, by omega⟩

/-! ## One rounding -/

/-- **Only one step of the quick conversion rounds.** No digit that counts is lost; and there is no
power to scale by, or nothing but zero to scale, or the word and the power are both binary64
numbers. -/
structure RoundedOnce (n : Numeral) : Prop where
  keeps : n.gathered.1 * (10 : ℚ) ^ n.gathered.2 = n.toDecimal.absValue
  once : n.gathered.2 = 0 ∨ n.gathered.1 = 0
    ∨ Exact n.gathered.1 ∧ n.gathered.2.natAbs ≤ 22

/-- **Integers that fit into a word** are rounded once. -/
theorem roundedOnce_of_lt (h : n.toDecimal.significand < wordCount)
    (hexponent : n.toDecimal.exponent = 0) : n.RoundedOnce := by
  refine ⟨?_, .inl ?_⟩
  · rw [gathered_of_lt h, Decimal.absValue]
  · rw [gathered_of_lt h, hexponent]

/-- **Numbers of 53 bits** are rounded once if the power of ten is small. -/
theorem roundedOnce_of_le (h : n.toDecimal.significand ≤ 2 ^ 53)
    (hexponent : n.toDecimal.exponent.natAbs ≤ 22) : n.RoundedOnce := by
  have hlt : n.toDecimal.significand < wordCount := h.trans_lt (by decide)
  refine ⟨?_, .inr (.inr ⟨?_, ?_⟩)⟩
  · rw [gathered_of_lt hlt, Decimal.absValue]
  · rw [gathered_of_lt hlt]
    exact Binary64.exact_of_le h
  · rwa [gathered_of_lt hlt]

/-- **Multiplying** rounds once, if at all. -/
theorem eq_of_multiplyByPower? {power : ℕ} {x : Binary64}
    (honce : power = 0 ∨ word = 0 ∨ Exact word ∧ power ≤ 22)
    (h : multiplyByPower? (.ofNat word) power = some x) :
    x = .ofRatio false (word * 10 ^ power) 1 := by
  rw [multiplyByPower?] at h
  split at h
  · obtain rfl := (Option.some.inj (Option.filter_eq_some_iff.mp h).1).symm
    rcases honce with rfl | rfl | ⟨hexact, hpower⟩
    · rw [Nat.pow_zero, Nat.mul_one]
      exact Binary64.mul_ofNat_one word
    · rw [Binary64.mul_ofNat_zero, Nat.zero_mul, Binary64.ofRatio_zero]
    · exact Binary64.mul_ofNat hexact (Binary64.exact_pow_ten hpower)
  · next hlarge =>
    have hzero : word = 0 := by
      rcases honce with rfl | hzero | ⟨-, hpower⟩
      · exact absurd (Nat.zero_le 308) hlarge
      · exact hzero
      · exact absurd (hpower.trans (by decide)) hlarge
    split at h
    · rw [← Option.some.inj h, hzero, Nat.zero_mul, Binary64.ofNat]
    · next hne =>
      rw [hzero] at hne
      exact absurd (Binary64.roundedMagnitude_zero 1) hne

/-- **Dividing** rounds once, if at all. -/
theorem divideByPower_eq {power : ℕ} (honce : word = 0 ∨ Exact word ∧ power ≤ 22) :
    divideByPower (.ofNat word) power = .ofRatio false word (10 ^ power) := by
  rw [divideByPower]
  split
  · rcases honce with rfl | ⟨hexact, hpower⟩
    · rw [Binary64.div_ofNat_zero, Binary64.ofRatio_zero]
    · exact Binary64.div_ofNat hexact (Binary64.exact_pow_ten hpower) (Nat.pow_pos (by decide))
  · next hlarge =>
    have hzero : word = 0 := by
      rcases honce with hzero | ⟨-, hpower⟩
      · exact hzero
      · exact absurd (hpower.trans (by decide)) hlarge
    subst hzero
    have hmagnitude : (Binary64.ofNat 0).magnitude = 0 := Binary64.roundedMagnitude_zero 1
    rw [if_pos hmagnitude, Binary64.ofNat, Binary64.ofRatio_zero, Binary64.ofRatio_zero]

/-- **Scaling** gives the number nearest to the word times the power of ten. -/
theorem exists_of_scale? {power : ℤ} {x : Binary64}
    (honce : power = 0 ∨ word = 0 ∨ Exact word ∧ power.natAbs ≤ 22)
    (h : scale? (.ofNat word) power = some x) :
    ∃ num den : ℕ, 0 < den ∧ x = .ofRatio false num den ∧ (word * 10 ^ power : ℚ) = num / den := by
  cases power with
  | ofNat power =>
    have hpower : power = 0 ∨ word = 0 ∨ Exact word ∧ power ≤ 22 :=
      honce.imp_left Int.ofNat.inj
    refine ⟨word * 10 ^ power, 1, Nat.one_pos, eq_of_multiplyByPower? hpower h, ?_⟩
    rw [Int.ofNat_eq_natCast, zpow_natCast, Nat.cast_one, div_one]
    push_cast
    rfl
  | negSucc power =>
    have hpower : word = 0 ∨ Exact word ∧ power + 1 ≤ 22 := honce.resolve_left nofun
    refine ⟨word, 10 ^ (power + 1), Nat.pow_pos (by decide), ?_, ?_⟩
    · rw [← divideByPower_eq hpower]
      exact (Option.some.inj h).symm
    · rw [zpow_negSucc, ← div_eq_mul_inv]
      push_cast
      rfl

/-- **A numeral that is rounded once** is read as its decimal is. -/
theorem RoundedOnce.eq_toBinary64 (h : n.RoundedOnce) {v : Binary64}
    (hv : n.toBinary64? = some v) : v = n.toDecimal.toBinary64 := by
  rw [toBinary64?_eq] at hv
  obtain ⟨x, hx, rfl⟩ := Option.map_eq_some_iff.mp hv
  obtain ⟨num, den, hden, rfl, hvalue⟩ := exists_of_scale? h.once hx
  rw [h.keeps] at hvalue
  rw [Decimal.toBinary64_eq_ofRatio hden hvalue, toDecimal]
  cases n.negative <;> rfl

end Json.Numeral

/-! ## Records of one number -/

namespace Json.Value

/-- An object with one number is written with its key and the numeral between braces. -/
theorem writtenAs_number {key : Quoted} {ks : List Char} {n : Numeral} {d : String}
    (hkey : key.WrittenAs ks) (hnumeral : n.WrittenAs d.toList) :
    (object [(key, .number n)]).WrittenAs
      ("\x7b\"" ++ String.ofList ks ++ "\": " ++ d ++ "\x7d") := by
  have hclose : Layout [.closeObject] (['\x7d'] ++ []) := .lexeme rfl .done
  have hvalue : Layout [.colon, .number n, .closeObject]
      ([':'] ++ ' ' :: (d.toList ++ (['\x7d'] ++ []))) :=
    .lexeme rfl (.space rfl (.lexeme hnumeral hclose))
  have hobject : Layout [.openObject, .string key, .colon, .number n, .closeObject]
      (['\x7b'] ++ ('"' :: (ks ++ ['"'])
        ++ ([':'] ++ ' ' :: (d.toList ++ (['\x7d'] ++ []))))) :=
    .lexeme rfl (.lexeme ⟨ks, hkey, rfl⟩ hvalue)
  have htext : ("\x7b\"" ++ String.ofList ks ++ "\": " ++ d ++ "\x7d").toList
      = ['\x7b'] ++ ('"' :: (ks ++ ['"'])
        ++ ([':'] ++ ' ' :: (d.toList ++ (['\x7d'] ++ [])))) := by
    simp [String.toList_append]
  rw [WrittenAs, htext]
  exact hobject

end Json.Value

namespace Record

/-- **The record of an object with one number** holds what the quick conversion gives; there is
none if the number is too large. -/
theorem ofJson_number {key : Quoted} {name text : String} {n : Numeral}
    (hkey : key.text? = some name) (htext : (Value.object [(key, .number n)]).WrittenAs text) :
    ofJson text
      = Error.decoded (n.toBinary64?.map fun v => Table.empty.insert name (.number v)) := by
  have hread := Value.ofText?_eq_some_iff.mpr htext
  have hkeyed : Value.Keyed [(key, .number n)] [(name, .number n)] := .cons ⟨hkey, rfl⟩ .nil
  have hsound : Value.isSound Value.maxNesting (.object [(key, .number n)])
      = n.toBinary64?.isSome := by
    simp [Value.maxNesting, Value.isSound, hkey]
  rw [ofJson, Value.soundOfText?, hread, Option.filter_some, hsound]
  cases hv : n.toBinary64? with
  | none => rfl
  | some v =>
    show ofValue (.object [(key, .number n)]) = .ok (Table.empty.insert name (.number v))
    rw [ofValue, hkeyed.decodeKeys?_eq]
    show ofEntries [(name, .number n)] = _
    have hdatum : Datum.ofValue? (.number n) = some (.number v) := congrArg (Option.map _) hv
    rw [ofEntries, List.foldlM_cons]
    dsimp only
    rw [hdatum]
    rfl

/-- The object is read if the numeral is not too large. -/
theorem ofJson_of_toBinary64? {key : Quoted} {ks : List Char} {name d : String} {n : Numeral}
    {v : Binary64} (hkey : key.WrittenAs ks) (hname : key.text? = some name)
    (hnumeral : n.WrittenAs d.toList) (hv : n.toBinary64? = some v) :
    ofJson ("\x7b\"" ++ String.ofList ks ++ "\": " ++ d ++ "\x7d")
      = .ok (Table.empty.insert name (.number v)) := by
  rw [ofJson_number hname (Value.writtenAs_number hkey hnumeral), hv]
  rfl

/-- **A number means the same in a record and in a rule** exactly if the quick conversion gives
the number nearest to its decimal, and so it does if it rounds once. In any case a condition
compares the one with the other. -/
theorem evaluate_ofJson_number {key : Quoted} {name text d : String} {n : Numeral}
    {record : Record} (hnumeral : n.WrittenAs d.toList) (hkey : key.text? = some name)
    (htext : (Value.object [(key, .number n)]).WrittenAs text)
    (hrecord : ofJson text = .ok record) :
    ∃ v, n.toBinary64? = some v
      ∧ (∀ op : Comparison, (Tree.leaf ⟨name, op, d⟩).evaluate record
          = .ok (decide (op.Relates v.rank n.toDecimal.toBinary64.rank)))
      ∧ ((Tree.leaf ⟨name, .equal, d⟩).evaluate record = .ok true
            ∧ (Tree.leaf ⟨name, .less, d⟩).evaluate record = .ok false
            ∧ (Tree.leaf ⟨name, .greater, d⟩).evaluate record = .ok false
          ↔ v = n.toDecimal.toBinary64)
      ∧ (n.RoundedOnce → v = n.toDecimal.toBinary64) := by
  rw [ofJson_number hkey htext] at hrecord
  cases hv : n.toBinary64? with
  | none =>
    rw [hv] at hrecord
    cases hrecord
  | some v =>
    rw [hv] at hrecord
    obtain rfl := Except.ok.inj hrecord
    have hevaluate (op : Comparison) :
        (Tree.leaf ⟨name, op, d⟩).evaluate (Table.empty.insert name (.number v))
          = .ok (decide (op.Relates v.rank n.toDecimal.toBinary64.rank)) := by
      have hliteral : Decimal.ofLiteral? (Condition.unquoted ⟨name, op, d⟩)
          = some n.toDecimal.toBinary64 := by
        rw [Numeral.unquoted_of_writtenAs hnumeral, Numeral.ofLiteral?_of_writtenAs hnumeral]
      exact Condition.evaluate_number (Table.get?_insert_self _ _ _) hliteral
    refine ⟨v, rfl, hevaluate, ⟨fun h => ?_, fun h => ?_⟩, fun h => h.eq_toBinary64 hv⟩
    · have hequal := h.1
      rw [hevaluate] at hequal
      exact Binary64.rank_inj.mp (of_decide_eq_true (Except.ok.inj hequal))
    · rw [hevaluate, hevaluate, hevaluate, h]
      exact ⟨congrArg Except.ok (decide_eq_true rfl),
        congrArg Except.ok (decide_eq_false (lt_irrefl _)),
        congrArg Except.ok (decide_eq_false (lt_irrefl _))⟩

/-- The greatest integer of 64 bits, which is rounded to 2⁶⁴ in the record and in the rule. -/
theorem evaluate_ofJson_greatest_word :
    (⟨false, [1, 8, 4, 4, 6, 7, 4, 4, 0, 7, 3, 7, 0, 9, 5, 5, 1, 6, 1, 5], [], none⟩ :
        Numeral).WrittenAs "18446744073709551615".toList
      ∧ ofJson "\x7b\"x\": 18446744073709551615\x7d"
        = .ok (Table.empty.insert "x" (.number (.ofBits 0x43f0000000000000)))
      ∧ (Tree.leaf ⟨"x", .equal, "18446744073709551615"⟩).evaluate
          (Table.empty.insert "x" (.number (.ofBits 0x43f0000000000000)))
        = .ok true := by
  have hnumeral : (⟨false, [1, 8, 4, 4, 6, 7, 4, 4, 0, 7, 3, 7, 0, 9, 5, 5, 1, 6, 1, 5], [], none⟩ :
      Numeral).WrittenAs "18446744073709551615".toList :=
    .mk (List.cons_ne_nil _ _) (fun _ h => absurd (List.cons.inj h).1 (by decide)) .none
  have hkey : Quoted.WrittenAs [.plain 'x'] ['x'] :=
    .cons (.plain (by decide) (by decide) (by decide)) .nil
  have hrecord := ofJson_of_toBinary64? (v := .ofBits 0x43f0000000000000) hkey rfl hnumeral
    (by decide +kernel)
  obtain ⟨v, -, -, hsame, honce⟩ :=
    evaluate_ofJson_number hnumeral rfl (Value.writtenAs_number hkey hnumeral) hrecord
  have heq := honce (Numeral.roundedOnce_of_lt (by decide) rfl)
  exact ⟨hnumeral, hrecord, (hsame.mpr heq).1⟩

/-- The number `3e23` of a record is rounded twice, and is not the number that the rule reads. -/
theorem numeral_read_otherwise :
    (⟨false, [3], [], some ⟨false, [2, 3]⟩⟩ : Numeral).WrittenAs "3e23".toList
      ∧ ofJson "\x7b\"x\": 3e23\x7d"
        = .ok (Table.empty.insert "x" (.number (.ofBits 0x44cfc3842bd1f071)))
      ∧ (Tree.leaf ⟨"x", .equal, "3e23"⟩).evaluate
          (Table.empty.insert "x" (.number (.ofBits 0x44cfc3842bd1f071)))
        = .ok false := by
  have hnumeral : (⟨false, [3], [], some ⟨false, [2, 3]⟩⟩ : Numeral).WrittenAs "3e23".toList :=
    .mk (List.cons_ne_nil _ _) (fun _ h => absurd (List.cons.inj h).1 (by decide))
      (.bare (.inl rfl) (List.cons_ne_nil _ _))
  have hkey : Quoted.WrittenAs [.plain 'x'] ['x'] :=
    .cons (.plain (by decide) (by decide) (by decide)) .nil
  have hrecord := ofJson_of_toBinary64? (v := .ofBits 0x44cfc3842bd1f071) hkey rfl hnumeral
    (by decide +kernel)
  exact ⟨hnumeral, hrecord, by decide +kernel⟩

end Record

end RecordRules
