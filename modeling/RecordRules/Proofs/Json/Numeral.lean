import Mathlib.Data.Nat.Notation
import RecordRules.Json.Numeral

/-!
# Numerals that are read

A numeral may be written in more ways than one: the letter of its exponent may be of
either case, and an exponent that is not negative may have a sign or none
(`Json.Numeral.WrittenAs`). It goes on for as long as its characters may belong to it, so
that it is read back where what follows cannot go on with it
(`Json.Numeral.read?_append`). Whatever is read was written so
(`Json.Numeral.exists_writtenAs_of_read?`).
-/

namespace RecordRules

/-- A digit is written as the character that it was read from. -/
theorem Digit.toChar_of_ofChar? {c : Char} {d : Digit} (h : ofChar? c = some d) :
    d.toChar = c := by
  unfold ofChar? at h
  split at h
  · next hrange =>
    obtain rfl := Option.some.inj h
    rw [toChar, Nat.sub_add_cancel hrange.1, Char.ofNat_toNat]
  · cases h

/-- **No digit comes first.** -/
def Decimal.NoDigit (cs : List Char) : Prop := ∀ c ∈ cs.head?, Digit.ofChar? c = none

/-- **All the digits in front are taken**, and no more. -/
theorem Decimal.takeDigits_eq_iff {cs rest : List Char} {digits : List Digit} :
    takeDigits cs = (digits, rest)
      ↔ cs = digits.map Digit.toChar ++ rest ∧ NoDigit rest := by
  constructor
  · intro h
    induction cs generalizing digits with
    | nil =>
      obtain ⟨rfl, rfl⟩ := Prod.mk.inj h
      exact ⟨rfl, nofun⟩
    | cons c cs ih =>
      rw [takeDigits] at h
      split at h
      · next hnone =>
        obtain ⟨rfl, rfl⟩ := Prod.mk.inj h
        exact ⟨rfl, fun c hc => Option.some.inj hc ▸ hnone⟩
      · next d hdigit =>
        obtain ⟨rfl, rfl⟩ := Prod.mk.inj h
        obtain ⟨hcs, hrest⟩ := ih rfl
        refine ⟨?_, hrest⟩
        rw [List.map_cons, List.cons_append, ← hcs, Digit.toChar_of_ofChar? hdigit]
  · rintro ⟨rfl, hrest⟩
    induction digits with
    | nil =>
      cases rest with
      | nil => rfl
      | cons c cs =>
        have hnone : Digit.ofChar? c = none := hrest c rfl
        rw [List.map_nil, List.nil_append, takeDigits, hnone]
    | cons d ds ih =>
      rw [List.map_cons, List.cons_append, takeDigits, Digit.ofChar?_toChar]
      dsimp only
      rw [ih]

namespace Json

open Decimal (NoDigit takeDigits takeDigits_eq_iff takeSign)

/-! ## How numerals may be written -/

/-- **How an exponent may be written**, if there is one. -/
inductive Exponent.WrittenAs : Option Exponent → List Char → Prop where
  | none : WrittenAs none []
  | bare {letter : Char} {digits : List Digit} : letter = 'e' ∨ letter = 'E' → digits ≠ [] →
      WrittenAs (some ⟨false, digits⟩) (letter :: digits.map Digit.toChar)
  | plus {letter : Char} {digits : List Digit} : letter = 'e' ∨ letter = 'E' → digits ≠ [] →
      WrittenAs (some ⟨false, digits⟩) (letter :: '+' :: digits.map Digit.toChar)
  | minus {letter : Char} {digits : List Digit} : letter = 'e' ∨ letter = 'E' → digits ≠ [] →
      WrittenAs (some ⟨true, digits⟩) (letter :: '-' :: digits.map Digit.toChar)

namespace Numeral

/-- The sign as it is written. -/
def signChars (negative : Bool) : List Char := if negative then ['-'] else []

/-- The digits after the point as they are written; without any there is no point. -/
def fractionChars (digits : List Digit) : List Char :=
  if digits.isEmpty then [] else '.' :: digits.map Digit.toChar

/-- **How a numeral may be written**: there is a digit before the point, which is no zero
where others follow it. -/
inductive WrittenAs (n : Numeral) : List Char → Prop where
  | mk {es : List Char} : n.whole ≠ [] → (∀ ds, n.whole = 0 :: ds → ds = []) →
      Exponent.WrittenAs n.exponent es →
      WrittenAs n (signChars n.negative
        ++ (n.whole.map Digit.toChar ++ (fractionChars n.fraction ++ es)))

variable {cs rest : List Char} {digits : List Digit}

/-! ## Parts of a numeral -/

/-- A point or the letter of an exponent is no digit. -/
theorem noDigit_cons {c : Char} (h : Digit.ofChar? c = none) (cs : List Char) :
    NoDigit (c :: cs) :=
  fun _ hc => Option.some.inj hc ▸ h

/-- **The digits before the point** are read if there is one, and no zero before others. -/
theorem readWhole?_eq_some_iff :
    readWhole? cs = some (digits, rest)
      ↔ digits ≠ [] ∧ (∀ ds, digits = 0 :: ds → ds = [])
        ∧ cs = digits.map Digit.toChar ++ rest ∧ NoDigit rest := by
  rw [← takeDigits_eq_iff, readWhole?]
  split
  · next htake =>
    rw [htake]
    refine iff_of_false nofun ?_
    rintro ⟨hne, -, h⟩
    exact hne (Prod.mk.inj h).1.symm
  · next d rest' htake =>
    rw [htake, Option.some.injEq]
    refine ⟨fun h => ⟨?_, ?_, h⟩, fun h => h.2.2⟩
    · exact (Prod.mk.inj h).1 ▸ List.cons_ne_nil d []
    · rintro ds rfl
      exact (List.cons.inj (Prod.mk.inj h).1).2.symm
  · next d ds rest' hmany htake =>
    rw [htake]
    split
    · next hzero =>
      refine iff_of_false nofun ?_
      rintro ⟨-, hleading, h⟩
      obtain ⟨rfl, rfl⟩ := Prod.mk.inj h
      obtain rfl := hleading ds (hzero ▸ rfl)
      exact (hmany rfl).elim
    · next hzero =>
      rw [Option.some.injEq]
      refine ⟨fun h => ⟨?_, ?_, h⟩, fun h => h.2.2⟩
      · exact (Prod.mk.inj h).1 ▸ List.cons_ne_nil d ds
      · rintro ds' rfl
        exact absurd (List.cons.inj (Prod.mk.inj h).1).1 hzero

/-- The digits after the point are read where no digit follows, nor a point if there are
none. -/
theorem readFraction?_append (digits : List Digit) (hdigit : NoDigit rest)
    (hpoint : rest.head? ≠ some '.') :
    readFraction? (fractionChars digits ++ rest) = some (digits, rest) := by
  cases digits with
  | nil =>
    show readFraction? rest = some ([], rest)
    unfold readFraction?
    split
    · exact absurd rfl hpoint
    · rfl
  | cons d ds =>
    have htake : takeDigits ((d :: ds).map Digit.toChar ++ rest) = (d :: ds, rest) :=
      takeDigits_eq_iff.mpr ⟨rfl, hdigit⟩
    show readFraction? ('.' :: ((d :: ds).map Digit.toChar ++ rest)) = _
    rw [readFraction?, htake]

/-- Whatever is read after the point was written so. -/
theorem eq_of_readFraction? (h : readFraction? cs = some (digits, rest)) :
    cs = fractionChars digits ++ rest := by
  unfold readFraction? at h
  split at h
  · next cs =>
    split at h
    · cases h
    · next ds rest' hne htake =>
      obtain ⟨rfl, rfl⟩ := Prod.mk.inj (Option.some.inj h)
      obtain ⟨rfl, -⟩ := takeDigits_eq_iff.mp htake
      cases ds with
      | nil => exact (hne rfl).elim
      | cons d ds => rfl
  · obtain ⟨rfl, rfl⟩ := Prod.mk.inj (Option.some.inj h)
    rfl

/-- Whether a numeral may go on with the character: a digit, a point, or the letter of an
exponent. -/
def goesOn (c : Char) : Bool :=
  (Digit.ofChar? c).isSome || c == '.' || (c == 'e' || c == 'E')

/-- **A numeral ends** before the characters. -/
def Ends (rest : List Char) : Prop := ∀ c ∈ rest.head?, goesOn c = false

/-- No digit comes first where a numeral ends. -/
theorem Ends.noDigit (h : Ends rest) : NoDigit rest := by
  intro c hc
  have hgoes := h c hc
  rw [goesOn, Bool.or_eq_false_iff, Bool.or_eq_false_iff] at hgoes
  exact Option.isNone_iff_eq_none.mp (Option.isSome_eq_false_iff.mp hgoes.1.1)

/-- A sign is taken if it is one, and digits have none. -/
theorem takeSign_digits (hne : digits ≠ []) (rest : List Char) :
    takeSign (digits.map Digit.toChar ++ rest) = (false, digits.map Digit.toChar ++ rest) := by
  cases digits with
  | nil => exact absurd rfl hne
  | cons d ds =>
    have hsign : ∀ d : Digit, d.toChar ≠ '-' ∧ d.toChar ≠ '+' := by decide
    show takeSign (d.toChar :: (ds.map Digit.toChar ++ rest)) = _
    unfold takeSign
    split
    · next heq => exact absurd (List.cons.inj heq).1 (hsign d).1
    · next heq => exact absurd (List.cons.inj heq).1 (hsign d).2
    · rfl

/-- An exponent is read with the sign and the digits after its letter. -/
theorem readExponent?_cons {letter : Char} (hletter : letter = 'e' ∨ letter = 'E')
    {negative : Bool} (hne : digits ≠ [])
    (hsign : takeSign cs = (negative, digits.map Digit.toChar ++ rest)) (hrest : NoDigit rest) :
    readExponent? (letter :: cs) = some (some ⟨negative, digits⟩, rest) := by
  have htake : takeDigits (digits.map Digit.toChar ++ rest) = (digits, rest) :=
    takeDigits_eq_iff.mpr ⟨rfl, hrest⟩
  have hif : (letter == 'e' || letter == 'E') = true := by
    rcases hletter with rfl | rfl <;> rfl
  rw [readExponent?, if_pos hif, hsign]
  dsimp only
  rw [htake]
  cases digits with
  | nil => exact absurd rfl hne
  | cons d ds => rfl

/-- An exponent is read where a numeral ends. -/
theorem readExponent?_append {e : Option Exponent} {es : List Char}
    (h : Exponent.WrittenAs e es) (hrest : Ends rest) :
    readExponent? (es ++ rest) = some (e, rest) := by
  have hdigit := hrest.noDigit
  cases h with
  | none =>
    cases rest with
    | nil => rfl
    | cons c cs =>
      have hif : (c == 'e' || c == 'E') = false := (Bool.or_eq_false_iff.mp (hrest c rfl)).2
      rw [List.nil_append, readExponent?, if_neg (Bool.eq_false_iff.mp hif)]
  | bare hletter hne => exact readExponent?_cons hletter hne (takeSign_digits hne rest) hdigit
  | plus hletter hne => exact readExponent?_cons hletter hne rfl hdigit
  | minus hletter hne => exact readExponent?_cons hletter hne rfl hdigit

/-- Whatever is read of an exponent was written so. -/
theorem exists_writtenAs_of_readExponent? {e : Option Exponent}
    (h : readExponent? cs = some (e, rest)) :
    ∃ es, Exponent.WrittenAs e es ∧ cs = es ++ rest := by
  unfold readExponent? at h
  split at h
  · obtain ⟨rfl, rfl⟩ := Prod.mk.inj (Option.some.inj h)
    exact ⟨[], .none, rfl⟩
  · next letter cs =>
    split at h
    · next hif =>
      have hletter : letter = 'e' ∨ letter = 'E' := by
        rwa [Bool.or_eq_true, beq_iff_eq, beq_iff_eq] at hif
      dsimp only at h
      split at h
      · cases h
      · next ds rest' hne htake =>
        obtain ⟨rfl, rfl⟩ := Prod.mk.inj (Option.some.inj h)
        obtain ⟨hcs, -⟩ := takeDigits_eq_iff.mp htake
        have hne : ds ≠ [] := fun hnil => hne hnil
        unfold takeSign at hcs ⊢
        split at hcs
        · exact ⟨_, .minus hletter hne, congrArg (letter :: '-' :: ·) hcs⟩
        · exact ⟨_, .plus hletter hne, congrArg (letter :: '+' :: ·) hcs⟩
        · exact ⟨_, .bare hletter hne, congrArg (letter :: ·) hcs⟩
    · obtain ⟨rfl, rfl⟩ := Prod.mk.inj (Option.some.inj h)
      exact ⟨[], .none, rfl⟩

/-! ## Whole numerals -/

/-- **Whether a numeral may begin with the character.** -/
def begins (c : Char) : Bool := c == '-' || (Digit.ofChar? c).isSome

/-- A numeral begins with a minus sign or with a digit. -/
theorem WrittenAs.exists_cons {n : Numeral} {ns : List Char} (h : n.WrittenAs ns) :
    ∃ c tail, ns = c :: tail ∧ begins c = true := by
  obtain ⟨hne, -, -⟩ := h
  obtain ⟨d, ds, hwhole⟩ := List.exists_cons_of_ne_nil hne
  rw [hwhole]
  cases n.negative with
  | true => exact ⟨'-', _, rfl, rfl⟩
  | false =>
    have hdigit : ∀ d : Digit, begins d.toChar = true := by decide
    exact ⟨d.toChar, _, rfl, hdigit d⟩

/-- Neither an exponent nor what follows it goes on with the digits before it. -/
theorem noDigit_append {e : Option Exponent} {es : List Char} (h : Exponent.WrittenAs e es)
    (hrest : Ends rest) : NoDigit (es ++ rest) ∧ (es ++ rest).head? ≠ some '.' := by
  have hcons {letter : Char} (hletter : letter = 'e' ∨ letter = 'E') (cs : List Char) :
      NoDigit (letter :: cs) ∧ (letter :: cs).head? ≠ some '.' := by
    have hne : letter ≠ '.' ∧ Digit.ofChar? letter = none := by
      rcases hletter with rfl | rfl <;> decide
    exact ⟨noDigit_cons hne.2 cs, fun hpoint => hne.1 (Option.some.inj hpoint)⟩
  cases h with
  | none => exact ⟨hrest.noDigit, fun hpoint => absurd (hrest '.' hpoint) (by decide)⟩
  | bare hletter _ => exact hcons hletter _
  | plus hletter _ => exact hcons hletter _
  | minus hletter _ => exact hcons hletter _

/-- A minus sign is taken if there is one, and digits have none. -/
theorem takeMinus_append (negative : Bool) (hne : digits ≠ []) (rest : List Char) :
    takeMinus (signChars negative ++ (digits.map Digit.toChar ++ rest))
      = (negative, digits.map Digit.toChar ++ rest) := by
  cases negative with
  | true => rfl
  | false =>
    cases digits with
    | nil => exact absurd rfl hne
    | cons d ds =>
      have hsign : ∀ d : Digit, d.toChar ≠ '-' := by decide
      show takeMinus (d.toChar :: (ds.map Digit.toChar ++ rest)) = _
      unfold takeMinus
      split
      · next heq => exact absurd (List.cons.inj heq).1 (hsign d)
      · rfl

/-- **A numeral is read** where nothing goes on with it. -/
theorem read?_append {n : Numeral} {ns : List Char} (h : n.WrittenAs ns) (hrest : Ends rest) :
    read? (ns ++ rest) = some (n, rest) := by
  obtain ⟨hne, hleading, hexponent⟩ := h
  next es =>
  obtain ⟨hdigit, hpoint⟩ := noDigit_append hexponent hrest
  have hfraction := readFraction?_append n.fraction hdigit hpoint
  have hwhole : readWhole? (n.whole.map Digit.toChar
      ++ (fractionChars n.fraction ++ (es ++ rest)))
      = some (n.whole, fractionChars n.fraction ++ (es ++ rest)) := by
    refine readWhole?_eq_some_iff.mpr ⟨hne, hleading, rfl, ?_⟩
    cases n.fraction with
    | nil => exact hdigit
    | cons d ds => exact noDigit_cons (by decide) _
  rw [List.append_assoc, List.append_assoc, List.append_assoc, read?, takeMinus_append _ hne]
  dsimp only
  rw [hwhole, Option.bind_eq_bind, Option.bind_some]
  dsimp only
  rw [hfraction, Option.bind_eq_bind, Option.bind_some]
  dsimp only
  rw [readExponent?_append hexponent hrest]
  rfl

/-- **Whatever is read as a numeral was written so.** -/
theorem exists_writtenAs_of_read? {n : Numeral} (h : read? cs = some (n, rest)) :
    ∃ ns, n.WrittenAs ns ∧ cs = ns ++ rest := by
  obtain ⟨⟨whole, afterWhole⟩, hwhole, h⟩ := Option.bind_eq_some_iff.mp h
  obtain ⟨⟨fraction, afterFraction⟩, hfraction, h⟩ := Option.bind_eq_some_iff.mp h
  obtain ⟨⟨exponent, afterExponent⟩, hexponent, h⟩ := Option.bind_eq_some_iff.mp h
  obtain ⟨rfl, rfl⟩ := Prod.mk.inj (Option.some.inj h)
  obtain ⟨hne, hleading, hcs, -⟩ := readWhole?_eq_some_iff.mp hwhole
  obtain rfl := eq_of_readFraction? hfraction
  obtain ⟨es, hes, rfl⟩ := exists_writtenAs_of_readExponent? hexponent
  have hsign : cs = signChars (takeMinus cs).1 ++ (takeMinus cs).2 := by
    unfold takeMinus
    split <;> rfl
  refine ⟨_, .mk hne hleading hes, ?_⟩
  rw [List.append_assoc, List.append_assoc, List.append_assoc]
  exact hsign.trans (congrArg _ hcs)

end Numeral

end Json

end RecordRules
