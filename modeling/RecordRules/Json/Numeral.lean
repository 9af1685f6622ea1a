import RecordRules.Number.Decimal

/-!
# Numbers of JSON text

A **numeral** is a number as it is written in JSON text: digits, perhaps a
fraction, perhaps an exponent. What number it is taken for is decided by a
quick conversion that is not always the nearest number
(`Numeral.toBinary64?`): the digits are gathered into a 64-bit word for as
long as they fit and the rest are dropped; the word is rounded to a binary64
number; and this is multiplied or divided by the power of ten that is left,
with one more rounding, or several where the power is below 10⁻³⁰⁸. A number
whose magnitude is too large is refused; one whose magnitude is too small is
zero.
-/

namespace RecordRules.Json

/-- The exponent of a numeral. -/
structure Exponent where
  negative : Bool
  digits : List Digit
  deriving DecidableEq, Repr

/-- **A number as it is written**: at least one digit before the point, and
the digits after it, none if there is no point. -/
structure Numeral where
  negative : Bool
  whole : List Digit
  fraction : List Digit
  exponent : Option Exponent
  deriving DecidableEq, Repr

/-- The exponent as an integer. -/
def Exponent.toInt (e : Exponent) : Int :=
  if e.negative then -(Decimal.ofDigits e.digits : Int) else Decimal.ofDigits e.digits

namespace Numeral

/-! ## The text of a numeral -/

/-- The numeral as it is written. -/
def spell (n : Numeral) : List Char :=
  (if n.negative then ['-'] else [])
    ++ n.whole.map Digit.toChar
    ++ (if n.fraction.isEmpty then [] else '.' :: n.fraction.map Digit.toChar)
    ++ (match n.exponent with
      | none => []
      | some e => 'e' :: ((if e.negative then ['-'] else []) ++ e.digits.map Digit.toChar))

/-- The digits before the point: at least one, and no zero before others. -/
def readWhole? (cs : List Char) : Option (List Digit × List Char) :=
  match Decimal.takeDigits cs with
  | ([], _) => none
  | ([d], rest) => some ([d], rest)
  | (d :: ds, rest) => if d = 0 then none else some (d :: ds, rest)

/-- The digits after the point, if there is a point; then there is at least
one. -/
def readFraction? : List Char → Option (List Digit × List Char)
  | '.' :: cs =>
    match Decimal.takeDigits cs with
    | ([], _) => none
    | (digits, rest) => some (digits, rest)
  | cs => some ([], cs)

/-- The exponent, if there is one; then it has at least one digit. -/
def readExponent? : List Char → Option (Option Exponent × List Char)
  | [] => some (none, [])
  | c :: cs =>
    if c == 'e' || c == 'E' then
      let (negative, afterSign) := Decimal.takeSign cs
      match Decimal.takeDigits afterSign with
      | ([], _) => none
      | (digits, rest) => some (some ⟨negative, digits⟩, rest)
    else some (none, c :: cs)

/-- A minus sign, if there is one. -/
def takeMinus : List Char → Bool × List Char
  | '-' :: cs => (true, cs)
  | cs => (false, cs)

/-- **Reading a numeral**, and the characters after it. -/
def read? (cs : List Char) : Option (Numeral × List Char) := do
  let (negative, cs) := takeMinus cs
  let (whole, cs) ← readWhole? cs
  let (fraction, cs) ← readFraction? cs
  let (exponent, cs) ← readExponent? cs
  return (⟨negative, whole, fraction, exponent⟩, cs)

theorem length_le_of_readFraction? {cs rest : List Char} {digits : List Digit}
    (h : readFraction? cs = some (digits, rest)) :
    rest.length ≤ cs.length := by
  unfold readFraction? at h
  split at h
  · rename_i cs
    have := Decimal.length_takeDigits cs
    split at h
    · simp at h
    · rename_i ds tail _ hd
      simp only [Option.some.injEq, Prod.mk.injEq] at h
      obtain ⟨-, rfl⟩ := h
      simp only [hd] at this
      simp only [List.length_cons]
      omega
  · simp_all

theorem length_le_of_readExponent? {cs rest : List Char} {e : Option Exponent}
    (h : readExponent? cs = some (e, rest)) :
    rest.length ≤ cs.length := by
  unfold readExponent? at h
  split at h
  · simp_all
  · rename_i c cs
    split at h
    · have hs := Decimal.length_takeSign cs
      have hd := Decimal.length_takeDigits (Decimal.takeSign cs).2
      dsimp only at h
      split at h
      · simp at h
      · rename_i ds tail _ heq
        simp only [Option.some.injEq, Prod.mk.injEq] at h
        obtain ⟨-, rfl⟩ := h
        simp only [heq] at hd
        simp only [List.length_cons]
        omega
    · simp_all

theorem length_lt_of_readWhole? {cs rest : List Char} {digits : List Digit}
    (h : readWhole? cs = some (digits, rest)) :
    rest.length < cs.length := by
  have := Decimal.length_takeDigits cs
  unfold readWhole? at h
  split at h
  · simp at h
  · rename_i hd
    simp_all only [Option.some.injEq, Prod.mk.injEq, List.length_cons, List.length_nil]
    omega
  · rename_i hd
    split at h
    · simp at h
    · simp_all only [Option.some.injEq, Prod.mk.injEq, List.length_cons]
      omega

/-- A numeral takes at least one character. -/
theorem length_lt_of_read? {cs rest : List Char} {n : Numeral}
    (h : read? cs = some (n, rest)) : rest.length < cs.length := by
  have hm : (takeMinus cs).2.length ≤ cs.length := by
    unfold takeMinus
    split <;> simp
  simp only [read?, Option.bind_eq_bind, Option.bind_eq_some_iff,
    Option.pure_def, Option.some.injEq, Prod.mk.injEq] at h
  obtain ⟨⟨_, _⟩, hw, ⟨_, _⟩, hf, ⟨_, _⟩, he, -, rfl⟩ := h
  dsimp only at *
  have := length_lt_of_readWhole? hw
  have := length_le_of_readFraction? hf
  have := length_le_of_readExponent? he
  omega

/-! ## The number of a numeral -/

/-- How many words of 64 bits there are, 2⁶⁴. -/
def wordCount : Nat := 0x10000000000000000

/-- Gathers digits into a word of 64 bits that holds `word` so far, as long as
they fit; the digits that are left begin with the first that does not. -/
def gather (word : Nat) : List Digit → Nat × List Digit
  | [] => (word, [])
  | d :: ds =>
    if word * 10 + d.val < wordCount then gather (word * 10 + d.val) ds
    else (word, d :: ds)

/-- The number divided by a power of ten: in one step if the power is at most
10³⁰⁸, else by 10³⁰⁸ over and over, unless nothing is left. -/
def divideByPower (x : Binary64) (power : Nat) : Binary64 :=
  if power ≤ 308 then x.div (.ofNat (Nat.pow 10 power))
  else if x.magnitude = 0 then x
  else divideByPower (x.div (.ofNat (Nat.pow 10 308))) (power - 308)
termination_by power

/-- The number times a power of ten, unless it is too large. -/
def multiplyByPower? (x : Binary64) (power : Nat) : Option Binary64 :=
  if power ≤ 308 then
    (some (x.mul (.ofNat (Nat.pow 10 power)))).filter fun y => !y.isInfinite
  else if x.magnitude = 0 then some x
  else none

/-- The number times ten to the exponent, unless it is too large. -/
def scale? (x : Binary64) : (exponent : Int) → Option Binary64
  | .ofNat power => multiplyByPower? x power
  | .negSucc power => some (divideByPower x (power + 1))

/-- **The number that a numeral is taken for**, unless it is too large. A digit
before the point that was dropped raises the exponent, one after it that was
gathered lowers it. -/
def toBinary64? (n : Numeral) : Option Binary64 :=
  let (word, dropped) := gather 0 n.whole
  let (word, unread) := gather word n.fraction
  let exponent : Int :=
    (dropped.length : Int) - ((n.fraction.length : Int) - unread.length)
      + (n.exponent.map Exponent.toInt).getD 0
  (scale? (.ofNat word) exponent).map fun x => if n.negative then x.neg else x

/-- **The count that a numeral is**: a natural number below 2⁶⁴, written
without sign, fraction and exponent. -/
def toCount? (n : Numeral) : Option Nat :=
  if n.negative || !n.fraction.isEmpty || n.exponent.isSome then none
  else
    let count := Decimal.ofDigits n.whole
    if count < wordCount then some count else none

end Numeral

end RecordRules.Json
