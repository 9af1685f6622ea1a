import RecordRules.Number.Binary64
import RecordRules.Text.Blank

/-!
# Decimal numbers

A **decimal** is a whole number times a power of ten. `Decimal.toBinary64`
gives the binary64 number nearest to it, whatever the number of digits.

A literal is a number when, trimmed, it is written as one: a sign or none;
then either `inf`, `infinity` or `nan`, in any case, or digits with at most
one point among, before or after them; and after digits an exponent or none,
that is `e` or `E`, a sign or none, and digits. `Decimal.ofLiteral?` reads
such a literal, except that what is not a number is not read.
-/

namespace RecordRules

/-- A decimal digit. -/
abbrev Digit := Fin 10

/-- The digit that the character is, if it is one of the ten of ASCII. -/
def Digit.ofChar? (c : Char) : Option Digit :=
  if h : 48 ≤ c.toNat ∧ c.toNat < 58 then some ⟨c.toNat - 48, by omega⟩ else none

/-- The character of the digit. -/
def Digit.toChar (d : Digit) : Char := Char.ofNat (d.val + 48)

@[simp] theorem Digit.ofChar?_toChar (d : Digit) : ofChar? d.toChar = some d := by
  revert d; decide

/-- **A decimal**: a sign, a significand and the power of ten it is multiplied
by. -/
structure Decimal where
  negative : Bool
  significand : Nat
  exponent : Int
  deriving DecidableEq, Repr

namespace Decimal

/-- The number that the digits write. -/
def ofDigits (digits : List Digit) : Nat :=
  digits.foldl (fun n d => n * 10 + d.val) 0

/-- The digits that the characters begin with, and the rest of them. -/
def takeDigits : List Char → List Digit × List Char
  | [] => ([], [])
  | c :: cs =>
    match Digit.ofChar? c with
    | none => ([], c :: cs)
    | some d =>
      let (digits, rest) := takeDigits cs
      (d :: digits, rest)

/-- Whether the characters begin with a minus sign, and what follows the sign,
if there is one. -/
def takeSign : List Char → Bool × List Char
  | '-' :: cs => (true, cs)
  | '+' :: cs => (false, cs)
  | cs => (false, cs)

/-- No character is lost: each is a digit or left over. -/
theorem length_takeDigits (cs : List Char) :
    (takeDigits cs).1.length + (takeDigits cs).2.length = cs.length := by
  induction cs with
  | nil => rfl
  | cons c cs ih =>
    rw [takeDigits]
    split
    · simp
    · simp only [List.length_cons]; omega

/-- A sign takes one character or none. -/
theorem length_takeSign (cs : List Char) :
    (takeSign cs).2.length ≤ cs.length := by
  unfold takeSign
  split <;> simp

/-- **The binary64 number nearest to the decimal.** Powers of ten are cut where
the outcome is infinite or zero already. -/
def toBinary64 (d : Decimal) : Binary64 :=
  match d.exponent with
  | .ofNat e => .ofRatio d.negative (d.significand * Nat.pow 10 (min e 400)) 1
  | .negSucc e =>
    .ofRatio d.negative d.significand
      (Nat.pow 10 (min (e + 1) (400 + Nat.log2 d.significand)))

/-! ## Literals -/

/-- The exponent that is written at the end of a literal, zero where nothing
is. -/
def readExponent? : List Char → Option Int
  | [] => some 0
  | c :: cs =>
    if c == 'e' || c == 'E' then
      let (negative, cs) := takeSign cs
      match takeDigits cs with
      | (digit :: digits, []) =>
        let e := (ofDigits (digit :: digits) : Int)
        some (if negative then -e else e)
      | _ => none
    else none

/-- The decimal that the characters after the sign write. -/
def readUnsigned? (negative : Bool) (cs : List Char) : Option Decimal :=
  let (whole, cs) := takeDigits cs
  let (fraction, cs) := match cs with
    | '.' :: cs => takeDigits cs
    | _ => ([], cs)
  if whole.isEmpty && fraction.isEmpty then none
  else
    (readExponent? cs).map fun e =>
      ⟨negative, ofDigits (whole ++ fraction), e - (fraction.length : Int)⟩

/-- **The binary64 number that the characters write**, or the word that is not
a number. -/
def readBinary64? (cs : List Char) : Option Binary64 :=
  let (negative, cs) := takeSign cs
  let lower := cs.map Char.toLower
  if lower = ['i', 'n', 'f'] || lower = ['i', 'n', 'f', 'i', 'n', 'i', 't', 'y'] then
    some (.infinite negative)
  else if lower = ['n', 'a', 'n'] then some (.notANumber negative)
  else (readUnsigned? negative cs).map toBinary64

/-- **The number that a literal is**, if it is one. -/
def ofLiteral? (literal : String) : Option Binary64 :=
  (readBinary64? (Text.strip literal.toList)).filter fun x => !x.isNaN

end Decimal

end RecordRules
