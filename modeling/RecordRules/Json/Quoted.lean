import RecordRules.Text.Blank

/-!
# Strings of JSON text

Between its quotes a string of JSON text is a sequence of **pieces**: a
character that stands for itself, an escape of one letter, or an escape by a
UTF-16 code unit. Every such sequence is well formed as text; only when it is
decoded does it matter that the units of characters outside the basic plane
have to come in pairs. A string that is passed over is never decoded.

`Quoted.encode` writes what it must as an escape and no more: the quote, the
backslash, and the control characters below the space.
-/

namespace RecordRules.Json

/-- **The escapes of one letter.** -/
inductive Escape where
  | quote
  | backslash
  | slash
  | backspace
  | formFeed
  | newline
  | carriageReturn
  | tab
  deriving DecidableEq, Repr

namespace Escape

/-- The letter after the backslash. -/
def letter : Escape → Char
  | quote => '"'
  | backslash => '\\'
  | slash => '/'
  | backspace => 'b'
  | formFeed => 'f'
  | newline => 'n'
  | carriageReturn => 'r'
  | tab => 't'

/-- The character that the escape stands for. -/
def char : Escape → Char
  | quote => '"'
  | backslash => '\\'
  | slash => '/'
  | backspace => '\u0008'
  | formFeed => '\u000c'
  | newline => '\n'
  | carriageReturn => '\r'
  | tab => '\t'

/-- The escape with this letter. -/
def ofLetter? : Char → Option Escape
  | '"' => some quote
  | '\\' => some backslash
  | '/' => some slash
  | 'b' => some backspace
  | 'f' => some formFeed
  | 'n' => some newline
  | 'r' => some carriageReturn
  | 't' => some tab
  | _ => none

@[simp] theorem ofLetter?_letter (e : Escape) : ofLetter? e.letter = some e := by
  cases e <;> rfl

/-- The escape that the character has to be written as, if it has one. -/
def ofChar? : Char → Option Escape
  | '"' => some quote
  | '\\' => some backslash
  | '\u0008' => some backspace
  | '\u000c' => some formFeed
  | '\n' => some newline
  | '\r' => some carriageReturn
  | '\t' => some tab
  | _ => none

end Escape

/-! ## Hexadecimal digits -/

/-- The value of a hexadecimal digit, of either case. -/
def hexValue? (c : Char) : Option (Fin 16) :=
  if h : 48 ≤ c.toNat ∧ c.toNat < 58 then some ⟨c.toNat - 48, by omega⟩
  else if h : 97 ≤ c.toNat ∧ c.toNat < 103 then some ⟨c.toNat - 87, by omega⟩
  else if h : 65 ≤ c.toNat ∧ c.toNat < 71 then some ⟨c.toNat - 55, by omega⟩
  else none

/-- The digit of this value, of lower case. -/
def hexDigit (n : Fin 16) : Char :=
  if n.val < 10 then Char.ofNat (n.val + 48) else Char.ofNat (n.val + 87)

@[simp] theorem hexValue?_hexDigit (n : Fin 16) : hexValue? (hexDigit n) = some n := by
  revert n; decide

/-- The code unit that four hexadecimal digits write. -/
def unitOfHex? (a b c d : Char) : Option (Fin 65536) := do
  let a ← hexValue? a
  let b ← hexValue? b
  let c ← hexValue? c
  let d ← hexValue? d
  return ⟨((a.val * 16 + b.val) * 16 + c.val) * 16 + d.val, by omega⟩

/-- The four digits of a code unit. -/
def hexOfUnit (u : Fin 65536) : List Char :=
  [u.val / 4096 % 16, u.val / 256 % 16, u.val / 16 % 16, u.val % 16].map
    fun n => hexDigit ⟨n % 16, Nat.mod_lt _ (by decide)⟩

/-! ## Pieces -/

/-- **A piece** of a string of JSON text. -/
inductive Piece where
  | plain (c : Char)
  | escape (e : Escape)
  | unit (code : Fin 65536)
  deriving DecidableEq, Repr

/-- A string as it is written between its quotes. -/
abbrev Quoted := List Piece

namespace Quoted

/-- Whether the code unit is the first of a pair. -/
def isLeading (u : Nat) : Bool := 0xd800 ≤ u && u < 0xdc00

/-- Whether the code unit is the second of a pair. -/
def isTrailing (u : Nat) : Bool := 0xdc00 ≤ u && u < 0xe000

/-- **The characters that the pieces stand for**, unless a code unit that
belongs to a pair stands alone. -/
def decode? : Quoted → Option (List Char)
  | [] => some []
  | .plain c :: rest => (decode? rest).map (c :: ·)
  | .escape e :: rest => (decode? rest).map (e.char :: ·)
  | .unit u :: .unit v :: rest =>
    if isLeading u.val then
      if isTrailing v.val then
        (decode? rest).map
          (Char.ofNat (0x10000 + (u.val - 0xd800) * 0x400 + (v.val - 0xdc00)) :: ·)
      else none
    else if isTrailing u.val then none
    else (decode? (.unit v :: rest)).map (Char.ofNat u.val :: ·)
  | .unit u :: rest =>
    if isLeading u.val || isTrailing u.val then none
    else (decode? rest).map (Char.ofNat u.val :: ·)

/-- The piece that a character is written as. -/
def ofChar (c : Char) : Piece :=
  match Escape.ofChar? c with
  | some e => .escape e
  | none => if h : c.toNat < 32 then .unit ⟨c.toNat, by omega⟩ else .plain c

/-- **The pieces that a text is written as.** -/
def encode (cs : List Char) : Quoted := cs.map ofChar

/-- The piece as it is written. -/
def spellPiece : Piece → List Char
  | .plain c => [c]
  | .escape e => ['\\', e.letter]
  | .unit u => '\\' :: 'u' :: hexOfUnit u

/-- The string as it is written, with its quotes. -/
def spell (q : Quoted) : List Char :=
  '"' :: (q.flatMap spellPiece ++ ['"'])

/-- **Reading a string** whose opening quote has been read, and the characters
after its closing quote. A control character below the space is not allowed
to stand for itself. -/
def read? : List Char → Option (Quoted × List Char)
  | [] => none
  | '"' :: cs => some ([], cs)
  | '\\' :: 'u' :: a :: b :: c :: d :: cs => do
    let u ← unitOfHex? a b c d
    let (pieces, rest) ← read? cs
    return (.unit u :: pieces, rest)
  | '\\' :: letter :: cs => do
    let e ← Escape.ofLetter? letter
    let (pieces, rest) ← read? cs
    return (.escape e :: pieces, rest)
  | c :: cs =>
    if c == '\\' || decide (c.toNat < 32) then none
    else do
      let (pieces, rest) ← read? cs
      return (.plain c :: pieces, rest)

/-- A string takes at least its closing quote. -/
theorem length_lt_of_read? {cs rest : List Char} {q : Quoted}
    (h : read? cs = some (q, rest)) : rest.length < cs.length := by
  fun_induction read? cs generalizing q with
  | case1 => simp at h
  | case2 cs => simp_all
  | case3 a b c d cs ih =>
    simp only [Option.bind_eq_bind, Option.bind_eq_some_iff, Option.pure_def,
      Option.some.injEq, Prod.mk.injEq] at h
    obtain ⟨_, _, ⟨_, tail⟩, hp, -, rfl⟩ := h
    have : tail.length < cs.length := ih hp
    simp only [List.length_cons]; omega
  | case4 letter cs _ ih =>
    simp only [Option.bind_eq_bind, Option.bind_eq_some_iff, Option.pure_def,
      Option.some.injEq, Prod.mk.injEq] at h
    obtain ⟨_, _, ⟨_, tail⟩, hp, -, rfl⟩ := h
    have : tail.length < cs.length := ih hp
    simp only [List.length_cons]; omega
  | case5 => simp at h
  | case6 c cs _ _ _ _ ih =>
    simp only [Option.bind_eq_bind, Option.bind_eq_some_iff, Option.pure_def,
      Option.some.injEq, Prod.mk.injEq] at h
    obtain ⟨⟨_, tail⟩, hp, -, rfl⟩ := h
    have : tail.length < cs.length := ih hp
    simp only [List.length_cons]; omega

/-- The text that the pieces stand for. -/
def text? (q : Quoted) : Option String := (decode? q).map String.ofList

/-- The string of a text. -/
def ofText (text : String) : Quoted := encode text.toList

end Quoted

end RecordRules.Json
