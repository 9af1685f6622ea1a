import RecordRules.Json.Numeral
import RecordRules.Json.Quoted

/-!
# Lexemes of JSON text

JSON text is a sequence of **lexemes**: punctuation, the three words, strings
and numerals. Between them there may be spaces, tabs and line breaks, and no
other blanks.
-/

namespace RecordRules.Json

/-- **A lexeme** of JSON text. -/
inductive Lexeme where
  | openObject
  | closeObject
  | openArray
  | closeArray
  | colon
  | comma
  | null
  | truth (value : Bool)
  | number (numeral : Numeral)
  | string (quoted : Quoted)
  deriving DecidableEq, Repr

namespace Lexeme

/-- The lexeme as it is written. -/
def spell : Lexeme → List Char
  | openObject => ['\x7b']
  | closeObject => ['\x7d']
  | openArray => ['[']
  | closeArray => [']']
  | colon => [':']
  | comma => [',']
  | null => ['n', 'u', 'l', 'l']
  | truth true => ['t', 'r', 'u', 'e']
  | truth false => ['f', 'a', 'l', 's', 'e']
  | number numeral => numeral.spell
  | string quoted => quoted.spell

/-- Whether the character may stand between lexemes. -/
def isSpace (c : Char) : Bool := c == ' ' || c == '\t' || c == '\n' || c == '\r'

/-- **Reading a lexeme**, and the characters after it. -/
def read? : List Char → Option (Lexeme × List Char)
  | '\x7b' :: cs => some (openObject, cs)
  | '\x7d' :: cs => some (closeObject, cs)
  | '[' :: cs => some (openArray, cs)
  | ']' :: cs => some (closeArray, cs)
  | ':' :: cs => some (colon, cs)
  | ',' :: cs => some (comma, cs)
  | 'n' :: 'u' :: 'l' :: 'l' :: cs => some (null, cs)
  | 't' :: 'r' :: 'u' :: 'e' :: cs => some (truth true, cs)
  | 'f' :: 'a' :: 'l' :: 's' :: 'e' :: cs => some (truth false, cs)
  | '"' :: cs => (Quoted.read? cs).map fun (quoted, rest) => (string quoted, rest)
  | cs => (Numeral.read? cs).map fun (numeral, rest) => (number numeral, rest)

/-- A lexeme takes at least one character. -/
theorem length_lt_of_read? {cs rest : List Char} {l : Lexeme}
    (h : read? cs = some (l, rest)) : rest.length < cs.length := by
  unfold read? at h
  split at h
  case h_10 cs =>
    simp only [Option.map_eq_some_iff, Prod.mk.injEq, Prod.exists] at h
    obtain ⟨_, _, hq, -, rfl⟩ := h
    have := Quoted.length_lt_of_read? hq
    simp only [List.length_cons]; omega
  case h_11 =>
    simp only [Option.map_eq_some_iff, Prod.mk.injEq, Prod.exists] at h
    obtain ⟨_, _, hn, -, rfl⟩ := h
    exact Numeral.length_lt_of_read? hn
  all_goals
    simp only [Option.some.injEq, Prod.mk.injEq] at h
    obtain ⟨-, rfl⟩ := h
    simp only [List.length_cons]; omega

/-! ## The lexemes of a text -/

/-- **The lexemes of the characters**, if they are nothing but lexemes and
spaces. -/
def ofChars? (cs : List Char) : Option (List Lexeme) :=
  match cs with
  | [] => some []
  | c :: tail =>
    if isSpace c then ofChars? tail
    else
      match _h : read? (c :: tail) with
      | none => none
      | some (l, rest) => (ofChars? rest).map (l :: ·)
termination_by cs.length
decreasing_by
  · simp
  · exact length_lt_of_read? _h

end Lexeme

end RecordRules.Json
