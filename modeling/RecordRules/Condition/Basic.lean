import RecordRules.Condition.Comparison
import RecordRules.Error
import RecordRules.Text.Word

/-!
# Conditions

A **condition** such as `age >= 30` is the name of an attribute, a comparison
and a literal. The literal is kept as it is written, quotes included, and
`Condition.unquoted` takes off one layer of them.

`Condition.ofText?` reads a condition that stands alone as a text, where
blanks around the comparison may be left out. What it accepts is

    name  blanks?  comparison  blanks?  literal

after trimming: a name of one or more word characters, and a literal that is
either a span in quotes without its own quote inside, or one or more
characters that are neither blanks, quotes nor parentheses. `a>=1` can be
split in one way only, `a>==` in two, and then the longer comparison is
taken: `a`, `>=`, `=`. Only where it leaves no literal does the shorter one
get its chance, so `a>=` is `a`, `>`, `=`.
-/

namespace RecordRules

/-- **A condition**: an attribute compared with a literal as it is written. -/
structure Condition where
  /-- The attribute whose value is looked up. -/
  name : String
  /-- How the value is compared. -/
  comparison : Comparison
  /-- The literal as it is written, quotes included. -/
  literal : String
  deriving DecidableEq, Repr

namespace Condition

/-- The condition as text: its three parts, a space between any two. -/
def text (c : Condition) : String :=
  c.name ++ " " ++ c.comparison.symbol ++ " " ++ c.literal

/-! ## Quotes -/

/-- Whether the character is a quote. -/
def isQuote (c : Char) : Bool := c == '\'' || c == '"'

/-- The characters without one layer of quotes around them; the quotes have
to be two, and of one kind. -/
def unquote : List Char → List Char
  | [] => []
  | q :: cs => if isQuote q && cs.getLast? == some q then cs.dropLast else q :: cs

/-- The literal without one layer of quotes around it. -/
def unquoted (c : Condition) : String := String.ofList (unquote c.literal.toList)

/-! ## Reading a condition -/

/-- Whether a literal without quotes may hold the character. -/
def isBare (c : Char) : Bool :=
  !(Text.isBlank c || isQuote c || c == '(' || c == ')')

/-- Whether the first `q` of the characters is also the last of them. -/
def endsAtFirst (q : Char) : List Char → Bool
  | [] => false
  | c :: cs => if c == q then cs.isEmpty else endsAtFirst q cs

/-- **The literals**: a span in quotes that is closed by its last character
and not before, or one or more bare characters. -/
def isLiteral : List Char → Bool
  | [] => false
  | c :: cs => if isQuote c then endsAtFirst c cs else (c :: cs).all isBare

/-- The condition that the characters spell after a name, if they do: the
first of the readings of the comparison that leaves a literal. -/
def ofName? (name : List Char) (cs : List Char) : Option Condition :=
  (Comparison.readings (Text.dropBlanks cs)).findSome? fun (op, rest) =>
    let literal := Text.dropBlanks rest
    if isLiteral literal then
      some ⟨String.ofList name, op, String.ofList literal⟩
    else none

/-- **The condition that the text spells**, if it does. -/
def ofText? (text : String) : Option Condition :=
  let cs := Text.strip text.toList
  match cs.takeWhile Text.isWord with
  | [] => none
  | name => ofName? name (cs.dropWhile Text.isWord)

/-- The condition that the text spells, or the fault that it spells none. -/
def read (text : String) : Except NodeFault Condition :=
  match ofText? text with
  | some c => .ok c
  | none => .error (.malformedCondition text)

/-- **Reading a text that is a condition and nothing else.** -/
def ofText (text : String) : Except Error Condition :=
  (read text).mapError (.invalidNode .condition)

/-- Whether the condition is what its own text spells. A condition put
together from arbitrary strings need not be: the text of the attribute `a b`
spells nothing, that of the attribute `a` with the comparison `>` and the
literal `= 1` another condition. -/
def isSpelled (c : Condition) : Bool := ofText? c.text == some c

end Condition

end RecordRules
