import RecordRules.Condition.Basic

/-!
# Tokens

The text of a rule is cut into **tokens**: parentheses, and words between
blanks and parentheses. Inside quotes blanks and parentheses do not end a
word; a quote may open in the middle of a word, and only the same quote
closes it. A quote that is never closed runs to the end of the text.

A run of blanks inside quotes is kept as one space, so that two texts which
differ in blanks alone have the same tokens.
-/

namespace RecordRules

/-- **A token** of a rule's text. -/
inductive Token where
  | opening
  | closing
  | word (text : String)
  deriving DecidableEq, Repr

namespace Token

/-- The token as it is written. -/
def text : Token → String
  | opening => "("
  | closing => ")"
  | word text => text

/-- The connective that the token is, if it is one. -/
def connective? : Token → Option Connective
  | word text => Connective.ofSymbol? text
  | _ => none

/-- The word that has been gathered, last character first, before the tokens
that follow; a word of no characters is none. -/
def flush (pending : List Char) (rest : List Token) : List Token :=
  if pending.isEmpty then rest else word (String.ofList pending.reverse) :: rest

/-- **Cutting characters into tokens.** `quote` is the quote that is open, if
one is, and `pending` the word being gathered, last character first. -/
def scan : (quote : Option Char) → (pending : List Char) → List Char → List Token
  | _, pending, [] => flush pending []
  | some q, pending, c :: cs =>
    if Text.isBlank c then
      if pending.head? == some ' ' then scan (some q) pending cs
      else scan (some q) (' ' :: pending) cs
    else scan (if c == q then none else some q) (c :: pending) cs
  | none, pending, c :: cs =>
    if Condition.isQuote c then scan (some c) (c :: pending) cs
    else if c == '(' then flush pending (opening :: scan none [] cs)
    else if c == ')' then flush pending (closing :: scan none [] cs)
    else if Text.isBlank c then flush pending (scan none [] cs)
    else scan none (c :: pending) cs

/-- The tokens of a list of characters. -/
def ofChars (cs : List Char) : List Token := scan none [] (Text.strip cs)

/-- **The tokens of a text.** -/
def tokenize (text : String) : List Token := ofChars text.toList

@[simp] theorem flush_nil (rest : List Token) : flush [] rest = rest := rfl

@[simp] theorem flush_cons (c : Char) (pending : List Char) (rest : List Token) :
    flush (c :: pending) rest
      = word (String.ofList (c :: pending).reverse) :: rest := rfl

end Token

end RecordRules
