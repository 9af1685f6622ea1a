/-!
# Comparisons and connectives

A condition compares the value of an attribute with a literal by one of six
**comparisons**; the conditions of a rule are joined by one of two
**connectives**. Both are written as fixed words of a rule's text, and the
case of the connectives matters.
-/

namespace RecordRules

/-- **A comparison** of a value with a literal. -/
inductive Comparison where
  | greater
  | less
  | equal
  | greaterEqual
  | lessEqual
  | notEqual
  deriving DecidableEq, Repr

namespace Comparison

/-- The comparison as it is written. -/
def symbol : Comparison → String
  | greater => ">"
  | less => "<"
  | equal => "="
  | greaterEqual => ">="
  | lessEqual => "<="
  | notEqual => "!="

/-- The comparison that is written so, if there is one. -/
def ofSymbol? : String → Option Comparison
  | ">" => some greater
  | "<" => some less
  | "=" => some equal
  | ">=" => some greaterEqual
  | "<=" => some lessEqual
  | "!=" => some notEqual
  | _ => none

@[simp] theorem ofSymbol?_symbol (op : Comparison) :
    ofSymbol? op.symbol = some op := by
  cases op <;> rfl

/-- A text is read as a comparison only if it is how that one is written. -/
theorem ofSymbol?_eq_some_iff {text : String} {op : Comparison} :
    ofSymbol? text = some op ↔ text = op.symbol := by
  constructor
  · intro h
    unfold ofSymbol? at h
    split at h <;> cases h <;> rfl
  · rintro rfl
    exact ofSymbol?_symbol op

/-- Whether a value that stands in this order to the literal satisfies the
comparison. -/
def accepts : Comparison → Ordering → Bool
  | greater, o => o == .gt
  | less, o => o == .lt
  | equal, o => o == .eq
  | greaterEqual, o => o != .lt
  | lessEqual, o => o != .gt
  | notEqual, o => o != .eq

/-- **The comparisons that a text may begin with**, each with the characters
after its symbol. Where a symbol of two characters fits, the symbol of one
character that begins it, if there is one, fits too and comes second. -/
def readings : List Char → List (Comparison × List Char)
  | '>' :: '=' :: cs => [(greaterEqual, cs), (greater, '=' :: cs)]
  | '<' :: '=' :: cs => [(lessEqual, cs), (less, '=' :: cs)]
  | '!' :: '=' :: cs => [(notEqual, cs)]
  | '>' :: cs => [(greater, cs)]
  | '<' :: cs => [(less, cs)]
  | '=' :: cs => [(equal, cs)]
  | _ => []

end Comparison

/-- **A connective** of two conditions. -/
inductive Connective where
  | and
  | or
  deriving DecidableEq, Repr

namespace Connective

/-- The connective as it is written, in capitals. -/
def symbol : Connective → String
  | .and => "AND"
  | .or => "OR"

/-- The connective that is written so, if there is one. -/
def ofSymbol? : String → Option Connective
  | "AND" => some .and
  | "OR" => some .or
  | _ => none

@[simp] theorem ofSymbol?_symbol (c : Connective) :
    ofSymbol? c.symbol = some c := by
  cases c <;> rfl

/-- A text is read as a connective only if it is how that one is written. -/
theorem ofSymbol?_eq_some_iff {text : String} {c : Connective} :
    ofSymbol? text = some c ↔ text = c.symbol := by
  constructor
  · intro h
    unfold ofSymbol? at h
    split at h <;> cases h <;> rfl
  · rintro rfl
    exact ofSymbol?_symbol c

/-- The truth table of the connective. -/
def apply : Connective → Bool → Bool → Bool
  | .and, a, b => a && b
  | .or, a, b => a || b

end Connective

end RecordRules
