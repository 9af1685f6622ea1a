import RecordRules.Number.Decimal
import RecordRules.Record.Basic
import RecordRules.Tree.Basic

/-!
# Evaluating a tree

A condition looks up its attribute in a record and compares the value with its
unquoted literal. A number is compared as a number, in the total order of
binary64 words, and the literal has to be one too. A text is compared as a
text, by code points, whatever the literal looks like.

Both children of a node are always evaluated, the left one first, so the
outcome is the error of the first condition that fails, if one does, and the
connectives decide nothing but the answer of a tree whose conditions all have
one.
-/

namespace RecordRules

/-- The order of two texts, by the code points of their characters. -/
def Text.order (s t : String) : Ordering :=
  if s < t then .lt else if s = t then .eq else .gt

/-- **The order of a value relative to a literal**; `name` is the attribute
that an error speaks of. -/
def Datum.order (name : String) (literal : String) : Datum → Except Error Ordering
  | number x =>
    match Decimal.ofLiteral? literal with
    | some y => .ok (x.totalCompare y)
    | none => .error (.typeMismatch name literal)
  | text s => .ok (Text.order s literal)

/-- **Whether the record satisfies the condition.** -/
def Condition.evaluate (c : Condition) (record : Record) : Except Error Bool :=
  match record.get? c.name with
  | none => .error (.attributeNotFound c.name)
  | some datum => (datum.order c.name c.unquoted).map c.comparison.accepts

/-- **Whether the record satisfies the tree.** -/
def Tree.evaluate (record : Record) : Tree → Except Error Bool
  | leaf c => c.evaluate record
  | node k l r => do
    let left ← l.evaluate record
    let right ← r.evaluate record
    return k.apply left right

end RecordRules
