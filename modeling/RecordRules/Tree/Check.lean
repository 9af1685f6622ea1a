import RecordRules.Tree.Parser

/-!
# Checking a tree

A tree that did not come from the text of a rule, or whose text was read
without a look at the words of its conditions, is **checked**: it must not be
deeper than the limit, and each of its conditions has to be the one that its
own text spells. The first condition from the left that is not is reported
with the path that leads to it.

`Tree.ofText` reads a text and checks the outcome; a condition that fails the
check counts there as a fault of the text.
-/

namespace RecordRules

/-- The error as it is reported for a text, where nodes have no place: a fault
of a node is a fault of a condition. -/
def Error.inText : Error → Error
  | .invalidNode _ fault => .invalidCondition fault
  | other => other

namespace Tree

/-- Checks the conditions of a tree, from left to right. -/
def checkConditions : Tree → Except Error Unit
  | leaf c =>
    if c.isSpelled then .ok ()
    else .error (.invalidNode .root (.malformedCondition c.text))
  | node _ l r => do
    l.checkConditions.mapError (·.within .left)
    r.checkConditions.mapError (·.within .right)

/-- **Checks a tree**: its depth first, then its conditions. -/
def check (limit : Nat) (t : Tree) : Except Error Unit :=
  if t.depth > limit then .error (.treeTooDeep limit) else t.checkConditions

/-- **The tree that the text of a rule spells**, its conditions checked. -/
def ofText (limit : Nat) (text : String) : Except Error Tree := do
  let t ← parse limit text
  (t.check limit).mapError Error.inText
  return t

end Tree

end RecordRules
