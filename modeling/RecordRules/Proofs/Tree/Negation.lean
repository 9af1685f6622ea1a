import RecordRules.Tree.Evaluate

/-!
# The negation of a tree

There is no negation among the connectives, and none is needed: a tree is negated by pushing
the negation down to its conditions (`Tree.negate`). On the way every connective is exchanged
for the other one, and at a condition the comparison for the one that holds exactly where it
does not.

That there is such a comparison rests on the order being total. Any two words of binary64 and
any two texts stand in one of three orders to each other, the words that are not numbers and
the two zeros among them, and the comparisons come in pairs that divide the three orders between
them (`Comparison.accepts_complement`).

Nothing else of a condition is touched, so the negation asks for the same attributes, compares
the same values and fails where the tree does, with the same error (`Tree.evaluate_negate_eq_map`).
-/

namespace RecordRules

/-- **The comparison that holds where this one does not.** -/
def Comparison.complement : Comparison → Comparison
  | greater => lessEqual
  | less => greaterEqual
  | equal => notEqual
  | greaterEqual => less
  | lessEqual => greater
  | notEqual => equal

/-- **The three orders** are divided between a comparison and its complement. -/
theorem Comparison.accepts_complement (op : Comparison) (o : Ordering) :
    op.complement.accepts o = !op.accepts o := by
  cases op <;> cases o <;> rfl

/-- The other connective. -/
def Connective.dual : Connective → Connective
  | .and => .or
  | .or => .and

/-- Negated answers are joined by the other connective to the negated answer. -/
theorem Connective.apply_dual (k : Connective) (a b : Bool) :
    k.dual.apply (!a) (!b) = !k.apply a b := by
  cases k with
  | and => exact (Bool.not_and a b).symm
  | or => exact (Bool.not_or a b).symm

/-- The condition with the complement of its comparison. -/
def Condition.negate (c : Condition) : Condition :=
  { c with comparison := c.comparison.complement }

/-- **A negated condition** looks the same value up and compares it with the same literal. -/
theorem Condition.evaluate_negate (c : Condition) (record : Record) :
    c.negate.evaluate record = (c.evaluate record).map (!·) := by
  have hname : c.negate.name = c.name := rfl
  have hunquoted : c.negate.unquoted = c.unquoted := rfl
  have hcomparison : c.negate.comparison = c.comparison.complement := rfl
  rw [evaluate, evaluate, hname, hunquoted, hcomparison]
  cases record.get? c.name with
  | none => rfl
  | some datum =>
    dsimp only
    cases datum.order c.name c.unquoted with
    | error e => rfl
    | ok o => exact congrArg Except.ok (c.comparison.accepts_complement o)

namespace Tree

/-- **The negation of the tree**, down at its conditions. -/
def negate : Tree → Tree
  | leaf c => leaf c.negate
  | node k l r => node k.dual l.negate r.negate

/-- **The negation says no where the tree says yes**, and yes where it says no; and where the
tree fails, the negation fails with the same error. -/
theorem evaluate_negate_eq_map (record : Record) (t : Tree) :
    t.negate.evaluate record = (t.evaluate record).map (!·) := by
  induction t with
  | leaf c => exact c.evaluate_negate record
  | node k l r ihl ihr =>
    rw [negate, evaluate, evaluate, ihl, ihr]
    cases l.evaluate record with
    | error e => rfl
    | ok a =>
      cases r.evaluate record with
      | error e => rfl
      | ok b => exact congrArg Except.ok (k.apply_dual a b)

end Tree

end RecordRules
