import RecordRules.Cache
import RecordRules.Draft.Validate
import RecordRules.Tree.Combine

/-!
# Rules

A **rule** is a tree under a name. However it is made – of a tree, of a text
or of a draft – its name must not be blank and its tree passes the checks that
apply; the name is looked at first. `Rule.expression` is the text of the rule.

Rules are combined by combining their trees, and then the name is looked at
last.
-/

namespace RecordRules

/-- **A named rule.** -/
structure Rule where
  /-- What the rule is called. -/
  name : String
  /-- What the rule says. -/
  root : Tree
  deriving DecidableEq, Repr

/-- What a rule may be made of: the text of a rule, or a draft. -/
inductive Rule.Expression where
  | text (text : String)
  | draft (draft : Draft)
  deriving DecidableEq, Repr

namespace Rule

/-- A name must not be blank. -/
def checkName (name : String) : Except Error Unit :=
  if Text.isBlankText name then .error (.invalidArgument .blankRuleName) else .ok ()

/-- **The rule of a tree**, which is checked. -/
def ofTree (limit : Nat) (name : String) (root : Tree) : Except Error Rule := do
  checkName name
  root.check limit
  return ⟨name, root⟩

/-- The tree of an expression. -/
def Expression.toTree (limit : Nat) : Expression → Except Error Tree
  | text t => Tree.ofText limit t
  | draft d => d.validate limit

/-- **The rule of an expression.** -/
def ofExpression (limit : Nat) (name : String) (expression : Expression) :
    Except Error Rule := do
  checkName name
  let root ← expression.toTree limit
  return ⟨name, root⟩

/-- The rule of a text. -/
def ofText (limit : Nat) (name : String) (text : String) : Except Error Rule :=
  ofExpression limit name (.text text)

/-- **The rule with another name and tree**, which have to pass what those of
a new rule do; an error leaves the rule as it was. -/
def update (limit : Nat) (rule : Rule) (name : String) (root : Tree) :
    Except Error Rule := do
  checkName name
  root.check limit
  return { rule with name := name, root := root }

/-- The rule as text. -/
def expression (rule : Rule) : String := rule.root.render

/-- **Whether the record satisfies the rule**; the record is checked first. -/
def evaluate (settings : Settings) (rule : Rule) (record : Record) :
    Except Error Bool := do
  record.validate settings.requireNonEmptyRecord
  rule.root.evaluate record

/-- **The rules combined into one**, under the name or else the one that the
settings have for it. -/
def combine (settings : Settings) (rules : List Rule) (name : Option String) :
    Except Error Rule := do
  let root ← Tree.combine settings.maxDepth (rules.map root)
  ofTree settings.maxDepth (name.getD settings.combinedRuleName) root

end Rule

end RecordRules
