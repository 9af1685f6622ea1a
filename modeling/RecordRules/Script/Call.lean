import RecordRules.Script.Reading
import RecordRules.Session
import RecordRules.Text.Escaped

/-!
# The calls of a script

A script works on a session by **calls**, whose arguments are values. Wherever
a tree is wanted it may hand over the text of a rule, the JSON text of a draft
– told from the former by the brace that it begins with – a dictionary, an
object, or a rule. Texts of rules are read by the cache.

`Call.run` carries out one call. A call that fails leaves the settings and the
rules as they were, but texts that were read on the way stay remembered.
-/

namespace RecordRules

/-- The rule as it is shown to a reader. -/
def Rule.shown (rule : Rule) : String :=
  "Rule(name=" ++ Text.escaped rule.name ++ ", expression="
    ++ Text.escaped rule.expression ++ ")"

namespace Script

open Failure (lift)
open Session (Outcome)

/-- **A call.** -/
inductive Call where
  /-- Replaces the settings, by the defaults if none are given. -/
  | configure (settings : Option Entries)
  /-- The dictionary of the tree of a text. -/
  | parse (text : String)
  /-- Checks that the value is a tree. -/
  | validate (tree : Value)
  /-- Whether the data satisfy a tree. -/
  | evaluate (tree : Value) (data : Entries)
  /-- The dictionary of the trees combined. -/
  | combine (trees : List Value)
  /-- Makes a rule of a text or a tree. -/
  | create (slot name : String) (expression : Value)
  /-- Makes the rule that combines others. -/
  | combineRules (slot : String) (rules : List String) (name : Option String)
  /-- Whether the data satisfy the rule in a slot. -/
  | evaluateRule (slot : String) (data : Entries)
  /-- The rule in a slot as it is shown. -/
  | display (slot : String)
  deriving Repr

/-- **The answer** to a call that succeeds. -/
inductive Answer where
  | value (value : Value)
  | rule (rule : Rule)
  deriving Repr

/-! ## Arguments -/

/-- Whether a text is the JSON text of a draft and not the text of a rule: it
begins with a brace. -/
def isDraftText (text : String) : Bool :=
  (Text.dropBlanks text.toList).head? == some '\x7b'

/-- The tree that a value describes, checked. -/
def treeOfDraft (limit : Nat) (v : Value) : Except Error Tree := do
  (← draftOf limit v).validate limit

/-- **The tree of an argument**, and the session after it was read. -/
def treeOf (s : Session) (v : Value) : Outcome Tree :=
  match v with
  | .rule slot => ((s.getRule slot).map Rule.root, s)
  | .text text =>
    if isDraftText text then (lift (treeOfDraft s.settings.maxDepth v), s)
    else s.readThen text .ok
  | _ => (lift (treeOfDraft s.settings.maxDepth v), s)

/-- The trees of the arguments, up to the first that has none. -/
def treesOf (s : Session) : List Value → Outcome (List Tree)
  | [] => (.ok [], s)
  | v :: rest =>
    match treeOf s v with
    | (.error f, s) => (.error f, s)
    | (.ok t, s) =>
      let (outcome, s) := treesOf s rest
      (outcome.map (t :: ·), s)

/-- What a rule is to be made of: any text is the text of a rule. -/
def expressionOf (limit : Nat) : Value → Except Error Rule.Expression
  | .text text => .ok (.text text)
  | v => (draftOf limit v).map .draft

/-! ## Calls -/

/-- The slots that the call names. -/
def Call.slots : Call → List String
  | configure none => []
  | configure (some entries) => Value.entrySlots entries
  | parse _ => []
  | validate tree => tree.slots
  | evaluate tree data => tree.slots ++ Value.entrySlots data
  | combine trees => Value.itemSlots trees
  | create _ _ expression => expression.slots
  | combineRules _ rules _ => rules
  | evaluateRule slot data => slot :: Value.entrySlots data
  | display slot => [slot]

/-- Replaces the settings; where they disable the cache, it is emptied. -/
def configure (s : Session) (settings : Settings) : Session :=
  { s with
    settings := settings
    cache := if settings.cacheEnabled then s.cache else Table.empty }

/-- Whether the data satisfy the tree; they are read and checked first. -/
def evaluate (s : Session) (t : Tree) (data : Entries) : Except Failure Answer := do
  let record ← recordOf data
  lift (record.validate s.settings.requireNonEmptyRecord)
  return .value (.truth (← lift (t.evaluate record)))

/-- Carries out a call that names no slot without a rule. -/
def Call.perform (s : Session) : Call → Outcome Answer
  | configure entries =>
    match (entries.map settingsOf).getD (.ok {}) with
    | .ok settings => (.ok (.value (.truth true)), Script.configure s settings)
    | .error e => (.error (.error e), s)
  | parse text => s.readThen text fun t => .ok (.value (.ofTree t))
  | validate tree =>
    ((lift (treeOfDraft s.settings.maxDepth tree)).map fun _ => .value .nothing, s)
  | evaluate tree data =>
    match treeOf s tree with
    | (.error f, s) => (.error f, s)
    | (.ok t, s) => (Script.evaluate s t data, s)
  | combine trees =>
    let (outcome, s) := treesOf s trees
    (do
      let trees ← outcome
      return .value (.ofTree (← lift (Tree.combine s.settings.maxDepth trees))), s)
  | create slot name expression => s.keepRule slot .rule (lift do
      let e ← expressionOf s.settings.maxDepth expression
      Rule.ofExpression s.settings.maxDepth name e)
  | combineRules slot rules name => s.keepRule slot .rule do
      let members ← rules.mapM s.getRule
      lift (Rule.combine s.settings members name)
  | evaluateRule slot data =>
    (do
      let rule ← s.getRule slot
      let record ← recordOf data
      return .value (.truth (← lift (rule.evaluate s.settings record))), s)
  | display slot => ((s.getRule slot).map fun rule => .value (.text rule.shown), s)

/-- **Carries out a call**, if every slot that it names holds a rule. -/
def Call.run (s : Session) (call : Call) : Outcome Answer :=
  if call.slots.all fun slot => (s.rules.get? slot).isSome then call.perform s
  else (.error .noSuchRule, s)

end Script

end RecordRules
