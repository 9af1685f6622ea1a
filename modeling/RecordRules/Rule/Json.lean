import RecordRules.Draft.Json
import RecordRules.Rule.Basic

/-!
# Rules as JSON text

A rule is written as an object with the key `name` and the key `rootNode` for
the draft of its tree. What a rule may be made of is written as a string, for
a text, or as a draft; here everything in the JSON text is decoded, also what
a draft passes over.
-/

namespace RecordRules.Rule

open Json (Value Quoted)

/-- **The rule as compact JSON text.** -/
def toJson (rule : Rule) : String :=
  (Value.object
    [(.ofText "name", .string (.ofText rule.name)),
     (.ofText "rootNode", (Draft.ofTree rule.root).toValue)]).render

/-- The name and the draft that the value gives; the draft is one level down. -/
def documentOfValue? (v : Value) : Option (String × Draft) := do
  match ← v.fields? [["name"], ["rootNode"]] with
  | [some name, some root] =>
    return (← name.text?, ← Draft.ofValue? (Value.maxNesting - 1) root)
  | _ => none

/-- **The rule that JSON text describes.** -/
def ofJson (limit : Nat) (text : String) : Except Error Rule := do
  let (name, draft) ← Error.decoded ((Value.ofText? text).bind documentOfValue?)
  ofExpression limit name (.draft draft)

/-- What the value gives to make a rule of. -/
def Expression.ofValue? : Value → Option Expression
  | .string q => q.text?.map .text
  | v => (Draft.ofValue? Value.maxNesting v).map .draft

/-- **What JSON text gives to make a rule of.** -/
def Expression.ofJson (text : String) : Except Error Expression :=
  Error.decoded ((Value.soundOfText? text).bind ofValue?)

end RecordRules.Rule
