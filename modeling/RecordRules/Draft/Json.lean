import RecordRules.Draft.Basic
import RecordRules.Json.Value

/-!
# Drafts as JSON text

A draft is written as an object with the keys `type` and `value`, null where
the draft has none, and `left` and `right` where it has such a child. Reading
is more generous: any of the keys may be missing or null, the key `nodeValue`
may stand for `value`, other keys are passed over, and the four fields may
also be given as an array.
-/

namespace RecordRules

namespace Draft

open Json (Value Quoted)

/-! ## Writing -/

/-- A text, or null where there is none. -/
def valueOfText : Option String → Value
  | none => .null
  | some text => .string (.ofText text)

/-- The object that a draft is written as. -/
def toValue : Draft → Value
  | ⟨t, v, l, r⟩ =>
    .object
      ([(.ofText "type", valueOfText t), (.ofText "value", valueOfText v)]
        ++ (match l with
          | none => []
          | some d => [(.ofText "left", d.toValue)])
        ++ (match r with
          | none => []
          | some d => [(.ofText "right", d.toValue)]))

/-- **The draft as compact JSON text.** -/
def toJson (d : Draft) : String := d.toValue.render

/-! ## Reading -/

/-- The names of the fields of a draft. -/
def fieldNames : List (List String) :=
  [["type"], ["value", "nodeValue"], ["left"], ["right"]]

/-- Reads a field that may be missing or null. -/
def optional? {α : Type} (read : Value → Option α) : Option Value → Option (Option α)
  | none => some none
  | some .null => some none
  | some v => (read v).map some

/-- The draft that the value is, if it nests no deeper than there is `room`. -/
def ofValue? : (room : Nat) → Value → Option Draft
  | 0, _ => none
  | room + 1, v => do
    match ← v.fields? fieldNames with
    | [type, value, left, right] =>
      return {
        type := ← optional? Value.text? type
        value := ← optional? Value.text? value
        left := ← optional? (fun w => ofValue? room w) left
        right := ← optional? (fun w => ofValue? room w) right }
    | _ => none

/-- **The draft that JSON text describes.** -/
def ofJson (text : String) : Except Error Draft :=
  Error.decoded ((Value.ofText? text).bind (ofValue? Value.maxNesting))

end Draft

end RecordRules
