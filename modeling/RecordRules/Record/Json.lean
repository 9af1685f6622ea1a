import RecordRules.Json.Value
import RecordRules.Record.Basic

/-!
# Records as JSON text

There are two ways to read a record from JSON text. `Record.ofJson` takes any
value first and then wants an object of numbers and strings; of the keys with
other values it names the smallest, and a key that is repeated has its last
value alone. `Record.decode` wants the text to be a record from the start and
refuses as malformed what is not, be it for a value that a later one of the
same key would have replaced.
-/

namespace RecordRules

open Json (Value)

/-- The datum that a value is: a number or a string. -/
def Datum.ofValue? : Value → Option Datum
  | .number n => n.toBinary64?.map .number
  | .string q => q.text?.map .text
  | _ => none

namespace Record

/-- The record of the entries, or the error that names the first of them whose
value is not a datum. -/
def ofEntries (entries : List (String × Value)) : Except Error Record :=
  entries.foldlM (fun record (key, v) =>
    match Datum.ofValue? v with
    | some datum => .ok (record.insert key datum)
    | none => .error (.invalidArgument (.badValue key))) Table.empty

/-- The record that a value is; its keys are visited in ascending order. -/
def ofValue : Value → Except Error Record
  | .object members => do
    ofEntries (Table.ofList (← Error.decoded (Value.decodeKeys? members))).entries
  | _ => .error (.invalidArgument .recordNotObject)

/-- **The record that JSON text describes**, read as any value first. -/
def ofJson (text : String) : Except Error Record := do
  ofValue (← Error.decoded (Value.soundOfText? text))

/-- The record that a value is, member by member. -/
def decodeValue? : Value → Option Record
  | .object members => do
    let pairs ← members.mapM fun (k, v) => do
      return (← k.text?, ← Datum.ofValue? v)
    return Table.ofList pairs
  | _ => none

/-- **The record that JSON text describes**, if it describes a record. -/
def decode (text : String) : Except Error Record :=
  Error.decoded ((Value.soundOfText? text).bind decodeValue?)

end Record

end RecordRules
