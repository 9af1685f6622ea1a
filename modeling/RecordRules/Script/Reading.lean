import RecordRules.Draft.Json
import RecordRules.Failure
import RecordRules.Record.Basic
import RecordRules.Script.Value
import RecordRules.Settings

/-!
# Reading the values of a script

What a script hands over is read as a draft, a record or settings.

* A draft is read from JSON text or from the attributes of a value; a child
  may again be either. How deep it nests is bounded while it is read, except
  inside JSON text, which has a bound of its own.
* A record is read from the entries of a dictionary in their order, and the
  first that does not fit is reported.
* Settings are read from the entries of a dictionary, by name. A truth value
  or a count that is something else falls back to its default; a text that is
  something else is an error.
-/

namespace RecordRules.Script

/-! ## Drafts -/

/-- A text under the name, if there is a value other than nothing. -/
def Value.textField (v : Value) (name : String) : Except Error (Option String) :=
  match v.attribute? name with
  | none => .ok none
  | some .nothing => .ok none
  | some (.text s) => .ok (some s)
  | some _ => .error (.undecodable (.notText name))

/-- A field under the name, if there is a value other than nothing. -/
def Value.childField {α : Type} (v : Value) (name : String)
    (read : Value → Except Error α) : Except Error (Option α) :=
  match v.attribute? name with
  | none => .ok none
  | some .nothing => .ok none
  | some w => (read w).map some

/-- The draft that the value describes with at most `room` levels; `limit` is
what an error says of how many there may be. -/
def draftWithin (limit : Nat) : (room : Nat) → Value → Except Error Draft
  | 0, _ => .error (.treeTooDeep limit)
  | _ + 1, .text json => Draft.ofJson json
  | room + 1, v => do
    let type ← v.textField "type"
    let value ← v.textField "value"
    let value ← if value.isSome then pure value else v.textField "nodeValue"
    let left ← v.childField "left" fun w => draftWithin limit room w
    let right ← v.childField "right" fun w => draftWithin limit room w
    return ⟨type, value, left, right⟩

/-- **The draft that the value describes**, of at most `limit` levels. -/
def draftOf (limit : Nat) (v : Value) : Except Error Draft :=
  draftWithin limit limit v

/-! ## Records -/

/-- The datum of an integer: the nearest number, unless it is infinite. -/
def datumOfInt (i : Int) : Except Failure Datum :=
  let x := Binary64.ofInt i
  if x.isInfinite then .error .overflow else .ok (.number x)

/-- The datum that a value is. -/
def datumOf (key : String) : Value → Except Failure Datum
  | .text s => .ok (.text s)
  | .integer i => datumOfInt i
  | .float x => .ok (.number x)
  | _ => .error (.error (.invalidArgument (.badValue key)))

/-- **The record that the entries describe.** -/
def recordOf (entries : Entries) : Except Failure Record :=
  entries.foldlM (fun record (key, v) =>
    match key with
    | none => .error (.error (.invalidArgument .keyNotText))
    | some key => (datumOf key v).map fun datum => record.insert key datum)
    Table.empty

/-! ## Settings -/

/-- The truth value that a value is. -/
def truthOf? : Value → Option Bool
  | .truth b => some b
  | _ => none

/-- The count that a value is: an integer that fits 64 bits without a sign. A
truth value counts as one or zero. -/
def countOf? : Value → Option Nat
  | .truth b => some b.toNat
  | .integer i =>
    if 0 ≤ i && decide (i.toNat < Json.Numeral.wordCount) then some i.toNat else none
  | _ => none

/-- The name for combined rules, unless it is blank. -/
def nameOr (default : String) : Option String → String
  | none => default
  | some name => if Text.isBlankText name then default else name

/-- **The settings that the entries give.** Trees of no level could not be
read, and a cache without room could not hold what it has to, so both are
refused. -/
def settingsOf (entries : Entries) : Except Error Settings := do
  let default : Settings := {}
  let enabled := ((Entries.get? "cache_enabled" entries).bind truthOf?).getD
    default.cacheEnabled
  let capacity := ((Entries.get? "cache_capacity" entries).bind countOf?).getD
    default.cacheCapacity
  let required := (((Entries.get? "require_non_empty_record" entries).or
    (Entries.get? "require_data" entries)).bind truthOf?).getD
    default.requireNonEmptyRecord
  let name ← (Value.dict entries).textField "combined_rule_name"
  let depth := ((Entries.get? "max_depth" entries).bind countOf?).getD default.maxDepth
  let filter ← (Value.dict entries).textField "log_filter"
  if depth = 0 then .error (.invalidArgument .zeroDepth)
  else if capacity = 0 && enabled then .error (.invalidArgument .zeroCapacity)
  else
    return {
      cacheEnabled := enabled
      cacheCapacity := capacity
      combinedRuleName := nameOr default.combinedRuleName name
      requireNonEmptyRecord := required
      maxDepth := depth
      logFilter := filter }

end RecordRules.Script
