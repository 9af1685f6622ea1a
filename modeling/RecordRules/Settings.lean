import RecordRules.Error
import RecordRules.Json.Value

/-!
# Settings

The **settings** say how deep trees may be, whether and how many texts are
remembered with the trees they were read as, what a rule is called that was
made of others, and whether an empty record is refused. Settings may be given
as JSON text, where every field that is missing has its default.
-/

namespace RecordRules

/-- **The settings** that apply at a time. -/
structure Settings where
  /-- Whether the trees of texts are remembered. -/
  cacheEnabled : Bool := true
  /-- How many are remembered before all of them are forgotten. -/
  cacheCapacity : Nat := 1024
  /-- The name of a rule made of others, unless it is given one. -/
  combinedRuleName : String := "Combined Rule"
  /-- Whether a record has to hold something. -/
  requireNonEmptyRecord : Bool := true
  /-- How deep trees and parentheses may be. -/
  maxDepth : Nat := 256
  /-- Which messages are logged, if any are. -/
  logFilter : Option String := none
  deriving DecidableEq, Repr

namespace Settings

open Json (Value)

/-- The names of the fields, in the order of their declaration. -/
def fieldNames : List (List String) :=
  [["cache_enabled"], ["cache_capacity"], ["combined_rule_name"],
   ["require_non_empty_record"], ["max_depth"], ["log_filter"]]

/-- Reads a field that has a default. -/
def fieldOr? {α : Type} (default : α) (read : Value → Option α) :
    Option Value → Option α
  | none => some default
  | some v => read v

/-- A truth value. -/
def truth? : Value → Option Bool
  | .truth b => some b
  | _ => none

/-- A count. -/
def count? : Value → Option Nat
  | .number n => n.toCount?
  | _ => none

/-- A text, or null for none. -/
def textOrNull? : Value → Option (Option String)
  | .null => some none
  | v => v.text?.map some

/-- The settings that the value gives. -/
def ofValue? (v : Value) : Option Settings := do
  let default : Settings := {}
  match ← v.fields? fieldNames with
  | [enabled, capacity, name, required, depth, filter] =>
    return {
      cacheEnabled := ← fieldOr? default.cacheEnabled truth? enabled
      cacheCapacity := ← fieldOr? default.cacheCapacity count? capacity
      combinedRuleName := ← fieldOr? default.combinedRuleName Value.text? name
      requireNonEmptyRecord := ← fieldOr? default.requireNonEmptyRecord truth? required
      maxDepth := ← fieldOr? default.maxDepth count? depth
      logFilter := ← fieldOr? default.logFilter textOrNull? filter }
  | _ => none

/-- **The settings that JSON text gives.** -/
def ofJson (text : String) : Except Error Settings :=
  Error.decoded ((Value.ofText? text).bind ofValue?)

end Settings

end RecordRules
