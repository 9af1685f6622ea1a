import RecordRules.Error
import RecordRules.Number.Binary64
import RecordRules.Table
import RecordRules.Text.Blank

/-!
# Records

A **record** gives values to attributes. A value is a number or a text; there
are no others. `Record.validate` refuses a record whose keys cannot be the
names of attributes and, where that is asked for, one that is empty.
-/

namespace RecordRules

/-- **A value of a record.** -/
inductive Datum where
  | number (value : Binary64)
  | text (value : String)
  deriving DecidableEq, Repr

/-- **A record**: a table of values under the names of attributes. -/
abbrev Record := Table Datum

/-- **Checks a record**: it may have to hold something, and no key may be
blank. -/
def Record.validate (requireNonEmpty : Bool) (record : Record) : Except Error Unit :=
  if requireNonEmpty && record.isEmpty then .error (.invalidArgument .emptyRecord)
  else if record.keys.any Text.isBlankText then .error (.invalidArgument .blankKey)
  else .ok ()

end RecordRules
