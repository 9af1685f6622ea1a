import RecordRules.Draft.Validate
import RecordRules.Number.Binary64

/-!
# Values of a script

A script hands over **values** of its own: nothing, truth values, integers of
any size, binary64 numbers, texts, lists, dictionaries, objects with
attributes, and the rules that it was given. Dictionaries keep the order in
which keys were first inserted, and their keys may be anything, but only keys
that are texts are ever asked for. Of a list nothing is ever read.

`Value.ofTree` is the dictionary that a script gets for a tree, and
`Value.attribute?` how the fields of a node are looked up in a dictionary or an
object.
-/

namespace RecordRules.Script

/-- **A value** of a script. -/
inductive Value where
  /-- The value that stands for none. -/
  | nothing
  | truth (value : Bool)
  | integer (value : Int)
  | float (value : Binary64)
  | text (value : String)
  | list (items : List Value)
  /-- A dictionary; a key that is not a text has no name. -/
  | dict (entries : List (Option String × Value))
  /-- An object with these attributes and no others. -/
  | object (attributes : List (Option String × Value))
  /-- The rule in a slot. -/
  | rule (slot : String)
  deriving Repr, Inhabited

/-- The entries of a dictionary, in the order of insertion. -/
abbrev Entries := List (Option String × Value)

namespace Entries

/-- The value under the key. -/
def get? (key : String) : Entries → Option Value
  | [] => none
  | (k, v) :: rest => if k = some key then some v else get? key rest

/-- The entries after an insertion: a key that is there keeps its place, a new
one comes last. -/
def put (key : Option String) (value : Value) : Entries → Entries
  | [] => [(key, value)]
  | (k, v) :: rest =>
    if k = key && key.isSome then (k, value) :: rest
    else (k, v) :: put key value rest

/-- The entries after the insertion of all pairs in order. -/
def ofPairs (pairs : List (Option String × Value)) : Entries :=
  pairs.foldl (fun entries p => put p.1 p.2 entries) []

end Entries

namespace Value

/-- **The attribute of a value**: what a dictionary holds under the key, or an
object under the name. No other value has attributes that are asked for. -/
def attribute? (name : String) : Value → Option Value
  | dict entries => Entries.get? name entries
  | object attributes => Entries.get? name attributes
  | _ => none

mutual

/-- The slots of the rules in the value. -/
def slots : Value → List String
  | rule slot => [slot]
  | list items => itemSlots items
  | dict entries => entrySlots entries
  | object attributes => entrySlots attributes
  | _ => []

/-- The slots of the rules in the items. -/
def itemSlots : List Value → List String
  | [] => []
  | v :: rest => v.slots ++ itemSlots rest

/-- The slots of the rules in the entries. -/
def entrySlots : List (Option String × Value) → List String
  | [] => []
  | (_, v) :: rest => v.slots ++ entrySlots rest

end

/-- **The dictionary of a tree.** -/
def ofTree : Tree → Value
  | .leaf c =>
    dict [(some "type", text Draft.conditionType), (some "value", text c.text)]
  | .node k l r =>
    dict [(some "type", text Draft.operatorType), (some "value", text k.symbol),
      (some "left", ofTree l), (some "right", ofTree r)]

end Value

end RecordRules.Script
