/-!
# Errors

Everything that can go wrong, by cause. An error is of one of four **kinds**,
by the part of the job that it interrupts: reading a rule's text, checking a
tree, the arguments of a call, or evaluating. `Error.message` is the wording,
`Error.kind` the kind.

A fault in a tree names the node it was found at. Its **place** is the path
from the root, and `Error.within` lengthens the path by one step when a fault
found in a child is reported for its parent.
-/

namespace RecordRules

/-- A side of a node that has two children. -/
inductive Side where
  | left
  | right
  deriving DecidableEq, Repr

/-- The name of the side. -/
def Side.name : Side → String
  | .left => "left"
  | .right => "right"

/-- **Where a fault was found**: in the text of a lone condition, or at the
node of a tree that the path leads to from the root. -/
inductive Place where
  | condition
  | node (path : List Side)
  deriving DecidableEq, Repr

namespace Place

/-- The root of a tree. -/
def root : Place := node []

/-- The path in words, from the root: `root.left.right`. -/
def text : Place → String
  | condition => "condition"
  | node path => path.foldl (fun t side => t ++ "." ++ side.name) "root"

/-- The same place seen from the parent, of which the node was the child on
this side. -/
def within (side : Side) : Place → Place
  | condition => condition
  | node path => node (side :: path)

@[simp] theorem within_node (side : Side) (path : List Side) :
    (node path).within side = node (side :: path) := rfl

end Place

/-- **A fault of a single node**, whatever its children are. -/
inductive NodeFault where
  | emptyType
  | emptyValue
  | conditionWithChildren
  | malformedCondition (text : String)
  | unknownConnective (value : String)
  | missingChild
  | unknownType (type : String)
  deriving DecidableEq, Repr

/-- The fault in words. -/
def NodeFault.reason : NodeFault → String
  | .emptyType => "node type cannot be empty"
  | .emptyValue => "node value cannot be empty"
  | .conditionWithChildren => "condition node cannot have child nodes"
  | .malformedCondition text => "invalid condition format: " ++ text
  | .unknownConnective value => "invalid connective: " ++ value
  | .missingChild => "operator node must have both left and right child nodes"
  | .unknownType type => "invalid node type: " ++ type

/-- What a condition of a rule's text breaks off after. -/
inductive Incomplete where
  | afterAttribute (name : String)
  | afterComparison (name operator : String)
  deriving DecidableEq, Repr

/-- What is missing, in words. -/
def Incomplete.reason : Incomplete → String
  | .afterAttribute name =>
    "missing operator and value after '" ++ name ++ "'"
  | .afterComparison name operator =>
    "missing value after '" ++ name ++ " " ++ operator ++ "'"

/-- What is wrong with an argument of a call. -/
inductive ArgumentFault where
  | tooFewRules (count : Nat)
  | blankRuleName
  | emptyRecord
  | blankKey
  | recordNotObject
  | keyNotText
  | badValue (key : String)
  | zeroDepth
  | zeroCapacity
  deriving DecidableEq, Repr

/-- The fault in words. -/
def ArgumentFault.reason : ArgumentFault → String
  | .tooFewRules count =>
    "At least two rules are required for combination, got " ++ toString count
  | .blankRuleName => "Rule name cannot be null or empty"
  | .emptyRecord => "Data map cannot be null or empty"
  | .blankKey => "Data key cannot be null or empty"
  | .recordNotObject => "Data must be a JSON object"
  | .keyNotText => "Data keys must be strings"
  | .badValue key => "Data value must be a String or Number for key: " ++ key
  | .zeroDepth => "max_depth must be positive"
  | .zeroCapacity => "cache_capacity must be positive when the cache is enabled"

/-- Why structured input could not be decoded: its text is not what the
format asks for, or a field that has to be a string is something else. -/
inductive DecodeFault where
  | malformed
  | notText (field : String)
  deriving DecidableEq, Repr

/-- The fault in words. -/
def DecodeFault.reason : DecodeFault → String
  | .malformed => "malformed input"
  | .notText field => field ++ " must be a string"

/-- **An error**, by cause. -/
inductive Error where
  | emptyExpression
  | unexpectedEnd
  | mismatchedParentheses
  | incompleteCondition (cause : Incomplete)
  | invalidOperator (token : String)
  | unexpectedToken (token : String)
  | invalidCondition (fault : NodeFault)
  | nestingTooDeep (limit : Nat)
  | treeTooDeep (limit : Nat)
  | invalidNode (place : Place) (fault : NodeFault)
  | invalidArgument (fault : ArgumentFault)
  | attributeNotFound (name : String)
  | typeMismatch (name literal : String)
  | undecodable (fault : DecodeFault)
  deriving DecidableEq, Repr

/-- The part of the job that an error interrupts. -/
inductive Error.Kind where
  | parse
  | validation
  | argument
  | evaluation
  deriving DecidableEq, Repr

namespace Error

/-- The kind of the error. -/
def kind : Error → Kind
  | emptyExpression | unexpectedEnd | mismatchedParentheses
  | incompleteCondition _ | invalidOperator _ | unexpectedToken _
  | invalidCondition _ | nestingTooDeep _ => .parse
  | invalidNode _ _ | treeTooDeep _ | undecodable _ => .validation
  | invalidArgument _ => .argument
  | attributeNotFound _ | typeMismatch _ _ => .evaluation

/-- **The wording of the error.** -/
def message : Error → String
  | emptyExpression => "Rule expression cannot be empty"
  | unexpectedEnd => "Unexpected end of expression"
  | mismatchedParentheses => "Mismatched parentheses"
  | incompleteCondition cause => "Incomplete condition: " ++ cause.reason
  | invalidOperator token => "Invalid operator: " ++ token
  | unexpectedToken token => "Unexpected token: " ++ token
  | invalidCondition fault => "Invalid condition: " ++ fault.reason
  | nestingTooDeep limit =>
    "Expression nesting exceeds maximum depth of " ++ toString limit
  | treeTooDeep limit => "Tree exceeds maximum depth of " ++ toString limit
  | invalidNode place fault =>
    "Invalid node at " ++ place.text ++ ": " ++ fault.reason
  | invalidArgument fault => "Invalid argument: " ++ fault.reason
  | attributeNotFound name => "Attribute not found: " ++ name
  | typeMismatch name literal =>
    "Type mismatch for attribute " ++ name
      ++ ": cannot compare number with '" ++ literal ++ "'"
  | undecodable fault => "Deserialization error: " ++ fault.reason

/-- The error seen from the parent of the node it was found at; only faults of
nodes have a place. -/
def within (side : Side) : Error → Error
  | invalidNode place fault => invalidNode (place.within side) fault
  | other => other

@[simp] theorem within_invalidNode (side : Side) (path : List Side)
    (fault : NodeFault) :
    (invalidNode (.node path) fault).within side
      = invalidNode (.node (side :: path)) fault := rfl

@[simp] theorem within_treeTooDeep (side : Side) (limit : Nat) :
    (treeTooDeep limit).within side = treeTooDeep limit := rfl

@[simp] theorem kind_within (side : Side) (e : Error) :
    (e.within side).kind = e.kind := by
  cases e <;> rfl

/-- The value that was decoded, or the error that it could not be. -/
def decoded {α : Type} : Option α → Except Error α
  | some a => .ok a
  | none => .error (.undecodable .malformed)

end Error

end RecordRules
