import RecordRules.Draft.Basic

/-!
# From a draft to a tree

A draft is turned into a tree node by node, from the root down and from left
to right. What a single node has to satisfy is `Draft.shape`: its type and
value, trimmed, must not be empty; a node of type `condition` has no children
and the text of a condition; a node of type `operator` has a connective and
both children. The first node that fails is reported with its path, and so is
the first one below the deepest level allowed, which has no path to report.
-/

namespace RecordRules.Draft

/-- What a node turns out to be: a condition, or a connective and the drafts
that it joins. -/
inductive Shape where
  | leaf (condition : Condition)
  | node (connective : Connective) (left right : Draft)

/-- The trimmed text, if anything is left of it. -/
def nonBlank? : Option String → Option String
  | none => none
  | some text =>
    let trimmed := Text.trim text
    if trimmed.isEmpty then none else some trimmed

/-- The two children of a node that needs both. -/
def children : Draft → Except NodeFault (Draft × Draft)
  | ⟨_, _, some l, some r⟩ => .ok (l, r)
  | _ => .error .missingChild

/-- **What the node is**, or what is wrong with it. The children are only
looked at for being there. -/
def shape (d : Draft) : Except NodeFault Shape :=
  match nonBlank? d.type, nonBlank? d.value with
  | none, _ => .error .emptyType
  | some _, none => .error .emptyValue
  | some type, some value =>
    if type = conditionType then
      if d.left.isSome || d.right.isSome then .error .conditionWithChildren
      else (Condition.read value).map .leaf
    else if type = operatorType then
      match Connective.ofSymbol? value with
      | none => .error (.unknownConnective value)
      | some k => d.children.map fun (l, r) => .node k l r
    else .error (.unknownType type)

/-- The tree of a draft with at most `room` levels of nodes; `limit` is what
an error says of how many there may be. -/
def validateWithin (limit : Nat) : (room : Nat) → Draft → Except Error Tree
  | 0, _ => .error (.treeTooDeep limit)
  | room + 1, d =>
    match d.shape with
    | .error fault => .error (.invalidNode .root fault)
    | .ok (.leaf c) => .ok (.leaf c)
    | .ok (.node k l r) => do
      let left ← (validateWithin limit room l).mapError (·.within .left)
      let right ← (validateWithin limit room r).mapError (·.within .right)
      return .node k left right

/-- **The tree that the draft describes**, of at most `limit` levels. -/
def validate (limit : Nat) (d : Draft) : Except Error Tree :=
  validateWithin limit limit d

end RecordRules.Draft
