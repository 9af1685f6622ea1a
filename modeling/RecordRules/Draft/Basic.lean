import RecordRules.Tree.Basic

/-!
# Drafts

A **draft** is a tree as it is handed in from outside, nothing about it
checked: each node has a type and a value that may be missing or be any text,
and children that may be missing where they are needed or present where they
make no sense. `Draft.ofTree` is the draft that says what a tree says.
-/

namespace RecordRules

/-- **A draft of a tree**, as it was handed in. -/
structure Draft where
  /-- What kind of node it is, if it says so. -/
  type : Option String := none
  /-- The text of a condition, or the connective of a node, if there is one. -/
  value : Option String := none
  /-- The left child, if there is one. -/
  left : Option Draft := none
  /-- The right child, if there is one. -/
  right : Option Draft := none
  deriving Repr, Inhabited

namespace Draft

/-- Drafts are compared field by field. -/
def decEq : (a b : Draft) → Decidable (a = b)
  | ⟨t, v, l, r⟩, ⟨t', v', l', r'⟩ =>
    have _ : Decidable (l = l') := match l, l' with
      | none, none => isTrue rfl
      | none, some _ => isFalse (by simp)
      | some _, none => isFalse (by simp)
      | some d, some d' =>
        match decEq d d' with
        | isTrue h => isTrue (by rw [h])
        | isFalse h => isFalse (by simpa using h)
    have _ : Decidable (r = r') := match r, r' with
      | none, none => isTrue rfl
      | none, some _ => isFalse (by simp)
      | some _, none => isFalse (by simp)
      | some d, some d' =>
        match decEq d d' with
        | isTrue h => isTrue (by rw [h])
        | isFalse h => isFalse (by simpa using h)
    if h : t = t' ∧ v = v' ∧ l = l' ∧ r = r' then isTrue (by simp [h])
    else isFalse (by simpa using h)

instance : DecidableEq Draft := decEq

/-- The type of a node that is a condition. -/
def conditionType : String := "condition"

/-- The type of a node that joins two others. -/
def operatorType : String := "operator"

/-- The draft of a condition with this text. -/
def condition (text : String) : Draft :=
  ⟨some conditionType, some text, none, none⟩

/-- The draft of two drafts joined by what should be a connective. -/
def operator (value : String) (left right : Draft) : Draft :=
  ⟨some operatorType, some value, some left, some right⟩

/-- The number of nodes on the longest way down from the root. -/
def height : Draft → Nat
  | ⟨_, _, l, r⟩ =>
    1 + max (match l with | none => 0 | some d => d.height)
      (match r with | none => 0 | some d => d.height)

/-- The number of levels of a child, none if there is no child. -/
def levels (child : Option Draft) : Nat := child.elim 0 height

@[simp] theorem levels_none : levels none = 0 := rfl

@[simp] theorem levels_some (d : Draft) : levels (some d) = d.height := rfl

/-- A draft has a level more than its children. -/
theorem height_eq (d : Draft) : d.height = 1 + max (levels d.left) (levels d.right) := by
  obtain ⟨t, v, l, r⟩ := d
  cases l <;> cases r <;> rfl

/-- **The draft of a tree.** -/
def ofTree : Tree → Draft
  | .leaf c => condition c.text
  | .node k l r => operator k.symbol (ofTree l) (ofTree r)

@[simp] theorem ofTree_leaf (c : Condition) :
    ofTree (.leaf c) = condition c.text := rfl

@[simp] theorem ofTree_node (k : Connective) (l r : Tree) :
    ofTree (.node k l r) = operator k.symbol (ofTree l) (ofTree r) := rfl

/-- A draft is as deep as the tree it was made from. -/
theorem height_ofTree (t : Tree) : (ofTree t).height = t.height := by
  induction t with
  | leaf c => rfl
  | node k l r hl hr => simp [operator, height, hl, hr]

end Draft

end RecordRules
