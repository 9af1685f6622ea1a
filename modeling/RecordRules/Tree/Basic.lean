import RecordRules.Token

/-!
# Expression trees

What a rule says is a **tree**: conditions at the leaves, connectives at the
nodes. `Tree.render` writes a tree as the text of a rule. A rule's text is
read from left to right and both connectives bind alike, so a chain such as
`a > 1 AND b > 2 OR c > 3` leans to the left, and only a right child that is
itself a node has to be put in parentheses.

A tree is measured by its number of nodes and by its **depth**, the number of
nodes on the longest way from the root to a leaf. `Tree.height` defines the
second by recursion on the tree; `Tree.depth` measures the same with a list of
the subtrees that are still to be visited, and so needs no stack however deep
the tree is.
-/

namespace RecordRules

/-- **An expression tree** over conditions. -/
inductive Tree where
  /-- A single condition. -/
  | leaf (condition : Condition)
  /-- Two trees joined by a connective. -/
  | node (connective : Connective) (left right : Tree)
  deriving DecidableEq, Repr

namespace Tree

/-- Whether the tree is a single condition. -/
def isLeaf : Tree → Bool
  | leaf _ => true
  | node _ _ _ => false

/-- **The conditions of the tree**, from left to right. -/
def conditions : Tree → List Condition
  | leaf c => [c]
  | node _ l r => l.conditions ++ r.conditions

@[simp] theorem conditions_leaf (c : Condition) : (leaf c).conditions = [c] := rfl

@[simp] theorem conditions_node (k : Connective) (l r : Tree) :
    (node k l r).conditions = l.conditions ++ r.conditions := rfl

/-! ## Measures -/

/-- The number of nodes of the tree, the leaves among them. -/
def size : Tree → Nat
  | leaf _ => 1
  | node _ l r => 1 + l.size + r.size

@[simp] theorem size_leaf (c : Condition) : (leaf c).size = 1 := rfl

@[simp] theorem size_node (k : Connective) (l r : Tree) :
    (node k l r).size = 1 + l.size + r.size := rfl

theorem size_pos (t : Tree) : 0 < t.size := by
  cases t <;> simp only [size_leaf, size_node] <;> omega

/-- **The height of the tree**: the number of nodes on the longest way from
the root to a leaf. -/
def height : Tree → Nat
  | leaf _ => 1
  | node _ l r => 1 + max l.height r.height

@[simp] theorem height_leaf (c : Condition) : (leaf c).height = 1 := rfl

@[simp] theorem height_node (k : Connective) (l r : Tree) :
    (node k l r).height = 1 + max l.height r.height := rfl

/-- The number of nodes of all the trees that are still to be visited. -/
def pendingSize : List (Tree × Nat) → Nat
  | [] => 0
  | (t, _) :: pending => t.size + pendingSize pending

@[simp] theorem pendingSize_cons (t : Tree) (level : Nat)
    (pending : List (Tree × Nat)) :
    pendingSize ((t, level) :: pending) = t.size + pendingSize pending := rfl

/-- The deepest level met so far, or below one of the trees still to be
visited, each of which comes with the level of its root. -/
def deepest (found : Nat) : List (Tree × Nat) → Nat
  | [] => found
  | (leaf _, level) :: pending => deepest (max found level) pending
  | (node _ l r, level) :: pending =>
    deepest (max found level) ((r, level + 1) :: (l, level + 1) :: pending)
termination_by pending => pendingSize pending
decreasing_by all_goals simp only [pendingSize_cons, size_leaf, size_node]; omega

/-- **The depth of the tree**, measured by visiting its nodes one by one. -/
def depth (t : Tree) : Nat := deepest 0 [(t, 1)]

/-! ## The text of a tree -/

/-- **The tree as the text of a rule.** -/
def render : Tree → String
  | leaf c => c.text
  | node k l r =>
    l.render ++ " " ++ k.symbol ++ " "
      ++ (if r.isLeaf then r.render else "(" ++ r.render ++ ")")

@[simp] theorem render_leaf (c : Condition) : (leaf c).render = c.text := rfl

end Tree

end RecordRules
