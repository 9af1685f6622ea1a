import Mathlib.Algebra.Order.Group.Nat
import RecordRules.Tree.Basic

/-!
# The depth of a tree is its height

`Tree.depth` visits the nodes of a tree one by one, with a list of the subtrees
that are still to be visited; `Tree.height` is a recursion on the tree. Both
measure the same. What a list of pending subtrees contributes is said by upper
bounds (`Tree.deepest_le_iff`): the deepest level stays within a bound exactly
if the levels met so far do and every pending subtree, hung below the level of
its root, does.
-/

namespace RecordRules.Tree

/-- **The upper bounds of the deepest level**, told from what was met before
and from the heights of the subtrees that are pending. -/
theorem deepest_le_iff (found : ℕ) (pending : List (Tree × ℕ)) (m : ℕ) :
    deepest found pending ≤ m
      ↔ found ≤ m ∧ ∀ p ∈ pending, p.2 + p.1.height ≤ m + 1 := by
  fun_induction deepest found pending with
  | case1 found => simp
  | case2 found c level pending ih =>
    rw [ih, List.forall_mem_cons, height_leaf, max_le_iff, and_assoc,
      Nat.add_le_add_iff_right]
  | case3 found k l r level pending ih =>
    simp only [ih, List.forall_mem_cons, height_node]
    constructor
    · rintro ⟨hfound, hr, hl, hpending⟩
      exact ⟨by omega, by omega, hpending⟩
    · rintro ⟨hfound, hnode, hpending⟩
      exact ⟨by omega, by omega, by omega, hpending⟩

/-- **Visiting the nodes one by one measures the height.** -/
theorem depth_eq_height (t : Tree) : t.depth = t.height := by
  refine eq_of_forall_ge_iff fun m => ?_
  rw [depth, deepest_le_iff, List.forall_mem_singleton]
  show 0 ≤ m ∧ 1 + t.height ≤ m + 1 ↔ t.height ≤ m
  omega

/-- A condition is one level of a tree. -/
theorem depth_leaf (c : Condition) : (leaf c).depth = 1 := by
  rw [depth_eq_height, height_leaf]

/-- A node is a level deeper than the deeper one of its children. -/
theorem depth_node (k : Connective) (l r : Tree) :
    (node k l r).depth = max l.depth r.depth + 1 := by
  rw [depth_eq_height, depth_eq_height, depth_eq_height, height_node, Nat.add_comm]

/-- Every tree has a level. -/
theorem height_pos (t : Tree) : 0 < t.height := by
  cases t with
  | leaf c => exact Nat.one_pos
  | node k l r =>
    rw [height_node]
    omega

end RecordRules.Tree
