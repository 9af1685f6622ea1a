import Mathlib.Logic.Function.Iterate
import RecordRules.Proofs.Tree.Depth

/-!
# Visiting the nodes of a tree

`Tree.deepest` is a loop: as long as a subtree is pending, it takes the first, looks at the level
of its root, and makes its children pending. `Tree.visit` is one turn of that loop, apart from the
recursion. What the loop comes to is what it comes to after a turn (`Tree.deepest_visit`), and
every turn takes one node away from those of the pending subtrees (`Tree.pendingSize_visit`). So
the loop ends after as many turns as the tree has nodes, not one sooner, and what it has found by
then is the depth.

That the depth follows the recursion of the tree, and how it and the number of nodes stand to the
number of conditions, is said along with it (`Tree.Measured`).
-/

namespace RecordRules.Tree

/-! ## One turn -/

/-- **One turn of the loop**, given the deepest level met so far and the subtrees that are still to
be visited, each with the level of its root. Without any nothing is left to do. -/
def visit : ℕ × List (Tree × ℕ) → ℕ × List (Tree × ℕ)
  | (found, []) => (found, [])
  | (found, (leaf _, level) :: pending) => (max found level, pending)
  | (found, (node _ l r, level) :: pending) =>
    (max found level, (r, level + 1) :: (l, level + 1) :: pending)

/-- **A turn leaves the deepest level as it is.** -/
theorem deepest_visit (s : ℕ × List (Tree × ℕ)) :
    deepest (visit s).1 (visit s).2 = deepest s.1 s.2 := by
  obtain ⟨found, _ | ⟨⟨c | ⟨k, l, r⟩, level⟩, pending⟩⟩ := s
  · rfl
  · rw [visit, deepest]
  · rw [visit, deepest]

/-- **A turn visits one node**, if there is one to be visited. -/
theorem pendingSize_visit (s : ℕ × List (Tree × ℕ)) :
    pendingSize (visit s).2 = pendingSize s.2 - 1 := by
  obtain ⟨found, _ | ⟨⟨c | ⟨k, l, r⟩, level⟩, pending⟩⟩ := s
  · rfl
  · rw [visit, pendingSize_cons, size_leaf, Nat.add_sub_cancel_left]
  · simp only [visit, pendingSize_cons, size_node]
    omega

/-- Without nodes to be visited no subtree is pending. -/
theorem pendingSize_eq_zero_iff {pending : List (Tree × ℕ)} :
    pendingSize pending = 0 ↔ pending = [] := by
  cases pending with
  | nil => exact ⟨fun _ => rfl, fun _ => rfl⟩
  | cons p pending =>
    have hpos : 0 < p.1.size + pendingSize pending := Nat.add_pos_left p.1.size_pos _
    exact ⟨fun h => absurd h hpos.ne', nofun⟩

/-! ## All turns -/

/-- Turns leave the deepest level as it is. -/
theorem deepest_iterate_visit (n : ℕ) (s : ℕ × List (Tree × ℕ)) :
    deepest (visit^[n] s).1 (visit^[n] s).2 = deepest s.1 s.2 := by
  induction n generalizing s with
  | zero => rfl
  | succ n ih => rw [Function.iterate_succ_apply, ih, deepest_visit]

/-- **Turns visit one node each**, until all have been visited. -/
theorem pendingSize_iterate_visit (n : ℕ) (s : ℕ × List (Tree × ℕ)) :
    pendingSize (visit^[n] s).2 = pendingSize s.2 - n := by
  induction n generalizing s with
  | zero => rfl
  | succ n ih => rw [Function.iterate_succ_apply, ih, pendingSize_visit, Nat.sub_sub, Nat.add_comm]

/-- **The loop ends** when every node that was pending has been visited, with the deepest level. -/
theorem iterate_visit_pendingSize (s : ℕ × List (Tree × ℕ)) :
    visit^[pendingSize s.2] s = (deepest s.1 s.2, []) := by
  have hnone : (visit^[pendingSize s.2] s).2 = [] := by
    rw [← pendingSize_eq_zero_iff, pendingSize_iterate_visit, Nat.sub_self]
  have hfound := deepest_iterate_visit (pendingSize s.2) s
  rw [hnone, deepest] at hfound
  exact Prod.ext hfound hnone

/-- **It does not end before.** -/
theorem iterate_visit_ne_nil {n : ℕ} {s : ℕ × List (Tree × ℕ)} (h : n < pendingSize s.2) :
    (visit^[n] s).2 ≠ [] := by
  rw [Ne, ← pendingSize_eq_zero_iff, pendingSize_iterate_visit]
  omega

/-! ## Nodes, levels and conditions -/

/-- **A tree joins its conditions with one node fewer than there are conditions.** -/
theorem size_add_one (t : Tree) : t.size + 1 = 2 * t.conditions.length := by
  induction t with
  | leaf c => rfl
  | node k l r ihl ihr =>
    rw [size_node, conditions_node, List.length_append]
    omega

/-- **No tree has more levels than conditions.** A level that is not the last takes a condition
away from those of the levels below it. -/
theorem height_le_length_conditions (t : Tree) : t.height ≤ t.conditions.length := by
  induction t with
  | leaf c => exact Nat.le_refl 1
  | node k l r ihl ihr =>
    have hl := l.height_pos
    have hr := r.height_pos
    rw [height_node, conditions_node, List.length_append]
    omega

/-- **The measures of the tree are right.** -/
structure Measured (t : Tree) : Prop where
  /-- The loop goes on as long as it has not visited every node, -/
  goes_on : ∀ n < t.size, (visit^[n] (0, [(t, 1)])).2 ≠ []
  /-- and ends once it has, with the depth of the tree. -/
  ends : visit^[t.size] (0, [(t, 1)]) = (t.depth, [])
  /-- A condition is one level deep, and a node one level deeper than its deeper child. -/
  depth_eq : t.depth = match t with
    | leaf _ => 1
    | node _ l r => 1 + max l.depth r.depth
  /-- So the depth is what the recursion on the tree makes it. -/
  depth_eq_height : t.depth = t.height
  /-- All nodes but the conditions join two trees. -/
  size_eq : t.size = 2 * t.conditions.length - 1
  /-- A tree has at least as many conditions as levels. -/
  depth_le : t.depth ≤ t.conditions.length

/-- **All measures of all trees are right**: the loop over the pending subtrees ends after as many
turns as there are nodes, with the depth that the recursion on the tree gives, and the numbers of
nodes and of levels are bound to the number of conditions. -/
theorem measured (t : Tree) : t.Measured where
  goes_on n hn := iterate_visit_ne_nil (hn : n < pendingSize [(t, 1)])
  ends := iterate_visit_pendingSize (0, [(t, 1)])
  depth_eq := by
    cases t with
    | leaf c => exact depth_leaf c
    | node k l r => exact (depth_node k l r).trans (Nat.add_comm _ _)
  depth_eq_height := depth_eq_height t
  size_eq := Nat.eq_sub_of_add_eq t.size_add_one
  depth_le := (depth_eq_height t).trans_le t.height_le_length_conditions

end RecordRules.Tree
