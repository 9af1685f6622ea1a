import RecordRules.Proofs.Tree.Depth
import RecordRules.Tree.Combine

/-!
# The depth of a chain

How deep a chain of trees will be is told from the depths of its members before it is
built. Joining one more tree puts a level on top of the chain and of the tree, so the
depths are gathered in the order in which the chain grows; what is told is the depth of
the chain (`Tree.chainDepth_map_depth`), wherever its deepest member stands. Trees are
combined, then, exactly if there are two of them and their chain is within the limit
(`Tree.combine_eq_ok_iff`).
-/

namespace RecordRules.Tree

/-- **The depth that is told for a chain is the depth that it has.** -/
theorem chainDepth_map_depth (first : Tree) (others : List Tree) :
    chainDepth first.depth (others.map depth) = (conjunction first others).depth := by
  induction others generalizing first with
  | nil => rfl
  | cons t others ih =>
    have hchain : chainDepth first.depth ((t :: others).map depth)
        = chainDepth (max first.depth t.depth + 1) (others.map depth) := rfl
    rw [hchain, ← depth_node .and, ih]
    rfl

/-- Fewer than two trees are not combined. -/
theorem combine_of_length_lt {limit : ℕ} {ts : List Tree} (h : ts.length < 2) :
    combine limit ts = .error (.invalidArgument (.tooFewRules ts.length)) :=
  if_pos h

/-- Two trees or more are combined unless their chain is too deep. -/
theorem combine_cons_cons (limit : ℕ) (first second : Tree) (others : List Tree) :
    combine limit (first :: second :: others)
      = if (conjunction first (second :: others)).depth > limit then .error (.treeTooDeep limit)
        else .ok (conjunction first (second :: others)) := by
  have hlength : ¬ (first :: second :: others).length < 2 := by
    rw [List.length_cons, List.length_cons]
    omega
  rw [combine, if_neg hlength, chainDepth_map_depth]

/-- **Trees are combined** if there are two of them at least and their chain is within the
limit. -/
theorem combine_eq_ok_iff {limit : ℕ} {ts : List Tree} {t : Tree} :
    combine limit ts = .ok t
      ↔ ∃ first second others, ts = first :: second :: others
        ∧ conjunction first (second :: others) = t ∧ t.depth ≤ limit := by
  match ts with
  | [] => exact iff_of_false nofun nofun
  | [_] => exact iff_of_false nofun nofun
  | first :: second :: others =>
    rw [combine_cons_cons]
    split
    · next hdeep =>
      refine iff_of_false nofun ?_
      rintro ⟨_, _, _, ⟨⟩, rfl, hle⟩
      exact Nat.not_le_of_lt hdeep hle
    · next hdeep =>
      constructor
      · intro h
        obtain rfl := Except.ok.inj h
        exact ⟨first, second, others, rfl, rfl, Nat.not_lt.mp hdeep⟩
      · rintro ⟨_, _, _, ⟨⟩, rfl, -⟩
        rfl

/-- **Trees are not combined** if they are fewer than two, and otherwise if their chain
exceeds the limit. Nothing else can go wrong. -/
theorem combine_eq_error_iff {limit : ℕ} {ts : List Tree} {e : Error} :
    combine limit ts = .error e
      ↔ ts.length < 2 ∧ e = .invalidArgument (.tooFewRules ts.length)
        ∨ ∃ first second others, ts = first :: second :: others
          ∧ limit < (conjunction first (second :: others)).depth ∧ e = .treeTooDeep limit := by
  have hfew (h : ts.length < 2) : combine limit ts = .error e
      ↔ e = .invalidArgument (.tooFewRules ts.length) := by
    rw [combine_of_length_lt h, Except.error.injEq, eq_comm]
  match ts with
  | [] =>
    rw [hfew Nat.two_pos]
    exact ⟨fun h => .inl ⟨Nat.two_pos, h⟩, fun h => h.elim And.right nofun⟩
  | [t] =>
    rw [hfew Nat.one_lt_two]
    exact ⟨fun h => .inl ⟨Nat.one_lt_two, h⟩, fun h => h.elim And.right nofun⟩
  | first :: second :: others =>
    have hmany : ¬ (first :: second :: others).length < 2 := by
      rw [List.length_cons, List.length_cons]
      omega
    rw [combine_cons_cons, or_iff_right fun h => hmany h.1]
    split
    · next hdeep =>
      constructor
      · intro h
        exact ⟨first, second, others, rfl, hdeep, (Except.error.inj h).symm⟩
      · rintro ⟨_, _, _, ⟨⟩, -, rfl⟩
        rfl
    · next hdeep =>
      refine iff_of_false nofun ?_
      rintro ⟨_, _, _, ⟨⟩, hlt, -⟩
      exact hdeep hlt

end RecordRules.Tree
