import RecordRules.Proofs.Draft.Validation
import RecordRules.Proofs.Place

/-!
# The leaf that a check fails at

A tree that is not too deep fails its check by a condition, and the error names the place of
the first one, from left to right, that is not what its own text spells
(`Tree.checkConditions_eq_error_iff`). The leaves are listed with the paths that lead to them
(`Tree.mem_leaves_iff`); the list is that of the conditions, which
`Tree.map_snd_leaves` says.

Validating the draft of a tree comes to the same. It gives the tree back exactly if the tree
passes its check, and what comes out of any draft passes: the trees that pass are a normal
form, on which neither of the two ways to look at a tree changes anything
(`Tree.check_agrees_validate`).
-/

namespace RecordRules

/-- A condition is what its own text is read as. -/
theorem Condition.ofText_text_eq_ok_iff {c : Condition} :
    ofText c.text = .ok c ↔ c.isSpelled = true :=
  ofText_eq_ok_iff.trans beq_iff_eq.symm

namespace Tree

/-! ## Leaves and their paths -/

/-- **The conditions of the tree with the paths that lead to them**, from left to right. -/
def leaves : Tree → List (List Side × Condition)
  | leaf c => [([], c)]
  | node _ l r => l.leaves.map (Side.below .left) ++ r.leaves.map (Side.below .right)

/-- **The tree that the path leads to**, if it leads to one. -/
def get? : Tree → List Side → Option Tree
  | t, [] => some t
  | leaf _, _ :: _ => none
  | node _ l _, .left :: path => l.get? path
  | node _ _ r, .right :: path => r.get? path

/-- Without their paths the leaves are the conditions of the tree. -/
theorem map_snd_leaves (t : Tree) : t.leaves.map Prod.snd = t.conditions := by
  have hbelow (side : Side) (l : List (List Side × Condition)) :
      (l.map side.below).map Prod.snd = l.map Prod.snd := by
    rw [List.map_map]
    rfl
  induction t with
  | leaf c => rfl
  | node k l r ihl ihr =>
    rw [leaves, List.map_append, hbelow, hbelow, ihl, ihr, conditions_node]

/-- **The path of a leaf leads to it.** -/
theorem mem_leaves_iff {t : Tree} {path : List Side} {c : Condition} :
    (path, c) ∈ t.leaves ↔ t.get? path = some (leaf c) := by
  induction t generalizing path with
  | leaf d =>
    rw [leaves, List.mem_singleton]
    cases path with
    | nil =>
      rw [get?, Option.some.injEq, leaf.injEq, Prod.mk.injEq, and_iff_right rfl]
      exact eq_comm
    | cons side path => exact iff_of_false nofun nofun
  | node k l r ihl ihr =>
    rw [leaves, List.mem_append, Side.mem_map_below, Side.mem_map_below]
    cases path with
    | nil =>
      refine iff_of_false ?_ nofun
      rintro (⟨_, h, -⟩ | ⟨_, h, -⟩) <;> cases h
    | cons side path =>
      simp only [List.cons.injEq]
      cases side with
      | left =>
        rw [get?, ← ihl]
        constructor
        · rintro (⟨_, ⟨-, rfl⟩, hmem⟩ | ⟨_, ⟨h, -⟩, -⟩)
          · exact hmem
          · cases h
        · exact fun hmem => .inl ⟨path, ⟨rfl, rfl⟩, hmem⟩
      | right =>
        rw [get?, ← ihr]
        constructor
        · rintro (⟨_, ⟨h, -⟩, -⟩ | ⟨_, ⟨-, rfl⟩, hmem⟩)
          · cases h
          · exact hmem
        · exact fun hmem => .inr ⟨path, ⟨rfl, rfl⟩, hmem⟩

/-! ## The check -/

/-- **The error that a leaf fails with**, if it does: its condition is not what its own text
is read as. -/
def misspelled? (p : List Side × Condition) : Option Error :=
  if p.2.isSpelled then none
  else some (.invalidNode (.node p.1) (.malformedCondition p.2.text))

/-- A leaf below a child fails with the error that it fails with in the child. -/
theorem misspelled?_below (side : Side) (p : List Side × Condition) :
    misspelled? (side.below p) = (misspelled? p).map (Error.within side) := by
  unfold misspelled? Side.below
  split <;> rfl

/-- A leaf does not fail if its condition is what its own text is read as. -/
theorem misspelled?_eq_none_iff {p : List Side × Condition} :
    misspelled? p = none ↔ Condition.ofText p.2.text = .ok p.2 := by
  rw [Condition.ofText_text_eq_ok_iff, misspelled?]
  split
  · next h => exact iff_of_true rfl h
  · next h => exact iff_of_false nofun h

/-- A leaf that fails is malformed at its place. -/
theorem misspelled?_eq_some_iff {p : List Side × Condition} {e : Error} :
    misspelled? p = some e ↔ Condition.ofText p.2.text ≠ .ok p.2
      ∧ e = .invalidNode (.node p.1) (.malformedCondition p.2.text) := by
  rw [ne_eq, Condition.ofText_text_eq_ok_iff, misspelled?]
  split
  · next h => exact iff_of_false nofun fun hne => hne.1 h
  · next h =>
    rw [and_iff_right h, Option.some.injEq]
    exact eq_comm

/-- **The conditions of a tree fail with the error of the first leaf that has one.** -/
theorem checkConditions_eq_error_iff {t : Tree} {e : Error} :
    t.checkConditions = .error e ↔ t.leaves.findSome? misspelled? = some e := by
  induction t generalizing e with
  | leaf c =>
    rw [checkConditions, leaves, List.findSome?_singleton, misspelled?]
    split
    · exact Except.ok_eq_error_iff
    · exact Except.error_eq_error_iff
  | node k l r ihl ihr =>
    rw [checkConditions, leaves, List.findSome?_append,
      Side.findSome?_map_below (misspelled?_below .left),
      Side.findSome?_map_below (misspelled?_below .right),
      ← Error.bind_within_eq_error_iff (fun _ => ihl) (fun _ => ihr) (fun _ u => u) e]
    simp only [bind_pure]

/-- **Checking a tree and validating its draft agree.** A tree passes its check exactly if its
draft is validated to the tree itself, and every tree that comes out of a draft does both.
One that fails is too deep, or else the first of its leaves, from left to right, that is not
what its own text is read as is reported at the place that its path leads to. -/
theorem check_agrees_validate (limit : ℕ) (t : Tree) :
    (t.check limit = .ok () ↔ (Draft.ofTree t).validate limit = .ok t)
      ∧ (∀ d : Draft, d.validate limit = .ok t →
        t.check limit = .ok () ∧ (Draft.ofTree t).validate limit = .ok t)
      ∧ (∀ e, t.check limit = .error e
        ↔ limit < t.depth ∧ e = .treeTooDeep limit
          ∨ t.depth ≤ limit ∧ ∃ before path c after, t.leaves = before ++ (path, c) :: after
            ∧ (∀ p ∈ before, Condition.ofText p.2.text = .ok p.2)
            ∧ Condition.ofText c.text ≠ .ok c
            ∧ t.get? path = some (leaf c)
            ∧ e = .invalidNode (.node path) (.malformedCondition c.text))
      ∧ t.leaves.map Prod.snd = t.conditions := by
  refine ⟨⟨Draft.validate_ofTree, Draft.check_of_validate⟩, fun d h => ?_, fun e => ?_,
    t.map_snd_leaves⟩
  · have hcheck := Draft.check_of_validate h
    exact ⟨hcheck, Draft.validate_ofTree hcheck⟩
  · rw [check]
    split
    · next hdeep =>
      rw [and_iff_right hdeep, or_iff_left fun h => Nat.not_le_of_lt hdeep h.1]
      exact ⟨fun h => (Except.error.inj h).symm, fun h => congrArg Except.error h.symm⟩
    · next hdeep =>
      rw [or_iff_right fun h => hdeep h.1, and_iff_right (Nat.not_lt.mp hdeep),
        checkConditions_eq_error_iff, List.findSome?_eq_some_iff]
      refine exists_congr fun before => ?_
      constructor
      · rintro ⟨⟨path, c⟩, after, hleaves, he, hbefore⟩
        obtain ⟨hne, rfl⟩ := misspelled?_eq_some_iff.mp he
        have hmem : (path, c) ∈ t.leaves :=
          hleaves ▸ List.mem_append_right _ List.mem_cons_self
        exact ⟨path, c, after, hleaves, fun p hp => misspelled?_eq_none_iff.mp (hbefore p hp),
          hne, mem_leaves_iff.mp hmem, rfl⟩
      · rintro ⟨path, c, after, hleaves, hbefore, hne, -, rfl⟩
        exact ⟨(path, c), after, hleaves, misspelled?_eq_some_iff.mpr ⟨hne, rfl⟩,
          fun p hp => misspelled?_eq_none_iff.mpr (hbefore p hp)⟩

-- The last two leaves are not what their texts are read as, and the first of them is reported.
example : (node .or (node .and (leaf ⟨"a", .equal, "'x  y'"⟩) (leaf ⟨"b", .greater, "= 1"⟩))
    (leaf ⟨"c d", .less, "2"⟩)).check 3
      = .error (.invalidNode (.node [.left, .right]) (.malformedCondition "b > = 1")) := by
  decide +kernel

end Tree

end RecordRules
