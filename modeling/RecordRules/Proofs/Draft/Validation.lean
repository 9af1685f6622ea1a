import RecordRules.Draft.Validate
import RecordRules.Proofs.Condition.Reading
import RecordRules.Proofs.Tree.Checking
import RecordRules.Proofs.Tree.Depth

/-!
# Drafts that describe trees

The tree of a draft passes its check (`Draft.check_of_validate`): its conditions
were read from texts, so that each is what its own text spells, and it is as deep
as the levels that were allowed. Conversely the draft that says what a tree says
describes that tree again, if the tree passes (`Draft.validate_ofTree`). The trees
that come out of drafts are therefore those that pass their check.
-/

namespace RecordRules.Draft

/-! ## A single node -/

/-- A text without blanks at its ends is kept as it is, if it is one at all. -/
theorem nonBlank?_of_trimmed {text : String} (hne : text.toList ≠ [])
    (h : Text.Trimmed text.toList) : nonBlank? (some text) = some text := by
  have htrim : Text.trim text = text := by
    rw [Text.trim, Text.strip_eq_self h, String.ofList_toList]
  have hnonempty : text.isEmpty = false := by
    rw [Bool.eq_false_iff, ne_eq, String.isEmpty_iff]
    exact mt (congrArg String.toList) hne
  rw [nonBlank?, htrim, hnonempty, if_neg Bool.false_ne_true]

/-- **A node that is a condition** has one that was read from its value. -/
theorem isSpelled_of_shape {d : Draft} {c : Condition} (h : d.shape = .ok (.leaf c)) :
    c.isSpelled = true := by
  rw [shape] at h
  split at h
  · cases h
  · cases h
  · split at h
    · split at h
      · cases h
      · obtain ⟨c', hread, hc⟩ := Except.map_eq_ok_iff.mp h
        obtain rfl := Shape.leaf.inj hc
        exact Condition.isSpelled_of_ofText? (Condition.read_eq_ok_iff.mp hread)
    · split at h
      · split at h
        · cases h
        · obtain ⟨children, -, hnode⟩ := Except.map_eq_ok_iff.mp h
          cases hnode
      · cases h

/-- The draft of a condition is that condition, if its own text spells it. -/
theorem shape_condition {c : Condition} (h : c.isSpelled = true) :
    (condition c.text).shape = .ok (.leaf c) := by
  have hspelled := Condition.isSpelled_iff.mp h
  have htype : nonBlank? (some conditionType) = some conditionType := rfl
  have hvalue : nonBlank? (some c.text) = some c.text :=
    nonBlank?_of_trimmed hspelled.trimmed_text.1 hspelled.trimmed_text.2
  have hread : Condition.read c.text = .ok c :=
    Condition.read_eq_ok_iff.mpr hspelled.ofText?_text
  rw [shape, condition, htype, hvalue]
  dsimp only
  rw [if_pos rfl, hread]
  rfl

/-- The draft of a node joins the two drafts with its connective. -/
theorem shape_operator (k : Connective) (l r : Draft) :
    (operator k.symbol l r).shape = .ok (.node k l r) := by
  cases k <;> rfl

/-! ## All nodes -/

/-- **What comes out of a draft** has no more levels than were allowed, and its
conditions are what their own texts spell. -/
theorem validateWithin_eq_ok {limit room : ℕ} {d : Draft} {t : Tree}
    (h : validateWithin limit room d = .ok t) :
    t.height ≤ room ∧ ∀ c ∈ t.conditions, c.isSpelled = true := by
  induction room generalizing d t with
  | zero => cases h
  | succ room ih =>
    rw [validateWithin] at h
    split at h
    · cases h
    · next c hshape =>
      obtain rfl := Except.ok.inj h
      rw [Tree.height_leaf, Tree.conditions_leaf, List.forall_mem_singleton]
      exact ⟨Nat.le_add_left 1 room, isSpelled_of_shape hshape⟩
    · next k l r hshape =>
      obtain ⟨left, hl, h⟩ := Except.bind_eq_ok_iff.mp h
      obtain ⟨right, hr, h⟩ := Except.bind_eq_ok_iff.mp h
      obtain rfl := Except.ok.inj h
      obtain ⟨hlheight, hlspelled⟩ := ih (Except.mapError_eq_ok_iff.mp hl)
      obtain ⟨hrheight, hrspelled⟩ := ih (Except.mapError_eq_ok_iff.mp hr)
      rw [Tree.height_node, Tree.conditions_node, List.forall_mem_append]
      exact ⟨by omega, hlspelled, hrspelled⟩

/-- **The tree of a draft passes its check.** -/
theorem check_of_validate {limit : ℕ} {d : Draft} {t : Tree} (h : d.validate limit = .ok t) :
    t.check limit = .ok () := by
  rw [Tree.check_eq_ok_iff, Tree.depth_eq_height]
  exact validateWithin_eq_ok h

/-- The draft of a tree describes the tree, where there is room for its levels. -/
theorem validateWithin_ofTree {limit room : ℕ} {t : Tree} (hroom : t.height ≤ room)
    (h : ∀ c ∈ t.conditions, c.isSpelled = true) :
    validateWithin limit room (ofTree t) = .ok t := by
  induction t generalizing room with
  | leaf c =>
    rw [Tree.height_leaf] at hroom
    obtain ⟨room, rfl⟩ := Nat.exists_eq_add_of_le' hroom
    rw [ofTree_leaf, validateWithin, shape_condition (h c (List.mem_singleton_self c))]
  | node k l r ihl ihr =>
    rw [Tree.height_node] at hroom
    rw [Tree.conditions_node, List.forall_mem_append] at h
    obtain ⟨room, rfl⟩ := Nat.exists_eq_add_of_le' ((Nat.le_add_right 1 _).trans hroom)
    rw [ofTree_node, validateWithin, shape_operator]
    dsimp only
    rw [ihl (by omega) h.1, ihr (by omega) h.2]
    rfl

/-- **The draft of a tree describes the tree**, if the tree passes its check. -/
theorem validate_ofTree {limit : ℕ} {t : Tree} (h : t.check limit = .ok ()) :
    (ofTree t).validate limit = .ok t := by
  obtain ⟨hdepth, hspelled⟩ := Tree.check_eq_ok_iff.mp h
  rw [Tree.depth_eq_height] at hdepth
  exact validateWithin_ofTree hdepth hspelled

end RecordRules.Draft
