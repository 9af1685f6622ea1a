import Mathlib.Data.Nat.Notation
import RecordRules.Proofs.Outcome
import RecordRules.Tree.Check

/-!
# When a check succeeds

A tree passes its check exactly if it is no deeper than the limit and each of
its conditions is what its own text spells. The tree of a text is the one that
the parser gives, if that one passes.
-/

namespace RecordRules.Tree

/-- **The conditions of a tree pass** if each of them is spelled by its text. -/
theorem checkConditions_eq_ok_iff {t : Tree} :
    t.checkConditions = .ok () ↔ ∀ c ∈ t.conditions, c.isSpelled = true := by
  induction t with
  | leaf c =>
    rw [checkConditions, conditions_leaf, List.forall_mem_singleton]
    split
    · next h => exact iff_of_true rfl h
    · next h => exact iff_of_false nofun h
  | node k l r ihl ihr =>
    rw [checkConditions, Except.bind_eq_ok_iff, conditions_node, List.forall_mem_append,
      ← ihl, ← ihr, Except.mapError_eq_ok_iff]
    constructor
    · rintro ⟨⟨⟩, hl, hr⟩
      exact ⟨Except.mapError_eq_ok_iff.mp hl, hr⟩
    · rintro ⟨hl, hr⟩
      exact ⟨(), Except.mapError_eq_ok_iff.mpr hl, hr⟩

/-- **A tree passes its check** if it is not too deep and its conditions pass. -/
theorem check_eq_ok_iff {limit : ℕ} {t : Tree} :
    t.check limit = .ok () ↔ t.depth ≤ limit ∧ ∀ c ∈ t.conditions, c.isSpelled = true := by
  rw [check, ← checkConditions_eq_ok_iff]
  split
  · next h => exact iff_of_false nofun fun hcheck => Nat.not_le_of_lt h hcheck.1
  · next h => exact (and_iff_right (Nat.not_lt.mp h)).symm

/-- **The tree of a text** is the one that was parsed, if that passes the
check. -/
theorem ofText_eq_ok_iff {limit : ℕ} {text : String} {t : Tree} :
    ofText limit text = .ok t ↔ parse limit text = .ok t ∧ t.check limit = .ok () := by
  rw [ofText, Except.bind_eq_ok_iff]
  constructor
  · rintro ⟨t', hparse, h⟩
    obtain ⟨⟨⟩, hcheck, ht⟩ := Except.bind_eq_ok_iff.mp h
    obtain rfl := Except.ok.inj ht
    exact ⟨hparse, Except.mapError_eq_ok_iff.mp hcheck⟩
  · rintro ⟨hparse, hcheck⟩
    refine ⟨t, hparse, Except.bind_eq_ok_iff.mpr ⟨(), ?_, rfl⟩⟩
    exact Except.mapError_eq_ok_iff.mpr hcheck

/-- What was read within a limit is no deeper than the limit. -/
theorem depth_le_of_ofText {limit : ℕ} {text : String} {t : Tree}
    (h : ofText limit text = .ok t) : t.depth ≤ limit :=
  (check_eq_ok_iff.mp (ofText_eq_ok_iff.mp h).2).1

end RecordRules.Tree
