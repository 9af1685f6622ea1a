import RecordRules.Proofs.Draft.Validation
import RecordRules.Rule.Json

/-!
# Rules that can be made

A rule is made of a tree, of a text or a draft, or of JSON text; it is what
another rule is updated to; or it combines other rules (`Rule.Made`). Not all of
these ways check the tree that they end with. A tree that was read from a text or
a draft is taken as it comes, for reading has seen to all that a check asks.

Whichever way it was, the rule is **valid** within the limit that applied
(`Rule.Valid`): its name is not blank, each of its conditions is what its own text
spells, and its tree is within the limit. And that is all, for a rule that is valid
is made of its own tree (`Rule.made_iff_valid`).
-/

namespace RecordRules.Rule

open Except (bind_eq_ok_iff bind_eq_error_iff)

/-- **The rule is one that can be kept** within the limit. -/
structure Valid (limit : ℕ) (rule : Rule) : Prop where
  /-- There is a character in the name that is no blank. -/
  named : ∃ c ∈ rule.name.toList, Text.isBlank c = false
  /-- Each condition is what its own text spells. -/
  spelled : ∀ c ∈ rule.root.conditions, Condition.ofText c.text = .ok c
  /-- The tree is no deeper than the limit. -/
  depth_le : rule.root.depth ≤ limit

variable {limit : ℕ} {name text : String} {root : Tree} {rule : Rule}

/-- A name passes if there is a character in it that is no blank. -/
theorem checkName_eq_ok_iff :
    checkName name = .ok () ↔ ∃ c ∈ name.toList, Text.isBlank c = false := by
  rw [checkName, Text.isBlankText]
  split
  · next h =>
    refine iff_of_false nofun ?_
    rintro ⟨c, hc, hblank⟩
    exact Bool.false_ne_true (hblank.symm.trans (List.all_eq_true.mp h c hc))
  · next h =>
    refine iff_of_true rfl ?_
    obtain ⟨c, hc, hblank⟩ := List.all_eq_false.mp (Bool.eq_false_iff.mpr h)
    exact ⟨c, hc, Bool.eq_false_iff.mpr hblank⟩

/-- A name fails its check if there are only blanks in it. -/
theorem checkName_eq_error_iff {e : Error} :
    checkName name = .error e
      ↔ (∀ c ∈ name.toList, Text.isBlank c = true) ∧ e = .invalidArgument .blankRuleName := by
  rw [checkName, Text.isBlankText, ← List.all_eq_true]
  split
  · next h => rw [and_iff_right h, Except.error.injEq, eq_comm]
  · next h => exact iff_of_false nofun fun hblank => h hblank.1

/-- **A rule is valid** if its name and its tree pass their checks. -/
theorem valid_iff :
    rule.Valid limit ↔ checkName rule.name = .ok () ∧ rule.root.check limit = .ok () := by
  have hspelled (c : Condition) : Condition.ofText c.text = .ok c ↔ c.isSpelled = true := by
    rw [Condition.ofText_eq_ok_iff]
    exact beq_iff_eq.symm
  rw [checkName_eq_ok_iff, Tree.check_eq_ok_iff]
  constructor
  · rintro ⟨hname, hroot, hdepth⟩
    exact ⟨hname, hdepth, fun c hc => (hspelled c).mp (hroot c hc)⟩
  · rintro ⟨hname, hdepth, hroot⟩
    exact ⟨hname, fun c hc => (hspelled c).mpr (hroot c hc), hdepth⟩

/-! ## One way at a time -/

/-- **A tree makes a rule** under a name if that is a valid rule. -/
theorem ofTree_eq_ok_iff :
    ofTree limit name root = .ok rule ↔ rule = ⟨name, root⟩ ∧ rule.Valid limit := by
  rw [ofTree, bind_eq_ok_iff, valid_iff]
  constructor
  · rintro ⟨⟨⟩, hname, h⟩
    obtain ⟨⟨⟩, hroot, h⟩ := bind_eq_ok_iff.mp h
    obtain rfl := Except.ok.inj h
    exact ⟨rfl, hname, hroot⟩
  · rintro ⟨rfl, hname, hroot⟩
    exact ⟨(), hname, bind_eq_ok_iff.mpr ⟨(), hroot, rfl⟩⟩

/-- **A tree makes no rule** if the name is blank, or else if the tree fails its
check. -/
theorem ofTree_eq_error_iff {e : Error} :
    ofTree limit name root = .error e
      ↔ checkName name = .error e
        ∨ checkName name = .ok () ∧ root.check limit = .error e := by
  rw [ofTree, bind_eq_error_iff]
  refine or_congr_right ⟨?_, ?_⟩
  · rintro ⟨⟨⟩, hname, h⟩
    rcases bind_eq_error_iff.mp h with hroot | ⟨_, -, h⟩
    · exact ⟨hname, hroot⟩
    · cases h
  · rintro ⟨hname, hroot⟩
    exact ⟨(), hname, bind_eq_error_iff.mpr (.inl hroot)⟩

/-- Updating a rule is making a new one. -/
theorem update_eq_ofTree (before : Rule) (limit : ℕ) (name : String) (root : Tree) :
    before.update limit name root = ofTree limit name root := rfl

/-- The tree of an expression passes its check. -/
theorem Expression.check_of_toTree {e : Expression} (h : e.toTree limit = .ok root) :
    root.check limit = .ok () := by
  cases e with
  | text t => exact (Tree.ofText_eq_ok_iff.mp h).2
  | draft d => exact Draft.check_of_validate h

/-- **An expression makes a rule** under a name if it has a tree and the name is
not blank. -/
theorem ofExpression_eq_ok_iff {e : Expression} :
    ofExpression limit name e = .ok rule
      ↔ rule.name = name ∧ e.toTree limit = .ok rule.root ∧ rule.Valid limit := by
  rw [ofExpression, bind_eq_ok_iff, valid_iff]
  constructor
  · rintro ⟨⟨⟩, hname, h⟩
    obtain ⟨root, hroot, h⟩ := bind_eq_ok_iff.mp h
    obtain rfl := Except.ok.inj h
    exact ⟨rfl, hroot, hname, Expression.check_of_toTree hroot⟩
  · rintro ⟨rfl, hroot, hname, -⟩
    exact ⟨(), hname, bind_eq_ok_iff.mpr ⟨rule.root, hroot, rfl⟩⟩

/-- Under a name that is not blank, an expression makes a rule or fails as reading its tree
does. -/
theorem ofExpression_eq_map (hname : checkName name = .ok ()) (e : Expression) :
    ofExpression limit name e = (e.toTree limit).map (Rule.mk name) := by
  rw [ofExpression, hname]
  rfl

/-- The rule of JSON text is the rule of the draft in it. -/
theorem exists_draft_of_ofJson (h : ofJson limit text = .ok rule) :
    ∃ name draft, ofExpression limit name (.draft draft) = .ok rule := by
  obtain ⟨⟨name, draft⟩, -, h⟩ := bind_eq_ok_iff.mp h
  exact ⟨name, draft, h⟩

/-! ## All ways -/

/-- **The rule was made** while the settings applied, in one of the six ways. -/
inductive Made (settings : Settings) (rule : Rule) : Prop where
  | ofTree {name : String} {root : Tree} :
      Rule.ofTree settings.maxDepth name root = .ok rule → Made settings rule
  | ofText {name text : String} :
      Rule.ofText settings.maxDepth name text = .ok rule → Made settings rule
  | ofExpression {name : String} {e : Expression} :
      Rule.ofExpression settings.maxDepth name e = .ok rule → Made settings rule
  | ofJson {text : String} :
      Rule.ofJson settings.maxDepth text = .ok rule → Made settings rule
  | update {before : Rule} {name : String} {root : Tree} :
      before.update settings.maxDepth name root = .ok rule → Made settings rule
  | combine {rules : List Rule} {name : Option String} :
      Rule.combine settings rules name = .ok rule → Made settings rule

/-- **The rules that can be made are the valid ones.** -/
theorem made_iff_valid {settings : Settings} :
    Made settings rule ↔ rule.Valid settings.maxDepth := by
  constructor
  · rintro (h | h | h | h | h | h)
    · exact (ofTree_eq_ok_iff.mp h).2
    · exact (ofExpression_eq_ok_iff.mp h).2.2
    · exact (ofExpression_eq_ok_iff.mp h).2.2
    · obtain ⟨name, draft, h⟩ := exists_draft_of_ofJson h
      exact (ofExpression_eq_ok_iff.mp h).2.2
    · rw [update_eq_ofTree] at h
      exact (ofTree_eq_ok_iff.mp h).2
    · obtain ⟨root, -, h⟩ := bind_eq_ok_iff.mp h
      exact (ofTree_eq_ok_iff.mp h).2
  · intro h
    exact .ofTree (ofTree_eq_ok_iff.mpr ⟨rfl, h⟩)

end RecordRules.Rule
