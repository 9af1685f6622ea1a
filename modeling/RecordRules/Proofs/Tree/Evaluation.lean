import Mathlib.Logic.Basic
import RecordRules.Tree.Evaluate

/-!
# What an evaluation comes to

Evaluating a tree looks at each of its conditions, from left to right, and stops at the
first that fails. No connective saves a condition from being looked at: where the answer
is settled by the left child, an error of the right one is still the outcome. The outcome
can therefore be told from the list of the conditions (`Tree.evaluate_eq`). If one of them
fails, it is the error of the first that does. If none fails, the connectives are applied
to the answers of the conditions along the tree (`Tree.truth`), and this is all that they
are there for.
-/

namespace RecordRules

namespace Condition

variable {record : Record} {c : Condition}

/-- The error of the condition, if it fails. -/
def failure? (record : Record) (c : Condition) : Option Error :=
  match c.evaluate record with
  | .ok _ => none
  | .error e => some e

/-- The answer of the condition; one that fails counts as refused. -/
def answer (record : Record) (c : Condition) : Bool :=
  match c.evaluate record with
  | .ok b => b
  | .error _ => false

/-- A condition with an answer does not fail. -/
theorem failure?_eq_none_iff :
    c.failure? record = none ↔ c.evaluate record = .ok (c.answer record) := by
  unfold failure? answer
  cases c.evaluate record with
  | ok b => exact iff_of_true rfl rfl
  | error e => exact iff_of_false nofun nofun

/-- A condition fails with its error. -/
theorem failure?_eq_some_iff {e : Error} :
    c.failure? record = some e ↔ c.evaluate record = .error e := by
  unfold failure?
  cases c.evaluate record with
  | ok b => exact iff_of_false nofun nofun
  | error e' =>
    exact ⟨fun h => congrArg Except.error (Option.some.inj h),
      fun h => congrArg some (Except.error.inj h)⟩

/-- Whatever answer a condition has is the one that it has. -/
theorem exists_evaluate_eq_ok_iff :
    (∃ b, c.evaluate record = .ok b) ↔ c.evaluate record = .ok (c.answer record) := by
  refine ⟨fun ⟨b, h⟩ => ?_, fun h => ⟨_, h⟩⟩
  unfold answer
  rw [h]

end Condition

namespace Tree

variable {record : Record} {t : Tree}

/-- **What the tree says of its conditions**, if these are their answers. -/
def truth (answer : Condition → Bool) : Tree → Bool
  | leaf c => answer c
  | node k l r => k.apply (l.truth answer) (r.truth answer)

/-- Answers that are the same for the conditions of the tree say the same. -/
theorem truth_congr {answer answer' : Condition → Bool}
    (h : ∀ c ∈ t.conditions, answer c = answer' c) : t.truth answer = t.truth answer' := by
  induction t with
  | leaf c => exact h c (List.mem_singleton_self c)
  | node k l r ihl ihr =>
    rw [conditions_node, List.forall_mem_append] at h
    rw [truth, truth, ihl h.1, ihr h.2]

/-- The error of the first condition that fails, if one does. -/
def failure? (record : Record) (t : Tree) : Option Error :=
  t.conditions.findSome? fun c => c.failure? record

/-- **The outcome of an evaluation** is the error of the first condition that fails, and
if none does what the tree says of their answers. -/
theorem evaluate_eq (record : Record) (t : Tree) :
    t.evaluate record
      = (t.failure? record).elim (.ok (t.truth fun c => c.answer record)) .error := by
  induction t with
  | leaf c =>
    rw [evaluate, failure?, conditions_leaf, List.findSome?_singleton]
    cases h : c.evaluate record with
    | ok b =>
      have hanswer := Condition.exists_evaluate_eq_ok_iff.mp ⟨b, h⟩
      rw [Condition.failure?_eq_none_iff.mpr hanswer, Option.elim_none, truth, ← hanswer, h]
    | error e => rw [Condition.failure?_eq_some_iff.mpr h, Option.elim_some]
  | node k l r ihl ihr =>
    have hfailure : (node k l r).failure? record = (l.failure? record).or (r.failure? record) :=
      List.findSome?_append
    rw [evaluate, ihl, ihr, hfailure]
    cases l.failure? record with
    | some e => rfl
    | none =>
      cases r.failure? record with
      | some e => rfl
      | none => rfl

/-- No condition fails if each of them has an answer. -/
theorem failure?_eq_none_iff :
    t.failure? record = none ↔ ∀ c ∈ t.conditions, c.evaluate record = .ok (c.answer record) := by
  rw [failure?, List.findSome?_eq_none_iff]
  exact forall₂_congr fun c _ => Condition.failure?_eq_none_iff

/-- The first condition that fails is one with answers before it. -/
theorem failure?_eq_some_iff {e : Error} :
    t.failure? record = some e
      ↔ ∃ before c after, t.conditions = before ++ c :: after
        ∧ (∀ d ∈ before, d.evaluate record = .ok (d.answer record))
        ∧ c.evaluate record = .error e := by
  rw [failure?, List.findSome?_eq_some_iff]
  refine exists₃_congr fun before c after => and_congr_right fun _ => ?_
  rw [Condition.failure?_eq_some_iff, and_comm]
  exact and_congr_left fun _ => forall₂_congr fun d _ => Condition.failure?_eq_none_iff

/-- **An evaluation succeeds** exactly if each condition has an answer, whatever the
connectives are; it succeeds with what the tree says of the answers. **It fails** with the
error of a condition exactly if all conditions to the left of that one have answers,
whatever these are and whatever comes to the right. -/
theorem evaluate_never_short_circuits (record : Record) (t : Tree) :
    ((∃ b, t.evaluate record = .ok b)
        ↔ ∀ c ∈ t.conditions, ∃ b, c.evaluate record = .ok b)
      ∧ (∀ b, t.evaluate record = .ok b
        ↔ ∃ answer : Condition → Bool,
          (∀ c ∈ t.conditions, c.evaluate record = .ok (answer c)) ∧ t.truth answer = b)
      ∧ (∀ e, t.evaluate record = .error e
        ↔ ∃ before c after, t.conditions = before ++ c :: after
          ∧ (∀ d ∈ before, ∃ b, d.evaluate record = .ok b)
          ∧ c.evaluate record = .error e) := by
  have hanswers (cs : List Condition) : (∀ c ∈ cs, ∃ b, c.evaluate record = .ok b)
      ↔ ∀ c ∈ cs, c.evaluate record = .ok (c.answer record) :=
    forall₂_congr fun c _ => Condition.exists_evaluate_eq_ok_iff
  -- answers that the conditions have are the ones that the outcome speaks of
  have htruth {answer : Condition → Bool}
      (h : ∀ c ∈ t.conditions, c.evaluate record = .ok (answer c)) :
      t.truth answer = t.truth fun c => c.answer record := by
    refine truth_congr fun c hc => Except.ok.inj ((h c hc).symm.trans ?_)
    exact Condition.exists_evaluate_eq_ok_iff.mp ⟨_, h c hc⟩
  simp only [hanswers, ← failure?_eq_some_iff]
  rw [evaluate_eq]
  cases hfailure : t.failure? record with
  | none =>
    have hall := failure?_eq_none_iff.mp hfailure
    refine ⟨iff_of_true ⟨_, rfl⟩ hall, fun b => ⟨fun h => ?_, ?_⟩, fun e => iff_of_false nofun nofun⟩
    · exact ⟨_, hall, Except.ok.inj h⟩
    · rintro ⟨answer, h, rfl⟩
      rw [htruth h, Option.elim_none]
  | some e =>
    have hsome : ¬ ∀ c ∈ t.conditions, c.evaluate record = .ok (c.answer record) := by
      rw [← failure?_eq_none_iff, hfailure]
      exact Option.some_ne_none e
    refine ⟨iff_of_false nofun hsome, fun b => iff_of_false nofun ?_, fun e' => ?_⟩
    · rintro ⟨answer, h, -⟩
      exact hsome ((hanswers _).mp fun c hc => ⟨_, h c hc⟩)
    · exact ⟨fun h => congrArg some (Except.error.inj h),
        fun h => congrArg Except.error (Option.some.inj h)⟩

-- The left child settles the answer, and still the right one is looked at.
example :
    let record : Record := Table.ofList [("a", .text "x")]
    (node .or (leaf ⟨"a", .equal, "x"⟩) (leaf ⟨"b", .equal, "x"⟩)).evaluate record
      = .error (.attributeNotFound "b") :=
  rfl

end Tree

end RecordRules
