import Mathlib.Data.List.Induction
import RecordRules.Proofs.Outcome
import RecordRules.Proofs.Tree.Combining
import RecordRules.Proofs.Tree.Evaluation

/-!
# Combining means conjunction

Trees are combined into the chain `((t₁ AND t₂) AND t₃) AND …`. What this chain is can be said
without a fold (`Tree.Conjoins`): it is a tree by itself, or else an `AND` of the chain of all
trees but the last with the last. The relation is functional, and it grows at the end of the
list, where the root of the chain is, so an induction on it follows the tree.

A chain asks for the conditions of its members in their order, and its answer is that they all
say yes. An error of a member is the error of the chain, unless a member before it has one
already – also where some member says no and the conjunction would be settled.
-/

namespace RecordRules.Tree

/-- **The tree is the chain that requires all the trees** of the list. -/
inductive Conjoins : List Tree → Tree → Prop where
  /-- One tree is its own chain. -/
  | single (t : Tree) : Conjoins [t] t
  /-- One more tree is the right child of a new root. -/
  | snoc {ts : List Tree} {chain : Tree} (t : Tree) :
    Conjoins ts chain → Conjoins (ts ++ [t]) (node .and chain t)

variable {ts : List Tree} {t chain : Tree} {record : Record}

/-! ## The chain -/

/-- **The chain is the left fold** of the trees after the first. -/
theorem conjoins_iff :
    Conjoins ts chain ↔ ∃ first others, ts = first :: others ∧ conjunction first others = chain := by
  constructor
  · intro h
    induction h with
    | single t => exact ⟨t, [], rfl, rfl⟩
    | snoc t _ ih =>
      obtain ⟨first, others, rfl, rfl⟩ := ih
      exact ⟨first, others ++ [t], rfl, List.foldl_append⟩
  · rintro ⟨first, others, rfl, rfl⟩
    induction others using List.reverseRecOn with
    | nil => exact .single first
    | append_singleton others t ih =>
      rw [conjunction, List.foldl_append]
      exact .snoc t ih

/-- Trees have a chain, and only one, as soon as there is a tree. -/
theorem existsUnique_conjoins (hne : ts ≠ []) : ∃! chain, Conjoins ts chain := by
  obtain ⟨first, others, rfl⟩ := List.exists_cons_of_ne_nil hne
  refine ⟨conjunction first others, conjoins_iff.mpr ⟨first, others, rfl, rfl⟩, ?_⟩
  intro chain h
  obtain ⟨first', others', hts, rfl⟩ := conjoins_iff.mp h
  obtain ⟨rfl, rfl⟩ := List.cons.inj hts
  rfl

/-- **The chain has the conditions of its members**, in their order. -/
theorem Conjoins.conditions_eq (h : Conjoins ts chain) :
    chain.conditions = ts.flatMap conditions := by
  induction h with
  | single t => exact (List.flatMap_singleton _ _).symm
  | snoc t _ ih => rw [conditions_node, ih, List.flatMap_append, List.flatMap_singleton]

/-- What holds for the conditions of all members holds for those of the chain. -/
theorem Conjoins.forall_mem_conditions {p : Condition → Prop} (h : Conjoins ts chain)
    (hp : ∀ t ∈ ts, ∀ c ∈ t.conditions, p c) : ∀ c ∈ chain.conditions, p c := by
  intro c hc
  rw [h.conditions_eq] at hc
  obtain ⟨t, ht, hc⟩ := List.mem_flatMap.mp hc
  exact hp t ht c hc

/-- **Trees are combined into their chain**, if they are two at least and the chain is within
the limit. -/
theorem combine_eq_ok_iff_conjoins {limit : ℕ} :
    combine limit ts = .ok t ↔ 2 ≤ ts.length ∧ Conjoins ts t ∧ t.depth ≤ limit := by
  rw [combine_eq_ok_iff, conjoins_iff]
  constructor
  · rintro ⟨first, second, others, rfl, hchain, hdepth⟩
    exact ⟨Nat.le_add_left 2 others.length, ⟨first, second :: others, rfl, hchain⟩, hdepth⟩
  · rintro ⟨hlength, ⟨first, others, rfl, hchain⟩, hdepth⟩
    cases others with
    | nil => exact absurd hlength (Nat.not_succ_le_self 1)
    | cons second others => exact ⟨first, second, others, rfl, hchain, hdepth⟩

/-- **Trees are not combined** if they are fewer than two, and otherwise if their chain exceeds
the limit. -/
theorem combine_eq_error_iff_conjoins {limit : ℕ} {e : Error} :
    combine limit ts = .error e
      ↔ ts.length < 2 ∧ e = .invalidArgument (.tooFewRules ts.length)
        ∨ 2 ≤ ts.length ∧ (∃ chain, Conjoins ts chain ∧ limit < chain.depth)
          ∧ e = .treeTooDeep limit := by
  rw [combine_eq_error_iff]
  refine or_congr_right ⟨?_, ?_⟩
  · rintro ⟨first, second, others, rfl, hdeep, he⟩
    refine ⟨Nat.le_add_left 2 others.length, ⟨_, ?_, hdeep⟩, he⟩
    exact conjoins_iff.mpr ⟨first, second :: others, rfl, rfl⟩
  · rintro ⟨hlength, ⟨chain, hchain, hdeep⟩, he⟩
    obtain ⟨first, others, rfl, rfl⟩ := conjoins_iff.mp hchain
    cases others with
    | nil => exact absurd hlength (Nat.not_succ_le_self 1)
    | cons second others => exact ⟨first, second, others, rfl, hdeep, he⟩

/-! ## What the chain says -/

/-- A tree without a failure has an answer. -/
theorem failure?_eq_none_iff_exists :
    t.failure? record = none ↔ ∃ b, t.evaluate record = .ok b := by
  rw [evaluate_eq]
  cases t.failure? record with
  | none => exact iff_of_true rfl ⟨_, rfl⟩
  | some e => exact iff_of_false nofun nofun

/-- A tree with a failure has it for its error. -/
theorem failure?_eq_some_iff_evaluate {e : Error} :
    t.failure? record = some e ↔ t.evaluate record = .error e := by
  rw [evaluate_eq]
  cases t.failure? record with
  | none => exact iff_of_false nofun nofun
  | some e' => exact Except.error_eq_error_iff.symm

/-- **The chain fails as the first of its members that does.** -/
theorem Conjoins.failure?_eq (h : Conjoins ts chain) :
    chain.failure? record = ts.findSome? (failure? record) := by
  induction h with
  | single t => exact List.findSome?_singleton.symm
  | snoc t _ ih =>
    rw [List.findSome?_append, List.findSome?_singleton, ← ih]
    exact List.findSome?_append

/-- **The chain says yes if all of its members do.** -/
theorem Conjoins.truth_eq (h : Conjoins ts chain) (answer : Condition → Bool) :
    chain.truth answer = ts.all (truth answer) := by
  induction h with
  | single t => exact (Bool.and_true _).symm
  | snoc t _ ih =>
    rw [List.all_append, ← ih, List.all_cons, List.all_nil, Bool.and_true]
    rfl

/-- **The tree requires all the trees** of the list, and nothing else. -/
structure RequiresAll (ts : List Tree) (t : Tree) : Prop where
  /-- It has their conditions, in their order. -/
  conditions_eq : t.conditions = ts.flatMap conditions
  /-- It has an answer exactly if all of them have one, and says yes exactly if all of them
  do. -/
  evaluate_eq_ok_iff : ∀ record b, t.evaluate record = .ok b
    ↔ (∀ u ∈ ts, ∃ a, u.evaluate record = .ok a)
      ∧ (b = true ↔ ∀ u ∈ ts, u.evaluate record = .ok true)
  /-- Otherwise its error is the error of the first of them that fails. -/
  evaluate_eq_error_iff : ∀ record e, t.evaluate record = .error e
    ↔ ∃ before u after, ts = before ++ u :: after
      ∧ (∀ v ∈ before, ∃ a, v.evaluate record = .ok a) ∧ u.evaluate record = .error e

/-- Where no tree fails, each says what it says of the answers of its conditions. -/
theorem evaluate_of_findSome? (h : ts.findSome? (failure? record) = none) (ht : t ∈ ts) :
    t.evaluate record = .ok (t.truth fun c => c.answer record) := by
  rw [evaluate_eq, List.findSome?_eq_none_iff.mp h t ht, Option.elim_none]

/-- **The chain requires all of its members.** -/
theorem Conjoins.requiresAll (h : Conjoins ts chain) : RequiresAll ts chain where
  conditions_eq := h.conditions_eq
  evaluate_eq_ok_iff record b := by
    have hanswers : (∀ u ∈ ts, ∃ a, u.evaluate record = .ok a)
        ↔ chain.failure? record = none := by
      rw [h.failure?_eq, List.findSome?_eq_none_iff]
      exact forall₂_congr fun u _ => failure?_eq_none_iff_exists.symm
    rw [hanswers, evaluate_eq]
    cases hfailure : chain.failure? record with
    | some e => exact iff_of_false nofun nofun
    | none =>
      rw [h.failure?_eq] at hfailure
      have hall : (∀ u ∈ ts, u.evaluate record = .ok true)
          ↔ chain.truth (fun c => c.answer record) = true := by
        rw [h.truth_eq, List.all_eq_true]
        refine forall₂_congr fun u hu => ?_
        rw [evaluate_of_findSome? hfailure hu, Except.ok.injEq]
      rw [hall, Option.elim_none, Except.ok.injEq, and_iff_right rfl, ← Bool.eq_iff_iff]
      exact eq_comm
  evaluate_eq_error_iff record e := by
    rw [← failure?_eq_some_iff_evaluate, h.failure?_eq, List.findSome?_eq_some_iff]
    refine exists₃_congr fun before u after => and_congr_right fun _ => ?_
    rw [failure?_eq_some_iff_evaluate, and_comm]
    exact and_congr_left fun _ => forall₂_congr fun v _ => failure?_eq_none_iff_exists

/-- **Combining is the bounded conjunction of trees.** There is one chain of the trees, if
there are any. They are combined into it exactly if they are two at least and its depth, which
is told before it is built, is within the limit; and it requires all of them. -/
theorem combine_means_conjunction (limit : ℕ) (ts : List Tree) :
    (ts ≠ [] → ∃! chain, Conjoins ts chain)
      ∧ (∀ t, combine limit ts = .ok t ↔ 2 ≤ ts.length ∧ Conjoins ts t ∧ t.depth ≤ limit)
      ∧ ∀ t, Conjoins ts t → RequiresAll ts t :=
  ⟨existsUnique_conjoins, fun _ => combine_eq_ok_iff_conjoins, fun _ => Conjoins.requiresAll⟩

-- The deepest tree stands in the middle, and the chain puts two levels on top of it.
example :
    let leaf (name : String) : Tree := leaf ⟨name, .equal, "x"⟩
    let deep : Tree := node .or (leaf "b") (node .or (leaf "c") (leaf "d"))
    (combine 4 [leaf "a", deep, leaf "e"], combine 5 [leaf "a", deep, leaf "e"])
      = (.error (.treeTooDeep 4),
        .ok (node .and (node .and (leaf "a") deep) (leaf "e"))) := by
  decide +kernel

end RecordRules.Tree
