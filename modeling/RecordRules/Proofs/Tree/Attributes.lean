import RecordRules.Proofs.Outcome
import RecordRules.Proofs.Table
import RecordRules.Tree.Evaluate

/-!
# What an evaluation reads of a record

A condition looks up its attribute, and a tree evaluates its conditions. What else a record holds
is never looked at, and how the record came by what it holds cannot be: two records that give the
attributes of a tree the same values, or lack the same of them, have the same outcome, be it an
answer or an error (`Tree.evaluate_congr`).

Of the insertions that built a record, those therefore count that were the last under one of the
attributes; earlier ones that they replaced, those under other keys, and the order of all of them
do not.
-/

namespace RecordRules

open Except (bind_eq_ok_iff)
open Table (InsertedLast)

variable {record record' : Record}

/-- A condition looks up its attribute and nothing else. -/
theorem Condition.evaluate_congr {c : Condition} (h : record.get? c.name = record'.get? c.name) :
    c.evaluate record = c.evaluate record' := by
  unfold evaluate
  rw [h]

/-- A condition has no answer where its attribute has no value. -/
theorem Condition.exists_get?_of_evaluate {c : Condition} {b : Bool}
    (h : c.evaluate record = .ok b) : ∃ datum, record.get? c.name = some datum := by
  unfold evaluate at h
  split at h
  · cases h
  · next datum hget => exact ⟨datum, hget⟩

namespace Tree

variable {t : Tree}

/-- **The tree reads its attributes and nothing else** of a record. -/
structure ReadsAttributes (t : Tree) : Prop where
  /-- Records that agree on the attributes, by the value or by having none, have the same
  outcome. -/
  evaluate_congr : ∀ record record' : Record,
    (∀ c ∈ t.conditions, record.get? c.name = record'.get? c.name) →
      t.evaluate record = t.evaluate record'
  /-- So have records that insertions built with the same last value of each attribute. -/
  evaluate_ofList_congr : ∀ pairs pairs' : List (String × Datum),
    (∀ c ∈ t.conditions, ∀ datum,
        InsertedLast pairs c.name datum ↔ InsertedLast pairs' c.name datum) →
      t.evaluate (Table.ofList pairs) = t.evaluate (Table.ofList pairs')
  /-- Every one of the attributes is read: there is no answer unless all of them have values. -/
  exists_get? : ∀ (record : Record) (b : Bool), t.evaluate record = .ok b →
    ∀ c ∈ t.conditions, ∃ datum, record.get? c.name = some datum

/-- **Records that agree on the attributes** of a tree have the same outcome. -/
theorem evaluate_congr (h : ∀ c ∈ t.conditions, record.get? c.name = record'.get? c.name) :
    t.evaluate record = t.evaluate record' := by
  induction t with
  | leaf c => exact Condition.evaluate_congr (h c (List.mem_singleton_self c))
  | node k l r ihl ihr =>
    rw [conditions_node, List.forall_mem_append] at h
    rw [evaluate, evaluate, ihl h.1, ihr h.2]

/-- A tree has an answer only where all of its attributes have values. -/
theorem exists_get?_of_evaluate {b : Bool} (h : t.evaluate record = .ok b) :
    ∀ c ∈ t.conditions, ∃ datum, record.get? c.name = some datum := by
  induction t generalizing b with
  | leaf c =>
    rw [conditions_leaf, List.forall_mem_singleton]
    exact Condition.exists_get?_of_evaluate h
  | node k l r ihl ihr =>
    obtain ⟨left, hl, h⟩ := bind_eq_ok_iff.mp h
    obtain ⟨right, hr, -⟩ := bind_eq_ok_iff.mp h
    rw [conditions_node, List.forall_mem_append]
    exact ⟨ihl hl, ihr hr⟩

/-- **Evaluating reads the attributes of the tree** and nothing else, however the record was
built. -/
theorem evaluate_reads_attributes (t : Tree) : t.ReadsAttributes where
  evaluate_congr _ _ := evaluate_congr
  evaluate_ofList_congr pairs pairs' h := by
    refine evaluate_congr fun c hc => Option.ext fun datum => ?_
    rw [Table.get?_ofList_eq_some_iff, Table.get?_ofList_eq_some_iff, h c hc datum]
  exists_get? _ _ := exists_get?_of_evaluate

-- The value that was replaced and the one under another key make no difference, and neither does
-- which attribute was given its value first.
example :
    let t : Tree := .node .and (.leaf ⟨"a", .equal, "x"⟩) (.leaf ⟨"b", .notEqual, "y"⟩)
    t.evaluate (Table.ofList [("a", .text "y"), ("b", .text "z"), ("c", .text ""), ("a", .text "x")])
      = t.evaluate (Table.ofList [("a", .text "x"), ("b", .text "z")]) :=
  rfl

end Tree

end RecordRules
