import Mathlib.Data.List.Forall2
import Mathlib.Data.List.Induction
import RecordRules.Table

/-!
# Tables that insertions build

A table does not keep the insertions that it was built by, only what they come to: under each
key the value that was inserted last (`Table.InsertedLast`). When a value was inserted, and
under which other keys values were, makes no difference (`Table.get?_ofList_eq_some_iff`).

The entries of a table are what is looked up in it (`Table.mem_entries_iff`), so that the table
is built again of its own entries (`Table.ofList_entries`).
-/

namespace RecordRules.Table

variable {α β : Type} {pairs : List (String × α)} {key : String} {value : α}

/-! ## The last insertion -/

/-- **The value is the last that the pairs insert under the key**: no pair after it has the same
key. -/
def InsertedLast (pairs : List (String × α)) (key : String) (value : α) : Prop :=
  ∃ before after, pairs = before ++ (key, value) :: after ∧ ∀ p ∈ after, p.1 ≠ key

/-- No pairs insert nothing. -/
theorem not_insertedLast_nil : ¬ InsertedLast ([] : List (String × α)) key value := by
  rintro ⟨before, after, h, -⟩
  exact List.append_ne_nil_of_right_ne_nil before (List.cons_ne_nil _ after) h.symm

/-- The pair at the end is the last under its key, and changes nothing under another. -/
theorem insertedLast_snoc_iff {p : String × α} :
    InsertedLast (pairs ++ [p]) key value
      ↔ p = (key, value) ∨ p.1 ≠ key ∧ InsertedLast pairs key value := by
  constructor
  · rintro ⟨before, after, h, hafter⟩
    rcases List.eq_nil_or_concat after with rfl | ⟨after, q, rfl⟩
    · obtain ⟨-, hp⟩ := List.append_inj' h rfl
      exact .inl (List.singleton_inj.mp hp)
    · rw [List.concat_eq_append, ← List.cons_append, ← List.append_assoc] at h
      obtain ⟨rfl, hq⟩ := List.append_inj' h rfl
      obtain rfl := List.singleton_inj.mp hq
      rw [List.concat_eq_append, List.forall_mem_append, List.forall_mem_singleton] at hafter
      exact .inr ⟨hafter.2, before, after, rfl, hafter.1⟩
  · rintro (rfl | ⟨hne, before, after, rfl, hafter⟩)
    · exact ⟨pairs, [], rfl, List.forall_mem_nil _⟩
    · refine ⟨before, after ++ [p], by rw [List.append_assoc, List.cons_append], ?_⟩
      exact List.forall_mem_append.mpr ⟨hafter, List.forall_mem_singleton.mpr hne⟩

/-- Where no key is repeated, every pair is the last under its key. -/
theorem insertedLast_iff_mem (h : (pairs.map Prod.fst).Nodup) :
    InsertedLast pairs key value ↔ (key, value) ∈ pairs := by
  constructor
  · rintro ⟨before, after, rfl, -⟩
    exact List.mem_append_right _ List.mem_cons_self
  · intro hmem
    obtain ⟨before, after, rfl⟩ := List.append_of_mem hmem
    rw [List.map_append, List.map_cons, List.nodup_append, List.nodup_cons] at h
    obtain ⟨-, ⟨hkey, -⟩, -⟩ := h
    refine ⟨before, after, rfl, ?_⟩
    rintro p hp rfl
    exact hkey (List.mem_map.mpr ⟨p, hp, rfl⟩)

/-- One more pair is one more insertion. -/
theorem ofList_snoc (pairs : List (String × α)) (p : String × α) :
    ofList (pairs ++ [p]) = (ofList pairs).insert p.1 p.2 := by
  rw [ofList, List.foldl_append]
  rfl

/-- **What a table holds under a key** is the value that was inserted last. -/
theorem get?_ofList_eq_some_iff :
    (ofList pairs).get? key = some value ↔ InsertedLast pairs key value := by
  induction pairs using List.reverseRecOn with
  | nil => exact iff_of_false nofun not_insertedLast_nil
  | append_singleton pairs p ih =>
    obtain ⟨k, v⟩ := p
    rw [ofList_snoc, get?_insert, insertedLast_snoc_iff, ← ih, Prod.mk.injEq]
    by_cases hkey : k = key
    · rw [if_pos hkey, Option.some.injEq, and_iff_right hkey, or_iff_left fun h => h.1 hkey]
    · rw [if_neg hkey, and_iff_right hkey, or_iff_right fun h => hkey h.1]

/-- **Pairs with related values** under the same keys build tables with related values. -/
theorem rel_get?_ofList {R : α → β → Prop} {pairs' : List (String × β)}
    (h : List.Forall₂ (fun p q => p.1 = q.1 ∧ R p.2 q.2) pairs pairs') (key : String) :
    Option.Rel R ((ofList pairs).get? key) ((ofList pairs').get? key) := by
  let Related (t : Table α) (t' : Table β) : Prop :=
    ∀ key, Option.Rel R (t.get? key) (t'.get? key)
  have hempty : Related empty empty := fun _ => .none
  have hinsert {t : Table α} {t' : Table β} (ht : Related t t')
      {p : String × α} {q : String × β} (hpq : p.1 = q.1 ∧ R p.2 q.2) :
      Related (t.insert p.1 p.2) (t'.insert q.1 q.2) := by
    intro other
    rw [get?_insert, get?_insert, hpq.1]
    split
    · exact .some hpq.2
    · exact ht other
  have hfold : Related (ofList pairs) (ofList pairs') := by
    unfold ofList
    refine List.rel_foldl (P := Related) (fun _ _ ht _ _ hpq => ?_) hempty h
    exact hinsert ht hpq
  exact hfold key

/-! ## The entries -/

/-- The entries are under distinct keys. -/
theorem nodup_keys (t : Table α) : t.keys.Nodup := by
  rw [keys, List.Nodup, List.pairwise_map]
  refine t.ascending.imp fun hlt heq => ?_
  rw [heq] at hlt
  exact String.lt_irrefl _ hlt

/-- **The entries of a table** are what is looked up in it. -/
theorem mem_entries_iff {t : Table α} : (key, value) ∈ t.entries ↔ t.get? key = some value := by
  obtain ⟨entries, h⟩ := t
  show (key, value) ∈ entries ↔ lookup key entries = some value
  induction entries with
  | nil => exact iff_of_false List.not_mem_nil (Option.some_ne_none value).symm
  | cons e entries ih =>
    obtain ⟨k, v⟩ := e
    obtain ⟨hk, hentries⟩ := List.pairwise_cons.mp h
    rw [lookup, List.mem_cons, Prod.mk.injEq, ih hentries]
    split
    · next heq =>
      rw [lookup_eq_none_of_lt (heq ▸ hk), Option.some.injEq, and_iff_right heq.symm,
        or_iff_left (Option.some_ne_none value).symm]
      exact eq_comm
    · next hne => exact or_iff_right fun h => hne h.1.symm

/-- **A table is built again of its entries.** -/
theorem ofList_entries (t : Table α) : ofList t.entries = t := by
  refine ext_get? fun key => Option.ext fun value => ?_
  rw [get?_ofList_eq_some_iff, insertedLast_iff_mem t.nodup_keys, mem_entries_iff]

end RecordRules.Table
