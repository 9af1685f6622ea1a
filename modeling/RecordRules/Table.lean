/-!
# Tables

A **table** holds at most one value per key, in ascending order of the keys;
strings are ordered by the code points of their characters. The order makes a
table canonical: two tables that give the same value for every key are the
same table (`Table.ext_get?`), however they came about.

`Table.get?_insert` says what is looked up after an insertion, and nothing
more is needed to reason about a table.
-/

namespace RecordRules

/-- **A table** of values under distinct keys, in ascending order. -/
structure Table (α : Type) where
  /-- The keys with their values. -/
  entries : List (String × α)
  /-- Each key is smaller than all that follow it. -/
  ascending : entries.Pairwise (fun a b => a.1 < b.1)
  deriving DecidableEq, Repr

namespace Table

variable {α : Type}

/-- The table without entries. -/
def empty : Table α := ⟨[], .nil⟩

/-- The number of entries. -/
def size (t : Table α) : Nat := t.entries.length

/-- Whether there is no entry. -/
def isEmpty (t : Table α) : Bool := t.entries.isEmpty

/-- The keys, in ascending order. -/
def keys (t : Table α) : List String := t.entries.map (·.1)

/-! ## Looking up -/

/-- The value under the key among the entries. -/
def lookup (key : String) : List (String × α) → Option α
  | [] => none
  | (k, v) :: rest => if k = key then some v else lookup key rest

/-- **The value under the key**, if there is one. -/
def get? (t : Table α) (key : String) : Option α := lookup key t.entries

/-! ## Inserting -/

/-- The entries with the value under the key, in place of one that was there
or else where the order has it. -/
def place (key : String) (value : α) : List (String × α) → List (String × α)
  | [] => [(key, value)]
  | (k, v) :: rest =>
    if key < k then (key, value) :: (k, v) :: rest
    else if key = k then (key, value) :: rest
    else (k, v) :: place key value rest

theorem mem_of_mem_place {key : String} {value : α} {entries : List (String × α)}
    {e : String × α} (h : e ∈ place key value entries) :
    e = (key, value) ∨ e ∈ entries := by
  induction entries with
  | nil => simpa [place] using h
  | cons head rest ih =>
    obtain ⟨k, v⟩ := head
    simp only [place] at h
    split at h
    · simpa using h
    · split at h
      · simp only [List.mem_cons] at h ⊢
        exact h.imp_right .inr
      · rcases List.mem_cons.1 h with h | h
        · exact .inr (by simp [h])
        · exact (ih h).imp_right (List.mem_cons_of_mem _)

/-- The order of the keys is kept. -/
theorem pairwise_place {key : String} {value : α} {entries : List (String × α)}
    (h : entries.Pairwise (fun a b => a.1 < b.1)) :
    (place key value entries).Pairwise (fun a b => a.1 < b.1) := by
  induction entries with
  | nil => simp [place]
  | cons head rest ih =>
    obtain ⟨k, v⟩ := head
    obtain ⟨hk, hrest⟩ := List.pairwise_cons.1 h
    simp only [place]
    split
    · rename_i hlt
      refine List.pairwise_cons.2 ⟨fun e he => ?_, h⟩
      rcases List.mem_cons.1 he with rfl | he
      · exact hlt
      · exact String.lt_trans hlt (hk e he)
    · split
      · rename_i heq
        exact List.pairwise_cons.2 ⟨fun e he => heq ▸ hk e he, hrest⟩
      · rename_i hlt hne
        refine List.pairwise_cons.2 ⟨fun e he => ?_, ih hrest⟩
        rcases mem_of_mem_place he with rfl | he
        · exact Std.lt_of_le_of_ne (String.not_lt.1 hlt) (Ne.symm hne)
        · exact hk e he

/-- **The table with the value under the key**, in place of any other. -/
def insert (t : Table α) (key : String) (value : α) : Table α :=
  ⟨place key value t.entries, pairwise_place t.ascending⟩

/-- The table of the pairs; the last one counts where a key is repeated. -/
def ofList (pairs : List (String × α)) : Table α :=
  pairs.foldl (fun t p => t.insert p.1 p.2) empty

@[simp] theorem get?_empty (key : String) : (empty : Table α).get? key = none := rfl

@[simp] theorem size_empty : (empty : Table α).size = 0 := rfl

theorem lookup_place (key : String) (value : α) (other : String)
    (entries : List (String × α)) :
    lookup other (place key value entries)
      = if key = other then some value else lookup other entries := by
  induction entries with
  | nil => rfl
  | cons head rest ih =>
    obtain ⟨k, v⟩ := head
    simp only [place]
    split
    · simp only [lookup]
    · split
      · rename_i heq
        simp only [lookup, heq]
        split <;> rfl
      · rename_i hne
        simp only [lookup, ih]
        split
        · rename_i hk
          simp [← hk, hne]
        · rfl

/-- **After an insertion** the key has the new value, every other key the one
that it had. -/
theorem get?_insert (t : Table α) (key other : String) (value : α) :
    (t.insert key value).get? other
      = if key = other then some value else t.get? other :=
  lookup_place key value other t.entries

@[simp] theorem get?_insert_self (t : Table α) (key : String) (value : α) :
    (t.insert key value).get? key = some value := by
  simp [get?_insert]

theorem length_place_le (key : String) (value : α) (entries : List (String × α)) :
    (place key value entries).length ≤ entries.length + 1 := by
  induction entries with
  | nil => exact Nat.le_refl 1
  | cons head rest ih =>
    obtain ⟨k, v⟩ := head
    simp only [place]
    split
    · exact Nat.le_refl _
    · split
      · exact Nat.le_succ _
      · exact Nat.succ_le_succ ih

/-- An insertion adds one entry at most. -/
theorem size_insert_le (t : Table α) (key : String) (value : α) :
    (t.insert key value).size ≤ t.size + 1 :=
  length_place_le key value t.entries

/-- The only entry of a table is the one that was inserted first. -/
theorem entries_insert_empty (key : String) (value : α) :
    (empty.insert key value).entries = [(key, value)] := rfl

/-! ## Equality -/

/-- A key that is smaller than all keys is not among them. -/
theorem lookup_eq_none_of_lt {key : String} {entries : List (String × α)}
    (h : ∀ e ∈ entries, key < e.1) : lookup key entries = none := by
  induction entries with
  | nil => rfl
  | cons head rest ih =>
    obtain ⟨k, v⟩ := head
    have hk : key < k := h (k, v) List.mem_cons_self
    have hne : k ≠ key := fun heq => String.lt_irrefl key (heq ▸ hk)
    simp only [lookup, if_neg hne]
    exact ih fun e he => h e (List.mem_cons_of_mem _ he)

theorem entries_eq_of_lookup {es fs : List (String × α)}
    (he : es.Pairwise (fun a b => a.1 < b.1))
    (hf : fs.Pairwise (fun a b => a.1 < b.1))
    (h : ∀ key, lookup key es = lookup key fs) : es = fs := by
  induction es generalizing fs with
  | nil =>
    cases fs with
    | nil => rfl
    | cons f fs => simpa [lookup] using h f.1
  | cons e es ih =>
    obtain ⟨k, v⟩ := e
    obtain ⟨hk, hes⟩ := List.pairwise_cons.1 he
    cases fs with
    | nil => simpa [lookup] using h k
    | cons f fs =>
      obtain ⟨k', v'⟩ := f
      obtain ⟨hk', hfs⟩ := List.pairwise_cons.1 hf
      have hkk : k = k' := by
        refine Classical.byContradiction fun hne => ?_
        by_cases hlt : k < k'
        · have hnone : lookup k ((k', v') :: fs) = none := by
            refine lookup_eq_none_of_lt fun e hmem => ?_
            rcases List.mem_cons.1 hmem with rfl | hmem
            · exact hlt
            · exact String.lt_trans hlt (hk' e hmem)
          have := h k
          rw [hnone] at this
          simp [lookup] at this
        · have hlt' : k' < k :=
            Std.lt_of_le_of_ne (String.not_lt.1 hlt) (Ne.symm hne)
          have hnone : lookup k' ((k, v) :: es) = none := by
            refine lookup_eq_none_of_lt fun e hmem => ?_
            rcases List.mem_cons.1 hmem with rfl | hmem
            · exact hlt'
            · exact String.lt_trans hlt' (hk e hmem)
          have := h k'
          rw [hnone] at this
          simp [lookup] at this
      subst hkk
      have hv : v = v' := by simpa [lookup] using h k
      subst hv
      refine congrArg _ (ih hes hfs fun key => ?_)
      by_cases hkey : k = key
      · subst hkey
        rw [lookup_eq_none_of_lt hk, lookup_eq_none_of_lt hk']
      · simpa [lookup, hkey] using h key

/-- **A table is what is looked up in it.** -/
theorem ext_get? {s t : Table α} (h : ∀ key, s.get? key = t.get? key) : s = t := by
  obtain ⟨es, he⟩ := s
  obtain ⟨fs, hf⟩ := t
  obtain rfl := entries_eq_of_lookup he hf h
  rfl

end Table

end RecordRules
