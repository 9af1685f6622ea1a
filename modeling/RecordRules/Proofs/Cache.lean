import RecordRules.Cache
import RecordRules.Proofs.Token.Words
import RecordRules.Proofs.Tree.Limits

/-!
# Reading by the cache

A text is read in one of two ways, and `Cache.found?` tells which: its tree is
found, or the text is read within the limit of the settings and its tree is
remembered. What the entries of a cache have in common (`Cache.All`) is kept by
reading as soon as it holds of every tree that reading can add.

That is all that is used about eviction, for a full cache that is emptied has
fewer entries and not others.

A cache is **sound** if each of its trees is the tree of the text that it is
kept under, within some limit. Reading a text by a sound cache means the same as
reading it without (`Cache.Sound.meansTheSame`): the outcome differs only where
the limit is exceeded, and then it is the tree that a higher limit gives.
-/

namespace RecordRules

open Text (trim)

/-- Blanks around a text are no part of it. -/
theorem Tree.ofText_trim (limit : ℕ) (text : String) :
    Tree.ofText limit (trim text) = Tree.ofText limit text := by
  unfold Tree.ofText Tree.parse
  rw [Token.tokenize_trim]

namespace Cache

variable {settings : Settings} {cache cache' : Cache} {text : String} {t : Tree}

/-! ## The two ways to read -/

/-- **The tree that is found** for a text, if there is one and the cache is
enabled. -/
def found? (settings : Settings) (cache : Cache) (text : String) : Option Tree :=
  if settings.cacheEnabled then cache.get? (trim text) else none

/-- The cache after a text was read that was not found. -/
def keep (settings : Settings) (cache : Cache) (text : String) (t : Tree) : Cache :=
  if settings.cacheEnabled then cache.remember settings.cacheCapacity (trim text) t
  else cache

/-- A tree is found where the cache is enabled and has it. -/
theorem found?_eq_some_iff :
    cache.found? settings text = some t
      ↔ settings.cacheEnabled = true ∧ cache.get? (trim text) = some t := by
  unfold found?
  split
  · next henabled => exact (and_iff_right henabled).symm
  · next hdisabled => exact iff_of_false nofun fun h => hdisabled h.1

/-- A tree that is found is not read again. -/
theorem read_of_found (h : cache.found? settings text = some t) :
    cache.read settings text = .ok (t, cache) := by
  obtain ⟨henabled, hget⟩ := found?_eq_some_iff.mp h
  unfold read
  rw [if_pos henabled, hget]

/-- A text whose tree is not found is read within the limit. -/
theorem read_of_not_found (h : cache.found? settings text = none) :
    cache.read settings text
      = (Tree.ofText settings.maxDepth text).map fun t =>
        (t, cache.keep settings text t) := by
  unfold found? at h
  unfold read keep
  rw [← Tree.ofText_trim]
  split at h
  · next henabled =>
    rw [if_pos henabled, h]
    simp only [if_pos henabled]
  · next hdisabled =>
    rw [if_neg hdisabled]
    simp only [if_neg hdisabled]

/-- **What a text that was read gives**: the tree that was found, or the one
within the limit. -/
theorem read_eq_ok_iff :
    cache.read settings text = .ok (t, cache')
      ↔ cache.found? settings text = some t ∧ cache' = cache
        ∨ cache.found? settings text = none
          ∧ Tree.ofText settings.maxDepth text = .ok t
          ∧ cache' = cache.keep settings text t := by
  cases hfound : cache.found? settings text with
  | some t' =>
    rw [read_of_found hfound]
    simp [eq_comm]
  | none =>
    rw [read_of_not_found hfound, Except.map_eq_ok_iff]
    simp [eq_comm]

/-! ## What all entries have in common -/

/-- **Every tree is related to its key** as `p` says. -/
def All (p : String → Tree → Prop) (cache : Cache) : Prop :=
  ∀ key t, cache.get? key = some t → p key t

variable {p : String → Tree → Prop}

/-- Without entries there is nothing to show. -/
theorem All.empty : All p Table.empty := nofun

/-- One more entry has to be as all others are. -/
theorem All.insert (h : cache.All p) {key : String} (hnew : p key t) :
    All p (cache.insert key t) := by
  intro other t' hget
  rw [Table.get?_insert] at hget
  split at hget
  · next hkey =>
    obtain rfl := Option.some.inj hget
    exact hkey ▸ hnew
  · exact h other t' hget

/-- **Reading keeps what all entries have in common**, if a tree that is read
within the limit has it. -/
theorem All.read (h : cache.All p)
    (hnew : ∀ text t, Tree.ofText settings.maxDepth text = .ok t → p (trim text) t)
    (hread : cache.read settings text = .ok (t, cache')) : cache'.All p := by
  rcases read_eq_ok_iff.mp hread with ⟨-, rfl⟩ | ⟨-, htext, rfl⟩
  · exact h
  · unfold keep remember
    split
    · split
      · exact All.empty.insert (hnew text t htext)
      · exact h.insert (hnew text t htext)
    · exact h

/-- **A cache that comes of another by reading**, any number of times. -/
inductive Reads (settings : Settings) (cache : Cache) : Cache → Prop where
  | refl : Reads settings cache cache
  | read {text : String} {t : Tree} {between after : Cache} :
      Reads settings cache between →
      between.read settings text = .ok (t, after) → Reads settings cache after

/-- Reading on from a cache that comes of reading. -/
theorem Reads.trans {between : Cache} (h : cache.Reads settings between)
    (h' : between.Reads settings cache') : cache.Reads settings cache' := by
  induction h' with
  | refl => exact h
  | read _ hread ih => exact ih.read hread

/-- Reading any number of times keeps what reading once does. -/
theorem All.reads (h : cache.All p)
    (hnew : ∀ text t, Tree.ofText settings.maxDepth text = .ok t → p (trim text) t)
    (hreads : cache.Reads settings cache') : cache'.All p := by
  induction hreads with
  | refl => exact h
  | read _ hread ih => exact ih.read hnew hread

/-! ## Sound caches -/

/-- **Each tree is that of its key**, which is trimmed, within some limit. -/
def Sound : Cache → Prop :=
  All fun key t => trim key = key ∧ ∃ limit, Tree.ofText limit key = .ok t

/-- Whatever is read can be remembered. -/
theorem Sound.reads (h : cache.Sound) (hreads : cache.Reads settings cache') :
    cache'.Sound := by
  refine All.reads h (fun text t htext => ⟨Text.trim_trim text, settings.maxDepth, ?_⟩) hreads
  rw [Tree.ofText_trim, htext]

/-- What is found in a sound cache is the tree of the text within some limit. -/
theorem Sound.of_found (h : cache.Sound) (hfound : cache.found? settings text = some t) :
    ∃ limit, Tree.ofText limit text = .ok t := by
  obtain ⟨-, hget⟩ := found?_eq_some_iff.mp hfound
  obtain ⟨-, limit, htext⟩ := h _ _ hget
  exact ⟨limit, (Tree.ofText_trim limit text).symm.trans htext⟩

/-- **Reading by the cache means what reading means**, apart from the limit. -/
structure MeansTheSame (settings : Settings) (cache : Cache) (text : String) : Prop where
  /-- The tree of the text is read. -/
  ok : ∀ t, Tree.ofText settings.maxDepth text = .ok t →
    ∃ after, cache.read settings text = .ok (t, after)
  /-- A fault of the text is reported. -/
  error : ∀ e, Tree.ofText settings.maxDepth text = .error e → ¬ e.IsTooDeep →
    cache.read settings text = .error e
  /-- What is read is the tree of the text, within all limits from some on. -/
  tree : ∀ t after, cache.read settings text = .ok (t, after) →
    ∃ bound, ∀ limit, bound ≤ limit → Tree.ofText limit text = .ok t
  /-- Blanks around the text make no difference. -/
  trim : cache.read settings (Text.trim text) = cache.read settings text

/-- **A sound cache gives texts no other meaning.** -/
theorem Sound.meansTheSame (h : cache.Sound) (settings : Settings) (text : String) :
    MeansTheSame settings cache text where
  ok t htext := by
    cases hfound : cache.found? settings text with
    | none => exact ⟨_, read_eq_ok_iff.mpr (.inr ⟨hfound, htext, rfl⟩)⟩
    | some t' =>
      obtain ⟨limit, hlimit⟩ := h.of_found hfound
      obtain rfl := Tree.ofText_unique htext hlimit
      exact ⟨cache, read_of_found hfound⟩
  error e he hne := by
    cases hfound : cache.found? settings text with
    | none =>
      rw [read_of_not_found hfound, he]
      rfl
    | some t =>
      obtain ⟨limit, hlimit⟩ := h.of_found hfound
      exact absurd (Tree.isTooDeep_of_ofText hlimit he) hne
  tree t after hread := by
    have hlimit : ∃ limit, Tree.ofText limit text = .ok t := by
      rcases read_eq_ok_iff.mp hread with ⟨hfound, -⟩ | ⟨-, htext, -⟩
      · exact h.of_found hfound
      · exact ⟨settings.maxDepth, htext⟩
    obtain ⟨bound, hbound⟩ := hlimit
    exact ⟨bound, fun limit hle => Tree.ofText_eq_ok_of_le hle hbound⟩
  trim := by
    unfold read
    rw [Text.trim_trim]

end Cache

end RecordRules
