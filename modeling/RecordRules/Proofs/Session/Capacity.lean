import RecordRules.Proofs.Session.Remembered

/-!
# How much a session remembers

A capacity bounds the number of entries where an entry is stored, and nowhere else: a full
cache is emptied first, and settings that are installed with a lower capacity leave the
entries where they are. A session may therefore remember more than its settings have room
for, but never more than settings had room for that were in force before
(`Session.size_moves_le_max`). The next entry that is stored puts this right, for it is then the
only one.

An entry is stored only where a text is looked up, is not found, and is read
(`Cache.Stores`). All other ways to look up a text leave the cache alone
(`Cache.LooksUp`).
-/

namespace RecordRules

open Text (trim)

namespace Cache

variable {settings : Settings} {cache cache' : Cache} {text : String} {t : Tree}

/-! ## Looking up a text -/

/-- **The cache after the text was looked up.** -/
def after (settings : Settings) (cache : Cache) (text : String) : Cache :=
  match cache.read settings text with
  | .ok (_, cache') => cache'
  | .error _ => cache

/-- **The tree is stored** when the text is looked up: it is not found in the cache, which
is enabled, and it is read. -/
structure Stores (settings : Settings) (cache : Cache) (text : String) (t : Tree) : Prop where
  /-- Texts are remembered. -/
  enabled : settings.cacheEnabled = true
  /-- This one is not remembered yet. -/
  absent : cache.get? (trim text) = none
  /-- It has the tree. -/
  read : Tree.ofText settings.maxDepth text = .ok t

/-- A tree that is found is not stored. -/
theorem after_of_found (h : cache.found? settings text = some t) :
    cache.after settings text = cache := by
  rw [after, read_of_found h]

/-- A text that cannot be read leaves the cache as it is, whether it is found or not. -/
theorem after_of_error {e : Error} (h : Tree.ofText settings.maxDepth text = .error e) :
    cache.after settings text = cache := by
  cases hfound : cache.found? settings text with
  | some t => exact after_of_found hfound
  | none =>
    rw [after, read_of_not_found hfound, h]
    rfl

/-- While the cache is disabled it is left as it is. -/
theorem after_of_disabled (h : settings.cacheEnabled = false) :
    cache.after settings text = cache := by
  have hfound : cache.found? settings text = none := by
    rw [found?, h, if_neg Bool.false_ne_true]
  rw [after, read_of_not_found hfound]
  cases Tree.ofText settings.maxDepth text with
  | error e => rfl
  | ok t =>
    show cache.keep settings text t = cache
    rw [keep, h, if_neg Bool.false_ne_true]

/-- **A tree that is stored** is remembered under the trimmed text. -/
theorem Stores.after_eq (h : cache.Stores settings text t) :
    cache.after settings text = cache.remember settings.cacheCapacity (trim text) t := by
  have hfound : cache.found? settings text = none := by
    rw [found?, if_pos h.enabled, h.absent]
  rw [after, read_of_not_found hfound, h.read]
  show cache.keep settings text t = _
  rw [keep, if_pos h.enabled]

/-! ## Entries and capacity -/

/-- A full cache remembers nothing but the new entry. -/
theorem entries_remember_of_le {capacity : ℕ} (h : capacity ≤ cache.size) (key : String)
    (t : Tree) : (cache.remember capacity key t).entries = [(key, t)] := by
  rw [remember, if_pos h, Table.entries_insert_empty]

/-- What is remembered is there. -/
theorem get?_remember (capacity : ℕ) (cache : Cache) (key : String) (t : Tree) :
    (cache.remember capacity key t).get? key = some t := by
  rw [remember, Table.get?_insert_self]

/-- **A new entry leaves the cache within its capacity**, if that has room for an entry. -/
theorem size_remember_le {capacity : ℕ} (hcapacity : 1 ≤ capacity) (cache : Cache)
    (key : String) (t : Tree) : (cache.remember capacity key t).size ≤ capacity := by
  by_cases hfull : capacity ≤ cache.size
  · rw [Table.size, entries_remember_of_le hfull]
    exact hcapacity
  · rw [remember, if_neg hfull]
    exact (Table.size_insert_le _ _ _).trans (Nat.lt_of_not_le hfull)

/-- **Reading texts leaves the cache alone or within its capacity**, if that has room for an
entry wherever entries are stored. -/
theorem Reads.eq_or_size_le
    (hcapacity : settings.cacheEnabled = true → 1 ≤ settings.cacheCapacity)
    (h : cache.Reads settings cache') :
    cache' = cache ∨ cache'.size ≤ settings.cacheCapacity := by
  induction h with
  | refl => exact .inl rfl
  | read _ hread ih =>
    rcases read_eq_ok_iff.mp hread with ⟨-, rfl⟩ | ⟨-, -, rfl⟩
    · exact ih
    · unfold keep
      split
      · next henabled => exact .inr (size_remember_le (hcapacity henabled) _ _ _)
      · exact ih

/-- Reading texts leaves no more entries than there were, or than there is room for. -/
theorem Reads.size_le (hcapacity : 1 ≤ settings.cacheCapacity)
    (h : cache.Reads settings cache') :
    cache'.size ≤ max cache.size settings.cacheCapacity := by
  rcases h.eq_or_size_le fun _ => hcapacity with rfl | hsize
  · exact le_max_left _ _
  · exact hsize.trans (le_max_right _ _)

/-- **What looking a text up does to the cache.** -/
structure LooksUp (settings : Settings) (cache : Cache) (text : String) (after : Cache) :
    Prop where
  /-- A tree that is stored is there, and the cache is within its capacity. -/
  stored : ∀ t, cache.Stores settings text t →
    after.get? (trim text) = some t ∧ after.size ≤ settings.cacheCapacity
  /-- A tree that is stored in a full cache is all that is left. -/
  full : ∀ t, cache.Stores settings text t → settings.cacheCapacity ≤ cache.size →
    after.entries = [(trim text, t)]
  /-- A tree that is found changes nothing. -/
  found : ∀ t, settings.cacheEnabled = true → cache.get? (trim text) = some t → after = cache
  /-- A text that cannot be read changes nothing. -/
  failed : ∀ e, Tree.ofText settings.maxDepth text = .error e → after = cache
  /-- Where the cache is disabled, nothing is changed. -/
  disabled : settings.cacheEnabled = false → after = cache

/-- **Looking a text up** stores its tree or leaves the cache alone. -/
theorem looksUp_after (hcapacity : 1 ≤ settings.cacheCapacity) (cache : Cache)
    (text : String) : LooksUp settings cache text (cache.after settings text) where
  stored t h := by
    rw [h.after_eq]
    exact ⟨get?_remember _ _ _ _, size_remember_le hcapacity _ _ _⟩
  full t h hfull := by rw [h.after_eq, entries_remember_of_le hfull]
  found t henabled hget := after_of_found (found?_eq_some_iff.mpr ⟨henabled, hget⟩)
  failed e h := after_of_error h
  disabled h := after_of_disabled h

/-- No text without characters is read, so that none is remembered. -/
theorem Sound.key_ne_empty (h : cache.Sound) {key : String} (hget : cache.get? key = some t) :
    key ≠ "" := by
  rintro rfl
  obtain ⟨-, limit, htext⟩ := h _ _ hget
  cases htext

end Cache

namespace Session

variable {s : Session}

/-- **The text that a command looks up**, if it looks one up. Where a record that comes with
the text cannot be decoded, the text is not looked at. -/
def Command.lookup? : Command → Option String
  | .read text => some text
  | .decide text record =>
    match record.toRecord with
    | .ok _ => some text
    | .error _ => none
  | _ => none

/-- Whatever is asked of a text, the cache is left as looking the text up leaves it. -/
theorem cache_readThen {β : Type} (s : Session) (text : String)
    (ask : Tree → Except Failure β) :
    (s.readThen text ask).2.cache = s.cache.after s.settings text := by
  unfold readThen Cache.after
  rcases s.cache.read s.settings text with e | ⟨t, cache⟩ <;> rfl

/-- **A command that looks a text up** does nothing else to the cache. -/
theorem cache_step_of_lookup {c : Command} {text : String} (h : c.lookup? = some text) :
    (s.step c).2.cache = s.cache.after s.settings text := by
  cases c with
  | read text' =>
    obtain rfl := Option.some.inj h
    exact cache_readThen s _ _
  | decide text' record =>
    unfold Command.lookup? at h
    dsimp only at h
    split at h
    · next r hrecord =>
      obtain rfl := Option.some.inj h
      unfold step
      dsimp only
      rw [hrecord]
      exact cache_readThen s _ _
    · cases h
  | _ => cases h

/-! ## Capacities through a run -/

/-- **The settings that were in force** along the moves, from the first to the last. -/
def inForce (s : Session) : List Move → List Settings
  | [] => [s.settings]
  | m :: ms => s.settings :: inForce (s.move m) ms

/-- **The largest capacity that was in force** along the moves. -/
def largestCapacity (s : Session) (ms : List Move) : ℕ :=
  ((s.inForce ms).map Settings.cacheCapacity).foldr max 0

/-- The settings that the moves end with were in force. -/
theorem settings_moves_mem_inForce (s : Session) (ms : List Move) :
    (s.moves ms).settings ∈ s.inForce ms := by
  induction ms generalizing s with
  | nil => exact List.mem_singleton_self _
  | cons m ms ih => exact List.mem_cons_of_mem _ (ih (s.move m))

/-- A move leaves no more entries than there were, or than there is room for. -/
theorem size_move_le (h : 1 ≤ s.settings.cacheCapacity) (m : Move) :
    (s.move m).cache.size ≤ max s.cache.size s.settings.cacheCapacity := by
  rcases follows_move s m with ⟨-, hreads⟩ | hsame | hempty
  · exact hreads.size_le h
  · rw [hsame]
    exact le_max_left _ _
  · rw [hempty]
    exact Nat.zero_le _

/-- **The entries through a run**: no more than there were, or than there was room for at
some time. -/
theorem size_moves_le_max {ms : List Move} (h : ∀ x ∈ s.inForce ms, 1 ≤ x.cacheCapacity) :
    (s.moves ms).cache.size ≤ max s.cache.size (s.largestCapacity ms) := by
  induction ms generalizing s with
  | nil => exact le_max_left _ _
  | cons m ms ih =>
    rw [inForce, List.forall_mem_cons] at h
    obtain ⟨hfirst, hrest⟩ := h
    have hlargest : s.largestCapacity (m :: ms)
        = max s.settings.cacheCapacity ((s.move m).largestCapacity ms) := rfl
    rw [hlargest, ← max_assoc]
    exact (ih hrest).trans (max_le_max_right _ (size_move_le hfirst m))

/-- **The session keeps to the capacity** that bounds it. -/
structure KeepsCapacity (s : Session) (bound : ℕ) : Prop where
  /-- There are no more entries than the bound. -/
  size_le : s.cache.size ≤ bound
  /-- Each key is trimmed, and there is something left of it. -/
  keys : ∀ key t, s.cache.get? key = some t → trim key = key ∧ key ≠ ""
  /-- What a command does to the cache that looks a text up. -/
  lookup : ∀ (c : Command) (text : String), c.lookup? = some text →
    s.cache.LooksUp s.settings text (s.step c).2.cache

/-- **A session never remembers more than there was room for**, in whatever session a run
ends that began with an empty cache, as long as all settings have room for an entry. -/
theorem keepsCapacity_moves (settings : Settings) (rules : Table Rule) {ms : List Move}
    (h : ∀ x ∈ (begun settings rules).inForce ms, 1 ≤ x.cacheCapacity) :
    ((begun settings rules).moves ms).KeepsCapacity
      ((begun settings rules).largestCapacity ms) := by
  have hsize := size_moves_le_max h
  have hempty : (begun settings rules).cache.size = 0 := rfl
  rw [hempty, Nat.zero_max] at hsize
  have hsound := sound_moves (sound_begun settings rules) ms
  refine ⟨hsize, fun key t hget => ⟨(hsound key t hget).1, hsound.key_ne_empty hget⟩, ?_⟩
  intro c text hlookup
  rw [cache_step_of_lookup hlookup]
  exact Cache.looksUp_after (h _ (settings_moves_mem_inForce _ ms)) _ text

/-- Two texts stay remembered under a capacity of one, until another is stored. -/
theorem keepsCapacity_after_lower_capacity :
    let ms : List Move :=
      [.command (.read " a > 1"), .command (.read "b > 1 "), .command (.read "a >"),
        .install { cacheCapacity := 1 }]
    let start := begun { cacheCapacity := 2 } Table.empty
    let s := start.moves ms
    (∀ x ∈ start.inForce ms, 1 ≤ x.cacheCapacity)
      ∧ start.largestCapacity ms = 2
      ∧ s.KeepsCapacity 2
      ∧ s.settings.cacheCapacity = 1
      ∧ s.cache.keys = ["a > 1", "b > 1"]
      ∧ (s.step (.decide "c > 1" (.record Table.empty))).2.cache.keys = ["c > 1"] := by
  intro ms start s
  have hroom : ∀ x ∈ start.inForce ms, 1 ≤ x.cacheCapacity := by decide +kernel +zetaReduce
  have hlargest : start.largestCapacity ms = 2 := by decide +kernel +zetaReduce
  refine ⟨hroom, hlargest, ?_, rfl, by decide +kernel +zetaReduce,
    by decide +kernel +zetaReduce⟩
  rw [← hlargest]
  exact keepsCapacity_moves _ _ hroom

end Session

end RecordRules
