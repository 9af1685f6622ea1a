import RecordRules.Proofs.Session.Moves

/-!
# What a session remembers

Two properties of the cache are followed through runs that begin with an empty
one, whatever moves they are made of.

The first is that the cache is sound. No move can break it, so a text means the
same in every session (`Session.meansTheSame_moves`).

The second is that the cache fits within the limit that applies: every entry
could have been read within it. This one is not kept. A lower limit that is
installed leaves the entries where they are, and trees that are found are not
held against it (`Session.deeper_than_limit`). What can be said is that the limit
binds whatever is read exactly while no entry exceeds it
(`Session.limitBinds_moves_iff`), and that no entry does as long as the limit is
lowered only where the cache is emptied, too (`Session.limitBinds_moves`).

Under settings that stay as they are both properties hold together, and then reading by
the cache cannot be told from reading without one (`Session.Faithful`).
-/

namespace RecordRules

open Text (trim)
open Token (NestWithin tokenize)

namespace Session

/-- **A session that begins** with an empty cache. -/
def begun (settings : Settings) (rules : Table Rule) : Session :=
  ⟨settings, Table.empty, rules⟩

variable {s : Session} (settings : Settings) (rules : Table Rule)

/-! ## Texts keep their meaning -/

/-- Soundness survives every move. -/
theorem sound_move (h : s.cache.Sound) (m : Move) : (s.move m).cache.Sound := by
  rcases follows_move s m with ⟨-, hreads⟩ | hsame | hempty
  · exact h.reads hreads
  · rw [hsame]
    exact h
  · rw [hempty]
    exact Cache.All.empty

/-- **Soundness survives every run.** -/
theorem sound_moves (h : s.cache.Sound) (ms : List Move) : (s.moves ms).cache.Sound := by
  induction ms generalizing s with
  | nil => exact h
  | cons m ms ih => exact ih (sound_move h m)

/-- An empty cache is sound. -/
theorem sound_begun : (begun settings rules).cache.Sound := Cache.All.empty

/-- **The cache never changes what a text means**, in whatever session a run ends
that began with an empty cache. -/
theorem meansTheSame_moves (ms : List Move) (text : String) :
    let s := (begun settings rules).moves ms
    s.cache.MeansTheSame s.settings text :=
  (sound_moves (sound_begun settings rules) ms).meansTheSame _ text

end Session

/-! ## What a limit is held against -/

/-- **Every entry is within the limit**: the parentheses of its key, and its
tree. -/
def Cache.FitsWithin (limit : ℕ) : Cache → Prop :=
  All fun key t => NestWithin limit (tokenize key) ∧ t.depth ≤ limit

/-- What fits within a limit fits within every higher one. -/
theorem Cache.FitsWithin.mono {cache : Cache} {m n : ℕ} (h : cache.FitsWithin m)
    (hmn : m ≤ n) : cache.FitsWithin n := by
  intro key t hget
  obtain ⟨hnest, hdepth⟩ := h key t hget
  exact ⟨hnest.mono hmn, hdepth.trans hmn⟩

/-- What is read within the limit fits within it. -/
theorem Cache.FitsWithin.reads {settings : Settings} {cache cache' : Cache}
    (h : cache.FitsWithin settings.maxDepth) (hreads : cache.Reads settings cache') :
    cache'.FitsWithin settings.maxDepth := by
  refine All.reads h (fun text t htext => ?_) hreads
  rw [Token.tokenize_trim]
  exact (Tree.ofText_eq_ok_iff_within htext settings.maxDepth).mp htext

section Fitting

variable {settings : Settings} {cache : Cache} {text : String} {t : Tree}

/-- What is found in a cache that fits within the limit is what is read within it. -/
theorem Cache.Sound.ofText_of_found (h : cache.Sound) (hfits : cache.FitsWithin settings.maxDepth)
    (hfound : cache.found? settings text = some t) :
    Tree.ofText settings.maxDepth text = .ok t := by
  obtain ⟨-, hget⟩ := found?_eq_some_iff.mp hfound
  obtain ⟨limit, htext⟩ := h.of_found hfound
  rw [Tree.ofText_eq_ok_iff_within htext, ← Token.tokenize_trim]
  exact hfits _ t hget

/-- **Reading by a cache that fits within the limit is reading within it**, errors
included. -/
theorem Cache.Sound.map_fst_read (h : cache.Sound) (hfits : cache.FitsWithin settings.maxDepth)
    (text : String) :
    (cache.read settings text).map Prod.fst = Tree.ofText settings.maxDepth text := by
  cases hfound : cache.found? settings text with
  | some t =>
    rw [read_of_found hfound, h.ofText_of_found hfits hfound]
    rfl
  | none =>
    rw [read_of_not_found hfound]
    cases Tree.ofText settings.maxDepth text <;> rfl

end Fitting

namespace Session

variable {s : Session}

/-- **The limit binds whatever is read by the cache**: the tree is no deeper than
the limit, and the text could be read without the cache as well. -/
structure LimitBinds (s : Session) : Prop where
  /-- No tree that is read is deeper than the limit. -/
  depth_le : ∀ text t after, s.cache.read s.settings text = .ok (t, after) →
    t.depth ≤ s.settings.maxDepth
  /-- The texts that can be read are those that can be read within the limit. -/
  succeeds_iff : ∀ text, (∃ t after, s.cache.read s.settings text = .ok (t, after))
    ↔ ∃ t, Tree.ofText s.settings.maxDepth text = .ok t

/-- **The limit binds exactly while the entries fit**, or are not looked at. -/
theorem limitBinds_iff (h : s.cache.Sound) :
    s.LimitBinds ↔ (s.settings.cacheEnabled = true →
      s.cache.FitsWithin s.settings.maxDepth) := by
  constructor
  · intro hbinds henabled key t hget
    obtain ⟨htrim, limit, hkey⟩ := h key t hget
    have hfound : s.cache.found? s.settings key = some t :=
      Cache.found?_eq_some_iff.mpr ⟨henabled, htrim.symm ▸ hget⟩
    obtain ⟨t', ht'⟩ :=
      (hbinds.succeeds_iff key).mp ⟨t, s.cache, Cache.read_of_found hfound⟩
    obtain rfl := Tree.ofText_unique ht' hkey
    exact (Tree.ofText_eq_ok_iff_within hkey _).mp ht'
  · intro hfits
    have hread (text : String) (t : Tree) :
        (∃ after, s.cache.read s.settings text = .ok (t, after))
          ↔ Tree.ofText s.settings.maxDepth text = .ok t := by
      constructor
      · rintro ⟨after, hread⟩
        rcases Cache.read_eq_ok_iff.mp hread with ⟨ht, -⟩ | ⟨-, ht, -⟩
        · exact h.ofText_of_found (hfits (Cache.found?_eq_some_iff.mp ht).1) ht
        · exact ht
      · exact (h.meansTheSame s.settings text).ok t
    exact ⟨fun text t after ht => Tree.depth_le_of_ofText ((hread text t).mp ⟨after, ht⟩),
      fun text => exists_congr (hread text)⟩

/-- **When the limit binds** in the session that a run ends in: exactly if no text
that is remembered exceeds it, by its parentheses or by its tree, or if the cache
is disabled. -/
theorem limitBinds_moves_iff (settings : Settings) (rules : Table Rule)
    (ms : List Move) :
    let s := (begun settings rules).moves ms
    s.LimitBinds ↔ (s.settings.cacheEnabled = true →
      s.cache.FitsWithin s.settings.maxDepth) :=
  limitBinds_iff (sound_moves (sound_begun settings rules) ms)

/-- A tree that is found may be deeper than the limit: it was read while the
limit was higher. -/
theorem deeper_than_limit :
    let s := moves {} [.command (.read "a > 1 AND b > 2"), .install { maxDepth := 1 }]
    1 ≤ s.settings.maxDepth
      ∧ (s.cache.read s.settings "a > 1 AND b > 2").map (·.1.depth) = .ok 2
      ∧ Tree.ofText s.settings.maxDepth "a > 1 AND b > 2" = .error (.nestingTooDeep 1)
      ∧ ¬ s.LimitBinds := by
  intro s
  have hlimit : s.settings.maxDepth = 1 := rfl
  have hread : (s.cache.read s.settings "a > 1 AND b > 2").map (·.1.depth) = .ok 2 := by
    decide +kernel
  refine ⟨hlimit.ge, hread, by decide +kernel, fun h => ?_⟩
  obtain ⟨⟨t, after⟩, ht, hdepth⟩ := Except.map_eq_ok_iff.mp hread
  have hle : 2 ≤ s.settings.maxDepth := hdepth ▸ h.depth_le _ t after ht
  rw [hlimit] at hle
  exact absurd hle (by decide)

/-! ## Limits that are not lowered -/

/-- **The move does not lower the limit**, unless nothing is remembered after
it. -/
def KeepsLimit (s : Session) (m : Move) : Prop :=
  s.settings.maxDepth ≤ (s.move m).settings.maxDepth ∨ (s.move m).cache = Table.empty

/-- None of the moves does. -/
def KeepsLimits (s : Session) : List Move → Prop
  | [] => True
  | m :: ms => s.KeepsLimit m ∧ (s.move m).KeepsLimits ms

/-- Entries go on fitting after a move that keeps the limit. -/
theorem fitsWithin_move (h : s.cache.FitsWithin s.settings.maxDepth) {m : Move}
    (hm : s.KeepsLimit m) :
    (s.move m).cache.FitsWithin (s.move m).settings.maxDepth := by
  rcases hm with hle | hempty
  · rcases follows_move s m with ⟨hsettings, hreads⟩ | hsame | hempty
    · rw [hsettings]
      exact h.reads hreads
    · rw [hsame]
      exact h.mono hle
    · rw [hempty]
      exact Cache.All.empty
  · rw [hempty]
    exact Cache.All.empty

/-- **Entries go on fitting** in a run that keeps the limit. -/
theorem fitsWithin_moves (h : s.cache.FitsWithin s.settings.maxDepth) {ms : List Move}
    (hms : s.KeepsLimits ms) :
    (s.moves ms).cache.FitsWithin (s.moves ms).settings.maxDepth := by
  induction ms generalizing s with
  | nil => exact h
  | cons m ms ih => exact ih (fitsWithin_move h hms.1) hms.2

/-- **The limit binds in every session** that is reached without lowering it under
texts that stay remembered. -/
theorem limitBinds_moves (settings : Settings) (rules : Table Rule) {ms : List Move}
    (hms : (begun settings rules).KeepsLimits ms) :
    ((begun settings rules).moves ms).LimitBinds := by
  refine (limitBinds_iff (sound_moves (sound_begun settings rules) ms)).mpr fun _ => ?_
  exact fitsWithin_moves (s := begun settings rules) Cache.All.empty hms

/-! ## Reading as if there were no cache -/

/-- **The cache cannot be told from no cache**: what it remembers is what could be read
within the limit that applies. -/
structure Faithful (s : Session) : Prop where
  /-- What is remembered was read from its text, within some limit. -/
  sound : s.cache.Sound
  /-- It could be read within this limit, too. -/
  fits : s.cache.FitsWithin s.settings.maxDepth

/-- A session begins faithful. -/
theorem faithful_begun (settings : Settings) (rules : Table Rule) :
    (begun settings rules).Faithful :=
  ⟨sound_begun settings rules, Cache.All.empty⟩

/-- Reading texts keeps a session faithful. -/
theorem Faithful.reads {s' : Session} (h : s.Faithful) (hreads : s.Reads s') : s'.Faithful := by
  obtain ⟨hsettings, hreads⟩ := hreads
  refine ⟨h.sound.reads hreads, ?_⟩
  rw [hsettings]
  exact h.fits.reads hreads

/-- **What is asked of a text by the cache** is asked of the tree that it has within the
limit. -/
theorem Faithful.fst_readThen {β : Type} (h : s.Faithful) (text : String)
    (ask : Tree → Except Failure β) :
    (s.readThen text ask).1
      = (Failure.lift (Tree.ofText s.settings.maxDepth text) >>= ask) := by
  rw [← h.sound.map_fst_read h.fits text, readThen]
  split
  · next hread =>
    rw [hread]
    rfl
  · next hread =>
    rw [hread]
    rfl

end Session

end RecordRules
