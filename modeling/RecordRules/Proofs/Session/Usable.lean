import RecordRules.Proofs.Session.Capacity
import RecordRules.Proofs.Settings
import RecordRules.Proofs.Tree.Collapsed
import RecordRules.Proofs.Tree.Leaves

/-!
# Sessions that can be worked with

Under usable settings (`Settings.Usable`) a session does what it is there for: a lone condition is
read, a cache that something was stored in is within its capacity, and rules combine without a
name (`Session.Workable`). A session gets its settings from a script, from JSON text, or directly.
Those of a script are usable, so that a run leads out of usable settings exactly where JSON text
or someone who installs settings directly does (`Session.usable_settings`).

And JSON text does (`Session.installed_but_not_usable`): its settings are installed as they are
written, while a script that asks for the same is told that they will not do.
-/

namespace RecordRules

open Except (bind_eq_error_iff)

/-- The text of a condition is read where trees may have a level. -/
theorem Tree.ofText_text {limit : ℕ} (hlimit : 1 ≤ limit) {c : Condition}
    (hc : Condition.ofText c.text = .ok c) :
    Tree.ofText limit c.text = .ok (.leaf c.collapsed) := by
  have hspelled : c.isSpelled = true := Condition.ofText_text_eq_ok_iff.mp hc
  have hcheck : (Tree.leaf c).check limit = .ok () :=
    Tree.check_eq_ok_iff.mpr
      ⟨(Tree.depth_leaf c).trans_le hlimit, List.forall_mem_singleton.mpr hspelled⟩
  rw [← Tree.render_leaf, Tree.ofText_render hcheck]
  rfl

namespace Session

variable {s : Session} {m : Move} {settings : Settings}

/-! ## Where settings come from -/

/-- **The move installs the settings.** -/
inductive Installs : Move → Settings → Prop where
  /-- They are given as JSON text. -/
  | json {json : String} {settings : Settings} :
      Settings.ofJson json = .ok settings → Installs (.command (.install json)) settings
  /-- A script asks for the defaults. -/
  | defaults : Installs (.call (.configure none)) {}
  /-- A script gives them. -/
  | script {entries : Script.Entries} {settings : Settings} :
      Script.settingsOf entries = .ok settings →
      Installs (.call (.configure (some entries))) settings
  /-- They are installed directly. -/
  | direct (settings : Settings) : Installs (.install settings) settings

/-- Settings of JSON text are installed if there are some. -/
theorem settings_install (s : Session) (json : String) :
    (s.step (.install json)).2.settings = s.settings
      ∨ Installs (.command (.install json)) (s.step (.install json)).2.settings := by
  dsimp only [step]
  split
  · next hsettings => exact .inr (.json hsettings)
  · exact .inl rfl

/-- Settings of a script are installed if there are some, and the defaults if it gives none. -/
theorem settings_configure (s : Session) (entries : Option Script.Entries) :
    (Script.Call.perform s (.configure entries)).2.settings = s.settings
      ∨ Installs (.call (.configure entries))
        (Script.Call.perform s (.configure entries)).2.settings := by
  dsimp only [Script.Call.perform]
  split
  · next hsettings =>
    cases entries with
    | none =>
      obtain rfl := Except.ok.inj hsettings
      exact .inr .defaults
    | some entries => exact .inr (.script hsettings)
  · exact .inl rfl

/-- **The settings after a move** are those before it, or the move has installed them. -/
theorem settings_move (s : Session) (m : Move) :
    (s.move m).settings = s.settings ∨ Installs m (s.move m).settings := by
  cases m with
  | command c =>
    by_cases hc : c.Resets
    · cases c with
      | install json => exact settings_install s json
      | clearCache => exact .inl rfl
      | _ => exact hc.elim
    · exact .inl (reads_step s hc).1
  | call c =>
    unfold move Script.Call.run
    dsimp only
    split
    · by_cases hc : c.Configures
      · cases c with
        | configure entries => exact settings_configure s entries
        | _ => exact hc.elim
      · exact .inl (reads_perform s hc).1
    · exact .inl rfl
  | install settings => exact .inr (.direct settings)

/-! ## Usable settings -/

/-- **Settings that the move installs are usable**, unless a script gives them; nothing is asked
of those. -/
def Move.InstallsUsable : Move → Prop
  | .command (.install json) =>
    ∀ settings, Settings.ofJson json = .ok settings → settings.Usable
  | .install settings => settings.Usable
  | _ => True

/-- Then all settings that it installs are. -/
theorem Move.InstallsUsable.usable (h : m.InstallsUsable) (hm : Installs m settings) :
    settings.Usable := by
  cases hm with
  | json hsettings => exact h settings hsettings
  | defaults => exact Settings.usable_default
  | script hsettings => exact Settings.usable_of_settingsOf hsettings
  | direct => exact h

/-- **A move leaves usable settings usable.** -/
theorem usable_move (hs : s.settings.Usable) (hm : m.InstallsUsable) :
    (s.move m).settings.Usable := by
  rcases settings_move s m with hsame | hinstalls
  · rw [hsame]
    exact hs
  · exact hm.usable hinstalls

/-- **So does a run.** -/
theorem usable_moves {ms : List Move} (hs : s.settings.Usable)
    (hms : ∀ m ∈ ms, m.InstallsUsable) : (s.moves ms).settings.Usable := by
  induction ms generalizing s with
  | nil => exact hs
  | cons m ms ih =>
    obtain ⟨hm, hms⟩ := List.forall_mem_cons.mp hms
    exact ih (usable_move hs hm) hms

/-- Where the settings after a move are usable, those that it installs are. -/
theorem Move.installsUsable_of_usable (h : (s.move m).settings.Usable) : m.InstallsUsable := by
  cases m with
  | command c =>
    cases c with
    | install json =>
      intro settings hsettings
      have hinstalled : (s.move (.command (.install json))).settings = settings := by
        dsimp only [move, step]
        rw [hsettings]
      exact hinstalled ▸ h
    | _ => exact trivial
  | call c => exact trivial
  | install settings => exact h

/-- **Settings stay usable through a run** exactly if it begins with usable ones and all that it
installs are. -/
theorem usable_moves_iff (s : Session) (ms : List Move) :
    (∀ before, before <+: ms → (s.moves before).settings.Usable)
      ↔ s.settings.Usable ∧ ∀ m ∈ ms, m.InstallsUsable := by
  constructor
  · intro h
    refine ⟨h [] (List.nil_prefix), fun m hm => ?_⟩
    obtain ⟨before, after, rfl⟩ := List.append_of_mem hm
    have hlast := h (before ++ [m]) ⟨after, by rw [List.append_assoc, List.singleton_append]⟩
    rw [moves, List.foldl_append] at hlast
    exact Move.installsUsable_of_usable hlast
  · rintro ⟨hs, hms⟩ before hbefore
    exact usable_moves hs fun m hm => hms m (hbefore.subset hm)

/-! ## What usable settings are good for -/

/-- **The session can be worked with.** -/
structure Workable (s : Session) : Prop where
  /-- Its settings are usable. -/
  usable : s.settings.Usable
  /-- The text of every condition is read, the blanks in the literal collapsed. -/
  reads_condition : ∀ c : Condition, Condition.ofText c.text = .ok c →
    Tree.ofText s.settings.maxDepth c.text = .ok (.leaf c.collapsed)
  /-- So is every text without parentheses that is a condition within whatever limit. -/
  reads_text : ∀ (limit : ℕ) (text : String) (c : Condition),
    Token.opening ∉ Token.tokenize text → Tree.ofText limit text = .ok (.leaf c) →
      Tree.ofText s.settings.maxDepth text = .ok (.leaf c)
  /-- A tree that is stored leaves the cache within its capacity. -/
  stores : ∀ (text : String) (t : Tree), s.cache.Stores s.settings text t →
    (s.cache.after s.settings text).size ≤ s.settings.cacheCapacity
  /-- Whatever is done next, the cache is left alone or within its capacity. -/
  cache_move : ∀ m, (s.move m).cache = s.cache
    ∨ (s.move m).cache.size ≤ s.settings.cacheCapacity
  /-- Without a name, nothing can prevent rules from combining but their trees. -/
  combines : ∀ (rules : List Rule) (e : Error), Rule.combine s.settings rules none = .error e
    ↔ Tree.combine s.settings.maxDepth (rules.map Rule.root) = .error e
      ∨ ∃ root, Tree.combine s.settings.maxDepth (rules.map Rule.root) = .ok root
        ∧ root.check s.settings.maxDepth = .error e

/-- **Usable settings make a session workable.** -/
theorem workable_of_usable (h : s.settings.Usable) : s.Workable where
  usable := h
  reads_condition _ := Tree.ofText_text h.depth
  reads_text _ text c hparens htext :=
    (Tree.ofText_eq_ok_iff_within htext _).mpr
      ⟨Token.nestWithin_of_not_mem hparens, (Tree.depth_leaf c).trans_le h.depth⟩
  stores text t hstores :=
    ((Cache.looksUp_after (h.capacity hstores.enabled) _ text).stored t hstores).2
  cache_move m := by
    rcases follows_move s m with ⟨-, hreads⟩ | hsame | hempty
    · exact hreads.eq_or_size_le h.capacity
    · exact .inl hsame
    · rw [hempty]
      exact .inr (Nat.zero_le _)
  combines rules e := by
    have hname := h.checkName_eq_ok
    rw [Rule.combine, bind_eq_error_iff]
    refine or_congr_right (exists_congr fun root => and_congr_right fun _ => ?_)
    rw [Option.getD_none, Rule.ofTree_eq_error_iff, hname, and_iff_right rfl]
    exact or_iff_right nofun

/-- **When settings are usable**: those of a script always are, and those of JSON text exactly if
a script could get them, too. The sessions along a run can all be worked with exactly if it begins
with usable settings and is given no others, be it as JSON text or directly. -/
theorem usable_settings (entries : Script.Entries) (json : String) (settings : Settings)
    (s : Session) (ms : List Move) :
    (Script.settingsOf entries = .ok settings → settings.Usable)
    ∧ (Settings.ofJson json = .ok settings →
      (settings.Usable ↔ Script.settingsOf settings.toEntries = .ok settings))
    ∧ ((∀ before, before <+: ms → (s.moves before).Workable)
      ↔ s.settings.Usable ∧ ∀ m ∈ ms, m.InstallsUsable) := by
  refine ⟨Settings.usable_of_settingsOf, Settings.usable_iff_of_ofJson, ?_⟩
  rw [← usable_moves_iff]
  exact forall₂_congr fun before _ => ⟨Workable.usable, workable_of_usable⟩

/-- **JSON text gives settings that are not usable**: no level for trees, under which no condition
is read; no room in a cache that is enabled, which holds a text all the same; a blank name for
combined rules, which fails them. A script that asks for the first or the second is refused, and
gets the default for the third. -/
theorem installed_but_not_usable :
    (∃ settings, Settings.ofJson "\x7b\"max_depth\":0\x7d" = .ok settings ∧ ¬ settings.Usable
      ∧ Tree.ofText settings.maxDepth "a > 1" = .error (.treeTooDeep 0)
      ∧ Script.settingsOf settings.toEntries = .error (.invalidArgument .zeroDepth))
    ∧ (∃ settings, Settings.ofJson "\x7b\"cache_capacity\":0\x7d" = .ok settings
      ∧ ¬ settings.Usable
      ∧ (Cache.after settings Table.empty "a > 1").size = 1
      ∧ Script.settingsOf settings.toEntries = .error (.invalidArgument .zeroCapacity))
    ∧ ∃ settings, Settings.ofJson "\x7b\"combined_rule_name\":\" \"\x7d" = .ok settings
      ∧ ¬ settings.Usable
      ∧ (let rule : Rule := ⟨"r", .leaf ⟨"a", .greater, "1"⟩⟩
        Rule.combine settings [rule, rule] none = .error (.invalidArgument .blankRuleName))
      ∧ Script.settingsOf settings.toEntries = .ok {} := by
  -- The text is read by well-founded recursion, the fields of the value that it gives are not.
  have hdepth : Settings.ofJson "\x7b\"max_depth\":0\x7d" = .ok { maxDepth := 0 } := by
    unfold Settings.ofJson
    conv => enter [1, 1, 1]; cbv
    rfl
  have hcapacity : Settings.ofJson "\x7b\"cache_capacity\":0\x7d"
      = .ok { cacheCapacity := 0 } := by
    unfold Settings.ofJson
    conv => enter [1, 1, 1]; cbv
    rfl
  have hname : Settings.ofJson "\x7b\"combined_rule_name\":\" \"\x7d"
      = .ok { combinedRuleName := " " } := by
    unfold Settings.ofJson
    conv => enter [1, 1, 1]; cbv
    rfl
  refine ⟨⟨_, hdepth, ?_, by decide +kernel, rfl⟩, ⟨_, hcapacity, ?_, by decide +kernel, rfl⟩,
    _, hname, ?_, by decide +kernel, by decide +kernel⟩
  · exact fun h => absurd h.depth (by decide)
  · exact fun h => absurd (h.capacity rfl) (by decide)
  · rintro ⟨-, -, c, hc, hvisible⟩
    obtain rfl := List.mem_singleton.mp hc
    cases hvisible

end Session

end RecordRules
