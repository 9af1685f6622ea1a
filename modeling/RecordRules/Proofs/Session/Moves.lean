import RecordRules.Proofs.Cache
import RecordRules.Script.Call

/-!
# What a move does to the cache

A session is moved on by commands, by the calls of a script, and by whoever
installs settings directly. There are many moves, but to the cache they do one of
three things (`Session.follows_move`): under the same settings, texts are read one
after the other; or the cache is left alone, whatever becomes of the settings; or
it is emptied. Nothing more has to be known of a move to follow a property of
the cache through a run.
-/

namespace RecordRules

/-- **The call replaces the settings.** -/
def Script.Call.Configures : Script.Call → Prop
  | configure _ => True
  | _ => False

namespace Session

/-- **The command replaces the settings or empties the cache.** -/
def Command.Resets : Command → Prop
  | install _ => True
  | clearCache => True
  | _ => False

/-- **A move** from one session to the next. -/
inductive Move where
  /-- A command is carried out. -/
  | command (command : Command)
  /-- A call of a script is carried out. -/
  | call (call : Script.Call)
  /-- The settings are replaced. -/
  | install (settings : Settings)

/-- **The session after a move.** -/
def move (s : Session) : Move → Session
  | .command c => (s.step c).2
  | .call c => (c.run s).2
  | .install settings => { s with settings := settings }

/-- **The session after the moves**, one after the other. -/
def moves (s : Session) (ms : List Move) : Session :=
  ms.foldl move s

variable {s s' s'' : Session}

/-! ## Sessions in which texts were read -/

/-- **Texts were read** under the same settings, and nothing else was done to the
cache. -/
def Reads (s s' : Session) : Prop :=
  s'.settings = s.settings ∧ s.cache.Reads s.settings s'.cache

/-- Nothing has to be read. -/
theorem Reads.refl (s : Session) : s.Reads s := ⟨rfl, .refl⟩

/-- Texts are read in one session after the other. -/
theorem Reads.trans (h : s.Reads s') (h' : s'.Reads s'') : s.Reads s'' := by
  obtain ⟨hsettings, hcache⟩ := h
  obtain ⟨hsettings', hcache'⟩ := h'
  rw [hsettings] at hsettings' hcache'
  exact ⟨hsettings', hcache.trans hcache'⟩

/-- Asking something of a text reads the text. -/
theorem reads_readThen {β : Type} (s : Session) (text : String)
    (ask : Tree → Except Failure β) : s.Reads (s.readThen text ask).2 := by
  unfold readThen
  split
  · next hread => exact ⟨rfl, Cache.Reads.refl.read hread⟩
  · exact Reads.refl s

/-- Putting a rule into its slot reads no text. -/
theorem reads_keepRule {β : Type} (s : Session) (slot : String) (make : Rule → β)
    (outcome : Except Failure Rule) : s.Reads (s.keepRule slot make outcome).2 := by
  cases outcome with
  | ok rule => exact ⟨rfl, .refl⟩
  | error f => exact Reads.refl s

/-- Updating a rule reads no text. -/
theorem reads_update (s : Session) (slot name : String) (root : Tree) :
    s.Reads (s.update slot name root).2 := by
  unfold update
  split
  · exact Reads.refl s
  · split
    · exact ⟨rfl, .refl⟩
    · exact Reads.refl s

section Arguments

variable {R : Session → Session → Prop}

/-- The tree of an argument is read if it is given as a text, and then as all texts
are. -/
theorem treeOf_of_readThen (hrefl : ∀ s, R s s)
    (hread : ∀ s text, R s (s.readThen text .ok : Outcome Tree).2) (s : Session)
    (v : Script.Value) : R s (Script.treeOf s v).2 := by
  unfold Script.treeOf
  split
  · exact hrefl s
  · split
    · exact hrefl s
    · exact hread s _
  · exact hrefl s

/-- The trees of the arguments are read one after the other. -/
theorem treesOf_of_readThen (hrefl : ∀ s, R s s)
    (htrans : ∀ s s' s'', R s s' → R s' s'' → R s s'')
    (hread : ∀ s text, R s (s.readThen text .ok : Outcome Tree).2) (s : Session)
    (vs : List Script.Value) : R s (Script.treesOf s vs).2 := by
  induction vs generalizing s with
  | nil => exact hrefl s
  | cons v vs ih =>
    have hfirst := treeOf_of_readThen hrefl hread s v
    unfold Script.treesOf
    split
    · next f s' heq =>
      rw [heq] at hfirst
      exact hfirst
    · next t s' heq =>
      rw [heq] at hfirst
      exact htrans _ _ _ hfirst (ih s')

end Arguments

/-- Reading the tree of an argument reads at most its text. -/
theorem reads_treeOf (s : Session) (v : Script.Value) :
    s.Reads (Script.treeOf s v).2 :=
  treeOf_of_readThen Reads.refl (fun s text => reads_readThen s text _) s v

/-- Reading the trees of the arguments reads at most their texts. -/
theorem reads_treesOf (s : Session) (vs : List Script.Value) :
    s.Reads (Script.treesOf s vs).2 :=
  treesOf_of_readThen Reads.refl (fun _ _ _ => Reads.trans)
    (fun s text => reads_readThen s text _) s vs

/-- Evaluating leaves the session as reading the tree does. -/
theorem perform_evaluate_snd (s : Session) (tree : Script.Value) (data : Script.Entries) :
    (Script.Call.perform s (.evaluate tree data)).2 = (Script.treeOf s tree).2 := by
  unfold Script.Call.perform
  dsimp only
  split
  · next heq => rw [heq]
  · next heq => rw [heq]

/-! ## The three things that a move can do -/

/-- What a move leaves of the cache: texts are read, or it stays, or it is
emptied. -/
def Follows (s s' : Session) : Prop :=
  s.Reads s' ∨ s'.cache = s.cache ∨ s'.cache = Table.empty

/-- Reading is one of the three. -/
theorem Reads.follows (h : s.Reads s') : s.Follows s' := .inl h

/-- **A command that resets nothing** reads texts at most. -/
theorem reads_step (s : Session) {c : Command} (hc : ¬ c.Resets) : s.Reads (s.step c).2 := by
  cases c with
  | install json => exact absurd trivial hc
  | clearCache => exact absurd trivial hc
  | read text => exact reads_readThen s text _
  | decide text record =>
    dsimp only [step]
    split
    · exact reads_readThen s text _
    · exact Reads.refl s
  | updateRule slot name source =>
    dsimp only [step]
    split
    · exact reads_update s slot name _
    · exact Reads.refl s
  | newRule slot name source => exact reads_keepRule s slot _ _
  | ruleOfText slot name text => exact reads_keepRule s slot _ _
  | ruleOfExpression slot name json => exact reads_keepRule s slot _ _
  | ruleOfJson slot json => exact reads_keepRule s slot _ _
  | combineRules slot rules name => exact reads_keepRule s slot _ _
  | tree source => exact Reads.refl s
  | check source => exact Reads.refl s
  | evaluate source record => exact Reads.refl s
  | combine sources => exact Reads.refl s
  | getRule slot => exact Reads.refl s
  | evaluateRule slot record => exact Reads.refl s

/-- **The cache after a command.** -/
theorem follows_step (s : Session) (c : Command) : s.Follows (s.step c).2 := by
  by_cases hc : c.Resets
  · cases c with
    | install json =>
      dsimp only [step]
      split
      · exact .inr (.inl rfl)
      · exact (Reads.refl s).follows
    | clearCache => exact .inr (.inr rfl)
    | _ => exact hc.elim
  · exact (reads_step s hc).follows

/-- Installing settings from a script empties the cache or leaves it alone. -/
theorem follows_configure (s : Session) (settings : Settings) :
    s.Follows (Script.configure s settings) := by
  unfold Follows Script.configure
  split
  · exact .inr (.inl rfl)
  · exact .inr (.inr rfl)

/-- A call that does not replace the settings reads texts at most, if its slots all hold
rules. -/
theorem reads_perform (s : Session) {c : Script.Call} (hc : ¬ c.Configures) :
    s.Reads (c.perform s).2 := by
  cases c with
  | configure entries => exact absurd trivial hc
  | parse text => exact reads_readThen s text _
  | evaluate tree data =>
    rw [perform_evaluate_snd]
    exact reads_treeOf s tree
  | combine trees => exact reads_treesOf s trees
  | create slot name expression => exact reads_keepRule s slot _ _
  | combineRules slot rules name => exact reads_keepRule s slot _ _
  | validate tree => exact Reads.refl s
  | evaluateRule slot data => exact Reads.refl s
  | display slot => exact Reads.refl s

/-- **A call that does not replace the settings** reads texts at most. -/
theorem reads_run (s : Session) {c : Script.Call} (hc : ¬ c.Configures) :
    s.Reads (c.run s).2 := by
  unfold Script.Call.run
  split
  · exact reads_perform s hc
  · exact Reads.refl s

/-- Calls that do not replace the settings read texts at most, however many they are. -/
theorem reads_calls (s : Session) {cs : List Script.Call} (hcs : ∀ c ∈ cs, ¬ c.Configures) :
    s.Reads (s.moves (cs.map .call)) := by
  induction cs generalizing s with
  | nil => exact Reads.refl s
  | cons c cs ih =>
    obtain ⟨hc, hcs⟩ := List.forall_mem_cons.mp hcs
    exact (reads_run s hc).trans (ih _ hcs)

/-- The cache after a call whose slots all hold rules. -/
theorem follows_perform (s : Session) (c : Script.Call) :
    s.Follows (c.perform s).2 := by
  by_cases hc : c.Configures
  · cases c with
    | configure entries =>
      dsimp only [Script.Call.perform]
      split
      · exact follows_configure s _
      · exact (Reads.refl s).follows
    | _ => exact hc.elim
  · exact (reads_perform s hc).follows

/-- **The cache after a move.** -/
theorem follows_move (s : Session) (m : Move) : s.Follows (s.move m) := by
  cases m with
  | command c => exact follows_step s c
  | call c =>
    unfold move Script.Call.run
    dsimp only
    split
    · exact follows_perform s c
    · exact (Reads.refl s).follows
  | install settings => exact .inr (.inl rfl)

end Session

end RecordRules
