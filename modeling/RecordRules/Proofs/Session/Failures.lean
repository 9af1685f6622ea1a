import RecordRules.Proofs.Session.Rules

/-!
# What a failure leaves behind

A command that fails leaves the session as it is, with one exception: a text that was
read stays remembered if the record is then found wanting
(`Session.step_of_error`). A call of a script may have read any number of texts before
it fails; these stay remembered, and nothing else has changed
(`Session.reads_run_of_error`). An update that fails is no failure of the command, but
it changes nothing either, whether it was the name that was at fault or the tree
(`Session.update_of_error`).

Whatever the session is, it fails atomically in this sense
(`Session.failsAtomically`).
-/

namespace RecordRules

namespace Session

variable {s : Session} {f : Failure} {text slot name : String}

/-! ## Commands -/

/-- **The text is read and only evaluating fails.** -/
def FailsEvaluating (s : Session) (text : String) (record : RecordSource) : Prop :=
  ∃ r t e, record.toRecord = .ok r ∧ (s.step (.read text)).1 = .ok (.tree t)
    ∧ t.evaluate r = .error e

/-- Putting a rule into its slot fails only where there is none. -/
theorem keepRule_of_error {β : Type} {make : Rule → β} {outcome : Except Failure Rule}
    (h : (s.keepRule slot make outcome).1 = .error f) :
    (s.keepRule slot make outcome).2 = s := by
  cases outcome with
  | ok rule => exact nomatch h
  | error f' => rfl

/-- Asking something of the tree of a text leaves the session as reading the text
does. -/
theorem readThen_snd {β γ : Type} (s : Session) (text : String)
    (ask : Tree → Except Failure β) (ask' : Tree → Except Failure γ) :
    (s.readThen text ask).2 = (s.readThen text ask').2 := by
  unfold readThen
  split <;> rfl

/-- The tree that a text is read as is the one that is asked about. -/
theorem readThen_fst {β : Type} {ask : Tree → Except Failure β} {t : Tree}
    (h : (s.step (.read text)).1 = .ok (.tree t)) : (s.readThen text ask).1 = ask t := by
  unfold step readThen at h
  unfold readThen
  dsimp only at h
  split at h
  · next t' cache hread =>
    cases h
    rfl
  · exact nomatch h

/-- Asking something of the tree of a text fails if reading the text does, or else the
question does. -/
theorem readThen_of_error {β : Type} {ask : Tree → Except Failure β}
    (h : (s.readThen text ask).1 = .error f) :
    (s.readThen text ask).2 = s
      ∨ ∃ t, (s.step (.read text)).1 = .ok (.tree t) ∧ ask t = .error f := by
  unfold step readThen
  unfold readThen at h
  split at h
  · next t cache hread =>
    refine .inr ⟨t, ?_, h⟩
    dsimp only
    rw [hread]
  · next e hread => exact .inl rfl

/-- **What a command that fails leaves behind.** -/
theorem step_of_error {c : Command} (h : (s.step c).1 = .error f) :
    (s.step c).2 = s
      ∨ ∃ text record, c = .decide text record ∧ s.FailsEvaluating text record := by
  -- only commands that read by the cache, install or make rules can change anything
  cases c with
  | read text =>
    rcases readThen_of_error h with hsame | ⟨t, -, hask⟩
    · exact .inl hsame
    · exact nomatch hask
  | decide text record =>
    unfold step at h ⊢
    dsimp only at h ⊢
    split at h
    · next r hrecord =>
      rcases readThen_of_error h with hsame | ⟨t, hread, hask⟩
      · exact .inl hsame
      · cases hevaluate : t.evaluate r with
        | ok b =>
          rw [hevaluate] at hask
          exact nomatch hask
        | error e => exact .inr ⟨text, record, rfl, r, t, e, hrecord, hread, hevaluate⟩
    · exact .inl rfl
  | install json =>
    unfold step at h ⊢
    dsimp only at h ⊢
    split at h
    · exact nomatch h
    · exact .inl rfl
  | updateRule slot name source =>
    unfold step at h ⊢
    dsimp only at h ⊢
    split at h
    · unfold update at h ⊢
      split at h
      · exact .inl rfl
      · split at h <;> exact nomatch h
    · exact .inl rfl
  | clearCache => exact nomatch h
  | newRule slot name source => exact .inl (keepRule_of_error h)
  | ruleOfText slot name text => exact .inl (keepRule_of_error h)
  | ruleOfExpression slot name json => exact .inl (keepRule_of_error h)
  | ruleOfJson slot json => exact .inl (keepRule_of_error h)
  | combineRules slot rules name => exact .inl (keepRule_of_error h)
  | tree source => exact .inl rfl
  | check source => exact .inl rfl
  | evaluate source record => exact .inl rfl
  | combine sources => exact .inl rfl
  | getRule slot => exact .inl rfl
  | evaluateRule slot record => exact .inl rfl

/-- The outcome if only evaluating fails. -/
theorem step_of_failsEvaluating {record : RecordSource} (h : s.FailsEvaluating text record) :
    (∃ f, (s.step (.decide text record)).1 = .error f)
      ∧ (s.step (.decide text record)).2 = (s.step (.read text)).2 := by
  obtain ⟨r, t, e, hrecord, hread, hevaluate⟩ := h
  have hdecide : s.step (.decide text record)
      = s.readThen text fun t => (Failure.lift (t.evaluate r)).map .truth := by
    unfold step
    dsimp only
    rw [hrecord]
  rw [hdecide]
  refine ⟨⟨.error e, ?_⟩, readThen_snd s text _ _⟩
  rw [readThen_fst hread, hevaluate]
  rfl

/-- The rule in a slot is the one that is stored there. -/
theorem get?_of_getRule {rule : Rule} (h : s.getRule slot = .ok rule) :
    s.rules.get? slot = some rule := by
  unfold getRule at h
  split at h
  · next hget =>
    obtain rfl := Except.ok.inj h
    exact hget
  · exact nomatch h

/-- **An update that fails** leaves the session as it is, and the rule with it; either
the name was at fault, or else the tree. -/
theorem update_of_error {source : Source} {e : Error} {rule : Rule}
    (h : (s.step (.updateRule slot name source)).1 = .ok (.updated (some e) rule)) :
    (s.step (.updateRule slot name source)).2 = s
      ∧ s.rules.get? slot = some rule
      ∧ (Rule.checkName name = .error e
        ∨ Rule.checkName name = .ok ()
          ∧ ∃ root, s.treeOf source = .ok root
            ∧ root.check s.settings.maxDepth = .error e) := by
  unfold step at h ⊢
  dsimp only at h ⊢
  split at h
  · next root hroot =>
    unfold update at h ⊢
    split at h
    · exact nomatch h
    · next before hbefore =>
      split at h
      · exact nomatch h
      · next e' hupdate =>
        cases h
        refine ⟨rfl, get?_of_getRule hbefore, ?_⟩
        rw [Rule.update_eq_ofTree, Rule.ofTree_eq_error_iff] at hupdate
        exact hupdate.imp_right fun h => ⟨h.1, root, hroot, h.2⟩
  · exact nomatch h

/-! ## Calls -/

/-- What a call leaves behind that fails, though its slots all hold rules. -/
theorem reads_perform_of_error {c : Script.Call} (h : (c.perform s).1 = .error f) :
    s.Reads (c.perform s).2 := by
  by_cases hc : c.Configures
  · cases c with
    | configure entries =>
      unfold Script.Call.perform at h ⊢
      dsimp only at h ⊢
      split at h
      · exact nomatch h
      · exact Reads.refl s
    | _ => exact hc.elim
  · exact reads_perform s hc

/-- **What a call that fails leaves behind**: texts may have been read. -/
theorem reads_run_of_error {c : Script.Call} (h : (c.run s).1 = .error f) :
    s.Reads (c.run s).2 := by
  unfold Script.Call.run at h ⊢
  by_cases hslots : (c.slots.all fun slot => (s.rules.get? slot).isSome) = true
  · rw [if_pos hslots] at h ⊢
    exact reads_perform_of_error h
  · rw [if_neg hslots]
    exact Reads.refl s

/-- A call that fails leaves the rules alone. -/
theorem rules_run_of_error {c : Script.Call} (h : (c.run s).1 = .error f) :
    (c.run s).2.rules = s.rules := by
  have hkept : s.kept? (.call c) = none := by
    unfold kept?
    dsimp only
    rw [h]
    exact Option.bind_fun_none c.slot?
  have hkeeps := keeps_run s c
  rwa [hkept] at hkeeps

/-! ## All failures -/

/-- Only the cache may be another. -/
def SameButCache (s s' : Session) : Prop :=
  s'.settings = s.settings ∧ s'.rules = s.rules

/-- Reading the tree of a text changes nothing but the cache. -/
theorem sameButCache_readThen {β : Type} (s : Session) (text : String)
    (ask : Tree → Except Failure β) : s.SameButCache (s.readThen text ask).2 :=
  ⟨(reads_readThen s text ask).1, rules_readThen s text ask⟩

/-- **Whatever fails in the session** leaves no half of its work behind. -/
structure FailsAtomically (s : Session) : Prop where
  /-- A command that fails changes neither the settings nor the rules. -/
  command : ∀ c f, (s.step c).1 = .error f → s.SameButCache (s.step c).2
  /-- A call that fails changes neither the settings nor the rules. -/
  call : ∀ c f, (Script.Call.run s c).1 = .error f → s.SameButCache (Script.Call.run s c).2
  /-- A command that fails leaves the cache as it is, unless only evaluating failed. -/
  cache : ∀ c f, (s.step c).1 = .error f →
    (∀ text record, c = .decide text record → ¬ s.FailsEvaluating text record) →
    (s.step c).2.cache = s.cache
  /-- If only evaluating failed, the cache is as reading the text leaves it. -/
  evaluating : ∀ text record, s.FailsEvaluating text record →
    (∃ f, (s.step (.decide text record)).1 = .error f)
      ∧ (s.step (.decide text record)).2.cache = (s.step (.read text)).2.cache
  /-- An update that fails changes nothing, be it the name that is at fault or the
  tree. -/
  update : ∀ slot name source e rule,
    (s.step (.updateRule slot name source)).1 = .ok (.updated (some e) rule) →
    (s.step (.updateRule slot name source)).2 = s
      ∧ s.rules.get? slot = some rule
      ∧ (Rule.checkName name = .error e
        ∨ Rule.checkName name = .ok ()
          ∧ ∃ root, s.treeOf source = .ok root
            ∧ root.check s.settings.maxDepth = .error e)

/-- **Whatever fails fails atomically**, in every session. -/
theorem failsAtomically (s : Session) : s.FailsAtomically where
  command c f h := by
    rcases step_of_error h with hsame | ⟨text, record, rfl, hevaluating⟩
    · rw [hsame]
      exact ⟨rfl, rfl⟩
    · rw [(step_of_failsEvaluating hevaluating).2]
      exact sameButCache_readThen s text _
  call c f h := ⟨(reads_run_of_error h).1, rules_run_of_error h⟩
  cache c f h hother := by
    rcases step_of_error h with hsame | ⟨text, record, rfl, hevaluating⟩
    · rw [hsame]
    · exact absurd hevaluating (hother text record rfl)
  evaluating text record h := by
    obtain ⟨hfails, hsame⟩ := step_of_failsEvaluating h
    exact ⟨hfails, congrArg cache hsame⟩
  update slot name source e rule h := update_of_error h

-- A full cache is emptied for a text that the record is then found wanting for.
example :
    let s := ((begun { cacheCapacity := 1 } Table.empty).step (.read "a > 1")).2
    let s' := (s.step (.decide "b > 1" (.record Table.empty))).2
    (s.step (.decide "b > 1" (.record Table.empty))).1 = .error (.error (.attributeNotFound "b"))
      ∧ s.cache.keys = ["a > 1"] ∧ s'.cache.keys = ["b > 1"] := by
  decide +kernel

end Session

end RecordRules
