import RecordRules.Proofs.Rule.Making
import RecordRules.Proofs.Session.Remembered

/-!
# The rules that a session keeps

Some commands and some calls put a rule into a slot if they succeed; no other move, and
none that fails, touches the rules (`Session.keeps_move`). A rule that is put into a slot
was made in one of the six ways, under the settings that applied then.

So every rule that a session keeps is valid, whatever became of the settings since
(`Session.valid_moves`). The limit that its tree is within is the one that applied when
a rule was last put into the slot (`Session.limitOf?`), which need not be the one
that applies now.
-/

namespace RecordRules

open Except (bind_eq_ok_iff mapError_eq_ok_iff)

namespace Session

/-! ## What a move puts into a slot -/

/-- The slot that the command is to put a rule into. -/
def Command.slot? : Command → Option String
  | .newRule slot _ _ => some slot
  | .ruleOfText slot _ _ => some slot
  | .ruleOfExpression slot _ _ => some slot
  | .ruleOfJson slot _ => some slot
  | .updateRule slot _ _ => some slot
  | .combineRules slot _ _ => some slot
  | _ => none

/-- The rule that was made or updated; an update that failed is none. -/
def Answer.rule? : Answer → Option Rule
  | .rule r => some r
  | .updated none r => some r
  | _ => none

end Session

/-- The slot that the call is to put a rule into. -/
def Script.Call.slot? : Script.Call → Option String
  | create slot _ _ => some slot
  | combineRules slot _ _ => some slot
  | _ => none

/-- The rule that was made. -/
def Script.Answer.rule? : Script.Answer → Option Rule
  | rule r => some r
  | value _ => none

namespace Session

open Rule (Made)

/-- **The rule that the move puts into a slot**, if it is to put one there and
succeeds. -/
def kept? (s : Session) : Move → Option (String × Rule)
  | .command c => c.slot?.bind fun slot =>
    ((s.step c).1.toOption.bind Answer.rule?).map fun rule => (slot, rule)
  | .call c => c.slot?.bind fun slot =>
    ((c.run s).1.toOption.bind Script.Answer.rule?).map fun rule => (slot, rule)
  | .install _ => none

/-- **What becomes of the rules**: one that was made under the settings is put into
a slot, or they stay as they are. -/
def Keeps (s : Session) (kept : Option (String × Rule)) (s' : Session) : Prop :=
  match kept with
  | none => s'.rules = s.rules
  | some (slot, rule) => s'.rules = s.rules.insert slot rule ∧ Made s.settings rule

variable {s s' : Session} {slot : String}

/-- What is put into a slot was made, if it is there at all. -/
theorem keeps_keepRule {β : Type} {make : Rule → β} {rule? : β → Option Rule}
    (hmake : ∀ rule, rule? (make rule) = some rule) {outcome : Except Failure Rule}
    (h : ∀ rule, outcome = .ok rule → Made s.settings rule) :
    s.Keeps
      (((s.keepRule slot make outcome).1.toOption.bind rule?).map fun rule => (slot, rule))
      (s.keepRule slot make outcome).2 := by
  cases outcome with
  | error f => exact rfl
  | ok rule =>
    show s.Keeps ((rule? (make rule)).map fun rule => (slot, rule)) _
    rw [hmake]
    exact ⟨rfl, h rule rfl⟩

/-- A rule that is updated is put into its slot. -/
theorem keeps_update (s : Session) (slot name : String) (root : Tree) :
    s.Keeps
      (((s.update slot name root).1.toOption.bind Answer.rule?).map fun rule => (slot, rule))
      (s.update slot name root).2 := by
  unfold update
  split
  · exact rfl
  · split
    · next hafter => exact ⟨rfl, .update hafter⟩
    · exact rfl

/-- Reading a text leaves the rules alone. -/
theorem rules_readThen {β : Type} (s : Session) (text : String)
    (ask : Tree → Except Failure β) : (s.readThen text ask).2.rules = s.rules := by
  unfold readThen
  split <;> rfl

/-- Reading the tree of an argument leaves the rules alone. -/
theorem rules_treeOf (s : Session) (v : Script.Value) :
    (Script.treeOf s v).2.rules = s.rules :=
  treeOf_of_readThen (R := fun s s' => s'.rules = s.rules) (fun _ => rfl)
    (fun s text => rules_readThen s text _) s v

/-- Reading the trees of the arguments leaves the rules alone. -/
theorem rules_treesOf (s : Session) (vs : List Script.Value) :
    (Script.treesOf s vs).2.rules = s.rules :=
  treesOf_of_readThen (R := fun s s' => s'.rules = s.rules) (fun _ => rfl)
    (fun _ _ _ h h' => h'.trans h) (fun s text => rules_readThen s text _) s vs

/-- **The rules after a command.** -/
theorem keeps_step (s : Session) (c : Command) :
    s.Keeps (s.kept? (.command c)) (s.step c).2 := by
  have hanswer : ∀ r : Rule, (Answer.rule r).rule? = some r := fun _ => rfl
  cases c with
  | newRule slot name source =>
    refine keeps_keepRule hanswer fun rule h => ?_
    obtain ⟨root, -, h⟩ := bind_eq_ok_iff.mp h
    exact .ofTree (mapError_eq_ok_iff.mp h)
  | ruleOfText slot name text =>
    exact keeps_keepRule hanswer fun rule h => .ofText (mapError_eq_ok_iff.mp h)
  | ruleOfExpression slot name json =>
    refine keeps_keepRule hanswer fun rule h => ?_
    obtain ⟨e, -, h⟩ := bind_eq_ok_iff.mp (mapError_eq_ok_iff.mp h)
    exact .ofExpression h
  | ruleOfJson slot json =>
    exact keeps_keepRule hanswer fun rule h => .ofJson (mapError_eq_ok_iff.mp h)
  | combineRules slot rules name =>
    refine keeps_keepRule hanswer fun rule h => ?_
    obtain ⟨members, -, h⟩ := bind_eq_ok_iff.mp h
    exact .combine (mapError_eq_ok_iff.mp h)
  | updateRule slot name source =>
    unfold kept? step
    dsimp only
    split
    · exact keeps_update s slot name _
    · exact rfl
  | read text => exact rules_readThen s text _
  | decide text record =>
    unfold step
    dsimp only
    split
    · exact rules_readThen s text _
    · exact rfl
  | install json =>
    unfold step
    dsimp only
    split <;> exact rfl
  | clearCache => exact rfl
  | tree source => exact rfl
  | check source => exact rfl
  | evaluate source record => exact rfl
  | combine sources => exact rfl
  | getRule slot => exact rfl
  | evaluateRule slot record => exact rfl

/-- The rules after a call whose slots all hold rules. -/
theorem keeps_perform (s : Session) (c : Script.Call) :
    s.Keeps
      (c.slot?.bind fun slot =>
        ((c.perform s).1.toOption.bind Script.Answer.rule?).map fun rule => (slot, rule))
      (c.perform s).2 := by
  have hanswer : ∀ r : Rule, (Script.Answer.rule r).rule? = some r := fun _ => rfl
  cases c with
  | create slot name expression =>
    refine keeps_keepRule hanswer fun rule h => ?_
    obtain ⟨e, -, h⟩ := bind_eq_ok_iff.mp (mapError_eq_ok_iff.mp h)
    exact .ofExpression h
  | combineRules slot rules name =>
    refine keeps_keepRule hanswer fun rule h => ?_
    obtain ⟨members, -, h⟩ := bind_eq_ok_iff.mp h
    exact .combine (mapError_eq_ok_iff.mp h)
  | configure entries =>
    show (Script.Call.perform s (.configure entries)).2.rules = s.rules
    unfold Script.Call.perform
    dsimp only
    split <;> rfl
  | parse text => exact rules_readThen s text _
  | evaluate tree data =>
    show (Script.Call.perform s (.evaluate tree data)).2.rules = s.rules
    rw [perform_evaluate_snd]
    exact rules_treeOf s tree
  | combine trees => exact rules_treesOf s trees
  | validate tree => exact rfl
  | evaluateRule slot data => exact rfl
  | display slot => exact rfl

/-- **The rules after a call.** -/
theorem keeps_run (s : Session) (c : Script.Call) :
    s.Keeps (s.kept? (.call c)) (c.run s).2 := by
  unfold kept? Script.Call.run
  dsimp only
  split
  · exact keeps_perform s c
  · cases c <;> exact rfl

/-- **The rules after a move.** -/
theorem keeps_move (s : Session) (m : Move) : s.Keeps (s.kept? m) (s.move m) := by
  cases m with
  | command c => exact keeps_step s c
  | call c => exact keeps_run s c
  | install settings => exact rfl

/-! ## Rules through a run -/

/-- **The limit that applied when a rule was last put into the slot** along the moves,
if one was. -/
def limitOf? (slot : String) (s : Session) : List Move → Option ℕ
  | [] => none
  | m :: ms =>
    (limitOf? slot (s.move m) ms).or
      (((s.kept? m).filter fun kept => kept.1 = slot).map fun _ => s.settings.maxDepth)

/-- What is in the slot after a move was put there, or was there before. -/
theorem get?_move (s : Session) (m : Move) {rule : Rule}
    (h : (s.move m).rules.get? slot = some rule) :
    (s.kept? m = some (slot, rule) ∧ Made s.settings rule)
      ∨ (∀ rule', s.kept? m ≠ some (slot, rule')) ∧ s.rules.get? slot = some rule := by
  have hkeeps := keeps_move s m
  unfold Keeps at hkeeps
  split at hkeeps
  · next hkept =>
    rw [hkeeps] at h
    exact .inr ⟨fun rule' => by rw [hkept]; exact nofun, h⟩
  · next slot' rule' hkept =>
    obtain ⟨hrules, hmade⟩ := hkeeps
    rw [hrules, Table.get?_insert] at h
    split at h
    · next hslot =>
      obtain rfl := Option.some.inj h
      exact .inl ⟨hslot ▸ hkept, hmade⟩
    · next hslot =>
      refine .inr ⟨fun other hother => hslot ?_, h⟩
      rw [hkept] at hother
      exact congrArg Prod.fst (Option.some.inj hother)

/-- **What is in a slot after the moves** was put there within the limit that applied
then, or was there from the beginning. -/
theorem valid_or_of_get? {ms : List Move} {rule : Rule}
    (h : (s.moves ms).rules.get? slot = some rule) :
    (∃ limit, limitOf? slot s ms = some limit ∧ rule.Valid limit)
      ∨ limitOf? slot s ms = none ∧ s.rules.get? slot = some rule := by
  induction ms generalizing s with
  | nil => exact .inr ⟨rfl, h⟩
  | cons m ms ih =>
    -- what the later moves put there counts; only if they put nothing does this one
    rw [limitOf?]
    rcases ih h with ⟨limit, hlimit, hvalid⟩ | ⟨hnone, hget⟩
    · exact .inl ⟨limit, by rw [hlimit, Option.some_or], hvalid⟩
    · rw [hnone, Option.none_or]
      rcases get?_move s m hget with ⟨hkept, hmade⟩ | ⟨hother, hget⟩
      · refine .inl ⟨s.settings.maxDepth, ?_, Rule.made_iff_valid.mp hmade⟩
        rw [hkept, Option.filter_some, if_pos (decide_eq_true rfl), Option.map_some]
      · refine .inr ⟨?_, hget⟩
        rw [Option.map_eq_none_iff, Option.filter_eq_none_iff]
        rintro ⟨slot', rule'⟩ hkept hslot
        obtain rfl := of_decide_eq_true hslot
        exact hother rule' hkept

/-- **Every rule that a session keeps is valid** within the limit that applied when it
was last made or updated, in whatever session a run ends that began without rules. -/
theorem valid_moves (settings : Settings) (ms : List Move) {rule : Rule}
    (h : ((begun settings Table.empty).moves ms).rules.get? slot = some rule) :
    ∃ limit, limitOf? slot (begun settings Table.empty) ms = some limit ∧ rule.Valid limit :=
  (valid_or_of_get? h).resolve_right fun ⟨_, hget⟩ => Option.some_ne_none rule hget.symm

/-- A rule outlives a lower limit and an update that fails because of it. -/
theorem valid_after_lower_limit :
    let both : Tree := .node .and (.leaf ⟨"a", .greater, "1"⟩) (.leaf ⟨"b", .greater, "2"⟩)
    let ms : List Move :=
      [.command (.ruleOfText "r" "both" "a > 1 AND b > 2"), .install { maxDepth := 1 },
        .command (.updateRule "r" "renamed" (.tree both))]
    let s := (begun {} Table.empty).moves ms
    s.settings.maxDepth = 1
      ∧ s.rules.get? "r" = some ⟨"both", both⟩
      ∧ limitOf? "r" (begun {} Table.empty) ms = some 256
      ∧ Rule.Valid 256 ⟨"both", both⟩ := by
  intro both ms s
  have hget : s.rules.get? "r" = some ⟨"both", both⟩ := by decide +kernel +zetaReduce
  have hlimit : limitOf? "r" (begun {} Table.empty) ms = some 256 := by
    decide +kernel +zetaReduce
  obtain ⟨limit, hlimit', hvalid⟩ := valid_moves {} ms hget
  obtain rfl := Option.some.inj (hlimit.symm.trans hlimit')
  exact ⟨by decide +kernel +zetaReduce, hget, hlimit, hvalid⟩

end Session

end RecordRules
