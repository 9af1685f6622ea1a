import RecordRules.Proofs.Session.Rules
import RecordRules.Proofs.Tree.Conjunction

/-!
# Combining the rules that a session keeps

Rules are combined by combining their trees, and what comes of it is checked as every new rule
is: the name, the depth of the tree, and its conditions. For members that a session keeps only
the check of the name can find a fault (`Session.combinesUnder_moves`). The depth has been looked
at already, for the chain was told to be within the limit. And the conditions are those of the
members, which were found to be well spelled when they were made. That outlives every change of
the settings, while the depth of a member does not: one that is deeper than the limit that
applies now makes the chain too deep.

The rule that comes of it requires all of its members (`Rule.RequiresAll`), of every record and
under whatever settings it is asked. Both the rule and its members look at the record first, so a
record that is refused is refused by the rule as it is by each of them.
-/

namespace RecordRules

open Except (bind_eq_error_iff bind_eq_ok_iff)
open RecordRules.Tree (Conjoins)

namespace Rule

variable {settings : Settings} {members : List Rule} {rule : Rule} {name : String}
  {record : Record} {e : Error}

/-! ## The answer of a rule -/

/-- A record that is refused has no answer. -/
theorem evaluate_of_refused (h : record.validate settings.requireNonEmptyRecord = .error e) :
    rule.evaluate settings record = .error e := by
  rw [evaluate, h]
  rfl

/-- Any other record has the answer of the tree. -/
theorem evaluate_of_accepted (h : record.validate settings.requireNonEmptyRecord = .ok ()) :
    rule.evaluate settings record = rule.root.evaluate record := by
  rw [evaluate, h]
  rfl

/-- **The rule requires all the members**, of every record and under all settings. -/
structure RequiresAll (members : List Rule) (rule : Rule) : Prop where
  /-- A record that is refused is refused. -/
  evaluate_of_refused : ∀ settings record e,
    record.validate settings.requireNonEmptyRecord = .error e →
      rule.evaluate settings record = .error e
  /-- Of any other record the rule has an answer exactly if all members have one, and says yes
  exactly if all of them do. -/
  evaluate_eq_ok_iff : ∀ settings record b,
    record.validate settings.requireNonEmptyRecord = .ok () →
      (rule.evaluate settings record = .ok b
        ↔ (∀ member ∈ members, ∃ a, member.evaluate settings record = .ok a)
          ∧ (b = true ↔ ∀ member ∈ members, member.evaluate settings record = .ok true))
  /-- Otherwise its error is the error of the first member that fails. -/
  evaluate_eq_error_iff : ∀ settings record e,
    record.validate settings.requireNonEmptyRecord = .ok () →
      (rule.evaluate settings record = .error e
        ↔ ∃ before member after, members = before ++ member :: after
          ∧ (∀ r ∈ before, ∃ a, r.evaluate settings record = .ok a)
          ∧ member.evaluate settings record = .error e)

/-- A rule requires the members whose trees its own tree requires. -/
theorem requiresAll_of_root (h : Tree.RequiresAll (members.map root) rule.root) :
    RequiresAll members rule where
  evaluate_of_refused _ _ _ := Rule.evaluate_of_refused
  evaluate_eq_ok_iff settings record b haccepted := by
    simp only [Rule.evaluate_of_accepted haccepted]
    rw [h.evaluate_eq_ok_iff, List.forall_mem_map, List.forall_mem_map]
  evaluate_eq_error_iff settings record e haccepted := by
    simp only [Rule.evaluate_of_accepted haccepted]
    rw [h.evaluate_eq_error_iff]
    constructor
    · rintro ⟨before, root, after, hmembers, hbefore, he⟩
      obtain ⟨front, back, rfl, rfl, hback⟩ := List.map_eq_append_iff.mp hmembers
      obtain ⟨member, rest, rfl, rfl, rfl⟩ := List.map_eq_cons_iff.mp hback
      exact ⟨front, member, rest, rfl, fun r hr => hbefore _ (List.mem_map_of_mem hr), he⟩
    · rintro ⟨before, member, after, rfl, hbefore, he⟩
      refine ⟨before.map root, member.root, after.map root, ?_, ?_, he⟩
      · rw [List.map_append, List.map_cons]
      · exact List.forall_mem_map.mpr hbefore

/-! ## Combining well-spelled members -/

/-- **The rules combine under the name** within the limit of the settings: nothing but a lack of
members, a chain that is too deep or a blank name can prevent it. -/
structure CombinesUnder (settings : Settings) (members : List Rule) (name : String) : Prop where
  /-- The check of a new rule finds nothing wrong with a tree that comes of combining. -/
  check_eq_ok : ∀ root, Tree.combine settings.maxDepth (members.map Rule.root) = .ok root →
    root.check settings.maxDepth = .ok ()
  /-- **All that can go wrong.** The name is looked at last. -/
  combine_eq_error_iff : ∀ e, combine settings members (some name) = .error e
    ↔ members.length < 2 ∧ e = .invalidArgument (.tooFewRules members.length)
      ∨ 2 ≤ members.length
        ∧ ((∃ chain, Conjoins (members.map Rule.root) chain ∧ settings.maxDepth < chain.depth)
            ∧ e = .treeTooDeep settings.maxDepth
          ∨ (∃ chain, Conjoins (members.map Rule.root) chain ∧ chain.depth ≤ settings.maxDepth)
            ∧ (∀ c ∈ name.toList, Text.isBlank c = true) ∧ e = .invalidArgument .blankRuleName)
  /-- The rule that comes of it has the name, and it requires all members. -/
  of_combine_eq_ok : ∀ rule, combine settings members (some name) = .ok rule →
    rule.name = name ∧ Conjoins (members.map Rule.root) rule.root ∧ RequiresAll members rule

/-- **The chain of well-spelled members passes its check** if it is within the limit. -/
theorem check_of_combine {limit : ℕ} {root : Tree}
    (hmembers : ∀ member ∈ members, ∀ c ∈ member.root.conditions, c.isSpelled = true)
    (h : Tree.combine limit (members.map Rule.root) = .ok root) : root.check limit = .ok () := by
  obtain ⟨-, hchain, hdepth⟩ := Tree.combine_eq_ok_iff_conjoins.mp h
  refine Tree.check_eq_ok_iff.mpr ⟨hdepth, hchain.forall_mem_conditions ?_⟩
  exact List.forall_mem_map.mpr hmembers

/-- A rule that comes of combining has the name and the chain of the members. -/
theorem conjoins_of_combine (h : combine settings members (some name) = .ok rule) :
    rule.name = name ∧ Conjoins (members.map Rule.root) rule.root := by
  obtain ⟨root, hroot, h⟩ := bind_eq_ok_iff.mp h
  obtain ⟨rfl, -⟩ := ofTree_eq_ok_iff.mp h
  exact ⟨rfl, (Tree.combine_eq_ok_iff_conjoins.mp hroot).2.1⟩

/-- **Well-spelled members combine.** -/
theorem combinesUnder_of_isSpelled
    (hmembers : ∀ member ∈ members, ∀ c ∈ member.root.conditions, c.isSpelled = true) :
    CombinesUnder settings members name where
  check_eq_ok _ := check_of_combine hmembers
  combine_eq_error_iff e := by
    rw [combine, bind_eq_error_iff, Tree.combine_eq_error_iff_conjoins, List.length_map, or_assoc,
      and_or_left]
    refine or_congr_right (or_congr_right ⟨?_, ?_⟩)
    · rintro ⟨root, hroot, h⟩
      obtain ⟨hlength, hchain, hdepth⟩ := Tree.combine_eq_ok_iff_conjoins.mp hroot
      rw [List.length_map] at hlength
      refine ⟨hlength, ⟨root, hchain, hdepth⟩, checkName_eq_error_iff.mp ?_⟩
      -- the tree has passed its check, so the fault is in the name
      refine (ofTree_eq_error_iff.mp h).resolve_right fun ⟨_, hcheck⟩ => ?_
      rw [check_of_combine hmembers hroot] at hcheck
      cases hcheck
    · rintro ⟨hlength, ⟨chain, hchain, hdepth⟩, hname⟩
      rw [← List.length_map Rule.root] at hlength
      refine ⟨chain, Tree.combine_eq_ok_iff_conjoins.mpr ⟨hlength, hchain, hdepth⟩, ?_⟩
      exact ofTree_eq_error_iff.mpr (.inl (checkName_eq_error_iff.mpr hname))
  of_combine_eq_ok rule h := by
    obtain ⟨hname, hchain⟩ := conjoins_of_combine h
    exact ⟨hname, hchain, requiresAll_of_root hchain.requiresAll⟩

end Rule

namespace Session

/-- The conditions of a rule that a session keeps are well spelled. -/
theorem isSpelled_of_get? {settings : Settings} {ms : List Move} {slot : String} {rule : Rule}
    (h : ((begun settings Table.empty).moves ms).rules.get? slot = some rule) :
    ∀ c ∈ rule.root.conditions, c.isSpelled = true := by
  rcases valid_or_of_get? h with ⟨limit, -, hvalid⟩ | ⟨-, hget⟩
  · exact (Tree.check_eq_ok_iff.mp (Rule.valid_iff.mp hvalid).2).2
  · cases hget

/-- **Rules that a session keeps combine**, whatever became of the settings since they were
made, and the rule that comes of it requires them all. -/
theorem combinesUnder_moves (settings : Settings) (ms : List Move) {members : List Rule}
    (hmembers : ∀ member ∈ members,
      ∃ slot, ((begun settings Table.empty).moves ms).rules.get? slot = some member)
    (name : String) :
    Rule.CombinesUnder ((begun settings Table.empty).moves ms).settings members name := by
  refine Rule.combinesUnder_of_isSpelled fun member hmember => ?_
  obtain ⟨slot, hget⟩ := hmembers member hmember
  exact isSpelled_of_get? hget

/-- After the limit was lowered to the depth of a member, the member cannot be combined any more.
Others can, and what they do not find in a record the combined rule does not find. -/
theorem combinesUnder_after_lower_limit :
    let both : Rule :=
      ⟨"both", .node .and (.leaf ⟨"a", .greater, "1"⟩) (.leaf ⟨"b", .greater, "2"⟩)⟩
    let one : Rule := ⟨"one", .leaf ⟨"c", .equal, "'x'"⟩⟩
    let ms : List Move :=
      [.command (.ruleOfText "r" "both" "a > 1 AND b > 2"),
        .command (.ruleOfText "q" "one" "c = 'x'"), .install { maxDepth := 2 }]
    let s := (begun {} Table.empty).moves ms
    (∀ member ∈ [both, one], ∃ slot, s.rules.get? slot = some member)
      ∧ Rule.combine s.settings [both, one] (some "three") = .error (.treeTooDeep 2)
      ∧ Rule.combine s.settings [one, one] (some "\t") = .error (.invalidArgument .blankRuleName)
      ∧ ∃ rule, Rule.combine s.settings [one, one] (some "twice") = .ok rule
        ∧ rule.evaluate s.settings Table.empty = .error (.invalidArgument .emptyRecord)
        ∧ rule.evaluate s.settings (Table.empty.insert "a" (.text "x"))
          = .error (.attributeNotFound "c") := by
  intro both one ms s
  have hboth : s.rules.get? "r" = some both := by decide +kernel +zetaReduce
  have hone : s.rules.get? "q" = some one := by decide +kernel +zetaReduce
  have hlimit : s.settings.maxDepth = 2 := by decide +kernel +zetaReduce
  have hmembers : ∀ member ∈ [both, one], ∃ slot, s.rules.get? slot = some member :=
    List.forall_mem_cons.mpr ⟨⟨_, hboth⟩, List.forall_mem_singleton.mpr ⟨_, hone⟩⟩
  have htwice : ∀ member ∈ [one, one], ∃ slot, s.rules.get? slot = some member :=
    List.forall_mem_cons.mpr ⟨⟨_, hone⟩, List.forall_mem_singleton.mpr ⟨_, hone⟩⟩
  have hchain : Conjoins [one.root, one.root] (.node .and one.root one.root) :=
    .snoc one.root (.single one.root)
  refine ⟨hmembers, ?_, ?_, ?_⟩
  · refine ((combinesUnder_moves {} ms hmembers "three").combine_eq_error_iff _).mpr ?_
    have hdeep : Conjoins [both.root, one.root] (.node .and both.root one.root) :=
      .snoc one.root (.single both.root)
    refine .inr ⟨le_rfl, .inl ⟨⟨_, hdeep, ?_⟩, hlimit ▸ rfl⟩⟩
    decide +kernel +zetaReduce
  · refine ((combinesUnder_moves {} ms htwice "\t").combine_eq_error_iff _).mpr ?_
    refine .inr ⟨le_rfl, .inr ⟨⟨_, hchain, ?_⟩, List.all_eq_true.mp (by decide), rfl⟩⟩
    decide +kernel +zetaReduce
  · have hcombine : Rule.combine s.settings [one, one] (some "twice")
        = .ok ⟨"twice", .node .and one.root one.root⟩ := by
      decide +kernel +zetaReduce
    obtain ⟨-, -, hrequires⟩ :=
      (combinesUnder_moves {} ms htwice "twice").of_combine_eq_ok _ hcombine
    refine ⟨_, hcombine, hrequires.evaluate_of_refused _ _ _ ?_, ?_⟩
    · decide +kernel +zetaReduce
    · refine (hrequires.evaluate_eq_error_iff _ _ _ ?_).mpr ⟨[], one, [one], rfl, nofun, ?_⟩
      · decide +kernel +zetaReduce
      · decide +kernel +zetaReduce

end Session

end RecordRules
