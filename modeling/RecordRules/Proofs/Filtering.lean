import RecordRules.Proofs.Kinds

/-!
# What a limit does to an operation

Parsing a text, reading it as a rule, validating a draft and combining trees all take the
limit on depths, and each has an error for it. Beyond that the limit has no say
(`limit_only_filters`). Within a lower limit an operation does what it does within a higher
one, or it ends with its error for the lower limit; and what exceeds the higher limit exceeds
the lower one.

Two runs of one operation are compared step by step (`Except.Filtered`). They need not get
equally far. A draft is validated in preorder, so a node below the levels of the lower limit may
come before the node that is at fault within the higher one. But the run that stops earlier
stops with the error of its limit, and up to there both have done the same.
-/

namespace Except.Filtered

variable {ε α : Type} {e e' : ε} {x y : Except ε α}

/-- **Rewording errors keeps outcomes filtered**, if it leaves the error of the lower limit as
it is and makes no other error the one of the higher limit. -/
theorem mapError {f : ε → ε} (h : Filtered e e' x y) (he : f e = e)
    (he' : ∀ d, f d = e' → d = e') : Filtered e e' (x.mapError f) (y.mapError f) := by
  rcases h with rfl | ⟨rfl, hne⟩
  · exact .inl (congrArg Except.error he)
  · refine .inr ⟨rfl, fun heq => ?_⟩
    obtain ⟨d, hd, hfd⟩ := mapError_eq_error_iff.mp heq
    exact hne (hd.trans (congrArg Except.error (he' d hfd)))

end Except.Filtered

namespace RecordRules

open Except (Filtered bind_eq_error_iff mapError_eq_error_iff)

variable {m m' n : ℕ}

/-! ## Texts -/

/-- **Reading a rule within a lower limit** is reading it within a higher one, filtered. The
check at the end has nothing to filter: a tree that was parsed is within the limit. -/
theorem Tree.ofText_filtered (hm : 1 ≤ m) (hle : m ≤ m') (n : ℕ) (text : String) :
    Filtered (.nestingTooDeep m) (.nestingTooDeep n) (ofText m text) (ofText m' text) := by
  refine (parse_filtered hle n text).bind fun t hparse => ?_
  have hdepth : t.depth ≤ m := depth_le_of_parse hm hparse
  have hcheck {limit : ℕ} (h : m ≤ limit) : t.check limit = t.checkConditions :=
    if_neg (Nat.not_lt.mpr (hdepth.trans h))
  rw [hcheck le_rfl, hcheck hle]
  refine Filtered.of_ne fun heq => ?_
  -- what is wrong with a condition is not reported as a limit
  rcases bind_eq_error_iff.mp heq with h | ⟨-, -, h⟩
  · obtain ⟨e, he, hinText⟩ := mapError_eq_error_iff.mp h
    obtain ⟨path, fault, rfl⟩ := checkConditions_eq_error he
    cases hinText
  · cases h

/-- **What a higher limit admits**, a lower one admits or gives up as too deep. -/
theorem Tree.ofText_eq_error_iff_of_le (hm : 1 ≤ m) (hle : m ≤ m') {text : String} {t : Tree}
    (h : ofText m' text = .ok t) {e : Error} :
    ofText m text = .error e ↔ e = .nestingTooDeep m ∧ ¬ ∃ u, ofText m text = .ok u := by
  rcases ofText_filtered hm hle m' text with herror | ⟨heq, -⟩
  · rw [herror, Except.error.injEq, eq_comm, iff_self_and]
    rintro - ⟨u, hu⟩
    cases hu
  · rw [heq, h]
    exact iff_of_false nofun fun hnone => hnone.2 ⟨t, rfl⟩

/-! ## Drafts -/

/-- **Validating within lower limits** is validating within higher ones, filtered: where the
levels of the lower limit end, the run within it does, and at every level above both runs see
the same nodes. -/
theorem Draft.validateWithin_filtered {room room' : ℕ} (hroom : room ≤ room') (d : Draft) :
    Filtered (.treeTooDeep m) (.treeTooDeep n) (validateWithin m room d)
      (validateWithin m' room' d) := by
  induction room generalizing room' d with
  | zero => exact .inl rfl
  | succ room ih =>
    obtain ⟨room', rfl⟩ := Nat.exists_eq_add_of_le' (Nat.one_le_of_lt hroom)
    rw [validateWithin, validateWithin]
    split
    · exact Filtered.of_ne (by simp)
    · exact Filtered.of_ok _
    · have hside (side : Side) (d : Draft) : Filtered (.treeTooDeep m) (.treeTooDeep n)
          ((validateWithin m room d).mapError (·.within side))
          ((validateWithin m' room' d).mapError (·.within side)) := by
        refine (ih (Nat.le_of_succ_le_succ hroom) d).mapError rfl fun e he => ?_
        cases e <;> cases he
        rfl
      refine (hside .left _).bind fun left _ => ?_
      exact (hside .right _).bind fun right _ => Filtered.of_ok _

/-! ## Trees that are combined -/

/-- **Combining within a lower limit** is combining within a higher one, filtered. -/
theorem Tree.combine_filtered (hle : m ≤ m') (n : ℕ) (ts : List Tree) :
    Filtered (.treeTooDeep m) (.treeTooDeep n) (combine m ts) (combine m' ts) := by
  match ts with
  | [] => exact Filtered.of_ne nofun
  | [_] => exact Filtered.of_ne nofun
  | first :: second :: others =>
    rw [combine_cons_cons, combine_cons_cons]
    split
    · exact .inl rfl
    · next hwithin =>
      rw [if_neg fun hdeep => hwithin (Nat.lt_of_le_of_lt hle hdeep)]
      exact Filtered.of_ok _

/-! ## All operations -/

/-- **A limit only filters the outcomes** of an operation. They are compared within a lower
limit `m` and a higher limit `m'`; the error of the operation for a limit is `tooDeep`. -/
structure OnlyFilters {α : Type} (tooDeep : ℕ → Error) (m m' : ℕ)
    (outcome : ℕ → Except Error α) : Prop where
  /-- A success within the higher limit, or an error that has nothing to do with depth, is the
  outcome within the lower limit as well, unless that one is exceeded. -/
  same_or_tooDeep : (∀ k, outcome m' ≠ .error (tooDeep k)) →
    outcome m = outcome m' ∨ outcome m = .error (tooDeep m)
  /-- What exceeds the higher limit exceeds the lower one, and each error names its own
  limit. -/
  tooDeep_of_tooDeep : ∀ k, outcome m' = .error (tooDeep k) →
    k = m' ∧ outcome m = .error (tooDeep m)
  /-- A success within the lower limit is the same success within the higher one. -/
  ok_of_ok : ∀ a, outcome m = .ok a → outcome m' = .ok a

/-- An operation whose outcomes are filtered, whatever limit an error might name. -/
theorem OnlyFilters.of_filtered {α : Type} {tooDeep : ℕ → Error}
    {outcome : ℕ → Except Error α} (hinj : ∀ {k l}, tooDeep k = tooDeep l → k = l)
    (h : ∀ n, Filtered (tooDeep m) (tooDeep n) (outcome m) (outcome m'))
    (hself : ∀ n, Filtered (tooDeep m') (tooDeep n) (outcome m') (outcome m')) :
    OnlyFilters tooDeep m m' outcome where
  same_or_tooDeep _ := (h m').symm.imp_left And.left
  tooDeep_of_tooDeep k hk := by
    constructor
    · rcases hself k with hown | ⟨-, hne⟩
      · exact hinj (Except.error.inj (hk.symm.trans hown))
      · exact absurd hk hne
    · exact (h k).resolve_right fun ⟨_, hne⟩ => hne hk
  ok_of_ok a ha := by
    rcases h m' with he | ⟨heq, -⟩
    · exact absurd (ha.symm.trans he) nofun
    · exact heq.symm.trans ha

/-- **The limit on depths is only a filter**, for every operation that has it. -/
theorem limit_only_filters (hm : 1 ≤ m) (hle : m ≤ m') :
    (∀ text, OnlyFilters .nestingTooDeep m m' fun limit => Tree.parse limit text)
      ∧ (∀ text, OnlyFilters .nestingTooDeep m m' fun limit => Tree.ofText limit text)
      ∧ (∀ d : Draft, OnlyFilters .treeTooDeep m m' fun limit => d.validate limit)
      ∧ ∀ ts, OnlyFilters .treeTooDeep m m' fun limit => Tree.combine limit ts := by
  have hnesting {k l : ℕ} (h : Error.nestingTooDeep k = .nestingTooDeep l) : k = l :=
    Error.nestingTooDeep.inj h
  have htree {k l : ℕ} (h : Error.treeTooDeep k = .treeTooDeep l) : k = l :=
    Error.treeTooDeep.inj h
  refine ⟨fun text => ?_, fun text => ?_, fun d => ?_, fun ts => ?_⟩
  · exact .of_filtered hnesting (fun n => Tree.parse_filtered hle n text)
      fun n => Tree.parse_filtered le_rfl n text
  · exact .of_filtered hnesting (fun n => Tree.ofText_filtered hm hle n text)
      fun n => Tree.ofText_filtered (hm.trans hle) le_rfl n text
  · exact .of_filtered htree (fun n => Draft.validateWithin_filtered hle d)
      fun n => Draft.validateWithin_filtered le_rfl d
  · exact .of_filtered htree (fun n => Tree.combine_filtered hle n ts)
      fun n => Tree.combine_filtered le_rfl n ts

/-- Within the lower limit the chain and the left child are given up before what is at fault
within the higher one is looked at. What the higher of two limits gives up, the lower one
does. -/
theorem limit_only_filters_before_fault :
    let text := "a > 1 AND b > 2 OR c > 3 d"
    let d : Draft := .operator "AND" (.operator "OR" (.condition "a > 1") (.condition "b > 2"))
      (.condition "c ~ 3")
    1 ≤ 2 ∧ 2 ≤ 3
      ∧ Tree.parse 3 text = .error (.unexpectedToken "d")
      ∧ Tree.parse 2 text = .error (.nestingTooDeep 2)
      ∧ Tree.parse 1 text = .error (.nestingTooDeep 1)
      ∧ d.validate 3 = .error (.invalidNode (.node [.right]) (.malformedCondition "c ~ 3"))
      ∧ d.validate 2 = .error (.treeTooDeep 2) := by
  intro text d
  have hparse : Tree.parse 3 text = .error (.unexpectedToken "d") := by
    decide +kernel +zetaReduce
  have hvalidate : d.validate 3
      = .error (.invalidNode (.node [.right]) (.malformedCondition "c ~ 3")) := by
    decide +kernel +zetaReduce
  have hlowest : 1 ≤ 2 := by decide
  have hlower : 2 ≤ 3 := by decide
  obtain ⟨hparse_filters, -, hvalidate_filters, -⟩ := limit_only_filters hlowest hlower
  have hlowerparse : Tree.parse 2 text = .error (.nestingTooDeep 2) := by
    refine ((hparse_filters text).same_or_tooDeep fun k => ?_).resolve_left ?_
    · rw [hparse]
      exact nofun
    · decide +kernel +zetaReduce
  have hlowestparse : Tree.parse 1 text = .error (.nestingTooDeep 1) :=
    (((limit_only_filters le_rfl hlowest).1 text).tooDeep_of_tooDeep 2 hlowerparse).2
  refine ⟨hlowest, hlower, hparse, hlowerparse, hlowestparse, hvalidate, ?_⟩
  refine ((hvalidate_filters d).same_or_tooDeep fun k => ?_).resolve_left ?_
  · rw [hvalidate]
    exact nofun
  · decide +kernel +zetaReduce

end RecordRules
