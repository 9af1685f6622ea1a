import RecordRules.Proofs.Tree.Limits
import RecordRules.Proofs.Tree.Produced
import RecordRules.Tree.Evaluate

/-!
# The kinds of errors that operations have

An operation fails with errors of one kind: reading a text with errors of the text,
checking with faults of a tree, evaluating with errors of evaluation (`Error.FailsAs`).
Each function is looked at once, together with the functions that it calls, and steps
that are taken one after the other fail as each of them does.

Two operations need more than that. Reading the text of a rule ends with a check of the
tree, whose errors are of another kind, and rewords those that concern a condition. An
error that is left as it is would say that the tree is too deep, but no tree that was
parsed is, provided that the limit leaves room for a condition: the depth that the parser
keeps along is the depth that the check measures. And trees that are to be combined are
either too few, which is a fault of the arguments, or too deep together.
-/

namespace RecordRules

namespace Error

variable {α β : Type} {k : Kind} {e : Error} {x : Except Error α}

/-- **The outcome fails with errors of this kind only**, if it fails. -/
def FailsAs (k : Kind) (x : Except Error α) : Prop := ∀ e, x = .error e → e.kind = k

/-- A success is no failure. -/
theorem failsAs_ok (a : α) : FailsAs k (.ok a) := nofun

/-- An error is of its own kind. -/
theorem failsAs_error (h : e.kind = k) : FailsAs k (.error e : Except Error α) := by
  rintro _ ⟨⟩
  exact h

/-- **Steps that are taken one after the other** fail as each of them does. -/
theorem FailsAs.bind {f : α → Except Error β} (hx : FailsAs k x)
    (hf : ∀ a, FailsAs k (f a)) : FailsAs k (x >>= f) := by
  intro e h
  rcases Except.bind_eq_error_iff.mp h with hfirst | ⟨a, -, hsecond⟩
  · exact hx e hfirst
  · exact hf a e hsecond

/-- What is made of a value fails as the value does. -/
theorem FailsAs.map (hx : FailsAs k x) (f : α → β) : FailsAs k (x.map f) := by
  cases x with
  | error e => exact failsAs_error (hx e rfl)
  | ok a => exact failsAs_ok (f a)

/-- Rewording errors keeps their kind if it keeps the kind of each. -/
theorem FailsAs.mapError {f : Error → Error} (hx : FailsAs k x)
    (hf : ∀ e, (f e).kind = e.kind) : FailsAs k (x.mapError f) := by
  intro e' h
  obtain ⟨e, he, rfl⟩ := Except.mapError_eq_error_iff.mp h
  rw [hf]
  exact hx e he

end Error

open Error (FailsAs failsAs_ok failsAs_error)

/-! ## Texts -/

namespace Tree

variable {limit : ℕ}

/-- What goes wrong with a condition is the text's fault. -/
theorem readCondition_failsAs (ts : List Token) : FailsAs .parse (readCondition ts) := by
  unfold readCondition
  split
  case h_4 =>
    split
    · exact failsAs_ok _
    · exact failsAs_error rfl
  all_goals exact failsAs_error rfl

/-- Terms fail as the groups in them do. -/
theorem readTerm_failsAs {group : Reader} (h : ∀ ts, FailsAs .parse (group ts))
    (ts : List Token) : FailsAs .parse (readTerm group ts) := by
  unfold readTerm
  split
  · refine (h _).bind fun inner => ?_
    split
    · exact failsAs_ok _
    · exact failsAs_error rfl
  · exact readCondition_failsAs _

/-- **A chain fails as its terms do**, or because it grows too deep. -/
theorem readChain_failsAs {term : Reader} (h : ∀ ts, FailsAs .parse (term ts)) {bound : ℕ}
    (left : Parsed bound) : FailsAs .parse (readChain limit term left) := by
  fun_induction readChain limit term left with
  | case1 left hrest => exact failsAs_ok left
  | case2 left t ts hrest hconn => exact failsAs_ok left
  | case3 left t ts hrest k hconn ih =>
    refine (h ts).bind fun right => ?_
    dsimp only at ih ⊢
    split
    · exact failsAs_error rfl
    · exact ih right

/-- A term and the chain after it fail as terms do. -/
theorem readTerms_failsAs {term : Reader} (h : ∀ ts, FailsAs .parse (term ts))
    (ts : List Token) : FailsAs .parse (readTerms limit term ts) :=
  (h ts).bind fun left => readChain_failsAs h left

/-- **Expressions fail as texts do**, whatever room there is. -/
theorem expression_failsAs (room : ℕ) (ts : List Token) :
    FailsAs .parse (expression limit room ts) := by
  induction room generalizing ts with
  | zero =>
    rw [expression]
    exact readTerms_failsAs (readTerm_failsAs fun _ => failsAs_error rfl) ts
  | succ room ih =>
    rw [expression]
    exact readTerms_failsAs (readTerm_failsAs ih) ts

/-- **Parsing fails with errors of the text.** -/
theorem parse_failsAs (limit : ℕ) (text : String) : FailsAs .parse (parse limit text) := by
  unfold parse ofTokens
  split
  · exact failsAs_error rfl
  · refine (expression_failsAs limit _).bind fun parsed => ?_
    split
    · exact failsAs_ok _
    · exact failsAs_error rfl
    · exact failsAs_error rfl

/-! ## Checks -/

/-- What is wrong with a condition of a tree is a fault of its leaf. -/
theorem checkConditions_eq_error {t : Tree} {e : Error} (h : t.checkConditions = .error e) :
    ∃ path fault, e = .invalidNode (.node path) fault := by
  induction t generalizing e with
  | leaf c =>
    rw [checkConditions] at h
    split at h
    · cases h
    · obtain rfl := Except.error.inj h
      exact ⟨[], _, rfl⟩
  | node k l r ihl ihr =>
    rw [checkConditions] at h
    rcases Except.bind_eq_error_iff.mp h with hl | ⟨-, -, hr⟩
    · obtain ⟨e', he', rfl⟩ := Except.mapError_eq_error_iff.mp hl
      obtain ⟨path, fault, rfl⟩ := ihl he'
      exact ⟨.left :: path, fault, rfl⟩
    · obtain ⟨e', he', rfl⟩ := Except.mapError_eq_error_iff.mp hr
      obtain ⟨path, fault, rfl⟩ := ihr he'
      exact ⟨.right :: path, fault, rfl⟩

/-- **A check fails with faults of the tree.** -/
theorem check_failsAs (limit : ℕ) (t : Tree) : FailsAs .validation (t.check limit) := by
  intro e h
  rw [check] at h
  split at h
  · obtain rfl := Except.error.inj h
    rfl
  · obtain ⟨path, fault, rfl⟩ := checkConditions_eq_error h
    rfl

/-- **The tree of a text fails its check by a condition**, and the fault of the condition
is reported as one of the text: the tree is not too deep. -/
theorem ofText_of_check_eq_error (hlimit : 1 ≤ limit) {text : String} {t : Tree} {e : Error}
    (hparse : parse limit text = .ok t) (hcheck : t.check limit = .error e) :
    ∃ place fault, e = .invalidNode place fault
      ∧ ofText limit text = .error (.invalidCondition fault) := by
  have hdepth : ¬ t.depth > limit := Nat.not_lt.mpr (depth_le_of_parse hlimit hparse)
  have hconditions : t.checkConditions = .error e := by
    rwa [check, if_neg hdepth] at hcheck
  obtain ⟨path, fault, rfl⟩ := checkConditions_eq_error hconditions
  refine ⟨.node path, fault, rfl, ?_⟩
  rw [ofText_of_parse hparse, hcheck]
  rfl

/-- **Reading a text fails with errors of the text**, also where its tree fails the
check. -/
theorem ofText_failsAs (hlimit : 1 ≤ limit) (text : String) :
    FailsAs .parse (ofText limit text) := by
  intro e h
  cases hparse : parse limit text with
  | error e' =>
    rw [ofText, hparse] at h
    obtain rfl := Except.error.inj h
    exact parse_failsAs limit text _ hparse
  | ok t =>
    cases hcheck : t.check limit with
    | error e' =>
      obtain ⟨-, fault, -, hfault⟩ := ofText_of_check_eq_error hlimit hparse hcheck
      obtain rfl := Except.error.inj (hfault.symm.trans h)
      rfl
    | ok _ =>
      rw [ofText_of_parse hparse, hcheck] at h
      cases h

end Tree

/-- **Validating a draft fails with faults of the draft**, at whatever level. -/
theorem Draft.validateWithin_failsAs (limit room : ℕ) (d : Draft) :
    FailsAs .validation (validateWithin limit room d) := by
  induction room generalizing d with
  | zero => exact failsAs_error rfl
  | succ room ih =>
    rw [validateWithin]
    split
    · exact failsAs_error rfl
    · exact failsAs_ok _
    · have hside (side : Side) (d : Draft) :
          FailsAs .validation ((validateWithin limit room d).mapError (·.within side)) :=
        (ih d).mapError (Error.kind_within side)
      refine (hside .left _).bind fun left => ?_
      exact (hside .right _).bind fun right => failsAs_ok _

/-- A text that is no condition is a fault of a condition. -/
theorem Condition.ofText_failsAs (text : String) : FailsAs .validation (ofText text) := by
  intro e h
  obtain ⟨fault, -, rfl⟩ := Except.mapError_eq_error_iff.mp h
  rfl

/-! ## Evaluation -/

/-- A value and a literal that cannot be compared are an error of evaluation. -/
theorem Datum.order_failsAs (name literal : String) (d : Datum) :
    FailsAs .evaluation (d.order name literal) := by
  unfold order
  split
  · split
    · exact failsAs_ok _
    · exact failsAs_error rfl
  · exact failsAs_ok _

/-- Evaluating a condition fails by its attribute or by its literal. -/
theorem Condition.evaluate_failsAs (record : Record) (c : Condition) :
    FailsAs .evaluation (c.evaluate record) := by
  unfold evaluate
  split
  · exact failsAs_error rfl
  · exact (Datum.order_failsAs _ _ _).map _

/-- **Evaluating a tree fails with errors of evaluation.** -/
theorem Tree.evaluate_failsAs (record : Record) (t : Tree) :
    FailsAs .evaluation (t.evaluate record) := by
  induction t with
  | leaf c => exact c.evaluate_failsAs record
  | node k l r ihl ihr =>
    exact ihl.bind fun left => ihr.bind fun right => failsAs_ok _

/-! ## All operations -/

/-- **Every operation fails with errors of its own kind**, within the limit. -/
structure FailsInKind (limit : ℕ) : Prop where
  /-- Parsing a text fails with errors of the text. -/
  parse : ∀ text, FailsAs .parse (Tree.parse limit text)
  /-- So does reading it, conditions checked. -/
  ofText : ∀ text, FailsAs .parse (Tree.ofText limit text)
  /-- Where the tree that was parsed fails its check, it is not too deep: a condition is at
  fault, and this is reported as an invalid condition. -/
  condition : ∀ text t e, Tree.parse limit text = .ok t → t.check limit = .error e →
    ∃ place fault, e = .invalidNode place fault
      ∧ Tree.ofText limit text = .error (.invalidCondition fault)
  /-- Validating a draft fails with faults of the draft. -/
  validate : ∀ d : Draft, FailsAs .validation (d.validate limit)
  /-- Checking a tree fails with faults of the tree. -/
  check : ∀ t : Tree, FailsAs .validation (t.check limit)
  /-- Reading a text that should be a condition fails with faults of the condition. -/
  ofConditionText : ∀ text, FailsAs .validation (Condition.ofText text)
  /-- Combining trees fails by the arguments if they are fewer than two, and otherwise
  because their chain is too deep. -/
  combine : ∀ (ts : List Tree) (e : Error), Tree.combine limit ts = .error e
    ↔ ts.length < 2 ∧ e = .invalidArgument (.tooFewRules ts.length)
      ∨ ∃ first second others, ts = first :: second :: others
        ∧ limit < (Tree.conjunction first (second :: others)).depth ∧ e = .treeTooDeep limit
  /-- Evaluating a tree fails with errors of evaluation. -/
  evaluate : ∀ (record : Record) (t : Tree), FailsAs .evaluation (t.evaluate record)

/-- **Every operation fails with errors of its own kind**, if the limit leaves room for a
condition. -/
theorem failsInKind {limit : ℕ} (hlimit : 1 ≤ limit) : FailsInKind limit where
  parse := Tree.parse_failsAs limit
  ofText := Tree.ofText_failsAs hlimit
  condition _ _ _ := Tree.ofText_of_check_eq_error hlimit
  validate d := Draft.validateWithin_failsAs limit limit d
  check := Tree.check_failsAs limit
  ofConditionText := Condition.ofText_failsAs
  combine _ _ := Tree.combine_eq_error_iff
  evaluate := Tree.evaluate_failsAs

/-- Within the lowest limit a condition whose name is none is parsed, fails the check, and is
reported as a fault of the text. -/
theorem failsInKind_one :
    let c : Condition := ⟨"user.age", .greater, "30"⟩
    1 ≤ 1 ∧ Tree.parse 1 "user.age > 30" = .ok (.leaf c)
      ∧ (Tree.leaf c).check 1 = .error (.invalidNode .root (.malformedCondition c.text))
      ∧ Tree.ofText 1 "user.age > 30" = .error (.invalidCondition (.malformedCondition c.text)) := by
  intro c
  have hparse : Tree.parse 1 "user.age > 30" = .ok (.leaf c) := by decide +kernel
  have hcheck : (Tree.leaf c).check 1
      = .error (.invalidNode .root (.malformedCondition c.text)) := by decide +kernel
  obtain ⟨place, fault, hfault, htext⟩ := (failsInKind le_rfl).condition _ _ _ hparse hcheck
  obtain ⟨-, rfl⟩ := Error.invalidNode.inj hfault
  exact ⟨le_rfl, hparse, hcheck, htext⟩

-- Without room for a condition a tree that was parsed is too deep, and this is no error of
-- the text.
example : Tree.ofText 0 "a > 1" = .error (.treeTooDeep 0) := by decide +kernel

end RecordRules
