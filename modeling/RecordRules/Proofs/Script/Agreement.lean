import RecordRules.Proofs.Session.Rules
import RecordRules.Proofs.Tree.Beginning
import RecordRules.Script.Call

/-!
# The ways to evaluate a rule

A script has five ways to evaluate one and the same rule: by its text, by the dictionary
that parsing the text gives, by the dictionary of the rule's tree, by the rule as an
argument, and by the rule itself. They go through different code: the first reads by the
cache, the next two read a dictionary as a draft and validate it, and the last two take the
tree as it is. As long as the settings stay as they are, all of them come to the same
truth value or to the same failure (`Script.Agree`).

Making the rule settles everything beforehand. Where that succeeds, the text has a tree
that passes its check, and so do the dictionaries made of it. Where it fails, evaluating the
text fails in the same way, unless the text begins with a brace and is taken for JSON text;
no rule can be made of such a text (`Script.isDraftText_of_ofText`).
-/

namespace RecordRules

namespace Script

open Failure (lift)
open Session (Faithful Reads begun)

/-! ## The dictionary of a tree -/

/-- A field that holds the dictionary of a tree is read. -/
theorem childField_eq_of_ofTree {α : Type} {v : Value} {name : String} {t : Tree}
    (h : v.attribute? name = some (.ofTree t)) (read : Value → Except Error α) :
    v.childField name read = (read (.ofTree t)).map some := by
  rw [Value.childField, h]
  cases t <;> rfl

/-- The dictionary of a tree is read as the draft of the tree, where there is room for its
levels. -/
theorem draftWithin_ofTree {limit room : ℕ} {t : Tree} (hroom : t.height ≤ room) :
    draftWithin limit room (.ofTree t) = .ok (.ofTree t) := by
  induction t generalizing room with
  | leaf c =>
    rw [Tree.height_leaf] at hroom
    obtain ⟨room, rfl⟩ := Nat.exists_eq_add_of_le' hroom
    rfl
  | node k l r ihl ihr =>
    rw [Tree.height_node] at hroom
    obtain ⟨room, rfl⟩ := Nat.exists_eq_add_of_le' ((Nat.le_add_right 1 _).trans hroom)
    show (do
      let left ← (Value.ofTree (.node k l r)).childField "left" fun w => draftWithin limit room w
      let right ← (Value.ofTree (.node k l r)).childField "right" fun w => draftWithin limit room w
      return (⟨some Draft.operatorType, some k.symbol, left, right⟩ : Draft)) = _
    rw [childField_eq_of_ofTree (t := l) rfl, childField_eq_of_ofTree (t := r) rfl,
      ihl (by omega), ihr (by omega)]
    rfl

/-- **The dictionary of a tree describes the tree**, if the tree passes its check. -/
theorem treeOfDraft_ofTree {limit : ℕ} {t : Tree} (h : t.check limit = .ok ()) :
    treeOfDraft limit (.ofTree t) = .ok t := by
  have hdepth := (Tree.check_eq_ok_iff.mp h).1
  rw [Tree.depth_eq_height] at hdepth
  rw [treeOfDraft, draftOf, draftWithin_ofTree hdepth]
  exact Draft.validate_ofTree h

/-- The dictionary of a tree names no slots. -/
theorem slots_ofTree (t : Tree) : (Value.ofTree t).slots = [] := by
  induction t with
  | leaf c => rfl
  | node k l r ihl ihr =>
    show (Value.ofTree l).slots ++ ((Value.ofTree r).slots ++ []) = []
    rw [ihl, ihr]
    rfl

/-! ## Texts that begin with a brace -/

/-- **The text of a rule does not begin with a brace.** -/
theorem isDraftText_of_ofText {limit : ℕ} {text : String} {t : Tree}
    (h : Tree.ofText limit text = .ok t) : isDraftText text = false := by
  refine beq_eq_false_iff_ne.mpr fun hbrace => ?_
  exact Tree.ofText_ne_ok_of_head? hbrace (by decide) (by decide +kernel) limit t h

/-! ## What evaluating comes to -/

/-- Whether all the slots hold rules. -/
def holdsAll (s : Session) (slots : List String) : Bool :=
  slots.all fun slot => (s.rules.get? slot).isSome

/-- **Whether the data satisfy the tree**, if there is one and all slots that the data name
hold rules. -/
def judge (s : Session) (tree : Except Failure Tree) (data : Entries) : Except Failure Answer :=
  if holdsAll s (Value.entrySlots data) then tree >>= fun t => evaluate s t data
  else .error .noSuchRule

variable {s s' : Session} {slot text : String} {rule : Rule}

/-- Only the settings of a session bear on evaluating a tree. -/
theorem evaluate_congr (hsettings : s'.settings = s.settings) (t : Tree) (data : Entries) :
    evaluate s' t data = evaluate s t data := by
  unfold evaluate
  rw [hsettings]

/-- Only the settings and the rules of a session bear on the judgement. -/
theorem judge_congr (hsettings : s'.settings = s.settings) (hrules : s'.rules = s.rules)
    (tree : Except Failure Tree) (data : Entries) : judge s' tree data = judge s tree data := by
  unfold judge holdsAll
  simp only [evaluate_congr hsettings, hrules]

/-- **Evaluating a value** is judging the tree that it describes. -/
theorem fst_run_evaluate {v : Value} (hv : holdsAll s v.slots = true) (data : Entries) :
    (Call.run s (.evaluate v data)).1 = judge s (treeOf s v).1 data := by
  have hsettings := (Session.reads_treeOf s v).1
  have hslots : holdsAll s (Call.evaluate v data).slots = holdsAll s (Value.entrySlots data) := by
    show holdsAll s (v.slots ++ Value.entrySlots data) = _
    rw [holdsAll, List.all_append, ← holdsAll, hv, Bool.true_and, ← holdsAll]
  unfold Call.run judge
  rw [← holdsAll, hslots]
  split
  · unfold Call.perform
    dsimp only
    split
    · next heq =>
      rw [heq]
      rfl
    · next t s' heq =>
      rw [heq] at hsettings ⊢
      exact evaluate_congr hsettings t data
  · rfl

/-- **Evaluating a rule** is judging its tree. -/
theorem fst_run_evaluateRule (hrule : s.rules.get? slot = some rule) (data : Entries) :
    (Call.run s (.evaluateRule slot data)).1 = judge s (.ok rule.root) data := by
  have hslots : holdsAll s (Call.evaluateRule slot data).slots
      = holdsAll s (Value.entrySlots data) := by
    show holdsAll s (slot :: Value.entrySlots data) = _
    rw [holdsAll, List.all_cons, hrule, Option.isSome_some, Bool.true_and, ← holdsAll]
  unfold Call.run judge
  rw [← holdsAll, hslots]
  split
  · unfold Call.perform Session.getRule
    dsimp only
    rw [hrule]
    show (recordOf data >>= fun record => _) = (recordOf data >>= fun record => _)
    refine bind_congr fun record => ?_
    unfold Rule.evaluate
    cases record.validate s.settings.requireNonEmptyRecord <;> rfl
  · rfl

/-- Parsing names no slots. -/
theorem run_parse (s : Session) (text : String) :
    Call.run s (.parse text) = s.readThen text fun t => .ok (.value (.ofTree t)) := rfl

/-- The tree of a text that does not begin with a brace is the one within the limit. -/
theorem fst_treeOf_text (h : s.Faithful) (htext : isDraftText text = false) :
    (treeOf s (.text text)).1 = lift (Tree.ofText s.settings.maxDepth text) := by
  unfold treeOf
  dsimp only
  rw [htext, if_neg Bool.false_ne_true, h.fst_readThen]
  exact bind_pure _

/-! ## All ways -/

/-- **All ways to evaluate the rule come to the same**: a truth value or a failure. -/
structure Agree (s : Session) (slot : String) (rule : Rule) (text : String) (data : Entries) :
    Prop where
  /-- Evaluating the text. -/
  evaluate_text : (Call.run s (.evaluate (.text text) data)).1
    = (Call.run s (.evaluateRule slot data)).1
  /-- Parsing the text, and evaluating the dictionary that this gives. -/
  evaluate_parsed : ∃ v, (Call.run s (.parse text)).1 = .ok (.value v)
    ∧ (Call.run (Call.run s (.parse text)).2 (.evaluate v data)).1
      = (Call.run s (.evaluateRule slot data)).1
  /-- Evaluating the dictionary of the tree. -/
  evaluate_tree : (Call.run s (.evaluate (.ofTree rule.root) data)).1
    = (Call.run s (.evaluateRule slot data)).1
  /-- Evaluating the rule as an argument. -/
  evaluate_rule : (Call.run s (.evaluate (.rule slot) data)).1
    = (Call.run s (.evaluateRule slot data)).1

/-- Evaluating the dictionary of a tree that passes its check is judging the tree. -/
theorem fst_run_evaluate_ofTree {t : Tree} (h : t.check s.settings.maxDepth = .ok ())
    (data : Entries) :
    (Call.run s (.evaluate (.ofTree t) data)).1 = judge s (.ok t) data := by
  have hslots : holdsAll s (Value.ofTree t).slots = true := by
    rw [slots_ofTree]
    rfl
  have htree : (treeOf s (.ofTree t)).1 = lift (treeOfDraft s.settings.maxDepth (.ofTree t)) := by
    cases t <;> rfl
  rw [fst_run_evaluate hslots, htree, treeOfDraft_ofTree h]
  rfl

/-- **A rule that was made of a text** is evaluated alike in all ways, where texts are read as
if there were no cache. -/
theorem agree_of_ofText (h : s.Faithful) (hrule : s.rules.get? slot = some rule)
    (htext : Tree.ofText s.settings.maxDepth text = .ok rule.root) (data : Entries) :
    Agree s slot rule text data := by
  have hcheck := (Tree.ofText_eq_ok_iff.mp htext).2
  have hevaluate := fst_run_evaluateRule hrule data
  refine ⟨?_, ⟨.ofTree rule.root, ?_, ?_⟩, ?_, ?_⟩
  · rw [hevaluate, fst_run_evaluate rfl, fst_treeOf_text h (isDraftText_of_ofText htext),
      htext]
    rfl
  · rw [run_parse, h.fst_readThen, htext]
    rfl
  · have hsettings := (Session.reads_run s (c := .parse text) id).1
    have hrules : (Call.run s (.parse text)).2.rules = s.rules := by
      rw [run_parse, Session.rules_readThen]
    rw [fst_run_evaluate_ofTree (hsettings.symm ▸ hcheck), hevaluate]
    exact judge_congr hsettings hrules _ _
  · rw [hevaluate, fst_run_evaluate_ofTree hcheck]
  · have hslots : holdsAll s (Value.rule slot).slots = true := by
      rw [Value.slots, holdsAll, List.all_cons, hrule]
      rfl
    rw [hevaluate, fst_run_evaluate hslots, treeOf, Session.getRule, hrule]
    rfl

/-- **Making a rule of a text settles how the text and the rule are evaluated.** -/
structure Settles (s : Session) (slot name text : String) : Prop where
  /-- If a rule is made, it is put into its slot, and its text does not begin with a brace.
  As long as it stays there and no other settings are installed, all ways to evaluate it
  agree. -/
  agree : ∀ {answer : Answer}, (Call.run s (.create slot name (.text text))).1 = .ok answer →
    let created := (Call.run s (.create slot name (.text text))).2
    ∃ rule, answer = .rule rule ∧ created.rules.get? slot = some rule
      ∧ isDraftText text = false
      ∧ ∀ after : List Call, (∀ c ∈ after, ¬ c.Configures) →
        (created.moves (after.map .call)).rules.get? slot = some rule →
        ∀ data, Agree (created.moves (after.map .call)) slot rule text data
  /-- If none is made and the text does not begin with a brace, evaluating it fails in the
  same way. -/
  fail : ∀ {f : Failure}, (Call.run s (.create slot name (.text text))).1 = .error f →
    isDraftText text = false → ∀ data : Entries, holdsAll s (Value.entrySlots data) = true →
      (Call.run s (.evaluate (.text text) data)).1 = .error f

/-- A rule that is to be made of a text is put into its slot. -/
theorem run_create_text (s : Session) (slot : String) {name : String}
    (hname : ∃ c ∈ name.toList, Text.isBlank c = false) (text : String) :
    Call.run s (.create slot name (.text text))
      = s.keepRule slot .rule
        (lift ((Tree.ofText s.settings.maxDepth text).map (Rule.mk name))) := by
  have hrule : Rule.ofText s.settings.maxDepth name text
      = (Tree.ofText s.settings.maxDepth text).map (Rule.mk name) :=
    Rule.ofExpression_eq_map (Rule.checkName_eq_ok_iff.mpr hname) (.text text)
  exact congrArg (fun outcome => s.keepRule slot Answer.rule (lift outcome)) hrule

/-- **All ways to evaluate a rule agree**, after whatever calls that do not replace the
settings. -/
theorem settles_of_calls (settings : Settings) (rules : Table Rule) {before : List Call}
    (hbefore : ∀ c ∈ before, ¬ c.Configures) (slot : String) {name : String}
    (hname : ∃ c ∈ name.toList, Text.isBlank c = false) (text : String) :
    Settles ((begun settings rules).moves (before.map .call)) slot name text := by
  have hfaithful := (Session.faithful_begun settings rules).reads
    (Session.reads_calls _ hbefore)
  generalize (begun settings rules).moves (before.map .call) = s at hfaithful
  constructor
  · intro answer h created
    have hcreate : s.Reads created := Session.reads_run s id
    have hcreated := congrArg Prod.snd (run_create_text s slot hname text)
    rw [run_create_text s slot hname] at h
    cases htext : Tree.ofText s.settings.maxDepth text with
    | error e =>
      rw [htext] at h
      cases h
    | ok t =>
      rw [htext] at h hcreated
      have hkept : created.rules = s.rules.insert slot ⟨name, t⟩ :=
        congrArg Session.rules hcreated
      refine ⟨⟨name, t⟩, (Except.ok.inj h).symm, ?_, isDraftText_of_ofText htext, ?_⟩
      · rw [hkept, Table.get?_insert_self]
      intro after hafter hrule data
      have hreads := hcreate.trans (Session.reads_calls created hafter)
      exact agree_of_ofText (hfaithful.reads hreads) hrule (hreads.1.symm ▸ htext) data
  · intro f h hbrace data hdata
    rw [run_create_text s slot hname] at h
    rw [fst_run_evaluate rfl, fst_treeOf_text hfaithful hbrace, judge, if_pos hdata]
    cases htext : Tree.ofText s.settings.maxDepth text with
    | error e =>
      rw [htext] at h
      exact h
    | ok t =>
      rw [htext] at h
      cases h

/-- A rule is made of a text with blanks in front while another text is remembered. -/
theorem settles_after_parse :
    let before : List Call := [.parse "a > 1"]
    let s := (begun {} Table.empty).moves (before.map .call)
    let create : Call := .create "r" "both" (.text " a > 1 AND b = 'x'")
    let root : Tree := .node .and (.leaf ⟨"a", .greater, "1"⟩) (.leaf ⟨"b", .equal, "'x'"⟩)
    (∀ c ∈ before, ¬ c.Configures) ∧ (∃ c ∈ "both".toList, Text.isBlank c = false)
      ∧ s.cache.size = 1
      ∧ (create.run s).1.toOption.bind Answer.rule? = some ⟨"both", root⟩
      ∧ Settles s "r" "both" " a > 1 AND b = 'x'" := by
  intro before s create root
  have hbefore : ∀ c ∈ before, ¬ c.Configures :=
    List.forall_mem_singleton.mpr id
  have hname : ∃ c ∈ "both".toList, Text.isBlank c = false :=
    ⟨'b', by decide +kernel, by decide⟩
  exact ⟨hbefore, hname, by decide +kernel, by decide +kernel +zetaReduce,
    settles_of_calls {} Table.empty hbefore "r" hname " a > 1 AND b = 'x'"⟩

end Script

end RecordRules
