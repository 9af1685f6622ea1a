import RecordRules.Proofs.Kinds
import RecordRules.Proofs.Script.Agreement

/-!
# What validating says about evaluating

A value that a script has validated as a tree is evaluated as that tree, with no more to be
found wrong with it (`Script.evaluatedAs_of_validate`): what can still go wrong lies in the
data. The settings have to be the same, but nothing else of the session does, since a
draft is not read by the cache.

Texts are the exception. Validating takes every text for the JSON text of a draft, while
evaluating first asks whether it begins with a brace and takes any other text for that of a
rule. The two part where a draft is given as the array of its fields: such a text begins with
a bracket, with which the text of no rule begins, so it can be validated and not evaluated
(`Script.validated_but_not_evaluated`).
-/

namespace RecordRules

open Text (dropBlanks isBlank)

/-! ## What JSON text of a draft begins with -/

namespace Json

/-- What may stand between lexemes is a blank. -/
theorem Lexeme.isBlank_of_isSpace {c : Char} (h : isSpace c = true) : isBlank c = true := by
  rw [isSpace, Bool.or_eq_true, Bool.or_eq_true, Bool.or_eq_true] at h
  simp only [beq_iff_eq] at h
  rcases h with ((rfl | rfl) | rfl) | rfl <;> decide

/-- **A layout begins**, after blanks, with the first character of its first lexeme. -/
theorem Layout.head?_dropBlanks {l : Lexeme} {ls : List Lexeme} {cs : List Char} {c : Char}
    (hl : ∀ ps, l.WrittenAs ps → ps.head? = some c) (hc : isBlank c = false)
    (h : Layout (l :: ls) cs) : (dropBlanks cs).head? = some c := by
  generalize hlexemes : l :: ls = lexemes at h
  induction h with
  | done => cases hlexemes
  | space hspace _ ih =>
    rw [Text.dropBlanks_cons, Lexeme.isBlank_of_isSpace hspace, if_pos rfl]
    exact ih hlexemes
  | @lexeme _ _ ps rest hps _ =>
    obtain ⟨rfl, rfl⟩ := List.cons.inj hlexemes
    have hhead : (ps ++ rest).head? = some c := by
      rw [List.head?_append, hl ps hps, Option.some_or]
    rw [Text.dropBlanks_eq_self, hhead]
    rw [hhead]
    exact fun _ hd => Option.some.inj hd ▸ hc

end Json

/-- **JSON text of a draft begins**, after blanks, with a brace or with a bracket. -/
theorem Draft.head?_dropBlanks_of_ofJson {text : String} {d : Draft} (h : ofJson text = .ok d) :
    (dropBlanks text.toList).head? = some '\x7b'
      ∨ (dropBlanks text.toList).head? = some '[' := by
  obtain ⟨v, htext, hv⟩ : ∃ v, Json.Value.ofText? text = some v
      ∧ ofValue? Json.Value.maxNesting v = some d := by
    rw [ofJson] at h
    cases hread : (Json.Value.ofText? text).bind (ofValue? Json.Value.maxNesting) with
    | none =>
      rw [hread] at h
      cases h
    | some d' =>
      rw [hread] at h
      obtain rfl := Except.ok.inj h
      exact Option.bind_eq_some_iff.mp hread
  have hlayout := Json.Value.ofText?_eq_some_iff.mp htext
  cases v with
  | object members =>
    have hspell (ps : List Char) (hps : Json.Lexeme.WrittenAs .openObject ps) :
        ps.head? = some '\x7b' := congrArg List.head? hps
    exact .inl (Json.Layout.head?_dropBlanks hspell (by decide) hlayout)
  | array items =>
    have hspell (ps : List Char) (hps : Json.Lexeme.WrittenAs .openArray ps) :
        ps.head? = some '[' := congrArg List.head? hps
    exact .inr (Json.Layout.head?_dropBlanks hspell (by decide) hlayout)
  | _ => cases hv

/-! ## What is left to go wrong -/

/-- A record that fails its check is the fault of the arguments. -/
theorem Record.validate_failsAs (requireNonEmpty : Bool) (record : Record) :
    Error.FailsAs .argument (record.validate requireNonEmpty) := by
  unfold Record.validate
  split
  · exact Error.failsAs_error rfl
  · split
    · exact Error.failsAs_error rfl
    · exact Error.failsAs_ok _

namespace Script

open Failure (lift)
open Session (begun)

variable {s : Session} {v : Value} {t : Tree}

/-- What cannot be read as a record is the fault of the arguments. -/
theorem kind_of_recordOf {data : Entries} {e : Error}
    (h : recordOf data = .error (.error e)) : e.kind = .argument := by
  unfold recordOf at h
  generalize (Table.empty : Record) = record at h
  induction data generalizing record with
  | nil => cases h
  | cons entry data ih =>
    obtain ⟨key, value⟩ := entry
    rw [List.foldlM_cons] at h
    rcases Except.bind_eq_error_iff.mp h with hentry | ⟨record', -, hrest⟩
    · cases key with
      | none =>
        cases hentry
        rfl
      | some key =>
        cases value with
        | integer i =>
          dsimp only [datumOf, datumOfInt] at hentry
          split at hentry <;> cases hentry
        | text s => cases hentry
        | float x => cases hentry
        | _ =>
          cases hentry
          rfl
    · exact ih record' hrest

/-- **Once there is a tree**, evaluating fails because of the arguments, or with an error of
evaluation. -/
theorem kind_of_evaluate {data : Entries} {e : Error}
    (h : evaluate s t data = .error (.error e)) :
    e.kind = .argument ∨ e.kind = .evaluation := by
  rcases Except.bind_eq_error_iff.mp h with hrecord | ⟨record, -, h⟩
  · exact .inl (kind_of_recordOf hrecord)
  rcases Except.bind_eq_error_iff.mp h with hcheck | ⟨_, -, h⟩
  · obtain ⟨_, hcheck, ⟨⟩⟩ := Except.mapError_eq_error_iff.mp hcheck
    exact .inl (Record.validate_failsAs _ record _ hcheck)
  rcases Except.bind_eq_error_iff.mp h with htree | ⟨_, -, h⟩
  · obtain ⟨_, htree, ⟨⟩⟩ := Except.mapError_eq_error_iff.mp htree
    exact .inr (t.evaluate_failsAs record _ htree)
  · cases h

/-! ## Values that were validated -/

/-- **The value is evaluated as the tree**, unless it is a text that begins with a
bracket. -/
structure EvaluatedAs (s : Session) (v : Value) (t : Tree) : Prop where
  /-- What comes of a value that describes a draft is the judgement on the tree. -/
  outcome : v.isDraft = true → ∀ data, (Call.run s (.evaluate v data)).1 = judge s (.ok t) data
  /-- So nothing is found wrong with the value, but only with the data, or in evaluating. -/
  kind : v.isDraft = true → ∀ data e, (Call.run s (.evaluate v data)).1 = .error (.error e) →
    e.kind = .argument ∨ e.kind = .evaluation
  /-- A value that does not is a text that begins with a bracket, and fails as that of a
  rule. -/
  text : v.isDraft = false → ∃ words, v = .text words
    ∧ (dropBlanks words.toList).head? = some '['
    ∧ ∀ data, holdsAll s (Value.entrySlots data) = true →
      ∃ e, (Call.run s (.evaluate v data)).1 = .error (.error e) ∧ e.kind = .parse

/-- A value is validated by reading its tree. -/
theorem treeOfDraft_of_validate {answer : Answer}
    (h : (Call.run s (.validate v)).1 = .ok answer) :
    ∃ t, treeOfDraft s.settings.maxDepth v = .ok t := by
  unfold Call.run at h
  split at h
  · obtain ⟨t, ht, -⟩ := Except.map_eq_ok_iff.mp h
    exact ⟨t, Except.mapError_eq_ok_iff.mp ht⟩
  · cases h

/-- A tree has a level, so there is room for one. -/
theorem one_le_of_treeOfDraft {limit : ℕ} (h : treeOfDraft limit v = .ok t) : 1 ≤ limit := by
  cases limit with
  | zero => cases h
  | succ limit => exact Nat.le_add_left 1 limit

/-- A value that is read as a tree, and does not describe a draft, is a text that begins with
a bracket. -/
theorem exists_text_of_treeOfDraft {limit : ℕ} (hv : v.isDraft = false)
    (h : treeOfDraft limit v = .ok t) :
    ∃ words, v = .text words ∧ (dropBlanks words.toList).head? = some '[' := by
  obtain ⟨limit, rfl⟩ := Nat.exists_eq_add_of_le' (one_le_of_treeOfDraft h)
  cases v with
  | rule slot => cases h
  | text words =>
    obtain ⟨d, hd, -⟩ := Except.bind_eq_ok_iff.mp h
    refine ⟨words, rfl, (Draft.head?_dropBlanks_of_ofJson hd).resolve_left ?_⟩
    exact beq_eq_false_iff_ne.mp hv
  | _ => cases hv

/-- Reading a text that is not that of a rule fails, whatever is remembered. -/
theorem exists_error_of_readThen (hsound : s.cache.Sound) (hlimit : 1 ≤ s.settings.maxDepth)
    {words : String} (h : ∀ limit t, Tree.ofText limit words ≠ .ok t) :
    ∃ e, (s.readThen words .ok : Session.Outcome Tree).1 = .error (.error e)
      ∧ e.kind = .parse := by
  have hfound : s.cache.found? s.settings words = none := by
    refine Option.eq_none_iff_forall_ne_some.mpr fun t hfound => ?_
    obtain ⟨limit, hread⟩ := hsound.of_found hfound
    exact h limit t hread
  cases hread : Tree.ofText s.settings.maxDepth words with
  | ok t => exact absurd hread (h _ t)
  | error e =>
    refine ⟨e, ?_, Tree.ofText_failsAs hlimit words e hread⟩
    rw [Session.readThen, Cache.read_of_not_found hfound, hread]
    rfl

/-- **A value that is read as a tree is evaluated as the tree**, in a session whose cache is
sound. -/
theorem evaluatedAs_of_treeOfDraft (hsound : s.cache.Sound)
    (hslots : holdsAll s v.slots = true) (h : treeOfDraft s.settings.maxDepth v = .ok t) :
    EvaluatedAs s v t := by
  have hjudge : v.isDraft = true →
      ∀ data, (Call.run s (.evaluate v data)).1 = judge s (.ok t) data := by
    intro hv data
    rw [fst_run_evaluate hslots, Tree.treeOf_eq_of_isDraft s hv, h]
    rfl
  refine ⟨hjudge, fun hv data e he => ?_, fun hv => ?_⟩
  · rw [hjudge hv, judge] at he
    split at he
    · exact kind_of_evaluate he
    · cases he
  obtain ⟨words, rfl, hhead⟩ := exists_text_of_treeOfDraft hv h
  refine ⟨words, rfl, hhead, fun data hdata => ?_⟩
  obtain ⟨e, he, hkind⟩ := exists_error_of_readThen hsound (one_le_of_treeOfDraft h)
    (Tree.ofText_ne_ok_of_head? hhead (by decide) (by decide +kernel))
  refine ⟨e, ?_, hkind⟩
  have htree : treeOf s (.text words) = s.readThen words .ok :=
    if_neg (Bool.eq_false_iff.mp hv)
  rw [fst_run_evaluate hslots, htree, he, judge, if_pos hdata]
  rfl

/-- **A value that was validated is evaluated as the tree that was validated**, in whatever
session under the same settings a run ends that began with an empty cache. -/
theorem evaluatedAs_of_validate {answer : Answer}
    (h : (Call.run s (.validate v)).1 = .ok answer) (settings : Settings)
    (rules : Table Rule) (ms : List Session.Move)
    (hsettings : ((begun settings rules).moves ms).settings = s.settings)
    (hslots : holdsAll ((begun settings rules).moves ms) v.slots = true) :
    ∃ t, treeOfDraft s.settings.maxDepth v = .ok t
      ∧ EvaluatedAs ((begun settings rules).moves ms) v t := by
  obtain ⟨t, ht⟩ := treeOfDraft_of_validate h
  have hsound := Session.sound_moves (Session.sound_begun settings rules) ms
  exact ⟨t, ht, evaluatedAs_of_treeOfDraft hsound hslots (hsettings ▸ ht)⟩

/-- A dictionary with the older name of the value is validated, other settings come and go,
and it is evaluated as the tree that it describes. -/
theorem evaluatedAs_of_older_name :
    let s := begun {} Table.empty
    let v : Value := .dict [(some "type", .text "condition"), (some "nodeValue", .text "a > 1")]
    let ms : List Session.Move := [.call (.validate v), .install { maxDepth := 1 }, .install {}]
    (Call.run s (.validate v)).1 = .ok (.value .nothing)
      ∧ (s.moves ms).settings = s.settings ∧ holdsAll (s.moves ms) v.slots = true
      ∧ EvaluatedAs (s.moves ms) v (.leaf ⟨"a", .greater, "1"⟩) := by
  intro s v ms
  have htree : treeOfDraft s.settings.maxDepth v = .ok (.leaf ⟨"a", .greater, "1"⟩) := by
    decide +kernel
  have hvalidate : (Call.run s (.validate v)).1 = .ok (.value .nothing) :=
    congrArg (fun outcome => (lift outcome).map fun _ => Answer.value .nothing) htree
  obtain ⟨t, ht, hevaluated⟩ := evaluatedAs_of_validate hvalidate {} Table.empty ms rfl rfl
  obtain rfl := Except.ok.inj (htree.symm.trans ht)
  exact ⟨hvalidate, rfl, rfl, hevaluated⟩

/-- **Not all that is validated can be evaluated**: a condition that is given as the array of
its fields passes, and then is taken for a rule whose first name is all there is. -/
theorem validated_but_not_evaluated :
    let s := begun {} Table.empty
    let words := "[\"condition\",\"a > 1\"]"
    let e : Error := .incompleteCondition (.afterAttribute words)
    (Call.run s (.validate (.text words))).1 = .ok (.value .nothing)
      ∧ (Call.run s (.evaluate (.text words) [(some "a", .integer 2)])).1 = .error (.error e)
      ∧ e.kind = .parse := by
  intro s words e
  have hdraft : Draft.ofJson words = .ok (.condition "a > 1") := by
    let fields : Json.Value := .array [.string (.ofText "condition"), .string (.ofText "a > 1")]
    have hspellable : fields.Spellable :=
      List.forall_mem_cons.mpr ⟨trivial, List.forall_mem_append.mpr
        ⟨List.forall_mem_append.mpr ⟨Json.Value.spellable_ofText _, List.forall_mem_cons.mpr
          ⟨trivial, Json.Value.spellable_ofText _⟩⟩, List.forall_mem_singleton.mpr trivial⟩⟩
    have hrender : fields.render = words := by decide +kernel
    have hfields : Draft.ofValue? Json.Value.maxNesting fields = some (.condition "a > 1") := by
      decide +kernel
    rw [Draft.ofJson, ← hrender, Json.Value.ofText?_render hspellable, Option.bind_some, hfields]
    rfl
  have htree : treeOfDraft s.settings.maxDepth (.text words)
      = .ok (.leaf ⟨"a", .greater, "1"⟩) := by
    show (do (← Draft.ofJson words).validate 256) = _
    rw [hdraft]
    show (Draft.condition "a > 1").validate 256 = _
    decide +kernel
  have hread : Tree.ofText s.settings.maxDepth words = .error e := by
    decide +kernel +zetaReduce
  refine ⟨?_, ?_, rfl⟩
  · exact congrArg (fun outcome => (lift outcome).map fun _ => Answer.value .nothing) htree
  · rw [fst_run_evaluate rfl,
      fst_treeOf_text (Session.faithful_begun {} Table.empty) (by decide +kernel), hread]
    rfl

end Script

end RecordRules
