import RecordRules.Proofs.Draft.Json
import RecordRules.Proofs.Grammar.Parsing
import RecordRules.Proofs.Rule.Making
import RecordRules.Proofs.Tree.Combining
import RecordRules.Script.Call

/-!
# Trees that are handed out

A tree is handed out when a text is read, when a draft is validated, when trees are
combined, when a rule is made or updated, and when a script hands over a value that is
neither a rule nor the text of one (`Tree.Produced`). How deep it may be is watched in a
different way each time: the parser keeps the depth of the tree that it puts together,
validating counts the levels on the way down, combining tells the depth of the chain from
those of its members, and a check visits all nodes. All of them watch the same measure,
and no tree that is handed out exceeds the limit (`Tree.depth_le_of_produced`).

The way in that is not watched is JSON text among the children of a dictionary. The
levels of a dictionary are counted while they are read, but those of a draft that is given
as text are not, and may take it beyond the limit. Such a draft is caught where it is
validated.
-/

namespace RecordRules

/-- **The value describes a draft**: it is neither a rule nor the text of one. -/
def Script.Value.isDraft : Script.Value → Bool
  | .rule _ => false
  | .text words => isDraftText words
  | _ => true

namespace Tree

/-- **The tree is handed out** under the settings. -/
inductive Produced (settings : Settings) : Tree → Prop where
  /-- It was parsed from a text. -/
  | parse {text : String} {t : Tree} :
      Tree.parse settings.maxDepth text = .ok t → Produced settings t
  /-- It was read from a text, its conditions checked. -/
  | ofText {text : String} {t : Tree} :
      Tree.ofText settings.maxDepth text = .ok t → Produced settings t
  /-- It is described by a draft. -/
  | validate {d : Draft} {t : Tree} :
      d.validate settings.maxDepth = .ok t → Produced settings t
  /-- It combines others. -/
  | combine {ts : List Tree} {t : Tree} :
      Tree.combine settings.maxDepth ts = .ok t → Produced settings t
  /-- It is that of a rule that was made or updated. -/
  | rule {rule : Rule} : Rule.Made settings rule → Produced settings rule.root
  /-- It is described by a value of a script, which is checked to be a tree. -/
  | value {v : Script.Value} {t : Tree} :
      Script.treeOfDraft settings.maxDepth v = .ok t → Produced settings t
  /-- It is described by a value of a script, which is handed over as a tree. -/
  | argument {s : Session} {v : Script.Value} {t : Tree} :
      s.settings = settings → v.isDraft = true → (Script.treeOf s v).1 = .ok t →
      Produced settings t

variable {limit : ℕ} {settings : Settings} {t : Tree}

/-! ## One way at a time -/

/-- What was parsed is within the limit, if that leaves room for a condition. -/
theorem depth_le_of_parse (hlimit : 1 ≤ limit) {text : String}
    (h : Tree.parse limit text = .ok t) : t.depth ≤ limit := by
  obtain ⟨e, -, -, -, hheight⟩ := ofTokens_eq_ok_iff.mp h
  rwa [depth_eq_height, ← max_eq_right hlimit]

/-- What passes a check is within the limit. -/
theorem depth_le_of_check (h : t.check limit = .ok ()) : t.depth ≤ limit :=
  (check_eq_ok_iff.mp h).1

/-- The tree of a value is that of a draft. -/
theorem exists_draft_of_treeOfDraft {v : Script.Value}
    (h : Script.treeOfDraft limit v = .ok t) :
    ∃ d : Draft, d.validate limit = .ok t := by
  obtain ⟨d, -, h⟩ := Except.bind_eq_ok_iff.mp h
  exact ⟨d, h⟩

/-- A value that describes a draft is read as one wherever a tree is wanted. -/
theorem treeOf_eq_of_isDraft (s : Session) {v : Script.Value} (hv : v.isDraft = true) :
    Script.treeOf s v = (Failure.lift (Script.treeOfDraft s.settings.maxDepth v), s) := by
  unfold Script.treeOf
  split
  · cases hv
  · next text => exact if_pos hv
  · rfl

/-! ## All ways -/

/-- **No tree that is handed out exceeds the limit.** -/
theorem depth_le_of_produced (hlimit : 1 ≤ settings.maxDepth) (h : Produced settings t) :
    t.depth ≤ settings.maxDepth := by
  cases h with
  | parse h => exact depth_le_of_parse hlimit h
  | ofText h => exact depth_le_of_ofText h
  | validate h => exact depth_le_of_check (Draft.check_of_validate h)
  | combine h =>
    obtain ⟨_, _, _, -, -, hle⟩ := combine_eq_ok_iff.mp h
    exact hle
  | rule h => exact (Rule.made_iff_valid.mp h).depth_le
  | value h =>
    obtain ⟨d, h⟩ := exists_draft_of_treeOfDraft h
    exact depth_le_of_check (Draft.check_of_validate h)
  | argument hs hv h =>
    rw [treeOf_eq_of_isDraft _ hv, hs] at h
    obtain ⟨d, h⟩ := exists_draft_of_treeOfDraft (Except.mapError_eq_ok_iff.mp h)
    exact depth_le_of_check (Draft.check_of_validate h)

/-- A dictionary whose children are JSON text, exactly as deep as the limit. -/
theorem depth_le_of_nested_json :
    let v : Script.Value := .dict
      [(some "type", .text "operator"), (some "value", .text "AND"),
        (some "left", .text (Draft.condition "a>1").toJson),
        (some "right", .text (Draft.condition "b = 'x y'").toJson)]
    let t : Tree := .node .and (.leaf ⟨"a", .greater, "1"⟩) (.leaf ⟨"b", .equal, "'x y'"⟩)
    let settings : Settings := { maxDepth := 2 }
    1 ≤ settings.maxDepth ∧ (Script.treeOf { settings } v).1 = .ok t
      ∧ t.depth ≤ settings.maxDepth ∧ t.depth = 2 := by
  intro v t settings
  have hchild (text : String) :
      Script.draftWithin 2 1 (.text (Draft.condition text).toJson) = .ok (.condition text) :=
    (Draft.ofJson_toJson _).trans (if_pos (show 1 ≤ 127 by decide))
  let d : Draft := .operator "AND" (.condition "a>1") (.condition "b = 'x y'")
  have hdraft : Script.draftOf 2 v = .ok d := by
    show (do
      let left ← (Script.draftWithin 2 1 (.text (Draft.condition "a>1").toJson)).map some
      let right ← (Script.draftWithin 2 1 (.text (Draft.condition "b = 'x y'").toJson)).map some
      return (⟨some "operator", some "AND", left, right⟩ : Draft)) = _
    rw [hchild, hchild]
    rfl
  have htree : Script.treeOfDraft 2 v = .ok t := by
    rw [Script.treeOfDraft, hdraft]
    show d.validate 2 = .ok t
    decide +kernel +zetaReduce
  have hargument : (Script.treeOf { settings } v).1 = .ok t := congrArg Failure.lift htree
  have hlimit : 1 ≤ settings.maxDepth := by decide
  exact ⟨hlimit, hargument,
    depth_le_of_produced hlimit (.argument rfl rfl hargument), by decide +kernel⟩

end Tree

end RecordRules
