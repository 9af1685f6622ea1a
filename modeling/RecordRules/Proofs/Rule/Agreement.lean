import RecordRules.Proofs.Rule.Document
import RecordRules.Proofs.Rule.Making

/-!
# The ways to make a rule agree

Under one name, a rule can be made of a tree, of a text, of a draft, of JSON text of either of
these, and of a document, which is JSON text that gives the name along with the draft. It makes
no difference which of the ways is taken (`Rule.ways_agree`): they end with the same rule, and
where there is none they fail with the same error, a blank name first.

The ways differ in what they check. The tree of a text or a draft is taken as reading gives it,
while a tree that is handed in is checked, at the same limit; so they agree because the check has
nothing to find in what was read (`Rule.ofExpression_eq_ofTree`). And JSON text says of itself
neither that it is a text nor that it is a draft: decoding tries both, and finds a text in every
string and a draft in every object that a draft is written as.

What JSON text cannot give is a draft with more levels than may be nested in it. A document has
an object around its draft, and so allows one level less.
-/

namespace RecordRules

open Json (Value Quoted)

/-! ## Decoding in full -/

/-- An object under texts is decoded in full if its values are. -/
theorem Json.Value.isSound_ofMembers (room : ℕ) (members : List (String × Value)) :
    Value.isSound (room + 1) (.ofMembers members)
      = members.all fun m => Value.isSound room m.2 := by
  rw [Value.ofMembers, Value.isSound, List.all_map]
  congr 1
  funext m
  dsimp only [Function.comp_apply]
  rw [Quoted.text?_ofText, Option.isSome_some, Bool.true_and]

namespace Draft

/-- A text that may be missing is decoded in any room. -/
theorem isSound_valueOfText (room : ℕ) (text : Option String) :
    Value.isSound room (valueOfText text) = true := by
  cases text with
  | none => cases room <;> rfl
  | some text =>
    rw [valueOfText, Value.isSound, Quoted.text?_ofText]
    rfl

/-- **The object that a draft is written as can be decoded in full** exactly if there is room
for the levels of the draft. -/
theorem isSound_toValue_iff (room : ℕ) (d : Draft) :
    Value.isSound room d.toValue = true ↔ d.height ≤ room := by
  induction room generalizing d with
  | zero =>
    rw [toValue_eq, height_eq]
    exact iff_of_false Bool.false_ne_true (by omega)
  | succ room ih =>
    have hgiven {name : String} {v : Value} (hv : Value.isSound room v = true) :
        ∀ m ∈ entry name (some v), Value.isSound room m.2 = true :=
      List.forall_mem_singleton.mpr hv
    have hchild (name : String) (child : Option Draft) :
        (∀ m ∈ entry name (child.map toValue), Value.isSound room m.2 = true)
          ↔ levels child ≤ room := by
      cases child with
      | none => exact iff_of_true (List.forall_mem_nil _) (Nat.zero_le _)
      | some d => exact List.forall_mem_singleton.trans (ih d)
    rw [toValue_eq, Value.isSound_ofMembers, List.all_eq_true, members, List.forall_mem_append,
      List.forall_mem_append, List.forall_mem_append, hchild, hchild,
      and_iff_right (hgiven (isSound_valueOfText room d.type)),
      and_iff_right (hgiven (isSound_valueOfText room d.value)), height_eq]
    omega

end Draft

namespace Rule

variable {limit : ℕ} {name : String}

/-! ## Expressions -/

/-- **The object that a draft is written as is decoded as the draft**, not as a text. -/
theorem Expression.ofJson_toJson (d : Draft) :
    Expression.ofJson d.toJson
      = if d.height ≤ Value.maxNesting then .ok (.draft d)
        else .error (.undecodable .malformed) := by
  have htext : Value.ofText? d.toJson = some d.toValue :=
    Value.ofText?_render d.spellable_toValue
  have hvalue : Expression.ofValue? d.toValue
      = (Draft.ofValue? Value.maxNesting d.toValue).map .draft := by
    rw [Draft.toValue_eq]
    rfl
  rw [Expression.ofJson, Value.soundOfText?, htext, Option.filter_some]
  simp only [Draft.isSound_toValue_iff]
  split
  · next hd =>
    rw [Option.bind_some, hvalue, Draft.ofValue?_toValue, if_pos hd]
    rfl
  · rfl

/-- **Every JSON text of a text is decoded as the text.** -/
theorem Expression.ofJson_of_isText {v : Value} {text json : String} (hv : Draft.IsText text v)
    (h : v.WrittenAs json) : Expression.ofJson json = .ok (.text text) := by
  obtain ⟨q, rfl, hq⟩ := hv
  have hsound : Value.isSound Value.maxNesting (.string q) = true := by
    rw [Value.isSound, hq]
    rfl
  rw [Expression.ofJson, Value.soundOfText?, Value.ofText?_eq_some_iff.mpr h,
    Option.filter_some, if_pos hsound, Option.bind_some, Expression.ofValue?, hq]
  rfl

/-- **An expression makes the rule that its tree makes**: the check of the tree has nothing to
find, and the name is looked at first both times. -/
theorem ofExpression_eq_ofTree {e : Expression} {t : Tree} (h : e.toTree limit = .ok t) :
    ofExpression limit name e = ofTree limit name t := by
  rw [ofExpression, ofTree, h, Expression.check_of_toTree h]
  rfl

/-! ## All ways -/

/-- **The ways to make a rule agree** under the name and within the limit. -/
structure WaysAgree (limit : ℕ) (name : String) : Prop where
  /-- JSON text of a document makes the rule of its draft, if that has no more levels than may be
  nested in the document; else it cannot be decoded. -/
  ofJson_eq : ∀ (d : Draft) (v : Value) (json : String),
    DocumentedBy name d v → v.WrittenAs json →
      ofJson limit json
        = if d.height < Value.maxNesting then ofExpression limit name (.draft d)
          else .error (.undecodable .malformed)
  /-- So does the compact text of the document that has nothing else in it. -/
  ofJson_document : ∀ d : Draft,
    ofJson limit (document name d).render
      = if d.height < Value.maxNesting then ofExpression limit name (.draft d)
        else .error (.undecodable .malformed)
  /-- The compact text of a draft makes the rule of the draft, if its levels may be nested. -/
  ofExpression_toJson : ∀ d : Draft,
    (Expression.ofJson d.toJson >>= ofExpression limit name)
      = if d.height ≤ Value.maxNesting then ofExpression limit name (.draft d)
        else .error (.undecodable .malformed)
  /-- A draft that describes a tree makes the rule of that tree. -/
  ofExpression_draft : ∀ (d : Draft) (t : Tree), d.validate limit = .ok t →
    ofExpression limit name (.draft d) = ofTree limit name t
  /-- A text that spells a tree makes the rule of that tree. -/
  ofText_eq : ∀ (text : String) (t : Tree), Tree.ofText limit text = .ok t →
    ofText limit name text = ofTree limit name t
  /-- Every JSON text of a text makes the rule of the text. -/
  ofExpression_isText : ∀ (text : String) (v : Value) (json : String),
    Draft.IsText text v → v.WrittenAs json →
      (Expression.ofJson json >>= ofExpression limit name) = ofText limit name text

/-- **It makes no difference in which way a rule is made.** -/
theorem ways_agree (limit : ℕ) (name : String) : WaysAgree limit name := by
  have hdocument (d : Draft) (v : Value) (json : String) (hv : DocumentedBy name d v)
      (hjson : v.WrittenAs json) :
      ofJson limit json
        = if d.height < Value.maxNesting then ofExpression limit name (.draft d)
          else .error (.undecodable .malformed) := by
    rw [ofJson, Value.ofText?_eq_some_iff.mpr hjson, Option.bind_some,
      documentOfValue?_of_documentedBy hv]
    split <;> rfl
  refine
    { ofJson_eq := hdocument
      ofJson_document := fun d => ?_
      ofExpression_toJson := fun d => ?_
      ofExpression_draft := fun d t h => ofExpression_eq_ofTree h
      ofText_eq := fun text t h => ofExpression_eq_ofTree h
      ofExpression_isText := fun text v json hv hjson => ?_ }
  · exact hdocument d _ _ (documentedBy_document name d)
      (Value.writtenAs_render (spellable_document name d))
  · rw [Expression.ofJson_toJson]
    split <;> rfl
  · rw [Expression.ofJson_of_isText hv hjson]
    rfl

end Rule

end RecordRules
