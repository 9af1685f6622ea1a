import RecordRules.Proofs.Rule.Document
import RecordRules.Proofs.Rule.Making

/-!
# Rules that are read back from JSON text

Writing a rule as JSON text always succeeds, whatever its name and its literals are.
Reading it back gives the rule, provided that its tree is not too deep
(`Rule.ofJson_toJson_of_made`). What is too deep here has nothing to do with the limit of
the settings: in the text each level of the tree is an object in another one, the
outermost being that of the rule, and the text is not decoded beyond a fixed number of
them. Settings that allow deeper trees therefore allow rules that are written and not
read back (`Rule.written_but_not_read`).
-/

namespace RecordRules.Rule

open Json (Value Quoted)

variable {limit : ℕ} {rule : Rule}

/-- The object that a rule is written as. -/
def toValue (rule : Rule) : Value :=
  .ofMembers
    [("name", .string (.ofText rule.name)), ("rootNode", (Draft.ofTree rule.root).toValue)]

/-- It is a document of the name and of the draft of the tree. -/
theorem toValue_eq_document (rule : Rule) :
    rule.toValue = document rule.name (Draft.ofTree rule.root) := rfl

/-- A rule can be written. -/
theorem spellable_toValue (rule : Rule) : rule.toValue.Spellable :=
  spellable_document rule.name (Draft.ofTree rule.root)

/-- **The name and the draft are read back** if the levels of the tree may be nested in
the object of the rule. -/
theorem documentOfValue?_toValue (rule : Rule) :
    documentOfValue? rule.toValue
      = if rule.root.depth < Value.maxNesting then some (rule.name, Draft.ofTree rule.root)
        else none := by
  rw [toValue_eq_document, documentOfValue?_of_documentedBy (documentedBy_document _ _),
    Draft.height_ofTree, Tree.depth_eq_height]

/-- **A valid rule is read back** from its JSON text exactly if its tree may be nested in
the object of the rule. -/
theorem Valid.ofJson_toJson (h : rule.Valid limit) :
    ofJson limit rule.toJson
      = if rule.root.depth < Value.maxNesting then .ok rule
        else .error (.undecodable .malformed) := by
  have hroot : (Draft.ofTree rule.root).validate limit = .ok rule.root :=
    Draft.validate_ofTree (valid_iff.mp h).2
  have hrule : ofExpression limit rule.name (.draft (Draft.ofTree rule.root)) = .ok rule :=
    ofExpression_eq_ok_iff.mpr ⟨rfl, hroot, h⟩
  have htext : Value.ofText? rule.toJson = some rule.toValue :=
    Value.ofText?_render rule.spellable_toValue
  rw [ofJson, htext, Option.bind_some, documentOfValue?_toValue]
  split
  · exact hrule
  · rfl

/-- **A rule that was made is read back** from its JSON text exactly if its tree may be
nested in the object of the rule; if it is deeper the text cannot be decoded. -/
theorem ofJson_toJson_of_made {settings : Settings} (h : Made settings rule) :
    ofJson settings.maxDepth rule.toJson
      = if rule.root.depth < Value.maxNesting then .ok rule
        else .error (.undecodable .malformed) :=
  (made_iff_valid.mp h).ofJson_toJson

/-- A rule made of a draft, with a name and a literal that are written with escapes. -/
theorem ofJson_toJson_of_escapes :
    let rule : Rule := ⟨"a \"b\"\t🦀", .leaf ⟨"team", .equal, "'Sales\n \\Ops'"⟩⟩
    Made {} rule ∧ ofJson ({} : Settings).maxDepth rule.toJson = .ok rule := by
  have hdraft : ofExpression 256 "a \"b\"\t🦀" (.draft (.condition " team='Sales\n \\Ops'"))
      = .ok ⟨"a \"b\"\t🦀", .leaf ⟨"team", .equal, "'Sales\n \\Ops'"⟩⟩ := by
    decide +kernel
  have hmade : Made {} ⟨"a \"b\"\t🦀", .leaf ⟨"team", .equal, "'Sales\n \\Ops'"⟩⟩ :=
    .ofExpression hdraft
  exact ⟨hmade, (ofJson_toJson_of_made hmade).trans (if_pos (by decide +kernel))⟩

/-! ## Trees that are too deep -/

/-- The condition joined with itself this many times, from the left. -/
def repeated (c : Condition) : ℕ → Tree
  | 0 => .leaf c
  | n + 1 => .node .and (repeated c n) (.leaf c)

/-- Each time adds a level. -/
theorem depth_repeated (c : Condition) (n : ℕ) : (repeated c n).depth = n + 1 := by
  rw [Tree.depth_eq_height]
  induction n with
  | zero => rfl
  | succ n ih =>
    rw [repeated, Tree.height_node, ih, Tree.height_leaf]
    omega

/-- No other condition comes in. -/
theorem eq_of_mem_repeated {c d : Condition} {n : ℕ} (h : d ∈ (repeated c n).conditions) :
    d = c := by
  induction n with
  | zero => exact List.mem_singleton.mp h
  | succ n ih =>
    rw [repeated, Tree.conditions_node, List.mem_append] at h
    exact h.elim ih List.mem_singleton.mp

/-- **Settings that allow deeper trees allow rules that are not read back.** -/
theorem exists_written_but_not_read {settings : Settings} {name : String} {c : Condition}
    (hname : checkName name = .ok ()) (hc : c.isSpelled = true) {n : ℕ}
    (hn : n < settings.maxDepth) (hdeep : Value.maxNesting ≤ n + 1) :
    Made settings ⟨name, repeated c n⟩
      ∧ ofJson settings.maxDepth (toJson ⟨name, repeated c n⟩)
        = .error (.undecodable .malformed) := by
  have hdepth : (repeated c n).depth ≤ settings.maxDepth := (depth_repeated c n).trans_le hn
  have hspelled : ∀ d ∈ (repeated c n).conditions, d.isSpelled = true :=
    fun d hd => eq_of_mem_repeated hd ▸ hc
  have hvalid : Valid settings.maxDepth ⟨name, repeated c n⟩ :=
    valid_iff.mpr ⟨hname, Tree.check_eq_ok_iff.mpr ⟨hdepth, hspelled⟩⟩
  refine ⟨made_iff_valid.mpr hvalid, ?_⟩
  rw [hvalid.ofJson_toJson]
  refine if_neg (Nat.not_lt.mpr ?_)
  rwa [depth_repeated]

/-- **The default settings allow a rule that is not read back.** -/
theorem written_but_not_read :
    let rule : Rule := ⟨"deep", repeated ⟨"x", .greater, "1"⟩ 126⟩
    Made {} rule
      ∧ rule.root.depth = 127
      ∧ ofJson ({} : Settings).maxDepth rule.toJson = .error (.undecodable .malformed) := by
  have hname : checkName "deep" = .ok () := by decide
  have hc : (⟨"x", .greater, "1"⟩ : Condition).isSpelled = true := by decide +kernel
  obtain ⟨hmade, hread⟩ :=
    exists_written_but_not_read hname hc (show 126 < ({} : Settings).maxDepth by decide) le_rfl
  exact ⟨hmade, depth_repeated _ 126, hread⟩

end RecordRules.Rule
