import RecordRules.Proofs.Rule.Making
import RecordRules.Proofs.Tree.Collapsed

/-!
# Making a rule again of its own text

The text of a rule makes a rule again, under the same name and within the same
limit: the rule with the blanks of its literals collapsed
(`Rule.ofText_expression_of_made`). A rule that was made of a text is that rule itself
(`Rule.ofText_expression_of_ofText`). One that was made of a tree, of a draft or of
JSON text need not be, for between the quotes of a literal a draft may have any
blanks and a text may not (`Rule.reads_as_another`).
-/

namespace RecordRules.Rule

open Text (SingleSpaced)

/-- **The rule with the blanks of its literals collapsed.** -/
def collapsed (rule : Rule) : Rule := { rule with root := rule.root.collapsed }

/-- The rules that collapsing leaves alone are those with single-spaced literals. -/
theorem collapsed_eq_self_iff {rule : Rule} :
    rule.collapsed = rule ↔ ∀ c ∈ rule.root.conditions, SingleSpaced c.literal.toList := by
  obtain ⟨name, root⟩ := rule
  rw [collapsed, mk.injEq, eq_self, true_and, Tree.collapsed_eq_self_iff]

/-- The text of a valid rule makes the rule with its literals collapsed. -/
theorem Valid.ofText_expression {limit : ℕ} {rule : Rule} (h : rule.Valid limit) :
    ofText limit rule.name rule.expression = .ok rule.collapsed := by
  obtain ⟨hname, hroot⟩ := valid_iff.mp h
  have hcollapsed : rule.collapsed.Valid limit :=
    valid_iff.mpr ⟨hname, Tree.check_collapsed hroot⟩
  exact ofExpression_eq_ok_iff.mpr ⟨rfl, Tree.ofText_render hroot, hcollapsed⟩

/-- **The text of a rule that was made always makes a rule**: the same one exactly if
its literals are single-spaced, and else the one with their blanks collapsed. -/
theorem ofText_expression_of_made {settings : Settings} {rule : Rule} (h : Made settings rule) :
    ofText settings.maxDepth rule.name rule.expression = .ok rule.collapsed
      ∧ (ofText settings.maxDepth rule.name rule.expression = .ok rule
        ↔ ∀ c ∈ rule.root.conditions, SingleSpaced c.literal.toList) := by
  have htext := (made_iff_valid.mp h).ofText_expression
  rw [← collapsed_eq_self_iff, htext]
  exact ⟨rfl, fun h => Except.ok.inj h, fun h => congrArg Except.ok h⟩

/-- A rule made of a draft, with a line break between the quotes. -/
theorem ofText_expression_of_line_break :
    let rule : Rule := ⟨"team", .leaf ⟨"team", .equal, "'Sales\n Ops'"⟩⟩
    Made {} rule
      ∧ ofText ({} : Settings).maxDepth rule.name rule.expression = .ok rule.collapsed
      ∧ rule.collapsed.root = .leaf ⟨"team", .equal, "'Sales Ops'"⟩ := by
  have hdraft : ofExpression 256 "team" (.draft (.condition " team='Sales\n Ops'"))
      = .ok ⟨"team", .leaf ⟨"team", .equal, "'Sales\n Ops'"⟩⟩ := by
    decide +kernel
  have hmade : Made {} ⟨"team", .leaf ⟨"team", .equal, "'Sales\n Ops'"⟩⟩ := .ofExpression hdraft
  exact ⟨hmade, (ofText_expression_of_made hmade).1, by decide +kernel⟩

/-- **A rule may be made again of its own text as another**, which decides
otherwise: there are two spaces in the literal of the rule and in the record. -/
theorem reads_as_another :
    let rule : Rule := ⟨"spaced", .leaf ⟨"x", .equal, "'a  b'"⟩⟩
    let other : Rule := ⟨"spaced", .leaf ⟨"x", .equal, "'a b'"⟩⟩
    let record : Record := Table.ofList [("x", .text "a  b")]
    Made {} rule
      ∧ ofText ({} : Settings).maxDepth rule.name rule.expression = .ok other
      ∧ other ≠ rule
      ∧ rule.evaluate {} record = .ok true
      ∧ other.evaluate {} record = .ok false := by
  have hmade : ofTree 256 "spaced" (.leaf ⟨"x", .equal, "'a  b'"⟩)
      = .ok ⟨"spaced", .leaf ⟨"x", .equal, "'a  b'"⟩⟩ := by
    decide +kernel
  exact ⟨.ofTree hmade, by decide +kernel, by decide, by decide +kernel, by decide +kernel⟩

/-- **A rule that was made of a text** is made again of its own text. -/
theorem ofText_expression_of_ofText {limit : ℕ} {name text : String} {rule : Rule}
    (h : ofText limit name text = .ok rule) :
    ofText limit rule.name rule.expression = .ok rule := by
  obtain ⟨-, htree, hvalid⟩ := ofExpression_eq_ok_iff.mp h
  have hspaced : ∀ c ∈ rule.root.conditions, SingleSpaced c.literal.toList :=
    fun c hc => Tree.singleSpaced_of_parse (Tree.ofText_eq_ok_iff.mp htree).1 hc
  rw [hvalid.ofText_expression, collapsed_eq_self_iff.mpr hspaced]

end RecordRules.Rule
