import RecordRules.Proofs.Draft.Json
import RecordRules.Rule.Json

/-!
# Documents of rules

A **document** is an object that gives the name of a rule and the draft of its tree, in any order
and with whatever else besides (`Rule.DocumentedBy`). Reading gets the two back, provided that
the levels of the draft may be nested in the object (`Rule.documentOfValue?_of_documentedBy`).
-/

namespace RecordRules.Rule

open Json (Value Quoted)

variable {name : String}

/-- **The value is a document** of the name and the draft: an object whose members, under their
texts and put in order, give the two and are followed by others under other keys. -/
inductive DocumentedBy (name : String) (d : Draft) : Value → Prop where
  | object {members : List (Quoted × Value)} {keyed others : List (String × Value)}
      {nameValue root : Value} :
      Value.Keyed members keyed →
      keyed.Perm (("name", nameValue) :: ("rootNode", root) :: others) →
      Draft.IsText name nameValue →
      d.DescribedBy root →
      (∀ m ∈ others, m.1 ≠ "name" ∧ m.1 ≠ "rootNode") →
      DocumentedBy name d (.object members)

/-- The object with the name and the draft and nothing else. -/
def document (name : String) (d : Draft) : Value :=
  .ofMembers [("name", .string (.ofText name)), ("rootNode", d.toValue)]

/-- That object is a document. -/
theorem documentedBy_document (name : String) (d : Draft) :
    DocumentedBy name d (document name d) :=
  .object (Value.keyed_ofText _) (.refl _) ⟨_, rfl, Quoted.text?_ofText name⟩
    d.describedBy_toValue (List.forall_mem_nil _)

/-- It can be written. -/
theorem spellable_document (name : String) (d : Draft) : (document name d).Spellable := by
  refine Value.spellable_ofMembers (List.forall_mem_cons.mpr ⟨?_, ?_⟩)
  · exact Value.spellable_ofText name
  · exact List.forall_mem_singleton.mpr d.spellable_toValue

/-- A field is looked up as the only member under its name. -/
theorem field?_of_perm {key : String} {v : Value} {keyed rest : List (String × Value)}
    (h : keyed.Perm ((key, v) :: rest)) (hrest : ∀ m ∈ rest, m.1 ≠ key) :
    Value.field? keyed [key] = some (some v) := by
  have hself : [key].contains key = true := List.elem_cons_self
  have hnone : rest.filter (fun m => [key].contains m.1) = [] := by
    refine List.filter_eq_nil_iff.mpr fun m hm hkey => ?_
    exact hrest m hm (List.mem_singleton.mp (List.contains_iff_mem.mp hkey))
  have hfilter : ((key, v) :: rest).filter (fun m => [key].contains m.1) = [(key, v)] := by
    rw [List.filter_cons, if_pos hself, hnone]
  rw [Value.field?_perm h, Value.field?_of_filter hfilter]
  rfl

/-- **The name and the draft are read back** from a document if the levels of the draft may be
nested in it. -/
theorem documentOfValue?_of_documentedBy {d : Draft} {v : Value} (h : DocumentedBy name d v) :
    documentOfValue? v = if d.height < Value.maxNesting then some (name, d) else none := by
  obtain @⟨members, keyed, others, nameValue, root, hkeyed, hperm, hname, hroot, hothers⟩ := h
  obtain ⟨q, rfl, hq⟩ := hname
  have hne : "rootNode" ≠ "name" := by decide
  have hfields : (Value.object members).fields? [["name"], ["rootNode"]]
      = some [some (.string q), some root] := by
    have hnameField : Value.field? keyed ["name"] = some (some (.string q)) :=
      field?_of_perm hperm
        (List.forall_mem_cons.mpr ⟨hne, fun m hm => (hothers m hm).1⟩)
    have hrootField : Value.field? keyed ["rootNode"] = some (some root) :=
      field?_of_perm (hperm.trans (.swap _ _ _))
        (List.forall_mem_cons.mpr ⟨hne.symm, fun m hm => (hothers m hm).2⟩)
    rw [hkeyed.fields?_eq, List.mapM_cons, List.mapM_cons, List.mapM_nil, hnameField, hrootField]
    rfl
  have hroom : d.height ≤ Value.maxNesting - 1 ↔ d.height < Value.maxNesting :=
    Nat.le_sub_one_iff_lt (by decide)
  rw [documentOfValue?, hfields, Option.bind_eq_bind, Option.bind_some]
  dsimp only
  rw [Value.text?, hq, Draft.ofValue?_of_describedBy _ hroot]
  simp only [hroom]
  split <;> rfl

end RecordRules.Rule
