import RecordRules.Draft.Validate
import RecordRules.Proofs.Condition.Splitting

/-!
# A single node of a draft

What a node has to satisfy does not depend on its children, only on whether they are
there. A node is valid by itself (`Draft.LocallyValid`) in one of two ways: it is a
condition, or it joins two others. One that is not has a fault (`Draft.HasFault`), and the
fault of a node is the first that it has in a fixed order: its type is missing, its value is
missing, its type is unknown, and then what its type asks for, of which the children come
before the text of a condition and after the connective of a node that joins two others.

`Draft.shape` looks at a node in this order. It fails with the fault of the node
(`Draft.shape_eq_error_iff`) and succeeds on the nodes that are valid by themselves
(`Draft.locallyValid_iff`).
-/

namespace RecordRules.Draft

open Text

/-! ## What a node should be -/

/-- **The node is valid by itself**: it is a condition without children, whose value can be
split into one, or it joins two children that are there with a connective. -/
inductive LocallyValid (d : Draft) : Prop where
  | condition {value : String} {c : Condition} : nonBlank? d.type = some conditionType →
    d.left = none → d.right = none → nonBlank? d.value = some value →
    c.Splits value.toList → LocallyValid d
  | operator {k : Connective} : nonBlank? d.type = some operatorType →
    nonBlank? d.value = some k.symbol → d.left ≠ none → d.right ≠ none → LocallyValid d

/-- **The node is the condition** that its value is read as. -/
structure IsCondition (d : Draft) (c : Condition) : Prop where
  type : nonBlank? d.type = some conditionType
  left : d.left = none
  right : d.right = none
  exists_value : ∃ value, nonBlank? d.value = some value ∧ Condition.ofText value = .ok c

/-- **The node joins two children** with a connective. -/
structure IsOperator (d : Draft) (k : Connective) (l r : Draft) : Prop where
  type : nonBlank? d.type = some operatorType
  value : nonBlank? d.value = some k.symbol
  left : d.left = some l
  right : d.right = some r

/-- **The fault of a node**: the first that it has. -/
inductive HasFault (d : Draft) : NodeFault → Prop where
  | emptyType : nonBlank? d.type = none → HasFault d .emptyType
  | emptyValue {type : String} : nonBlank? d.type = some type → nonBlank? d.value = none →
    HasFault d .emptyValue
  | unknownType {type value : String} : nonBlank? d.type = some type →
    nonBlank? d.value = some value → type ≠ conditionType → type ≠ operatorType →
    HasFault d (.unknownType type)
  | conditionWithChildren {value : String} : nonBlank? d.type = some conditionType →
    nonBlank? d.value = some value → d.left ≠ none ∨ d.right ≠ none →
    HasFault d .conditionWithChildren
  | malformedCondition {value : String} : nonBlank? d.type = some conditionType →
    nonBlank? d.value = some value → d.left = none → d.right = none →
    (∀ c : Condition, ¬ c.Splits value.toList) → HasFault d (.malformedCondition value)
  | unknownConnective {value : String} : nonBlank? d.type = some operatorType →
    nonBlank? d.value = some value → (∀ k : Connective, value ≠ k.symbol) →
    HasFault d (.unknownConnective value)
  | missingChild {k : Connective} : nonBlank? d.type = some operatorType →
    nonBlank? d.value = some k.symbol → d.left = none ∨ d.right = none →
    HasFault d .missingChild

/-! ## What it turns out to be -/

section Shape

variable {d : Draft} {value : String}

/-- What is left of a text is the text without the blanks at its ends. -/
theorem eq_trim_of_nonBlank? {text trimmed : String} (h : nonBlank? (some text) = some trimmed) :
    trimmed = trim text := by
  rw [nonBlank?] at h
  split at h
  · cases h
  · exact (Option.some.inj h).symm

/-- What is left of a text has no blanks at its ends. -/
theorem strip_of_nonBlank? {text : Option String} {trimmed : String}
    (h : nonBlank? text = some trimmed) : strip trimmed.toList = trimmed.toList := by
  cases text with
  | none => cases h
  | some text => rw [eq_trim_of_nonBlank? h, toList_trim, strip_strip]

/-- Something is left of the text of a condition. -/
theorem nonBlank?_of_ofText? {text : String} {c : Condition}
    (h : Condition.ofText? text = some c) : nonBlank? (some text) = some (trim text) := by
  have hname := (Condition.ofText?_eq_some_iff.mp h).1
  have hnonempty : (trim text).isEmpty = false := by
    rw [Bool.eq_false_iff, ne_eq, String.isEmpty_iff]
    intro hempty
    rw [← toList_trim, hempty] at hname
    exact hname rfl
  rw [nonBlank?, hnonempty, if_neg Bool.false_ne_true]

/-- The value of a node is no condition if it cannot be split into one. -/
theorem ofText?_eq_none_iff (hvalue : nonBlank? d.value = some value) :
    Condition.ofText? value = none ↔ ∀ c : Condition, ¬ c.Splits value.toList := by
  rw [Condition.ofText?_eq_none_iff, strip_of_nonBlank? hvalue]

/-- Both children are there. -/
theorem children_eq_ok_iff {l r : Draft} :
    d.children = .ok (l, r) ↔ d.left = some l ∧ d.right = some r := by
  obtain ⟨type, value, left, right⟩ := d
  cases left with
  | none => exact ⟨nofun, nofun⟩
  | some left =>
    cases right with
    | none => exact ⟨nofun, nofun⟩
    | some right =>
      show Except.ok (left, right) = .ok (l, r) ↔ some left = some l ∧ some right = some r
      rw [Except.ok.injEq, Prod.mk.injEq, Option.some.injEq, Option.some.injEq]

/-- A child is missing. -/
theorem children_eq_error_iff {fault : NodeFault} :
    d.children = .error fault ↔ (d.left = none ∨ d.right = none) ∧ fault = .missingChild := by
  obtain ⟨type, value, left, right⟩ := d
  have hmissing : Except.error .missingChild = (.error fault : Except NodeFault (Draft × Draft))
      ↔ fault = .missingChild :=
    ⟨fun h => (Except.error.inj h).symm, fun h => congrArg Except.error h.symm⟩
  cases left with
  | none => exact hmissing.trans (and_iff_right (.inl rfl)).symm
  | some left =>
    cases right with
    | none => exact hmissing.trans (and_iff_right (.inr rfl)).symm
    | some right => exact iff_of_false nofun fun h => by rcases h.1 with h | h <;> cases h

/-- What a node of a condition turns out to be. -/
theorem shape_of_condition (htype : nonBlank? d.type = some conditionType)
    (hvalue : nonBlank? d.value = some value) :
    d.shape = if d.left.isSome || d.right.isSome then .error .conditionWithChildren
      else (Condition.read value).map .leaf := by
  rw [shape, htype, hvalue]
  rfl

/-- What a node that joins two others turns out to be. -/
theorem shape_of_operator (htype : nonBlank? d.type = some operatorType)
    (hvalue : nonBlank? d.value = some value) :
    d.shape = match Connective.ofSymbol? value with
      | none => .error (.unknownConnective value)
      | some k => d.children.map fun (l, r) => .node k l r := by
  rw [shape, htype, hvalue]
  rfl

/-- A node of another type turns out to be nothing. -/
theorem shape_of_ne {type : String} (htype : nonBlank? d.type = some type)
    (hvalue : nonBlank? d.value = some value) (hcondition : type ≠ conditionType)
    (hoperator : type ≠ operatorType) : d.shape = .error (.unknownType type) := by
  rw [shape, htype, hvalue]
  show (if type = conditionType then _ else if type = operatorType then _ else _) = _
  rw [if_neg hcondition, if_neg hoperator]

/-- A node that has a fault fails with it. -/
theorem HasFault.shape_eq {fault : NodeFault} (h : d.HasFault fault) :
    d.shape = .error fault := by
  cases h with
  | emptyType htype => rw [shape, htype]
  | emptyValue htype hvalue => rw [shape, htype, hvalue]
  | unknownType htype hvalue hcondition hoperator =>
    exact shape_of_ne htype hvalue hcondition hoperator
  | conditionWithChildren htype hvalue hchildren =>
    rw [shape_of_condition htype hvalue, if_pos]
    rwa [Bool.or_eq_true, Option.isSome_iff_ne_none, Option.isSome_iff_ne_none]
  | malformedCondition htype hvalue hleft hright hsplits =>
    rw [shape_of_condition htype hvalue, hleft, hright]
    exact Except.map_eq_error_iff.mpr
      (Condition.read_eq_error_iff.mpr ⟨(ofText?_eq_none_iff hvalue).mpr hsplits, rfl⟩)
  | unknownConnective htype hvalue hconnective =>
    have hnone : Connective.ofSymbol? _ = none := Option.eq_none_iff_forall_ne_some.mpr
      fun k hk => hconnective k (Connective.ofSymbol?_eq_some_iff.mp hk)
    rw [shape_of_operator htype hvalue, hnone]
  | missingChild htype hvalue hmissing =>
    rw [shape_of_operator htype hvalue, Connective.ofSymbol?_symbol]
    exact Except.map_eq_error_iff.mpr (children_eq_error_iff.mpr ⟨hmissing, rfl⟩)

/-- A node that is a condition turns out to be that condition. -/
theorem IsCondition.shape_eq {c : Condition} (h : d.IsCondition c) :
    d.shape = .ok (.leaf c) := by
  obtain ⟨htype, hleft, hright, value, hvalue, hread⟩ := h
  rw [shape_of_condition htype hvalue, hleft, hright]
  exact Except.map_eq_ok_iff.mpr
    ⟨c, Condition.read_eq_ok_iff.mpr (Condition.ofText_eq_ok_iff.mp hread), rfl⟩

/-- A node that joins two children turns out to join them. -/
theorem IsOperator.shape_eq {k : Connective} {l r : Draft} (h : d.IsOperator k l r) :
    d.shape = .ok (.node k l r) := by
  rw [shape_of_operator h.type h.value, Connective.ofSymbol?_symbol]
  exact Except.map_eq_ok_iff.mpr ⟨(l, r), children_eq_ok_iff.mpr ⟨h.left, h.right⟩, rfl⟩

/-- **Every node** has a fault, or is a condition, or joins two children. -/
theorem hasFault_or_isCondition_or_isOperator (d : Draft) :
    (∃ fault, d.HasFault fault) ∨ (∃ c, d.IsCondition c) ∨ ∃ k l r, d.IsOperator k l r := by
  cases htype : nonBlank? d.type with
  | none => exact .inl ⟨_, .emptyType htype⟩
  | some type =>
    cases hvalue : nonBlank? d.value with
    | none => exact .inl ⟨_, .emptyValue htype hvalue⟩
    | some value =>
      by_cases hcondition : type = conditionType
      · subst hcondition
        by_cases hchildren : d.left = none ∧ d.right = none
        · obtain ⟨hleft, hright⟩ := hchildren
          cases hread : Condition.ofText? value with
          | none =>
            have hsplits := (ofText?_eq_none_iff hvalue).mp hread
            exact .inl ⟨_, .malformedCondition htype hvalue hleft hright hsplits⟩
          | some c =>
            have hok := Condition.ofText_eq_ok_iff.mpr hread
            exact .inr (.inl ⟨c, htype, hleft, hright, value, hvalue, hok⟩)
        · exact .inl ⟨_, .conditionWithChildren htype hvalue (not_and_or.mp hchildren)⟩
      · by_cases hoperator : type = operatorType
        · subst hoperator
          cases hconnective : Connective.ofSymbol? value with
          | none =>
            refine .inl ⟨_, .unknownConnective htype hvalue fun k hk => ?_⟩
            rw [Connective.ofSymbol?_eq_some_iff.mpr hk] at hconnective
            cases hconnective
          | some k =>
            obtain rfl := Connective.ofSymbol?_eq_some_iff.mp hconnective
            cases hleft : d.left with
            | none => exact .inl ⟨_, .missingChild htype hvalue (.inl hleft)⟩
            | some l =>
              cases hright : d.right with
              | none => exact .inl ⟨_, .missingChild htype hvalue (.inr hright)⟩
              | some r => exact .inr (.inr ⟨k, l, r, htype, hvalue, hleft, hright⟩)
        · exact .inl ⟨_, .unknownType htype hvalue hcondition hoperator⟩

/-- **A node fails with its fault.** -/
theorem shape_eq_error_iff {fault : NodeFault} :
    d.shape = .error fault ↔ d.HasFault fault := by
  refine ⟨fun h => ?_, HasFault.shape_eq⟩
  rcases d.hasFault_or_isCondition_or_isOperator with ⟨fault', hfault⟩ | ⟨c, hc⟩ | ⟨k, l, r, hk⟩
  · obtain rfl := Except.error.inj (hfault.shape_eq.symm.trans h)
    exact hfault
  · cases hc.shape_eq.symm.trans h
  · cases hk.shape_eq.symm.trans h

/-- **A node turns out to be the condition** that it is. -/
theorem shape_eq_leaf_iff {c : Condition} :
    d.shape = .ok (.leaf c) ↔ d.IsCondition c := by
  refine ⟨fun h => ?_, IsCondition.shape_eq⟩
  rcases d.hasFault_or_isCondition_or_isOperator with ⟨fault, hfault⟩ | ⟨c', hc⟩ | ⟨k, l, r, hk⟩
  · cases hfault.shape_eq.symm.trans h
  · obtain rfl := Shape.leaf.inj (Except.ok.inj (hc.shape_eq.symm.trans h))
    exact hc
  · cases hk.shape_eq.symm.trans h

/-- **A node turns out to join the children** that it joins. -/
theorem shape_eq_node_iff {k : Connective} {l r : Draft} :
    d.shape = .ok (.node k l r) ↔ d.IsOperator k l r := by
  refine ⟨fun h => ?_, IsOperator.shape_eq⟩
  rcases d.hasFault_or_isCondition_or_isOperator with ⟨fault, hfault⟩ | ⟨c, hc⟩ | ⟨k', l', r', hk⟩
  · cases hfault.shape_eq.symm.trans h
  · cases hc.shape_eq.symm.trans h
  · obtain ⟨rfl, rfl, rfl⟩ := Shape.node.inj (Except.ok.inj (hk.shape_eq.symm.trans h))
    exact hk

/-- **The nodes that are valid by themselves** are those that turn out to be something. -/
theorem locallyValid_iff : d.LocallyValid ↔ ∃ s, d.shape = .ok s := by
  constructor
  · rintro (⟨htype, hleft, hright, hvalue, hsplits⟩ | ⟨htype, hvalue, hleft, hright⟩)
    · cases hread : Condition.ofText? _ with
      | none => exact absurd hsplits ((ofText?_eq_none_iff hvalue).mp hread _)
      | some c =>
        have hok := Condition.ofText_eq_ok_iff.mpr hread
        exact ⟨.leaf c, IsCondition.shape_eq ⟨htype, hleft, hright, _, hvalue, hok⟩⟩
    · obtain ⟨l, hl⟩ := Option.ne_none_iff_exists'.mp hleft
      obtain ⟨r, hr⟩ := Option.ne_none_iff_exists'.mp hright
      exact ⟨.node _ l r, IsOperator.shape_eq ⟨htype, hvalue, hl, hr⟩⟩
  · rintro ⟨⟨c⟩ | ⟨k, l, r⟩, h⟩
    · obtain ⟨htype, hleft, hright, value, hvalue, hread⟩ := shape_eq_leaf_iff.mp h
      have hsplits := (Condition.ofText?_eq_some_iff_splits.mp
        (Condition.ofText_eq_ok_iff.mp hread)).1
      rw [strip_of_nonBlank? hvalue] at hsplits
      exact .condition htype hleft hright hvalue hsplits
    · obtain ⟨htype, hvalue, hl, hr⟩ := shape_eq_node_iff.mp h
      exact .operator htype hvalue (hl ▸ Option.some_ne_none l) (hr ▸ Option.some_ne_none r)

end Shape

end RecordRules.Draft
