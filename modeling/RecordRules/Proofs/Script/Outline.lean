import RecordRules.Proofs.Draft.Json
import RecordRules.Script.Reading

/-!
# Trees in dictionaries and in JSON text

A script may hand over a tree as a dictionary, or as JSON text. Either way each of its nodes
is an object, and an **outline** is what can be said about the objects in both formats alike:
which fields they have, which of these are null, and what the others hold. The value of a
node goes by two names, and an object may have fields under both.

The two formats are read by code that has nothing in common, and the readers agree on every
outline in which no object has both names (`Outline.readings_of_writtenIn`). On an object
that has both they do not, and this is so even where one of the two is null. The reader of
dictionaries takes what stands under the first name and falls back on the other. To the
reader of JSON text they are the same field, which must not be given twice.
-/

namespace RecordRules

/-! ## Outlines -/

/-- **What an object has as a field**: nothing, null, or something. -/
inductive Field (α : Type) where
  | missing
  | null
  | given (value : α)

namespace Field

/-- What the field holds, if that is something. -/
def get? {α : Type} : Field α → Option α
  | given value => some value
  | _ => none

/-- Whether there is such a field, null or not. -/
def isPresent {α : Type} : Field α → Bool
  | missing => false
  | _ => true

end Field

/-- **The outline of a tree**: what its objects have as fields. -/
structure Outline where
  /-- What kind of node it is. -/
  type : Field String
  /-- The value of the node. -/
  value : Field String
  /-- The value of the node by its other name. -/
  nodeValue : Field String
  /-- The left child. -/
  left : Field Outline
  /-- The right child. -/
  right : Field Outline

namespace Outline

/-- **The draft with this outline.** Null is as good as missing, and of two values it is the
one under the first name that counts. -/
def draft : Outline → Draft
  | ⟨type, value, nodeValue, left, right⟩ =>
    ⟨type.get?, value.get?.or nodeValue.get?,
      match left with
      | .given o => some o.draft
      | _ => none,
      match right with
      | .given o => some o.draft
      | _ => none⟩

/-- **Whether no object has a value under both names.** -/
def namesOnce : Outline → Bool
  | ⟨_, value, nodeValue, left, right⟩ =>
    !(value.isPresent && nodeValue.isPresent)
      && (match left with
        | .given o => o.namesOnce
        | _ => true)
      && (match right with
        | .given o => o.namesOnce
        | _ => true)

/-- The fields of the draft are those of the outline. -/
theorem draft_eq (o : Outline) :
    o.draft = ⟨o.type.get?, o.value.get?.or o.nodeValue.get?, o.left.get?.map draft,
      o.right.get?.map draft⟩ := by
  obtain ⟨type, value, nodeValue, left, right⟩ := o
  cases left <;> cases right <;> rfl

/-- The names are looked at object by object. -/
theorem namesOnce_eq (o : Outline) :
    o.namesOnce = (!(o.value.isPresent && o.nodeValue.isPresent)
      && o.left.get?.all namesOnce && o.right.get?.all namesOnce) := by
  obtain ⟨type, value, nodeValue, left, right⟩ := o
  cases left <;> cases right <;> rfl

end Outline

/-! ## Formats -/

/-- **A format**: which values stand for null, for a text, and for the object with certain
members. There may be several for one text or object, but there is always one. -/
structure Format (V : Type) where
  /-- The value that stands for none. -/
  null : V
  /-- The value is this text. -/
  IsText : String → V → Prop
  /-- The value is the object with these members. -/
  IsObject : List (String × V) → V → Prop
  /-- A value that is the text. -/
  ofText : String → V
  /-- A value that is the object with the members. -/
  ofMembers : List (String × V) → V
  isText_ofText : ∀ text, IsText text (ofText text)
  isObject_ofMembers : ∀ members, IsObject members (ofMembers members)

/-- The format of dictionaries. -/
def Format.dictionary : Format Script.Value where
  null := .nothing
  IsText text v := v = .text text
  IsObject members v := v = .dict (members.map fun m => (some m.1, m.2))
  ofText := .text
  ofMembers members := .dict (members.map fun m => (some m.1, m.2))
  isText_ofText _ := rfl
  isObject_ofMembers _ := rfl

/-- The format of JSON text. -/
def Format.json : Format Json.Value where
  null := .null
  IsText := Draft.IsText
  IsObject keyed v := ∃ members, v = .object members ∧ Json.Value.Keyed members keyed
  ofText text := .string (.ofText text)
  ofMembers := .ofMembers
  isText_ofText text := ⟨_, rfl, Json.Quoted.text?_ofText text⟩
  isObject_ofMembers members := ⟨_, rfl, Json.Value.keyed_ofText members⟩

/-- **The members that give a field**: none or one under its name. -/
inductive Field.Members {α V : Type} (null : V) (writes : α → V → Prop) (name : String) :
    Field α → List (String × V) → Prop where
  | missing : Members null writes name .missing []
  | null : Members null writes name .null [(name, null)]
  | given {a : α} {v : V} : writes a v → Members null writes name (.given a) [(name, v)]

/-- **The value is a tree with this outline**, in the format: an object with members for all
fields, in any order, and with no others. -/
inductive Outline.WrittenIn {V : Type} (F : Format V) : Outline → V → Prop where
  | object {o : Outline} {type value nodeValue left right members : List (String × V)} {v : V} :
      Field.Members F.null F.IsText "type" o.type type →
      Field.Members F.null F.IsText "value" o.value value →
      Field.Members F.null F.IsText "nodeValue" o.nodeValue nodeValue →
      Field.Members F.null (WrittenIn F) "left" o.left left →
      Field.Members F.null (WrittenIn F) "right" o.right right →
      members.Perm (type ++ value ++ nodeValue ++ left ++ right) →
      F.IsObject members v →
      WrittenIn F o v

/-- **The text is JSON text of a tree with this outline.** -/
def Outline.WrittenAs (o : Outline) (text : String) : Prop :=
  ∃ v : Json.Value, o.WrittenIn .json v ∧ v.WrittenAs text

/-! ## Writing -/

namespace Outline

variable {V : Type}

/-- The member that gives a text, if there is to be one. -/
def textMembers (F : Format V) (name : String) : Field String → List (String × V)
  | .missing => []
  | .null => [(name, F.null)]
  | .given text => [(name, F.ofText text)]

mutual

/-- **The tree with the outline**, its members in order. -/
def write (F : Format V) : Outline → V
  | ⟨type, value, nodeValue, left, right⟩ =>
    F.ofMembers (textMembers F "type" type ++ textMembers F "value" value
      ++ textMembers F "nodeValue" nodeValue ++ childMembers F "left" left
      ++ childMembers F "right" right)

/-- The member that gives a child, if there is to be one. -/
def childMembers (F : Format V) (name : String) : Field Outline → List (String × V)
  | .missing => []
  | .null => [(name, F.null)]
  | .given o => [(name, o.write F)]

end

/-- A text is given by its member. -/
theorem members_textMembers (F : Format V) (name : String) (field : Field String) :
    Field.Members F.null F.IsText name field (textMembers F name field) := by
  cases field with
  | missing => exact .missing
  | null => exact .null
  | given text => exact .given (F.isText_ofText text)

mutual

/-- **Every outline can be written** in every format. -/
theorem writtenIn_write (F : Format V) : (o : Outline) → o.WrittenIn F (o.write F)
  | ⟨type, value, nodeValue, left, right⟩ =>
    .object (members_textMembers F "type" type) (members_textMembers F "value" value)
      (members_textMembers F "nodeValue" nodeValue) (members_childMembers F "left" left)
      (members_childMembers F "right" right) (.refl _) (F.isObject_ofMembers _)

/-- A child is given by its member. -/
theorem members_childMembers (F : Format V) (name : String) : (field : Field Outline) →
    Field.Members F.null (WrittenIn F) name field (childMembers F name field)
  | .missing => .missing
  | .null => .null
  | .given o => .given (writtenIn_write F o)

end

/-- A text that is given as a member can be written as JSON text. -/
theorem spellable_textMembers (name : String) (field : Field String) :
    ∀ m ∈ textMembers .json name field, m.2.Spellable := by
  cases field with
  | missing => exact List.forall_mem_nil _
  | null => exact List.forall_mem_singleton.mpr (List.forall_mem_singleton.mpr trivial)
  | given text => exact List.forall_mem_singleton.mpr (Json.Value.spellable_ofText text)

mutual

/-- What is written can be written as JSON text. -/
theorem spellable_write : (o : Outline) → (o.write .json).Spellable
  | ⟨type, value, nodeValue, left, right⟩ => by
    refine Json.Value.spellable_ofMembers ?_
    rw [List.forall_mem_append, List.forall_mem_append, List.forall_mem_append,
      List.forall_mem_append]
    exact ⟨⟨⟨⟨spellable_textMembers "type" type, spellable_textMembers "value" value⟩,
      spellable_textMembers "nodeValue" nodeValue⟩, spellable_childMembers "left" left⟩,
      spellable_childMembers "right" right⟩

/-- A child that is given as a member can be written as JSON text. -/
theorem spellable_childMembers (name : String) : (field : Field Outline) →
    ∀ m ∈ childMembers .json name field, m.2.Spellable
  | .missing => List.forall_mem_nil _
  | .null => List.forall_mem_singleton.mpr (List.forall_mem_singleton.mpr trivial)
  | .given o => List.forall_mem_singleton.mpr (spellable_write o)

end

/-- **Every outline has a JSON text.** -/
theorem writtenAs_render (o : Outline) : o.WrittenAs (o.write .json).render :=
  ⟨_, writtenIn_write .json o, Json.Value.writtenAs_render o.spellable_write⟩

end Outline

/-! ## Looking up members -/

namespace Field.Members

variable {α V : Type} {null : V} {writes : α → V → Prop} {name : String} {field : Field α}
  {ms : List (String × V)}

/-- A field that is there is given by one member. -/
theorem length_eq (h : Members null writes name field ms) :
    ms.length = field.isPresent.toNat := by
  cases h <;> rfl

/-- A field is given at most once. -/
theorem length_le (h : Members null writes name field ms) : ms.length ≤ 1 := by
  rw [h.length_eq]
  exact Bool.toNat_le _

/-- The members that give a field are asked for by a name that it goes by. -/
theorem filter (h : Members null writes name field ms) (names : List String) :
    ms.filter (fun m => names.contains m.1) = if names.contains name then ms else [] := by
  cases h with
  | missing => exact (ite_self []).symm
  | _ =>
    rw [List.filter_singleton]
    cases names.contains name <;> rfl

end Field.Members

namespace Script

/-- The attribute of a dictionary is the first of the members that have its name. -/
theorem Value.attribute?_dict (members : List (String × Value)) (name : String) :
    (Value.dict (members.map fun m => (some m.1, m.2))).attribute? name
      = (members.filter fun m => [name].contains m.1).head?.map Prod.snd := by
  rw [Value.attribute?]
  induction members with
  | nil => rfl
  | cons m members ih =>
    rw [List.map_cons, Entries.get?, List.filter_cons, ih, List.contains_cons,
      List.contains_nil, Bool.or_false]
    by_cases hname : m.1 = name
    · rw [if_pos (congrArg some hname), if_pos (beq_iff_eq.mpr hname)]
      rfl
    · rw [if_neg (mt Option.some.inj hname), if_neg (mt beq_iff_eq.mp hname)]

/-- An attribute that is given at most once is looked up in any order of the members. -/
theorem Value.attribute?_of_perm {members ms : List (String × Value)} {name : String}
    {rest : List (String × Value)} (hperm : members.Perm rest)
    (hfilter : rest.filter (fun m => [name].contains m.1) = ms) (hlength : ms.length ≤ 1) :
    (Value.dict (members.map fun m => (some m.1, m.2))).attribute? name
      = ms.head?.map Prod.snd := by
  have hfiltered := hperm.filter fun m => [name].contains m.1
  rw [hfilter] at hfiltered
  rw [Value.attribute?_dict]
  match ms, hlength with
  | [], _ => rw [hfiltered.eq_nil]
  | [m], _ => rw [hfiltered.eq_singleton]

/-- A value that is no text is read field by field, and its value under the second name only
if there is none under the first. -/
theorem draftWithin_succ {limit room : ℕ} {v : Value} (hv : ∀ json, v ≠ .text json)
    {type value nodeValue : Option String} (htype : v.textField "type" = .ok type)
    (hvalue : v.textField "value" = .ok value)
    (hnodeValue : v.textField "nodeValue" = .ok nodeValue) :
    draftWithin limit (room + 1) v = (do
      let left ← v.childField "left" fun w => draftWithin limit room w
      let right ← v.childField "right" fun w => draftWithin limit room w
      return ⟨type, value.or nodeValue, left, right⟩) := by
  rw [draftWithin, htype, hvalue, hnodeValue]
  · cases value <;> rfl
  · exact hv

end Script

namespace Outline

open Json (Quoted)
open Draft (levels)

section Members

variable {V : Type} {F : Format V} {child : Outline → V → Prop} {o : Outline}
  {type value nodeValue left right : List (String × V)}

/-- **The members that go by some names** are those of the fields that do. -/
theorem filter_members (htype : Field.Members F.null F.IsText "type" o.type type)
    (hvalue : Field.Members F.null F.IsText "value" o.value value)
    (hnodeValue : Field.Members F.null F.IsText "nodeValue" o.nodeValue nodeValue)
    (hleft : Field.Members F.null child "left" o.left left)
    (hright : Field.Members F.null child "right" o.right right) (names : List String) :
    (type ++ value ++ nodeValue ++ left ++ right).filter (fun m => names.contains m.1)
      = (if names.contains "type" then type else [])
        ++ (if names.contains "value" then value else [])
        ++ (if names.contains "nodeValue" then nodeValue else [])
        ++ (if names.contains "left" then left else [])
        ++ (if names.contains "right" then right else []) := by
  rw [List.filter_append, List.filter_append, List.filter_append, List.filter_append,
    htype.filter, hvalue.filter, hnodeValue.filter, hleft.filter, hright.filter]

end Members

/-! ## Reading dictionaries -/

variable {limit room : ℕ}

/-- A text is read as the field gives it. -/
theorem textField_of_members {v : Script.Value} {name : String} {field : Field String}
    {ms : List (String × Script.Value)} (hv : v.attribute? name = ms.head?.map Prod.snd)
    (h : Field.Members .nothing Format.dictionary.IsText name field ms) :
    v.textField name = .ok field.get? := by
  rw [Script.Value.textField, hv]
  cases h with
  | missing => rfl
  | null => rfl
  | given hw =>
    cases hw
    rfl

/-- A child is read as the field gives it, where children are. -/
theorem childField_of_members {v : Script.Value} {name : String} {field : Field Outline}
    {ms : List (String × Script.Value)} (hv : v.attribute? name = ms.head?.map Prod.snd)
    (hread : ∀ {o : Outline} {w : Script.Value}, o.WrittenIn .dictionary w →
      Script.draftWithin limit room w
        = if o.draft.height ≤ room then .ok o.draft else .error (.treeTooDeep limit))
    (h : Field.Members .nothing (WrittenIn .dictionary) name field ms) :
    v.childField name (fun w => Script.draftWithin limit room w)
      = if levels (field.get?.map draft) ≤ room then .ok (field.get?.map draft)
        else .error (.treeTooDeep limit) := by
  rw [Script.Value.childField, hv]
  cases h with
  | missing => rfl
  | null => rfl
  | @given o w hw =>
    have hobject : (Script.draftWithin limit room w).map some
        = if o.draft.height ≤ room then .ok (some o.draft) else .error (.treeTooDeep limit) := by
      rw [hread hw]
      split <;> rfl
    obtain ⟨-, -, -, -, -, -, rfl⟩ := hw
    exact hobject

/-- There is room for an outline if there is room for its children below it. -/
theorem height_draft_le_iff (o : Outline) : o.draft.height ≤ room + 1 ↔
    levels (o.left.get?.map draft) ≤ room ∧ levels (o.right.get?.map draft) ≤ room := by
  rw [Draft.height_eq, draft_eq]
  dsimp only
  omega

/-- **A dictionary is read as the draft with its outline**, unless there is no room for its
levels. -/
theorem draftWithin_of_writtenIn {o : Outline} {v : Script.Value}
    (h : o.WrittenIn .dictionary v) :
    Script.draftWithin limit room v
      = if o.draft.height ≤ room then .ok o.draft else .error (.treeTooDeep limit) := by
  -- the induction is on the room, as reading is; an outline has a level, and fits into none
  induction room generalizing o v with
  | zero =>
    rw [Draft.height_eq, if_neg (by omega)]
    rfl
  | succ room ih =>
    obtain @⟨o, type, value, nodeValue, left, right, members, v, htype, hvalue, hnodeValue, hleft,
      hright, hperm, rfl⟩ := h
    have hattribute {name : String} {ms : List (String × Script.Value)} (hlength : ms.length ≤ 1)
        (h : (if [name].contains "type" then type else [])
          ++ (if [name].contains "value" then value else [])
          ++ (if [name].contains "nodeValue" then nodeValue else [])
          ++ (if [name].contains "left" then left else [])
          ++ (if [name].contains "right" then right else []) = ms) :=
      Script.Value.attribute?_of_perm hperm
        ((filter_members htype hvalue hnodeValue hleft hright [name]).trans h) hlength
    rw [Script.draftWithin_succ (fun _ h => by cases h)
      (textField_of_members (hattribute htype.length_le (by simp)) htype)
      (textField_of_members (hattribute hvalue.length_le (by simp)) hvalue)
      (textField_of_members (hattribute hnodeValue.length_le (by simp)) hnodeValue),
      childField_of_members (hattribute hleft.length_le (by simp)) ih hleft,
      childField_of_members (hattribute hright.length_le (by simp)) ih hright]
    by_cases hl : levels (o.left.get?.map draft) ≤ room
    · by_cases hr : levels (o.right.get?.map draft) ≤ room
      · rw [if_pos hl, if_pos hr, if_pos ((height_draft_le_iff o).mpr ⟨hl, hr⟩), draft_eq]
        rfl
      · rw [if_pos hl, if_neg hr, if_neg fun h => hr ((height_draft_le_iff o).mp h).2]
        rfl
    · rw [if_neg hl, if_neg fun h => hl ((height_draft_le_iff o).mp h).1]
      rfl

/-! ## Reading JSON text -/

/-- What a member gives is given, in the sense of drafts. -/
theorem given_of_members {α : Type} {writes : α → Json.Value → Prop} {name : String}
    {field : Field α} {ms : List (String × Json.Value)}
    (h : Field.Members .null writes name field ms) :
    Draft.Given writes field.get? (ms.head?.map Prod.snd) := by
  cases h with
  | missing => exact .omitted
  | null => exact .null
  | given hv => exact .given hv

/-- A text is read as the field gives it. -/
theorem optional?_text {name : String} {field : Field String} {ms : List (String × Json.Value)}
    (h : Field.Members .null Draft.IsText name field ms) :
    Draft.optional? Json.Value.text? (ms.head?.map Prod.snd) = some field.get? :=
  Draft.optional?_of_isText (given_of_members h)

/-- The value of a node is read as it is given under the one name that it has. -/
theorem optional?_text_append {first second : Field String}
    {ms ms' : List (String × Json.Value)} {name name' : String}
    (h : Field.Members .null Draft.IsText name first ms)
    (h' : Field.Members .null Draft.IsText name' second ms')
    (hlength : (ms ++ ms').length ≤ 1) :
    Draft.optional? Json.Value.text? ((ms ++ ms').head?.map Prod.snd)
      = some (first.get?.or second.get?) := by
  match ms, ms' with
  | [], _ =>
    obtain ⟨⟩ := h
    exact optional?_text h'
  | _ :: _, [] =>
    obtain ⟨⟩ := h'
    rw [List.append_nil, optional?_text h]
    exact congrArg some (Option.or_none).symm
  | _ :: _, _ :: _ =>
    rw [List.length_append, List.length_cons, List.length_cons] at hlength
    omega

/-- A child is read as the field gives it, where children are. -/
theorem optional?_child {room : ℕ} {name : String} {field : Field Outline}
    {ms : List (String × Json.Value)}
    (hread : ∀ {o : Outline} {v : Json.Value}, o.WrittenIn .json v →
      Draft.ofValue? room v
        = if o.draft.height ≤ room ∧ o.namesOnce = true then some o.draft else none)
    (h : Field.Members .null (WrittenIn .json) name field ms) :
    Draft.optional? (fun w => Draft.ofValue? room w) (ms.head?.map Prod.snd)
      = if levels (field.get?.map draft) ≤ room ∧ field.get?.all namesOnce = true then
          some (field.get?.map draft)
        else none := by
  cases h with
  | missing => exact (if_pos ⟨Nat.zero_le room, rfl⟩).symm
  | null => exact (if_pos ⟨Nat.zero_le room, rfl⟩).symm
  | @given o v hv =>
    have hobject : (Draft.ofValue? room v).map some
        = if o.draft.height ≤ room ∧ o.namesOnce = true then some (some o.draft) else none := by
      rw [hread hv]
      split <;> rfl
    obtain ⟨-, -, -, -, -, -, members, rfl, -⟩ := hv
    exact hobject

/-- No object has a value under both names if this one has at most one and its children are
alike. -/
theorem namesOnce_iff {o : Outline} {value nodeValue : List (String × Json.Value)}
    {name name' : String} (hvalue : Field.Members .null Draft.IsText name o.value value)
    (hnodeValue : Field.Members .null Draft.IsText name' o.nodeValue nodeValue) :
    o.namesOnce = true ↔ (value ++ nodeValue).length ≤ 1
      ∧ o.left.get?.all namesOnce = true ∧ o.right.get?.all namesOnce = true := by
  rw [namesOnce_eq, Bool.and_eq_true, Bool.and_eq_true, and_assoc, List.length_append,
    hvalue.length_eq, hnodeValue.length_eq]
  cases o.value.isPresent <;> cases o.nodeValue.isPresent <;> simp

/-- **The fields of an object** are those that are given, unless its value is given under
both names. -/
theorem fields?_of_members {child : Outline → Json.Value → Prop} {o : Outline}
    {type value nodeValue left right keyed : List (String × Json.Value)}
    {members : List (Quoted × Json.Value)}
    (htype : Field.Members .null Draft.IsText "type" o.type type)
    (hvalue : Field.Members .null Draft.IsText "value" o.value value)
    (hnodeValue : Field.Members .null Draft.IsText "nodeValue" o.nodeValue nodeValue)
    (hleft : Field.Members .null child "left" o.left left)
    (hright : Field.Members .null child "right" o.right right)
    (hperm : keyed.Perm (type ++ value ++ nodeValue ++ left ++ right))
    (hkeyed : Json.Value.Keyed members keyed) :
    (Json.Value.object members).fields? Draft.fieldNames
      = if (value ++ nodeValue).length ≤ 1 then
          some [type.head?.map Prod.snd, (value ++ nodeValue).head?.map Prod.snd,
            left.head?.map Prod.snd, right.head?.map Prod.snd]
        else none := by
  have hfield (names : List String) {ms : List (String × Json.Value)}
      (h : (if names.contains "type" then type else [])
        ++ (if names.contains "value" then value else [])
        ++ (if names.contains "nodeValue" then nodeValue else [])
        ++ (if names.contains "left" then left else [])
        ++ (if names.contains "right" then right else []) = ms) :
      Json.Value.field? keyed names
        = if ms.length ≤ 1 then some (ms.head?.map Prod.snd) else none :=
    (Json.Value.field?_perm hperm names).trans (Json.Value.field?_of_filter
      ((filter_members (F := .json) htype hvalue hnodeValue hleft hright names).trans h))
  have htypeField : Json.Value.field? keyed ["type"] = some (type.head?.map Prod.snd) :=
    (hfield _ (by simp)).trans (if_pos htype.length_le)
  have hvalueField : Json.Value.field? keyed ["value", "nodeValue"]
      = if (value ++ nodeValue).length ≤ 1 then some ((value ++ nodeValue).head?.map Prod.snd)
        else none := hfield _ (by simp)
  have hleftField : Json.Value.field? keyed ["left"] = some (left.head?.map Prod.snd) :=
    (hfield _ (by simp)).trans (if_pos hleft.length_le)
  have hrightField : Json.Value.field? keyed ["right"] = some (right.head?.map Prod.snd) :=
    (hfield _ (by simp)).trans (if_pos hright.length_le)
  rw [hkeyed.fields?_eq, Draft.fieldNames, List.mapM_cons, List.mapM_cons, List.mapM_cons,
    List.mapM_cons, List.mapM_nil, htypeField, hvalueField, hleftField, hrightField]
  split <;> rfl

/-- **JSON text is read as the draft with its outline**, unless there is no room for its
levels, or an object has a value under both names. -/
theorem ofValue?_of_writtenIn {room : ℕ} {o : Outline} {v : Json.Value}
    (h : o.WrittenIn .json v) :
    Draft.ofValue? room v
      = if o.draft.height ≤ room ∧ o.namesOnce = true then some o.draft else none := by
  induction room generalizing o v with
  | zero =>
    rw [Draft.height_eq, if_neg (by omega)]
    rfl
  | succ room ih =>
    obtain @⟨o, type, value, nodeValue, left, right, keyed, v, htype, hvalue, hnodeValue, hleft,
      hright, hperm, members, rfl, hkeyed⟩ := h
    rw [Draft.ofValue?, fields?_of_members htype hvalue hnodeValue hleft hright hperm hkeyed]
    -- what keeps the node from being read is a second name of its own, or one of its children
    have hfits : o.draft.height ≤ room + 1 ↔ levels (o.left.get?.map draft) ≤ room
        ∧ levels (o.right.get?.map draft) ≤ room := height_draft_le_iff o
    have hnames := namesOnce_iff hvalue hnodeValue
    by_cases hlength : (value ++ nodeValue).length ≤ 1
    · rw [if_pos hlength, Option.bind_eq_bind, Option.bind_some]
      dsimp only
      rw [optional?_text htype, optional?_text_append hvalue hnodeValue hlength,
        optional?_child ih hleft, optional?_child ih hright]
      by_cases hl : levels (o.left.get?.map draft) ≤ room ∧ o.left.get?.all namesOnce = true
      · by_cases hr : levels (o.right.get?.map draft) ≤ room ∧ o.right.get?.all namesOnce = true
        · have hall : o.draft.height ≤ room + 1 ∧ o.namesOnce = true :=
            ⟨hfits.mpr ⟨hl.1, hr.1⟩, hnames.mpr ⟨hlength, hl.2, hr.2⟩⟩
          rw [if_pos hl, if_pos hr, if_pos hall, draft_eq]
          rfl
        · have hall : ¬ (o.draft.height ≤ room + 1 ∧ o.namesOnce = true) := fun h =>
            hr ⟨(hfits.mp h.1).2, (hnames.mp h.2).2.2⟩
          rw [if_pos hl, if_neg hr, if_neg hall]
          rfl
      · have hall : ¬ (o.draft.height ≤ room + 1 ∧ o.namesOnce = true) := fun h =>
          hl ⟨(hfits.mp h.1).1, (hnames.mp h.2).2.1⟩
        rw [if_neg hl, if_neg hall]
        rfl
    · rw [if_neg hlength, if_neg fun h => hlength (hnames.mp h.2).1]
      rfl

/-- JSON text of a tree is read as the draft with its outline, unless there is no room for
its levels, or an object has a value under both names. -/
theorem ofJson_of_writtenAs {o : Outline} {text : String} (h : o.WrittenAs text) :
    Draft.ofJson text
      = if o.draft.height ≤ Json.Value.maxNesting ∧ o.namesOnce = true then .ok o.draft
        else .error (.undecodable .malformed) := by
  obtain ⟨v, hv, htext⟩ := h
  rw [Draft.ofJson, Json.Value.ofText?_eq_some_iff.mpr htext, Option.bind_some,
    ofValue?_of_writtenIn hv]
  split <;> rfl

/-! ## Both readers -/

/-- **A tree that both formats have room for** is read from a dictionary as the draft with
its outline. From JSON text it is read as the same draft exactly if no object has a value
under both names; if one does, the text is not read at all. -/
theorem readings_of_writtenIn {limit : ℕ} {o : Outline} {v : Script.Value} {text : String}
    (hv : o.WrittenIn .dictionary v) (htext : o.WrittenAs text)
    (hheight : o.draft.height ≤ min limit Json.Value.maxNesting) :
    Script.draftOf limit v = .ok o.draft
      ∧ Draft.ofJson text
        = if o.namesOnce then .ok o.draft else .error (.undecodable .malformed) := by
  obtain ⟨hlimit, hnesting⟩ := Nat.le_min.mp hheight
  refine ⟨(draftWithin_of_writtenIn hv).trans (if_pos hlimit), ?_⟩
  rw [ofJson_of_writtenAs htext]
  exact if_congr (and_iff_right hnesting) rfl rfl

/-- A node with a child, its value under the second name, is read alike from a dictionary and
from JSON text that have its members in different orders. -/
theorem readings_of_second_name :
    let child : Outline := ⟨.given "condition", .given "a > 1", .missing, .missing, .missing⟩
    let o : Outline := ⟨.given "operator", .missing, .given "AND", .given child, .null⟩
    let v : Script.Value := .dict [(some "nodeValue", .text "AND"), (some "type", .text "operator"),
      (some "left", .dict [(some "type", .text "condition"), (some "value", .text "a > 1")]),
      (some "right", .nothing)]
    let text := "\x7b\"type\":\"operator\",\"nodeValue\":\"AND\",\"left\":\x7b"
      ++ "\"type\":\"condition\",\"value\":\"a > 1\"\x7d,\"right\":null\x7d"
    o.WrittenIn .dictionary v ∧ o.WrittenAs text ∧ o.draft.height ≤ min 2 Json.Value.maxNesting
      ∧ Script.draftOf 2 v = .ok o.draft ∧ Draft.ofJson text = .ok o.draft := by
  intro child o v text
  have hchild : child.WrittenIn .dictionary (child.write .dictionary) := writtenIn_write _ child
  have hv : o.WrittenIn .dictionary v :=
    .object (.given rfl) .missing (.given rfl) (.given hchild) .null (.swap _ _ _) rfl
  have hrender : (o.write .json).render = text := by decide +kernel
  have htext : o.WrittenAs text := hrender ▸ o.writtenAs_render
  have hheight : o.draft.height ≤ min 2 Json.Value.maxNesting := by decide
  exact ⟨hv, htext, hheight, readings_of_writtenIn hv htext hheight⟩

/-- **The readers part where a value goes by both names**, although one of the two is null:
the dictionary is read, and the JSON text is not. -/
theorem read_but_not_decoded :
    let o : Outline := ⟨.given "condition", .null, .given "a > 1", .missing, .missing⟩
    let v : Script.Value := .dict [(some "type", .text "condition"), (some "value", .nothing),
      (some "nodeValue", .text "a > 1")]
    let text := "\x7b\"type\":\"condition\",\"value\":null,\"nodeValue\":\"a > 1\"\x7d"
    o.WrittenIn .dictionary v ∧ o.WrittenAs text
      ∧ o.draft.height ≤ min 256 Json.Value.maxNesting
      ∧ Script.draftOf 256 v = .ok (.condition "a > 1")
      ∧ Draft.ofJson text = .error (.undecodable .malformed) := by
  intro o v text
  have hrender : (o.write .json).render = text := by decide +kernel
  have htext : o.WrittenAs text := hrender ▸ o.writtenAs_render
  have hnames : ¬ (o.draft.height ≤ Json.Value.maxNesting ∧ o.namesOnce = true) := by decide
  exact ⟨writtenIn_write .dictionary o, htext, by decide, by decide +kernel,
    (ofJson_of_writtenAs htext).trans (if_neg hnames)⟩

end Outline

end RecordRules
