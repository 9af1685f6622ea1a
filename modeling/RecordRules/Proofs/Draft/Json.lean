import Mathlib.Data.Nat.Notation
import RecordRules.Draft.Json
import RecordRules.Proofs.Json.Value

/-!
# The JSON texts of a draft

A draft may be written as JSON text in many ways (`Draft.WrittenAs`). Each node is an
object, whose members may come in any order; a field that there is nothing to give for may
be left out or be null; the value goes by two names, and by either of them at each node;
there may be members under other keys, whose values are well-formed and mean nothing; and
the text may be laid out as any JSON text may, its strings spelled with any escapes.

Reading gives the draft from all of these texts, and the text that a draft is written as is
one of them (`Draft.ofJson_writtenAs`), provided that there is room for as many nested
objects as the draft has levels: each level of nodes is an object in the one above it, and
reading stops where the room does. A draft whose text nests too deep is not read as another
one; it is not read at all. What is passed over takes no room.
-/

namespace RecordRules.Draft

open Json (Value Quoted)

/-! ## How drafts may be written -/

/-- **How a field may be given**, in terms of how what it holds may be written. -/
inductive Given {α : Type} (writes : α → Value → Prop) : Option α → Option Value → Prop where
  | omitted : Given writes none none
  | null : Given writes none (some .null)
  | given {a : α} {v : Value} : writes a v → Given writes (some a) (some v)

/-- The value is a string of the text. -/
def IsText (text : String) (v : Value) : Prop := ∃ q, v = .string q ∧ q.text? = some text

/-- The member that gives a field, if it is given. -/
def entry (name : String) (field : Option Value) : List (String × Value) :=
  field.toList.map fun v => (name, v)

/-- **The value describes the draft**: it is an object whose members, under their texts and
put in order, give the four fields of the draft and are followed by others under other
keys. -/
inductive DescribedBy : Draft → Value → Prop where
  | object {d : Draft} {members : List (Quoted × Value)}
      {keyed others : List (String × Value)} {type value left right : Option Value}
      {valueName : String} :
      Value.Keyed members keyed →
      keyed.Perm (entry "type" type ++ entry valueName value ++ entry "left" left
        ++ entry "right" right ++ others) →
      Given IsText d.type type →
      valueName = "value" ∨ valueName = "nodeValue" →
      Given IsText d.value value →
      Given DescribedBy d.left left →
      Given DescribedBy d.right right →
      (∀ m ∈ others, ∀ names ∈ fieldNames, names.contains m.1 = false) →
      DescribedBy d (.object members)

/-- **The text is JSON text of the draft.** -/
def WrittenAs (d : Draft) (text : String) : Prop :=
  ∃ v : Value, d.DescribedBy v ∧ v.WrittenAs text

/-! ## The compact text -/

/-- The members of the object that a draft is written as. -/
def members (d : Draft) : List (String × Value) :=
  entry "type" (some (valueOfText d.type)) ++ entry "value" (some (valueOfText d.value))
    ++ entry "left" (d.left.map toValue) ++ entry "right" (d.right.map toValue)

/-- **A draft is written as the object of its members.** -/
theorem toValue_eq (d : Draft) : d.toValue = .ofMembers d.members := by
  obtain ⟨t, v, l, r⟩ := d
  cases l <;> cases r <;> rfl

/-- A text that may be missing can be written. -/
theorem spellable_valueOfText (text : Option String) : (valueOfText text).Spellable := by
  cases text with
  | none => exact List.forall_mem_singleton.mpr trivial
  | some text => exact Value.spellable_ofText text

/-- A text that may be missing is written as a text or as null. -/
theorem given_valueOfText (text : Option String) :
    Given IsText text (some (valueOfText text)) := by
  cases text with
  | none => exact .null
  | some text => exact .given ⟨.ofText text, rfl, Quoted.text?_ofText text⟩

/-- **A draft can be written.** -/
theorem spellable_toValue (d : Draft) : d.toValue.Spellable := by
  have hentry {name : String} {field : Option Value} (h : ∀ v ∈ field, v.Spellable) :
      ∀ m ∈ entry name field, m.2.Spellable := by
    rw [entry, List.forall_mem_map]
    exact fun v hv => h v (Option.mem_toList.mp hv)
  have hchild {child : Option Draft} (h : ∀ d ∈ child, d.toValue.Spellable) :
      ∀ v ∈ child.map toValue, v.Spellable := by
    intro v hv
    obtain ⟨d, hd, rfl⟩ := Option.map_eq_some_iff.mp hv
    exact h d hd
  match d with
  | ⟨t, v, l, r⟩ =>
    have hl : ∀ d ∈ l, d.toValue.Spellable := fun d _ => spellable_toValue d
    have hr : ∀ d ∈ r, d.toValue.Spellable := fun d _ => spellable_toValue d
    rw [toValue_eq]
    refine Value.spellable_ofMembers ?_
    rw [members, List.forall_mem_append, List.forall_mem_append, List.forall_mem_append]
    refine ⟨⟨⟨hentry ?_, hentry ?_⟩, hentry (hchild hl)⟩, hentry (hchild hr)⟩
    · exact fun _ hv => Option.some.inj hv ▸ spellable_valueOfText t
    · exact fun _ hw => Option.some.inj hw ▸ spellable_valueOfText v

/-- **The object that a draft is written as describes it.** -/
theorem describedBy_toValue (d : Draft) : d.DescribedBy d.toValue := by
  have hchild {child : Option Draft} (h : ∀ d ∈ child, d.DescribedBy d.toValue) :
      Given DescribedBy child (child.map toValue) := by
    cases child with
    | none => exact .omitted
    | some d => exact .given (h d rfl)
  match d with
  | ⟨t, v, l, r⟩ =>
    have hl : ∀ d ∈ l, d.DescribedBy d.toValue := fun d _ => describedBy_toValue d
    have hr : ∀ d ∈ r, d.DescribedBy d.toValue := fun d _ => describedBy_toValue d
    rw [toValue_eq]
    refine .object (Value.keyed_ofText _) ?_ (given_valueOfText t) (.inl rfl)
      (given_valueOfText v) (hchild hl) (hchild hr) (List.forall_mem_nil _)
    rw [List.append_nil]
    exact .refl _

/-- **The compact text of a draft is JSON text of it.** -/
theorem writtenAs_toJson (d : Draft) : d.WrittenAs d.toJson :=
  ⟨d.toValue, d.describedBy_toValue, Value.writtenAs_render d.spellable_toValue⟩

/-! ## Reading -/

section Fields

variable {type value left right : Option Value} {valueName : String}
  {keyed others : List (String × Value)} {members : List (Quoted × Value)}

/-- A member is asked for by a name that it goes by. -/
theorem filter_entry (names : List String) (name : String) (field : Option Value) :
    (entry name field).filter (fun m => names.contains m.1)
      = if names.contains name then entry name field else [] := by
  cases field with
  | none => exact (ite_self []).symm
  | some v =>
    show List.filter _ [(name, v)] = _
    rw [List.filter_singleton]
    cases names.contains name <;> rfl

/-- A field is looked up as it is given. -/
theorem field?_eq_of_filter {name : String} {field : Option Value} {names : List String}
    (h : keyed.filter (fun m => names.contains m.1) = entry name field) :
    Value.field? keyed names = some field := by
  rw [Value.field?, h]
  cases field <;> rfl

/-- **The fields of an object are those that it gives**, whatever the order of its members
and whatever other members it has. -/
theorem fields?_of_keyed (hkeyed : Value.Keyed members keyed)
    (hperm : keyed.Perm (entry "type" type ++ entry valueName value ++ entry "left" left
      ++ entry "right" right ++ others))
    (hname : valueName = "value" ∨ valueName = "nodeValue")
    (hothers : ∀ m ∈ others, ∀ names ∈ fieldNames, names.contains m.1 = false) :
    (Value.object members).fields? fieldNames = some [type, value, left, right] := by
  -- of all members, those that a field goes by are the one that gives it
  have hfield (name : String) {names : List String} {field : Option Value}
      (hnames : names ∈ fieldNames)
      (h : (if names.contains "type" then entry "type" type else [])
        ++ (if names.contains valueName then entry valueName value else [])
        ++ (if names.contains "left" then entry "left" left else [])
        ++ (if names.contains "right" then entry "right" right else []) = entry name field) :
      Value.field? keyed names = some field := by
    have hnone : others.filter (fun m => names.contains m.1) = [] :=
      List.filter_eq_nil_iff.mpr fun m hm => Bool.eq_false_iff.mp (hothers m hm names hnames)
    rw [Value.field?_perm hperm]
    refine field?_eq_of_filter (Eq.trans ?_ h)
    rw [List.filter_append, List.filter_append, List.filter_append, List.filter_append,
      filter_entry, filter_entry, filter_entry, filter_entry, hnone, List.append_nil]
  rw [hkeyed.fields?_eq]
  obtain ⟨hvalueName, htypeName, hleftName, hrightName⟩ :
      ["value", "nodeValue"].contains valueName = true ∧ ["type"].contains valueName = false
        ∧ ["left"].contains valueName = false ∧ ["right"].contains valueName = false := by
    rcases hname with rfl | rfl <;> decide
  have htype : Value.field? keyed ["type"] = some type :=
    hfield "type" (by decide) (by rw [htypeName]; simp)
  have hvalue : Value.field? keyed ["value", "nodeValue"] = some value :=
    hfield valueName (by decide) (by rw [hvalueName]; simp)
  have hleft : Value.field? keyed ["left"] = some left :=
    hfield "left" (by decide) (by rw [hleftName]; simp)
  have hright : Value.field? keyed ["right"] = some right :=
    hfield "right" (by decide) (by rw [hrightName]; simp)
  rw [fieldNames, List.mapM_cons, List.mapM_cons, List.mapM_cons, List.mapM_cons, List.mapM_nil,
    htype, hvalue, hleft, hright]
  rfl

end Fields

/-- A text is read as it is given. -/
theorem optional?_of_isText {text : Option String} {field : Option Value}
    (h : Given IsText text field) : optional? Value.text? field = some text := by
  cases h with
  | omitted => rfl
  | null => rfl
  | given hv =>
    obtain ⟨q, rfl, hq⟩ := hv
    show q.text?.map some = _
    rw [hq, Option.map_some]

/-- A child is read as it is given, where drafts are. -/
theorem optional?_of_describedBy {room : ℕ}
    (h : ∀ {d : Draft} {v : Value}, d.DescribedBy v →
      ofValue? room v = if d.height ≤ room then some d else none)
    {child : Option Draft} {field : Option Value} (hchild : Given DescribedBy child field) :
    optional? (fun w => ofValue? room w) field
      = if levels child ≤ room then some child else none := by
  cases hchild with
  | omitted => rfl
  | null => rfl
  | @given d v hv =>
    have hobject : optional? (fun w => ofValue? room w) (some v)
        = (ofValue? room v).map some := by
      cases hv
      rfl
    rw [hobject, h hv, levels, Option.elim_some]
    split <;> rfl

/-- **A value that describes a draft is read as the draft** exactly if there is room for its
levels. -/
theorem ofValue?_of_describedBy (room : ℕ) {d : Draft} {v : Value} (h : d.DescribedBy v) :
    ofValue? room v = if d.height ≤ room then some d else none := by
  -- the induction is on the room, as reading is; a draft has a level, and fits into none
  induction room generalizing d v with
  | zero =>
    rw [height_eq, if_neg (by omega)]
    rfl
  | succ room ih =>
    have hheight : d.height ≤ room + 1 ↔ levels d.left ≤ room ∧ levels d.right ≤ room := by
      rw [height_eq]
      omega
    obtain ⟨hkeyed, hperm, htype, hname, hvalue, hleft, hright, hothers⟩ := h
    rw [ofValue?, fields?_of_keyed hkeyed hperm hname hothers, Option.bind_eq_bind,
      Option.bind_some]
    dsimp only
    rw [optional?_of_isText htype, optional?_of_isText hvalue, optional?_of_describedBy ih hleft,
      optional?_of_describedBy ih hright]
    by_cases hl : levels d.left ≤ room
    · by_cases hr : levels d.right ≤ room
      · rw [if_pos hl, if_pos hr, if_pos (hheight.mpr ⟨hl, hr⟩)]
        cases d
        rfl
      · rw [if_pos hl, if_neg hr, if_neg fun h => hr (hheight.mp h).2]
        rfl
    · rw [if_neg hl, if_neg fun h => hl (hheight.mp h).1]
      rfl

/-- **A draft is read back from the object that it is written as** exactly if there is room
for its levels. -/
theorem ofValue?_toValue (room : ℕ) (d : Draft) :
    ofValue? room d.toValue = if d.height ≤ room then some d else none :=
  ofValue?_of_describedBy room d.describedBy_toValue

/-- JSON text of a draft is read as the draft exactly if its levels may be nested. -/
theorem ofJson_of_writtenAs {d : Draft} {text : String} (h : d.WrittenAs text) :
    ofJson text
      = if d.height ≤ Value.maxNesting then .ok d else .error (.undecodable .malformed) := by
  obtain ⟨v, hv, htext⟩ := h
  rw [ofJson, Value.ofText?_eq_some_iff.mpr htext, Option.bind_some, ofValue?_of_describedBy _ hv]
  split <;> rfl

/-- **A draft is read back from its compact text** exactly if its levels may be nested. -/
theorem ofJson_toJson (d : Draft) :
    ofJson d.toJson
      = if d.height ≤ Value.maxNesting then .ok d else .error (.undecodable .malformed) :=
  ofJson_of_writtenAs d.writtenAs_toJson

/-- **Every JSON text of a draft is read as the draft**, exactly if its levels may be
nested; and the text that it is written as is one of them. -/
theorem ofJson_writtenAs (d : Draft) :
    d.WrittenAs d.toJson ∧ ∀ text, d.WrittenAs text →
      ofJson text
        = if d.height ≤ Value.maxNesting then .ok d else .error (.undecodable .malformed) :=
  ⟨d.writtenAs_toJson, fun _ => ofJson_of_writtenAs⟩

/-- The members are out of order, the child's value goes by its other name and is spelled
with an escape, a field is left out, another is null, and there is an array under a key that
means nothing. -/
theorem ofJson_of_another_text :
    let d : Draft := ⟨none, some "AND", some ⟨none, some "J", none, none⟩, none⟩
    let text := "\x7b\"left\":\x7b\"nodeValue\":\"\\u004A\"\x7d,\"value\":\"AND\","
      ++ "\"x\":[-1.5E+3],\n\"right\" : null\x7d"
    d.WrittenAs text ∧ text ≠ d.toJson ∧ ofJson text = .ok d := by
  intro d text
  let child : Value := .ofMembers [("nodeValue", .string [.unit 0x4A])]
  let number : Json.Numeral := ⟨true, [1], [5], some ⟨false, [3]⟩⟩
  let v : Value := .ofMembers
    [("left", child), ("value", .string (.ofText "AND")), ("x", .array [.number number]),
      ("right", .null)]
  have hchild : DescribedBy ⟨none, some "J", none, none⟩ child :=
    .object (Value.keyed_ofText _) (.refl _) .omitted (.inr rfl)
      (.given ⟨_, rfl, by decide +kernel⟩) .omitted .omitted (List.forall_mem_nil _)
  have hdescribed : d.DescribedBy v :=
    .object (Value.keyed_ofText _)
      ((List.Perm.swap _ _ _).trans (.cons _ (.cons _ (.swap _ _ _)))) .omitted (.inl rfl)
      (.given ⟨_, rfl, Quoted.text?_ofText "AND"⟩) (.given hchild) .null
      (List.forall_mem_singleton.mpr (by decide))
  have hstring (text : String) : (Json.Lexeme.string (.ofText text)).WrittenAs
      (Json.Lexeme.string (.ofText text)).spell :=
    Json.Lexeme.writtenAs_spell (Quoted.spellable_ofText text)
  have hescape : (Json.Lexeme.string [.unit 0x4A]).WrittenAs "\"\\u004A\"".toList :=
    ⟨_, .cons (.unit (a := '0') (b := '0') (c := '4') (d := 'A') rfl) .nil, by decide +kernel⟩
  have hnumber : number.WrittenAs "-1.5E+3".toList := by
    have hwhole : ∀ ds, number.whole = 0 :: ds → ds = [] :=
      fun _ h => absurd (List.cons.inj h).1 (by decide)
    have hexponent : Json.Exponent.WrittenAs number.exponent ['E', '+', '3'] :=
      .plus (.inr rfl) (List.cons_ne_nil 3 [])
    exact .mk (List.cons_ne_nil 1 []) hwhole hexponent
  obtain ⟨cs, hlayout, hcs⟩ : ∃ cs, Json.Layout v.lexemes cs ∧ text.toList = cs :=
    ⟨_, .lexeme rfl <| .lexeme (hstring "left") <| .lexeme rfl <| .lexeme rfl <|
      .lexeme (hstring "nodeValue") <| .lexeme rfl <| .lexeme hescape <| .lexeme rfl <|
      .lexeme rfl <| .lexeme (hstring "value") <| .lexeme rfl <| .lexeme (hstring "AND") <|
      .lexeme rfl <| .lexeme (hstring "x") <| .lexeme rfl <| .lexeme rfl <| .lexeme hnumber <|
      .lexeme rfl <| .lexeme rfl <| .space (c := '\n') rfl <| .lexeme (hstring "right") <|
      .space (c := ' ') rfl <| .lexeme rfl <| .space (c := ' ') rfl <| .lexeme rfl <|
      .lexeme rfl .done, by decide +kernel⟩
  have htext : v.WrittenAs text := by
    rw [Value.WrittenAs, hcs]
    exact hlayout
  have hwritten : d.WrittenAs text := ⟨v, hdescribed, htext⟩
  exact ⟨hwritten, by decide +kernel,
    ((ofJson_writtenAs d).2 text hwritten).trans (if_pos (by decide))⟩

end RecordRules.Draft
