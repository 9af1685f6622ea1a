import RecordRules.Proofs.Json.Value
import RecordRules.Proofs.Outcome
import RecordRules.Proofs.Table
import RecordRules.Record.Json

/-!
# The two readers of a record

A record is read from JSON text in two ways. One reader takes the text for any value, lets a
repeated key have its last value, and only then asks for numbers and strings. The other wants
every member to be a number or a string as it comes. What the second one accepts the first one
reads as the same record, and where no key is repeated the converse holds
(`Record.readers_agree`). A key that is repeated can make them differ, for a value that was
replaced is seen by the second reader alone.

The first reader builds its record from a table, whose keys it visits in ascending order. Hence
of all keys whose last values it cannot take it names the smallest.
-/

namespace RecordRules

open Except (bind_eq_ok_iff bind_eq_error_iff)
open Json (Value Quoted)
open Table (InsertedLast)

/-! ## Values in full -/

/-- A list is read item by item if each of its items is read. -/
theorem mapM_eq_some_iff {α β : Type} {f : α → Option β} {as : List α} {bs : List β} :
    as.mapM f = some bs ↔ List.Forall₂ (fun a b => f a = some b) as bs := by
  induction as generalizing bs with
  | nil =>
    rw [List.mapM_nil, List.forall₂_nil_left_iff, eq_comm]
    exact Option.some_inj
  | cons a as ih =>
    rw [List.mapM_cons, List.forall₂_cons_left_iff, Option.bind_eq_bind,
      Option.bind_eq_some_iff]
    constructor
    · rintro ⟨b, hb, h⟩
      obtain ⟨bs', hbs, h⟩ := Option.bind_eq_some_iff.mp h
      exact ⟨b, bs', hb, ih.mp hbs, (Option.some.inj h).symm⟩
    · rintro ⟨b, bs', hb, hbs, rfl⟩
      exact ⟨b, hb, Option.bind_eq_some_iff.mpr ⟨bs', ih.mpr hbs, rfl⟩⟩

namespace Json.Value

variable {members : List (Quoted × Value)} {keyed : List (String × Value)}

/-- **The value is a number or a string.** -/
def IsNumberOrString (v : Value) : Prop := (∃ n, v = number n) ∨ ∃ q, v = string q

/-- An object that is decoded in full has its members under texts, and decoded in full. -/
theorem exists_keyed_of_isSound {room : ℕ} (h : isSound (room + 1) (object members) = true) :
    ∃ keyed, Keyed members keyed ∧ ∀ m ∈ keyed, isSound room m.2 = true := by
  rw [isSound, List.all_eq_true] at h
  induction members with
  | nil => exact ⟨[], .nil, List.forall_mem_nil _⟩
  | cons m members ih =>
    obtain ⟨hm, hmembers⟩ := List.forall_mem_cons.mp h
    obtain ⟨hkey, hvalue⟩ := Bool.and_eq_true_iff.mp hm
    obtain ⟨key, hkey⟩ := Option.isSome_iff_exists.mp hkey
    obtain ⟨keyed, hkeyed, hvalues⟩ := ih hmembers
    exact ⟨(key, m.2) :: keyed, .cons ⟨hkey, rfl⟩ hkeyed,
      List.forall_mem_cons.mpr ⟨hvalue, hvalues⟩⟩

end Json.Value

/-- **A value that is decoded in full is a datum** exactly if it is a number or a string. -/
theorem Datum.ofValue?_eq_none_iff {room : ℕ} {v : Value} (h : v.isSound room = true) :
    Datum.ofValue? v = none ↔ ¬ v.IsNumberOrString := by
  cases v with
  | number n =>
    rw [Value.isSound, Option.isSome_iff_exists] at h
    obtain ⟨x, hx⟩ := h
    refine iff_of_false ?_ (not_not_intro (.inl ⟨n, rfl⟩))
    rw [ofValue?, hx]
    exact Option.some_ne_none _
  | string q =>
    rw [Value.isSound, Option.isSome_iff_exists] at h
    obtain ⟨text, htext⟩ := h
    refine iff_of_false ?_ (not_not_intro (.inr ⟨q, rfl⟩))
    rw [ofValue?, htext]
    exact Option.some_ne_none _
  | _ =>
    refine iff_of_true rfl ?_
    rintro (⟨_, h⟩ | ⟨_, h⟩)
    · cases h
    · cases h

namespace Record

variable {entries keyed : List (String × Value)} {values : Table Value} {r : Record} {e : Error}
  {text : String}

/-! ## Entry by entry -/

/-- The entry gives the datum, under the same key. -/
def Gives (entry : String × Value) (pair : String × Datum) : Prop :=
  entry.1 = pair.1 ∧ Datum.ofValue? entry.2 = some pair.2

/-- The record with one more entry. -/
def addEntry (record : Record) (entry : String × Value) : Except Error Record :=
  match Datum.ofValue? entry.2 with
  | some datum => .ok (record.insert entry.1 datum)
  | none => .error (.invalidArgument (.badValue entry.1))

/-- Entries are added one after the other. -/
theorem ofEntries_eq_foldlM (entries : List (String × Value)) :
    ofEntries entries = entries.foldlM addEntry Table.empty := rfl

/-- What was added was given. -/
theorem exists_datum_of_addEntry {record : Record} {entry : String × Value}
    (h : addEntry record entry = .ok r) :
    ∃ datum, Gives entry (entry.1, datum) ∧ r = record.insert entry.1 datum := by
  rw [addEntry] at h
  split at h
  · next datum hdatum => exact ⟨datum, ⟨rfl, hdatum⟩, (Except.ok.inj h).symm⟩
  · cases h

/-- What could not be added is no datum. -/
theorem eq_badValue_of_addEntry {record : Record} {entry : String × Value}
    (h : addEntry record entry = .error e) :
    Datum.ofValue? entry.2 = none ∧ e = .invalidArgument (.badValue entry.1) := by
  rw [addEntry] at h
  split at h
  · cases h
  · next hnone => exact ⟨hnone, (Except.error.inj h).symm⟩

/-- **Entries that make a record** all give data, which the record is built of. -/
theorem exists_pairs_of_foldlM {record : Record} (h : entries.foldlM addEntry record = .ok r) :
    ∃ pairs, List.Forall₂ Gives entries pairs
      ∧ r = pairs.foldl (fun t p => t.insert p.1 p.2) record := by
  induction entries generalizing record with
  | nil => exact ⟨[], .nil, (Except.ok.inj h).symm⟩
  | cons entry entries ih =>
    obtain ⟨record', hentry, h⟩ := bind_eq_ok_iff.mp h
    obtain ⟨datum, hdatum, rfl⟩ := exists_datum_of_addEntry hentry
    obtain ⟨pairs, hpairs, rfl⟩ := ih h
    exact ⟨(entry.1, datum) :: pairs, .cons hdatum hpairs, rfl⟩

/-- **Entries that make no record** fail at the first that is no datum. -/
theorem exists_first_of_foldlM {record : Record}
    (h : entries.foldlM addEntry record = .error e) :
    ∃ before key v after, entries = before ++ (key, v) :: after
      ∧ (∀ entry ∈ before, Datum.ofValue? entry.2 ≠ none)
      ∧ Datum.ofValue? v = none ∧ e = .invalidArgument (.badValue key) := by
  induction entries generalizing record with
  | nil => cases h
  | cons entry entries ih =>
    rcases bind_eq_error_iff.mp h with hentry | ⟨record', hentry, h⟩
    · obtain ⟨hnone, he⟩ := eq_badValue_of_addEntry hentry
      exact ⟨[], entry.1, entry.2, entries, rfl, List.forall_mem_nil _, hnone, he⟩
    · obtain ⟨datum, ⟨-, hdatum⟩, -⟩ := exists_datum_of_addEntry hentry
      have hsome : Datum.ofValue? entry.2 ≠ none := hdatum ▸ Option.some_ne_none datum
      obtain ⟨before, key, v, after, rfl, hbefore, hv⟩ := ih h
      exact ⟨entry :: before, key, v, after, rfl, List.forall_mem_cons.mpr ⟨hsome, hbefore⟩, hv⟩

/-! ## The entries of a table -/

/-- **The record holds the values** of a table, each as the datum that it is. -/
def Holds (values : Table Value) (r : Record) : Prop :=
  ∀ key, Option.Rel (fun v datum => Datum.ofValue? v = some datum) (values.get? key) (r.get? key)

/-- Only one record holds the values of a table. -/
theorem Holds.unique {r' : Record} (h : Holds values r) (h' : Holds values r') : r = r' := by
  refine Table.ext_get? fun key => ?_
  have hr := h key
  have hr' := h' key
  generalize r.get? key = x at hr
  generalize r'.get? key = x' at hr'
  generalize values.get? key = y at hr hr'
  cases hr with
  | none => cases hr'; rfl
  | some hv => cases hr' with | some hv' => exact hv.symm.trans hv'

/-- A record that holds a value has a datum for it. -/
theorem Holds.ne_none (h : Holds values r) {key : String} {v : Value}
    (hv : values.get? key = some v) : Datum.ofValue? v ≠ none := by
  have hr := h key
  rw [hv] at hr
  generalize r.get? key = x at hr
  cases hr with
  | some hdatum => exact hdatum ▸ Option.some_ne_none _

/-- The value under the key is no datum. -/
def LacksDatum (values : Table Value) (key : String) : Prop :=
  ∃ v, values.get? key = some v ∧ Datum.ofValue? v = none

/-- **The key is the smallest of the bad ones.** -/
def IsFirst (bad : String → Prop) (key : String) : Prop :=
  bad key ∧ ∀ other, bad other → key ≤ other

/-- There is only one that is the smallest. -/
theorem IsFirst.unique {bad : String → Prop} {key key' : String} (h : IsFirst bad key)
    (h' : IsFirst bad key') : key = key' :=
  String.le_antisymm (h.2 key' h'.1) (h'.2 key h.1)

/-- **The record of the entries of a table** holds its values. -/
theorem holds_of_ofEntries (h : ofEntries values.entries = .ok r) : Holds values r := by
  rw [ofEntries_eq_foldlM] at h
  obtain ⟨pairs, hpairs, rfl⟩ := exists_pairs_of_foldlM h
  have hrel : Holds (Table.ofList values.entries) (Table.ofList pairs) :=
    Table.rel_get?_ofList hpairs
  rwa [Table.ofList_entries] at hrel

/-- **The error of the entries of a table** names the smallest of the keys with values that are
no data. -/
theorem isFirst_of_ofEntries (h : ofEntries values.entries = .error e) :
    ∃ key, IsFirst (LacksDatum values) key ∧ e = .invalidArgument (.badValue key) := by
  rw [ofEntries_eq_foldlM] at h
  obtain ⟨before, key, v, after, hentries, hbefore, hv, he⟩ := exists_first_of_foldlM h
  have hmem : (key, v) ∈ values.entries := hentries ▸ List.mem_append_right _ List.mem_cons_self
  refine ⟨key, ⟨⟨v, Table.mem_entries_iff.mp hmem, hv⟩, ?_⟩, he⟩
  rintro other ⟨w, hother, hw⟩
  -- a bad entry is not one of those before the first, and the keys ascend from there
  have hascending := values.ascending
  have hmem' := Table.mem_entries_iff.mpr hother
  rw [hentries] at hascending hmem'
  obtain ⟨-, hfrom, -⟩ := List.pairwise_append.mp hascending
  rcases List.mem_append.mp hmem' with hb | hrest
  · exact absurd hw (hbefore _ hb)
  · rcases List.mem_cons.mp hrest with heq | ha
    · obtain ⟨rfl, -⟩ := Prod.mk.inj heq
      exact String.le_refl other
    · have hlt : key < other := (List.pairwise_cons.mp hfrom).1 _ ha
      exact String.not_lt.mp (String.lt_asymm hlt)

/-- The entries make the record that holds the values, if there is one. -/
theorem ofEntries_eq_ok_iff : ofEntries values.entries = .ok r ↔ Holds values r := by
  refine ⟨holds_of_ofEntries, fun h => ?_⟩
  cases hr : ofEntries values.entries with
  | ok r' => rw [(holds_of_ofEntries hr).unique h]
  | error e =>
    obtain ⟨key, ⟨⟨v, hv, hnone⟩, -⟩, -⟩ := isFirst_of_ofEntries hr
    exact absurd hnone (h.ne_none hv)

/-- The entries make no record exactly if one of the values is no datum. -/
theorem ofEntries_eq_error_iff :
    ofEntries values.entries = .error e
      ↔ ∃ key, IsFirst (LacksDatum values) key ∧ e = .invalidArgument (.badValue key) := by
  refine ⟨isFirst_of_ofEntries, ?_⟩
  rintro ⟨key, hkey, rfl⟩
  cases hr : ofEntries values.entries with
  | ok r =>
    obtain ⟨v, hv, hnone⟩ := hkey.1
    exact absurd hnone ((holds_of_ofEntries hr).ne_none hv)
  | error e =>
    obtain ⟨key', hkey', rfl⟩ := isFirst_of_ofEntries hr
    rw [hkey'.unique hkey]

/-! ## Texts of objects -/

/-- **The text is an object with these members**, under their texts, that is decoded in full. -/
def IsObject (text : String) (keyed : List (String × Value)) : Prop :=
  ∃ members, (Value.object members).WrittenAs text
    ∧ (Value.object members).isSound Value.maxNesting = true ∧ Value.Keyed members keyed

/-- The last value under the key is neither a number nor a string. -/
def BadKey (keyed : List (String × Value)) (key : String) : Prop :=
  ∃ v, InsertedLast keyed key v ∧ ¬ v.IsNumberOrString

/-- A text is decoded in full if it is JSON text of a value that is. -/
theorem soundOfText?_eq_some_iff {v : Value} :
    Value.soundOfText? text = some v
      ↔ v.WrittenAs text ∧ v.isSound Value.maxNesting = true := by
  rw [Value.soundOfText?, Option.filter_eq_some_iff, Value.ofText?_eq_some_iff]

/-- An object that is decoded in full has its members under texts. -/
theorem exists_isObject {members : List (Json.Quoted × Value)}
    (h : Value.soundOfText? text = some (.object members)) : ∃ keyed, IsObject text keyed := by
  obtain ⟨hwritten, hsound⟩ := soundOfText?_eq_some_iff.mp h
  obtain ⟨keyed, hkeyed, -⟩ := Value.exists_keyed_of_isSound hsound
  exact ⟨keyed, members, hwritten, hsound, hkeyed⟩

/-- **The first reader takes the last value of each key.** -/
theorem ofJson_of_isObject (h : IsObject text keyed) :
    ofJson text = ofEntries (Table.ofList keyed).entries := by
  obtain ⟨members, hwritten, hsound, hkeyed⟩ := h
  rw [ofJson, soundOfText?_eq_some_iff.mpr ⟨hwritten, hsound⟩]
  show ofValue (.object members) = _
  rw [ofValue, hkeyed.decodeKeys?_eq]
  rfl

/-- The key and the datum of a member, if its value is one. -/
def readMember? (m : Json.Quoted × Value) : Option (String × Datum) := do
  return (← m.1.text?, ← Datum.ofValue? m.2)

/-- A member is read as what it gives under its text. -/
theorem readMember?_eq_some_iff {m : Json.Quoted × Value} {entry : String × Value}
    {pair : String × Datum} (h : m.1.text? = some entry.1 ∧ m.2 = entry.2) :
    readMember? m = some pair ↔ Gives entry pair := by
  obtain ⟨hkey, hvalue⟩ := h
  rw [readMember?, hkey, hvalue, Option.bind_eq_bind, Option.bind_some, Option.bind_eq_bind,
    Option.bind_eq_some_iff]
  constructor
  · rintro ⟨datum, hdatum, h⟩
    obtain rfl := Option.some.inj h
    exact ⟨rfl, hdatum⟩
  · rintro ⟨hkey, hdatum⟩
    exact ⟨pair.2, hdatum, congrArg (fun key => some (key, pair.2)) hkey⟩

/-- Members are read as what they give under their texts. -/
theorem mapM_readMember?_eq_some_iff {members : List (Json.Quoted × Value)}
    {pairs : List (String × Datum)} (h : Value.Keyed members keyed) :
    members.mapM readMember? = some pairs ↔ List.Forall₂ Gives keyed pairs := by
  rw [mapM_eq_some_iff]
  induction h generalizing pairs with
  | nil => rw [List.forall₂_nil_left_iff, List.forall₂_nil_left_iff]
  | cons hm _ ih =>
    rw [List.forall₂_cons_left_iff, List.forall₂_cons_left_iff]
    simp only [ih, readMember?_eq_some_iff hm]

/-- **The second reader takes every member.** -/
theorem decode_eq_ok_iff (h : IsObject text keyed) :
    decode text = .ok r
      ↔ ∃ pairs, List.Forall₂ Gives keyed pairs ∧ r = Table.ofList pairs := by
  obtain ⟨members, hwritten, hsound, hkeyed⟩ := h
  have hdecode : decode text
      = Error.decoded ((members.mapM readMember?).map Table.ofList) := by
    rw [decode, soundOfText?_eq_some_iff.mpr ⟨hwritten, hsound⟩]
    show Error.decoded (do return Table.ofList (← members.mapM readMember?)) = _
    cases members.mapM readMember? <;> rfl
  rw [hdecode, Error.decoded_eq_ok_iff, Option.map_eq_some_iff]
  simp only [mapM_readMember?_eq_some_iff hkeyed, eq_comm]

/-! ## Both readers -/

/-- What has a record by the second reader is the text of an object. -/
theorem exists_isObject_of_decode (h : decode text = .ok r) : ∃ keyed, IsObject text keyed := by
  rw [decode, Error.decoded_eq_ok_iff] at h
  obtain ⟨v, hv, hr⟩ := Option.bind_eq_some_iff.mp h
  cases v with
  | object members => exact exists_isObject hv
  | _ => cases hr

/-- **What the second reader accepts** the first one reads as the same record. -/
theorem ofJson_of_decode (h : decode text = .ok r) : ofJson text = .ok r := by
  obtain ⟨keyed, hobject⟩ := exists_isObject_of_decode h
  obtain ⟨pairs, hpairs, rfl⟩ := (decode_eq_ok_iff hobject).mp h
  rw [ofJson_of_isObject hobject, ofEntries_eq_ok_iff]
  exact Table.rel_get?_ofList hpairs

/-- Values that are all data give data. -/
theorem exists_pairs_of_forall_ne_none (h : ∀ m ∈ keyed, Datum.ofValue? m.2 ≠ none) :
    ∃ pairs, List.Forall₂ Gives keyed pairs := by
  induction keyed with
  | nil => exact ⟨[], .nil⟩
  | cons m keyed ih =>
    obtain ⟨hm, hkeyed⟩ := List.forall_mem_cons.mp h
    obtain ⟨datum, hdatum⟩ := Option.ne_none_iff_exists'.mp hm
    obtain ⟨pairs, hpairs⟩ := ih hkeyed
    exact ⟨(m.1, datum) :: pairs, .cons ⟨rfl, hdatum⟩ hpairs⟩

/-- **What the first reader accepts** the second one reads as the same record, if no key is
repeated. -/
theorem decode_of_ofJson (hobject : IsObject text keyed) (hkeys : (keyed.map Prod.fst).Nodup)
    (h : ofJson text = .ok r) : decode text = .ok r := by
  rw [ofJson_of_isObject hobject] at h
  have hdata : ∀ m ∈ keyed, Datum.ofValue? m.2 ≠ none := by
    intro m hm
    have hlast : InsertedLast keyed m.1 m.2 := (Table.insertedLast_iff_mem hkeys).mpr hm
    exact (ofEntries_eq_ok_iff.mp h).ne_none (Table.get?_ofList_eq_some_iff.mpr hlast)
  obtain ⟨pairs, hpairs⟩ := exists_pairs_of_forall_ne_none hdata
  have hdecode : decode text = .ok (Table.ofList pairs) :=
    (decode_eq_ok_iff hobject).mpr ⟨pairs, hpairs, rfl⟩
  have hofJson := ofJson_of_decode hdecode
  rw [ofJson_of_isObject hobject, h] at hofJson
  rw [hdecode, hofJson]

/-- The values that are no data are those that are neither numbers nor strings, for all of them
are decoded in full. -/
theorem lacksDatum_iff_badKey (hobject : IsObject text keyed) (key : String) :
    LacksDatum (Table.ofList keyed) key ↔ BadKey keyed key := by
  obtain ⟨members, -, hsound, hkeyed⟩ := hobject
  obtain ⟨keyed', hkeyed', hvalues⟩ := Value.exists_keyed_of_isSound hsound
  have heq : keyed' = keyed :=
    Option.some.inj (hkeyed'.decodeKeys?_eq.symm.trans hkeyed.decodeKeys?_eq)
  subst heq
  unfold LacksDatum BadKey
  refine exists_congr fun v => ?_
  rw [Table.get?_ofList_eq_some_iff]
  refine and_congr_right fun hlast => ?_
  obtain ⟨before, after, rfl, -⟩ := hlast
  exact Datum.ofValue?_eq_none_iff
    (hvalues (key, v) (List.mem_append_right _ List.mem_cons_self))

/-- **The first reader names the smallest bad key** of an object. -/
theorem ofJson_eq_error_iff (hobject : IsObject text keyed) :
    ofJson text = .error e
      ↔ ∃ key, IsFirst (BadKey keyed) key ∧ e = .invalidArgument (.badValue key) := by
  have hbad : LacksDatum (Table.ofList keyed) = BadKey keyed :=
    funext fun key => propext (lacksDatum_iff_badKey hobject key)
  rw [ofJson_of_isObject hobject, ofEntries_eq_error_iff, hbad]

/-- **The two readers of a record agree** on the text. -/
structure ReadersAgree (text : String) : Prop where
  /-- What the one that reads member by member accepts, the other one reads as the same
  record. -/
  ofJson_of_decode : ∀ r, decode text = .ok r → ofJson text = .ok r
  /-- So it is the other way round for an object without repeated keys. -/
  decode_of_ofJson : ∀ members keyed r, (Value.object members).WrittenAs text →
    Value.Keyed members keyed → (keyed.map Prod.fst).Nodup →
      ofJson text = .ok r → decode text = .ok r
  /-- An object that is decoded in full is refused exactly for keys whose last values are neither
  numbers nor strings, and the error names the smallest of them. -/
  ofJson_eq_error_iff : ∀ keyed e, IsObject text keyed →
    (ofJson text = .error e
      ↔ ∃ key, IsFirst (BadKey keyed) key ∧ e = .invalidArgument (.badValue key))
  /-- A text that is no such object is refused for that alone, by the error that says whether it
  is a value at all. -/
  ofJson_of_not_isObject : (∀ keyed, ¬ IsObject text keyed) →
    ofJson text = .error
      (if (Value.soundOfText? text).isSome then .invalidArgument .recordNotObject
        else .undecodable .malformed)

/-- What is no object has no record by the first reader. -/
theorem ofJson_of_not_isObject (h : ∀ keyed, ¬ IsObject text keyed) :
    ofJson text = .error
      (if (Value.soundOfText? text).isSome then .invalidArgument .recordNotObject
        else .undecodable .malformed) := by
  rw [ofJson]
  cases hv : Value.soundOfText? text with
  | none => rfl
  | some v =>
    cases v with
    | object members =>
      obtain ⟨keyed, hkeyed⟩ := exists_isObject hv
      exact absurd hkeyed (h keyed)
    | _ => rfl

/-- What has a record by the first reader is the text of an object, the one that it is JSON text
of. -/
theorem isObject_of_ofJson {members : List (Json.Quoted × Value)}
    (hwritten : (Value.object members).WrittenAs text) (hkeyed : Value.Keyed members keyed)
    (h : ofJson text = .ok r) : IsObject text keyed := by
  obtain ⟨v, hv, -⟩ := bind_eq_ok_iff.mp h
  obtain ⟨hwritten', hsound⟩ := soundOfText?_eq_some_iff.mp (Error.decoded_eq_ok_iff.mp hv)
  rw [← Value.ofText?_eq_some_iff] at hwritten' hwritten
  obtain rfl := Option.some.inj (hwritten'.symm.trans hwritten)
  exact ⟨members, Value.ofText?_eq_some_iff.mp hwritten, hsound, hkeyed⟩

/-- **The two readers of a record agree** but for keys that are repeated. -/
theorem readers_agree (text : String) : ReadersAgree text where
  ofJson_of_decode _ := ofJson_of_decode
  decode_of_ofJson _ _ _ hwritten hkeyed hkeys h :=
    decode_of_ofJson (isObject_of_ofJson hwritten hkeyed h) hkeys h
  ofJson_eq_error_iff _ _ := ofJson_eq_error_iff
  ofJson_of_not_isObject := ofJson_of_not_isObject

-- A value that was replaced is seen by one reader and not by the other.
example : ofJson "\x7b\"a\":null,\"a\":\"b\"\x7d" = .ok (Table.ofList [("a", .text "b")]) := by
  cbv

example : decode "\x7b\"a\":null,\"a\":\"b\"\x7d" = .error (.undecodable .malformed) := by
  cbv

end Record

end RecordRules
