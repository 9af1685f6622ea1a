import Mathlib.Data.List.Forall2
import RecordRules.Json.Value
import RecordRules.Proofs.Json.Lexeme

/-!
# Values that are read

A text is JSON text of a value if it lays out the lexemes of the value
(`Json.Value.WrittenAs`). These texts, and no others, are read as the value
(`Json.Value.ofText?_eq_some_iff`).

The proof goes along with the reader. Each way in which it puts a value together of others
is a rule about what readings give (`Json.Value.Gives`). From these rules it follows that
every value is read back from its lexemes, whatever follows them
(`Json.Value.gives_lexemes`), by the recursion of values, and that nothing is read from other
lexemes (`Json.Value.lexemes_of_gives`), by the recursion of the reader.

An object whose keys are strings of texts has its fields looked up under these texts
(`Keyed.fields?_eq`), in whatever order its members are (`field?_perm`).
-/

namespace RecordRules.Json.Value

/-- **The reading gives this** and leaves the rest. -/
def Gives {α : Type} {bound : Nat} (reading : Read α bound) (a : α) (rest : List Lexeme) :
    Prop :=
  ∃ h, reading = some (a, ⟨rest, h⟩)

variable {ls more rest : List Lexeme} {v : Value} {k : Quoted} {items : List Value}
  {members : List (Quoted × Value)}

/-! ## How readings are put together -/

/-- What a reading gives is told by the reading. -/
theorem Gives.unique {α : Type} {bound : Nat} {reading : Read α bound} {a b : α}
    (h : Gives reading a rest) (h' : Gives reading b more) : a = b ∧ rest = more := by
  obtain ⟨_, h⟩ := h
  obtain ⟨_, h'⟩ := h'
  cases h.symm.trans h'
  exact ⟨rfl, rfl⟩

/-- An item before the bracket is the last one. -/
theorem gives_item (h : Gives (readValue? ls) v (.closeArray :: rest)) :
    Gives (readItems? ls) [v] rest := by
  obtain ⟨_, hv⟩ := h
  rw [readItems?, hv]
  exact ⟨_, rfl⟩

/-- **An item before a comma** is followed by others. -/
theorem gives_items_iff (h : Gives (readValue? ls) v (.comma :: more)) :
    Gives (readItems? ls) items rest
      ↔ ∃ vs, items = v :: vs ∧ Gives (readItems? more) vs rest := by
  obtain ⟨_, hv⟩ := h
  rw [readItems?, hv]
  constructor
  · rintro ⟨_, h⟩
    obtain ⟨⟨vs, tail⟩, hvs, heq⟩ := Option.map_eq_some_iff.mp h
    cases heq
    exact ⟨vs, rfl, _, hvs⟩
  · rintro ⟨vs, rfl, _, hvs⟩
    dsimp only
    rw [hvs]
    exact ⟨_, rfl⟩

/-- A member before the brace is the last one. -/
theorem gives_member (h : Gives (readValue? ls) v (.closeObject :: rest)) :
    Gives (readMembers? (.string k :: .colon :: ls)) [(k, v)] rest := by
  obtain ⟨_, hv⟩ := h
  rw [readMembers?, hv]
  exact ⟨_, rfl⟩

/-- **A member before a comma** is followed by others. -/
theorem gives_members_iff (h : Gives (readValue? ls) v (.comma :: more)) :
    Gives (readMembers? (.string k :: .colon :: ls)) members rest
      ↔ ∃ ms, members = (k, v) :: ms ∧ Gives (readMembers? more) ms rest := by
  obtain ⟨_, hv⟩ := h
  rw [readMembers?, hv]
  constructor
  · rintro ⟨_, h⟩
    obtain ⟨⟨ms, tail⟩, hms, heq⟩ := Option.map_eq_some_iff.mp h
    cases heq
    exact ⟨ms, rfl, _, hms⟩
  · rintro ⟨ms, rfl, _, hms⟩
    dsimp only
    rw [hms]
    exact ⟨_, rfl⟩

/-- **An array is read as its items**, unless it is closed at once. -/
theorem gives_array_iff (hne : ∀ more, ls ≠ .closeArray :: more) :
    Gives (readValue? (.openArray :: ls)) v rest
      ↔ ∃ items, v = array items ∧ Gives (readItems? ls) items rest := by
  rw [readValue?.eq_6 ls hne]
  constructor
  · rintro ⟨_, h⟩
    obtain ⟨⟨items, tail⟩, hitems, heq⟩ := Option.map_eq_some_iff.mp h
    cases heq
    exact ⟨items, rfl, _, hitems⟩
  · rintro ⟨items, rfl, _, hitems⟩
    rw [hitems]
    exact ⟨_, rfl⟩

/-- **An object is read as its members**, unless it is closed at once. -/
theorem gives_object_iff (hne : ∀ more, ls ≠ .closeObject :: more) :
    Gives (readValue? (.openObject :: ls)) v rest
      ↔ ∃ members, v = object members ∧ Gives (readMembers? ls) members rest := by
  rw [readValue?.eq_8 ls hne]
  constructor
  · rintro ⟨_, h⟩
    obtain ⟨⟨members, tail⟩, hmembers, heq⟩ := Option.map_eq_some_iff.mp h
    cases heq
    exact ⟨members, rfl, _, hmembers⟩
  · rintro ⟨members, rfl, _, hmembers⟩
    rw [hmembers]
    exact ⟨_, rfl⟩

/-! ## Lexemes of values -/

/-- No value begins with the bracket that closes an array. -/
theorem lexemes_append_ne (v : Value) (ls more : List Lexeme) :
    v.lexemes ++ ls ≠ .closeArray :: more := by
  cases v <;> exact fun h => Lexeme.noConfusion (List.cons.inj h).1

mutual

/-- **A value is read back from its lexemes**, whatever follows. -/
theorem gives_lexemes : (v : Value) → (rest : List Lexeme) →
    Gives (readValue? (v.lexemes ++ rest)) v rest
  | null, rest => ⟨_, readValue?.eq_1 rest⟩
  | truth b, rest => ⟨_, readValue?.eq_2 b rest⟩
  | number n, rest => ⟨_, readValue?.eq_3 n rest⟩
  | string q, rest => ⟨_, readValue?.eq_4 q rest⟩
  | array [], rest => ⟨_, readValue?.eq_5 rest⟩
  | array (v :: vs), rest => by
    rw [lexemes, List.cons_append, List.append_assoc, List.singleton_append]
    refine (gives_array_iff fun more => ?_).mpr
      ⟨v :: vs, rfl, gives_itemLexemes (v :: vs) nofun rest⟩
    cases vs with
    | nil => exact lexemes_append_ne v _ more
    | cons w vs =>
      rw [itemLexemes, List.append_assoc]
      exact lexemes_append_ne v _ more
  | object [], rest => ⟨_, readValue?.eq_7 rest⟩
  | object (m :: ms), rest => by
    rw [lexemes, List.cons_append, List.append_assoc, List.singleton_append]
    refine (gives_object_iff fun more => ?_).mpr
      ⟨m :: ms, rfl, gives_memberLexemes (m :: ms) nofun rest⟩
    cases ms with
    | nil => exact fun h => Lexeme.noConfusion (List.cons.inj h).1
    | cons m' ms => exact fun h => Lexeme.noConfusion (List.cons.inj h).1

/-- The items of an array are read back up to the bracket. -/
theorem gives_itemLexemes : (items : List Value) → items ≠ [] → (rest : List Lexeme) →
    Gives (readItems? (itemLexemes items ++ .closeArray :: rest)) items rest
  | [], hne, _ => absurd rfl hne
  | [v], _, rest => gives_item (gives_lexemes v (.closeArray :: rest))
  | v :: w :: vs, _, rest => by
    rw [itemLexemes, List.append_assoc, List.cons_append]
    exact (gives_items_iff (gives_lexemes v _)).mpr
      ⟨w :: vs, rfl, gives_itemLexemes (w :: vs) nofun rest⟩

/-- The members of an object are read back up to the brace. -/
theorem gives_memberLexemes : (members : List (Quoted × Value)) → members ≠ [] →
    (rest : List Lexeme) →
    Gives (readMembers? (memberLexemes members ++ .closeObject :: rest)) members rest
  | [], hne, _ => absurd rfl hne
  | [(k, v)], _, rest => gives_member (gives_lexemes v (.closeObject :: rest))
  | (k, v) :: m :: ms, _, rest => by
    rw [memberLexemes, List.cons_append, List.cons_append, List.append_assoc, List.cons_append]
    exact (gives_members_iff (gives_lexemes v _)).mpr
      ⟨m :: ms, rfl, gives_memberLexemes (m :: ms) nofun rest⟩

end

/-! ## Values of lexemes -/

/-- What is read from the lexemes of a value is spelled by them. -/
theorem lexemes_append_eq (w : Value) (more : List Lexeme)
    (h : Gives (readValue? (w.lexemes ++ more)) v rest) :
    w.lexemes ++ more = v.lexemes ++ rest := by
  obtain ⟨rfl, rfl⟩ := h.unique (gives_lexemes w more)
  rfl

/-- **Whatever is read is spelled by the lexemes that it was read from.** -/
theorem lexemes_of_gives :
    (∀ ls v rest, Gives (readValue? ls) v rest → ls = v.lexemes ++ rest)
      ∧ (∀ ls members rest, Gives (readMembers? ls) members rest →
        members ≠ [] ∧ ls = memberLexemes members ++ .closeObject :: rest)
      ∧ ∀ ls items rest, Gives (readItems? ls) items rest →
        items ≠ [] ∧ ls = itemLexemes items ++ .closeArray :: rest := by
  -- nine cases of a value, four of members and three of items, as the reader tells them apart
  apply readValue?.mutual_induct
  case case1 => exact fun more _ _ h => lexemes_append_eq null more h
  case case2 => exact fun b more _ _ h => lexemes_append_eq (truth b) more h
  case case3 => exact fun n more _ _ h => lexemes_append_eq (number n) more h
  case case4 => exact fun q more _ _ h => lexemes_append_eq (string q) more h
  case case5 => exact fun more _ _ h => lexemes_append_eq (array []) more h
  case case6 =>
    intro ls hne ih v rest h
    obtain ⟨items, rfl, hitems⟩ := (gives_array_iff hne).mp h
    rw [(ih items rest hitems).2, lexemes, List.cons_append, List.append_assoc,
      List.singleton_append]
  case case7 => exact fun more _ _ h => lexemes_append_eq (object []) more h
  case case8 =>
    intro ls hne ih v rest h
    obtain ⟨members, rfl, hmembers⟩ := (gives_object_iff hne).mp h
    rw [(ih members rest hmembers).2, lexemes, List.cons_append, List.append_assoc,
      List.singleton_append]
  case case9 =>
    rintro ls hnull htruth hnumber hstring hempty harray hnone hobject v rest ⟨_, h⟩
    rw [readValue?.eq_9 ls hnull htruth hnumber hstring hempty harray hnone hobject] at h
    cases h
  case case10 =>
    intro k ls v rest hlt hread ih members rest' h
    obtain ⟨rfl, rfl⟩ := h.unique (gives_member ⟨hlt, hread⟩)
    refine ⟨List.cons_ne_nil _ _, ?_⟩
    rw [ih v _ ⟨hlt, hread⟩]
    rfl
  case case11 =>
    intro k ls v rest hlt hread ih ihmore members rest' h
    obtain ⟨ms, rfl, hms⟩ := (gives_members_iff ⟨hlt, hread⟩).mp h
    obtain ⟨hne, hmore⟩ := ihmore ms rest' hms
    obtain ⟨m, ms, rfl⟩ := List.exists_cons_of_ne_nil hne
    refine ⟨List.cons_ne_nil _ _, ?_⟩
    rw [ih v _ ⟨hlt, hread⟩, hmore, memberLexemes, List.cons_append, List.cons_append,
      List.append_assoc, List.cons_append]
  case case12 =>
    rintro k ls hlast hmore - members rest ⟨_, h⟩
    rw [readMembers?] at h
    split at h
    · next hread => exact (hlast _ _ _ hread).elim
    · next hread => exact (hmore _ _ _ hread).elim
    · cases h
  case case13 =>
    rintro ls hne members rest ⟨_, h⟩
    rw [readMembers?.eq_2 ls hne] at h
    cases h
  case case14 =>
    intro ls v rest hlt hread ih items rest' h
    obtain ⟨rfl, rfl⟩ := h.unique (gives_item ⟨hlt, hread⟩)
    exact ⟨List.cons_ne_nil _ _, ih v _ ⟨hlt, hread⟩⟩
  case case15 =>
    intro ls v rest hlt hread ih ihmore items rest' h
    obtain ⟨vs, rfl, hvs⟩ := (gives_items_iff ⟨hlt, hread⟩).mp h
    obtain ⟨hne, hmore⟩ := ihmore vs rest' hvs
    obtain ⟨w, vs, rfl⟩ := List.exists_cons_of_ne_nil hne
    refine ⟨List.cons_ne_nil _ _, ?_⟩
    rw [ih v _ ⟨hlt, hread⟩, hmore, itemLexemes, List.append_assoc, List.cons_append]
  case case16 =>
    rintro ls hlast hmore - items rest ⟨_, h⟩
    rw [readItems?] at h
    split at h
    · next hread => exact (hlast _ _ _ hread).elim
    · next hread => exact (hmore _ _ _ hread).elim
    · cases h

/-! ## Numerals among lexemes -/

/-- A lexeme that is no numeral may stand before any other. -/
theorem parted_cons {l : Lexeme} (hl : l.isNumber = false) (hls : Lexeme.Parted ls) :
    Lexeme.Parted (l :: ls) :=
  ⟨fun hnumber => absurd (hl.symm.trans hnumber) Bool.false_ne_true, hls⟩

mutual

/-- **No numeral of a value directly follows another**, nor does one after the value. -/
theorem parted_lexemes_append : (v : Value) → {rest : List Lexeme} → Lexeme.Parted rest →
    (∀ l ∈ rest.head?, l.isNumber = false) → Lexeme.Parted (v.lexemes ++ rest)
  | null, _, hrest, _ => parted_cons rfl hrest
  | truth _, _, hrest, _ => parted_cons rfl hrest
  | string _, _, hrest, _ => parted_cons rfl hrest
  | number _, _, hrest, hfirst => ⟨fun _ => hfirst, hrest⟩
  | array items, rest, hrest, _ => by
    rw [lexemes, List.cons_append, List.append_assoc, List.singleton_append]
    exact parted_cons rfl (parted_itemLexemes_append items (parted_cons rfl hrest)
      fun _ hl => Option.some.inj hl ▸ rfl)
  | object members, rest, hrest, _ => by
    rw [lexemes, List.cons_append, List.append_assoc, List.singleton_append]
    exact parted_cons rfl (parted_memberLexemes_append members (parted_cons rfl hrest)
      fun _ hl => Option.some.inj hl ▸ rfl)

/-- Commas part the items of an array. -/
theorem parted_itemLexemes_append : (items : List Value) → {rest : List Lexeme} →
    Lexeme.Parted rest → (∀ l ∈ rest.head?, l.isNumber = false) →
    Lexeme.Parted (itemLexemes items ++ rest)
  | [], _, hrest, _ => hrest
  | [v], _, hrest, hfirst => parted_lexemes_append v hrest hfirst
  | v :: w :: vs, _, hrest, hfirst => by
    rw [itemLexemes, List.append_assoc, List.cons_append]
    exact parted_lexemes_append v
      (parted_cons rfl (parted_itemLexemes_append (w :: vs) hrest hfirst))
      fun _ hl => Option.some.inj hl ▸ rfl

/-- Keys and commas part the members of an object. -/
theorem parted_memberLexemes_append : (members : List (Quoted × Value)) →
    {rest : List Lexeme} → Lexeme.Parted rest → (∀ l ∈ rest.head?, l.isNumber = false) →
    Lexeme.Parted (memberLexemes members ++ rest)
  | [], _, hrest, _ => hrest
  | [(_, v)], _, hrest, hfirst =>
    parted_cons rfl (parted_cons rfl (parted_lexemes_append v hrest hfirst))
  | (_, v) :: m :: ms, _, hrest, hfirst => by
    rw [memberLexemes, List.cons_append, List.cons_append, List.append_assoc, List.cons_append]
    refine parted_cons rfl (parted_cons rfl (parted_lexemes_append v ?_ ?_))
    · exact parted_cons rfl (parted_memberLexemes_append (m :: ms) hrest hfirst)
    · exact fun _ hl => Option.some.inj hl ▸ rfl

end

/-! ## Texts of values -/

/-- **The text is JSON text of the value**: it lays out the lexemes of the value. -/
def WrittenAs (v : Value) (text : String) : Prop := Layout v.lexemes text.toList

/-- **A text is read as a value** exactly if it is JSON text of the value. -/
theorem ofText?_eq_some_iff {text : String} : ofText? text = some v ↔ v.WrittenAs text := by
  rw [ofText?, Option.bind_eq_some_iff]
  constructor
  · rintro ⟨ls, hls, h⟩
    rw [ofLexemes?] at h
    split at h
    · next w hlt hread =>
      obtain rfl := Option.some.inj h
      have hlexemes := lexemes_of_gives.1 ls w [] ⟨hlt, hread⟩
      rw [List.append_nil] at hlexemes
      rw [WrittenAs, ← hlexemes]
      exact Lexeme.layout_of_ofChars? hls
    · cases h
  · intro h
    have hparted : Lexeme.Parted (v.lexemes ++ []) := parted_lexemes_append v trivial nofun
    have hgives := gives_lexemes v []
    rw [List.append_nil] at hparted hgives
    obtain ⟨_, hread⟩ := hgives
    exact ⟨v.lexemes, Lexeme.ofChars?_of_layout h hparted, by rw [ofLexemes?, hread]⟩

/-- The value can be written. -/
def Spellable (v : Value) : Prop := ∀ l ∈ v.lexemes, l.Spellable

/-- **A value is written as its compact text**, if it can be written. -/
theorem writtenAs_render (h : v.Spellable) : v.WrittenAs v.render := by
  rw [WrittenAs, render, String.toList_ofList]
  exact Lexeme.layout_flatMap h

/-- **A value is read back from its compact text**, if it can be written. -/
theorem ofText?_render (h : v.Spellable) : ofText? v.render = some v :=
  ofText?_eq_some_iff.mpr (writtenAs_render h)

/-- A text can be written. -/
theorem spellable_ofText (text : String) : (string (.ofText text)).Spellable :=
  List.forall_mem_singleton.mpr (Quoted.spellable_ofText text)

/-- The members of an object can be written if their keys and their values can. -/
theorem spellable_memberLexemes : (members : List (Quoted × Value)) →
    (∀ m ∈ members, (∀ p ∈ m.1, p.Spellable) ∧ m.2.Spellable) →
    ∀ l ∈ memberLexemes members, l.Spellable
  | [], _ => nofun
  | [(k, v)], h => by
    obtain ⟨hk, hv⟩ := h (k, v) List.mem_cons_self
    exact List.forall_mem_cons.mpr ⟨hk, List.forall_mem_cons.mpr ⟨trivial, hv⟩⟩
  | (k, v) :: m :: ms, h => by
    obtain ⟨⟨hk, hv⟩, hms⟩ := List.forall_mem_cons.mp h
    have hrest := spellable_memberLexemes (m :: ms) hms
    refine List.forall_mem_cons.mpr ⟨hk, List.forall_mem_cons.mpr ⟨trivial, ?_⟩⟩
    exact List.forall_mem_append.mpr ⟨hv, List.forall_mem_cons.mpr ⟨trivial, hrest⟩⟩

/-- **An object can be written** if its keys and its values can. -/
theorem spellable_object
    (h : ∀ m ∈ members, (∀ p ∈ m.1, p.Spellable) ∧ m.2.Spellable) :
    (object members).Spellable := by
  have hmembers := spellable_memberLexemes members h
  rw [Spellable, lexemes]
  refine List.forall_mem_cons.mpr ⟨trivial, List.forall_mem_append.mpr ⟨hmembers, ?_⟩⟩
  exact List.forall_mem_singleton.mpr trivial

/-! ## Objects under texts -/

/-- **The object with these members**, each under the string of its key. -/
def ofMembers (members : List (String × Value)) : Value :=
  object (members.map fun m => (.ofText m.1, m.2))

/-- **The members under their texts**: each key is a string of its text. -/
def Keyed (members : List (Quoted × Value)) (keyed : List (String × Value)) : Prop :=
  List.Forall₂ (fun m k => m.1.text? = some k.1 ∧ m.2 = k.2) members keyed

/-- Keys are decoded to their texts. -/
theorem Keyed.decodeKeys?_eq {keyed : List (String × Value)} (h : Keyed members keyed) :
    decodeKeys? members = some keyed := by
  unfold decodeKeys?
  induction h with
  | nil => rfl
  | @cons m k ms ks hkey _ ih =>
    obtain ⟨hkey, hvalue⟩ := hkey
    rw [List.mapM_cons, ih]
    dsimp only
    rw [hkey, hvalue]
    rfl

/-- **The fields of an object** are looked up among its members under their texts. -/
theorem Keyed.fields?_eq {keyed : List (String × Value)} (h : Keyed members keyed)
    (names : List (List String)) : (object members).fields? names = names.mapM (field? keyed) := by
  rw [fields?, h.decodeKeys?_eq]
  rfl

/-- Keys that are the strings of texts are strings of these. -/
theorem keyed_ofText (members : List (String × Value)) :
    Keyed (members.map fun m => (.ofText m.1, m.2)) members := by
  rw [Keyed, List.forall₂_map_left_iff, List.forall₂_same]
  exact fun m _ => ⟨Quoted.text?_ofText m.1, rfl⟩

/-- **What a field is looked up as** does not depend on the order of the members. -/
theorem field?_perm {ms ms' : List (String × Value)} (h : ms.Perm ms') (names : List String) :
    field? ms names = field? ms' names := by
  have hfilter := h.filter fun m => names.contains m.1
  rw [field?, field?]
  generalize ms.filter _ = p at hfilter
  generalize ms'.filter _ = p' at hfilter
  match p' with
  | [] => rw [hfilter.eq_nil]
  | [m] => rw [hfilter.eq_singleton]
  | m :: m' :: rest =>
    have hlength := hfilter.length_eq
    match p with
    | [] => cases hlength
    | [_] => cases hlength
    | _ :: _ :: _ => rfl

/-- A field is looked up as the only member that has one of its names. -/
theorem field?_of_filter {members ms : List (String × Value)} {names : List String}
    (h : members.filter (fun m => names.contains m.1) = ms) :
    field? members names
      = if ms.length ≤ 1 then some (ms.head?.map Prod.snd) else none := by
  rw [field?, h]
  match ms with
  | [] => rfl
  | [_] => rfl
  | _ :: _ :: _ => exact (if_neg (by simp)).symm

/-- **The object can be written** if its values can. -/
theorem spellable_ofMembers {members : List (String × Value)}
    (h : ∀ m ∈ members, m.2.Spellable) : (ofMembers members).Spellable := by
  refine spellable_object ?_
  rw [List.forall_mem_map]
  exact fun m hm => ⟨Quoted.spellable_ofText m.1, h m hm⟩

end RecordRules.Json.Value
