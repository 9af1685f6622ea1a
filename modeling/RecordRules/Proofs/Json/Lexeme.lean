import RecordRules.Json.Lexeme
import RecordRules.Proofs.Json.Numeral
import RecordRules.Proofs.Json.Quoted

/-!
# Lexemes that are read

JSON text lays its lexemes out one after the other, with spaces anywhere between them
(`Json.Layout`). Whatever is read from a text is laid out in it
(`Json.Lexeme.layout_of_ofChars?`). Conversely, lexemes are read from each of their layouts
if no numeral directly follows another (`Json.Lexeme.ofChars?_of_layout`). That has to be
asked for, since two numerals next to each other may be one; any other lexeme ends where it
ends, whatever follows it, and nothing that begins another kind of lexeme goes on with a
numeral.
-/

namespace RecordRules.Json

/-- **How a lexeme may be written.** -/
def Lexeme.WrittenAs : Lexeme → List Char → Prop
  | number n, cs => n.WrittenAs cs
  | string q, cs => ∃ qs, q.WrittenAs qs ∧ cs = '"' :: (qs ++ ['"'])
  | l, cs => cs = l.spell

/-- **The characters lay the lexemes out**, one after the other, among spaces. -/
inductive Layout : List Lexeme → List Char → Prop where
  | done : Layout [] []
  | space {ls : List Lexeme} {c : Char} {cs : List Char} :
      Lexeme.isSpace c = true → Layout ls cs → Layout ls (c :: cs)
  | lexeme {l : Lexeme} {ls : List Lexeme} {cs rest : List Char} :
      l.WrittenAs cs → Layout ls rest → Layout (l :: ls) (cs ++ rest)

namespace Lexeme

variable {l : Lexeme} {ls : List Lexeme} {cs rest : List Char}

/-! ## Single lexemes -/

/-- Whether the lexeme is a numeral. -/
def isNumber : Lexeme → Bool
  | number _ => true
  | _ => false

/-- **What a lexeme begins with**: no space; and where it is no numeral, nothing that goes
on with one. -/
theorem exists_cons_of_writtenAs (h : l.WrittenAs cs) :
    ∃ c tail, cs = c :: tail ∧ isSpace c = false
      ∧ (l.isNumber = false → Numeral.goesOn c = false) := by
  cases l with
  | number n =>
    obtain ⟨c, tail, rfl, hbegins⟩ := Numeral.WrittenAs.exists_cons h
    refine ⟨c, tail, rfl, ?_, nofun⟩
    rw [isSpace, Bool.or_eq_false_iff, Bool.or_eq_false_iff, Bool.or_eq_false_iff]
    have hne {d : Char} (hd : Numeral.begins d = false) : (c == d) = false :=
      beq_eq_false_iff_ne.mpr fun heq => Bool.false_ne_true (hd.symm.trans (heq ▸ hbegins))
    exact ⟨⟨⟨hne rfl, hne rfl⟩, hne rfl⟩, hne rfl⟩
  | string q =>
    obtain ⟨qs, -, rfl⟩ := h
    exact ⟨'"', _, rfl, rfl, fun _ => rfl⟩
  | truth b =>
    obtain rfl := h
    cases b <;> exact ⟨_, _, rfl, rfl, fun _ => rfl⟩
  | _ =>
    obtain rfl := h
    exact ⟨_, _, rfl, rfl, fun _ => rfl⟩

/-- What begins like a numeral is read as one. -/
theorem read?_eq_number {c : Char} (h : Numeral.begins c = true) (cs : List Char) :
    read? (c :: cs)
      = (Numeral.read? (c :: cs)).map fun (numeral, rest) => (number numeral, rest) := by
  have hne {d : Char} {ds : List Char} (hd : Numeral.begins d = false)
      (heq : c :: cs = d :: ds) : False :=
    Bool.false_ne_true (hd.symm.trans ((List.cons.inj heq).1 ▸ h))
  unfold read?
  split
  case h_11 => rfl
  all_goals
    next heq => exact (hne rfl heq).elim

/-- **A lexeme is read**, and what follows it is left, unless it goes on with a numeral. -/
theorem read?_append (h : l.WrittenAs cs) (hrest : l.isNumber = true → Numeral.Ends rest) :
    read? (cs ++ rest) = some (l, rest) := by
  cases l with
  | number n =>
    have hread := Numeral.read?_append h (hrest rfl)
    obtain ⟨c, tail, rfl, hbegins⟩ := Numeral.WrittenAs.exists_cons h
    rw [List.cons_append] at hread ⊢
    rw [read?_eq_number hbegins, hread]
    rfl
  | string q =>
    obtain ⟨qs, hqs, rfl⟩ := h
    have hread : Quoted.read? (qs ++ '"' :: rest) = some (q, rest) :=
      Quoted.read?_eq_some_iff.mpr ⟨qs, hqs, rfl⟩
    rw [List.cons_append, List.append_assoc, List.singleton_append, read?, hread]
    rfl
  | truth b =>
    obtain rfl := h
    cases b <;> rfl
  | _ =>
    obtain rfl := h
    rfl

/-- **Whatever is read as a lexeme was written so.** -/
theorem exists_writtenAs_of_read? (h : read? cs = some (l, rest)) :
    ∃ ps, l.WrittenAs ps ∧ cs = ps ++ rest := by
  unfold read? at h
  split at h
  case h_10 cs =>
    obtain ⟨⟨q, rest'⟩, hread, heq⟩ := Option.map_eq_some_iff.mp h
    obtain ⟨rfl, rfl⟩ := Prod.mk.inj heq
    obtain ⟨qs, hqs, rfl⟩ := Quoted.read?_eq_some_iff.mp hread
    refine ⟨_, ⟨qs, hqs, rfl⟩, ?_⟩
    rw [List.cons_append, List.append_assoc, List.singleton_append]
  case h_11 cs _ _ _ _ _ _ _ _ _ _ =>
    obtain ⟨⟨n, rest'⟩, hread, heq⟩ := Option.map_eq_some_iff.mp h
    obtain ⟨rfl, rfl⟩ := Prod.mk.inj heq
    exact Numeral.exists_writtenAs_of_read? hread
  all_goals
    obtain ⟨rfl, rfl⟩ := Prod.mk.inj (Option.some.inj h)
    exact ⟨_, rfl, rfl⟩

/-! ## Lexemes one after the other -/

/-- **No numeral directly follows another.** -/
def Parted : List Lexeme → Prop
  | [] => True
  | l :: ls => (l.isNumber = true → ∀ l' ∈ ls.head?, l'.isNumber = false) ∧ Parted ls

/-- A numeral ends before lexemes that begin with another one. -/
theorem ends_of_layout (h : Layout ls cs) (hfirst : ∀ l ∈ ls.head?, l.isNumber = false) :
    Numeral.Ends cs := by
  intro d hd
  cases h with
  | done => cases hd
  | @space _ c _ hspace _ =>
    obtain rfl := Option.some.inj hd
    rw [isSpace, Bool.or_eq_true, Bool.or_eq_true, Bool.or_eq_true] at hspace
    simp only [beq_iff_eq] at hspace
    rcases hspace with ((rfl | rfl) | rfl) | rfl <;> rfl
  | @lexeme l _ _ _ hl _ =>
    obtain ⟨c, tail, rfl, -, hgoes⟩ := exists_cons_of_writtenAs hl
    obtain rfl := Option.some.inj hd
    exact hgoes (hfirst l rfl)

/-- **Lexemes are read from each of their layouts**, if no numeral directly follows
another. -/
theorem ofChars?_of_layout (h : Layout ls cs) (hparted : Parted ls) :
    ofChars? cs = some ls := by
  induction h with
  | done => rw [ofChars?]
  | space hspace _ ih => rw [ofChars?, if_pos hspace, ih hparted]
  | @lexeme l ls ps rest hl hrest ih =>
    have hread : read? (ps ++ rest) = some (l, rest) :=
      read?_append hl fun hnumber => ends_of_layout hrest (hparted.1 hnumber)
    obtain ⟨c, tail, rfl, hspace, -⟩ := exists_cons_of_writtenAs hl
    rw [List.cons_append] at hread ⊢
    rw [ofChars?, hspace, if_neg Bool.false_ne_true]
    split
    · next hnone => exact absurd (hread.symm.trans hnone) (Option.some_ne_none _)
    · next hsome =>
      obtain ⟨rfl, rfl⟩ := Prod.mk.inj (Option.some.inj (hread.symm.trans hsome))
      rw [ih hparted.2]
      rfl

/-- **Whatever is read from a text is laid out in it.** -/
theorem layout_of_ofChars? (h : ofChars? cs = some ls) : Layout ls cs := by
  fun_induction ofChars? cs generalizing ls with
  | case1 =>
    obtain rfl := Option.some.inj h
    exact .done
  | case2 c tail hspace ih => exact .space hspace (ih h)
  | case3 => cases h
  | case4 c tail _ l rest hread ih =>
    obtain ⟨ls', hrest, rfl⟩ := Option.map_eq_some_iff.mp h
    obtain ⟨ps, hps, hcs⟩ := exists_writtenAs_of_read? hread
    rw [hcs]
    exact .lexeme hps (ih hrest)

/-! ## Compact text -/

/-- **The lexeme can be written** as it is by itself, and told from whatever follows. -/
def Spellable : Lexeme → Prop
  | number _ => False
  | string q => ∀ p ∈ q, p.Spellable
  | _ => True

/-- A lexeme that can be written is written as it is by itself. -/
theorem writtenAs_spell (h : l.Spellable) : l.WrittenAs l.spell := by
  cases l with
  | number n => exact h.elim
  | string q => exact ⟨_, Quoted.writtenAs_flatMap h, rfl⟩
  | _ => exact rfl

/-- Lexemes that can be written are laid out without spaces. -/
theorem layout_flatMap (h : ∀ l ∈ ls, l.Spellable) : Layout ls (ls.flatMap spell) := by
  induction ls with
  | nil => exact .done
  | cons l ls ih =>
    obtain ⟨hl, hls⟩ := List.forall_mem_cons.mp h
    exact .lexeme (writtenAs_spell hl) (ih hls)

end Lexeme

end RecordRules.Json
