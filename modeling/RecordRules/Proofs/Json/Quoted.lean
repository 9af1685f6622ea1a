import RecordRules.Json.Quoted

/-!
# Strings that are read

How a string may be written is a matter of its pieces (`Json.Piece.WrittenAs`): a
character that stands for itself is neither a quote nor a backslash nor a control
character, and the digits of a code unit may be of either case. Reading gives the pieces of
a string exactly if it is written as them and a quote follows
(`Json.Quoted.read?_eq_some_iff`).

A text is written with pieces that can be written, and they stand for the text
(`Json.Quoted.text?_ofText`).
-/

namespace RecordRules.Json

/-! ## Pieces -/

/-- **How a piece may be written.** -/
inductive Piece.WrittenAs : Piece → List Char → Prop where
  | plain {c : Char} : c ≠ '"' → c ≠ '\\' → 32 ≤ c.toNat → WrittenAs (.plain c) [c]
  | escape (e : Escape) : WrittenAs (.escape e) ['\\', e.letter]
  | unit {u : Fin 65536} {a b c d : Char} :
      unitOfHex? a b c d = some u → WrittenAs (.unit u) ['\\', 'u', a, b, c, d]

/-- **How pieces may be written**, one after the other. -/
inductive Quoted.WrittenAs : Quoted → List Char → Prop where
  | nil : WrittenAs [] []
  | cons {p : Piece} {q : Quoted} {ps qs : List Char} :
      p.WrittenAs ps → WrittenAs q qs → WrittenAs (p :: q) (ps ++ qs)

/-- The letter of an escape is not that of a code unit. -/
theorem Escape.letter_ne (e : Escape) : e.letter ≠ 'u' := by
  cases e <;> decide

/-- An escape has no letter but its own. -/
theorem Escape.letter_of_ofLetter? {c : Char} {e : Escape} (h : ofLetter? c = some e) :
    e.letter = c := by
  unfold ofLetter? at h
  split at h <;> cases h <;> rfl

/-- An escape stands for the character that was written so. -/
theorem Escape.char_of_ofChar? {c : Char} {e : Escape} (h : ofChar? c = some e) :
    e.char = c := by
  unfold ofChar? at h
  split at h <;> cases h <;> rfl

namespace Quoted

/-- **A piece is read**, and then what follows it. -/
theorem read?_append {p : Piece} {ps : List Char} (h : p.WrittenAs ps) (cs : List Char) :
    read? (ps ++ cs) = (read? cs).map fun (q, rest) => (p :: q, rest) := by
  have hbind (p : Piece) : (read? cs).bind (fun x => some (p :: x.1, x.2))
      = (read? cs).map fun (q, rest) => (p :: q, rest) := by
    cases read? cs <;> rfl
  cases h with
  | @plain c hquote hbackslash hcontrol =>
    rw [List.singleton_append, read?.eq_def]
    split
    · next heq => cases heq
    · next heq => exact absurd (List.cons.inj heq).1 hquote
    · next heq => exact absurd (List.cons.inj heq).1 hbackslash
    · next heq => exact absurd (List.cons.inj heq).1 hbackslash
    · next heq =>
      obtain ⟨rfl, rfl⟩ := List.cons.inj heq
      rw [beq_eq_false_iff_ne.mpr hbackslash, decide_eq_false (Nat.not_lt.mpr hcontrol)]
      exact hbind (.plain c)
  | escape e =>
    show read? ('\\' :: e.letter :: cs) = _
    rw [read?.eq_def]
    split
    · next heq => cases heq
    · next heq => exact absurd (List.cons.inj heq).1 (by decide)
    · next heq =>
      exact absurd (List.cons.inj (List.cons.inj heq).2).1 e.letter_ne
    · next heq =>
      obtain ⟨rfl, rfl⟩ := List.cons.inj (List.cons.inj heq).2
      rw [Escape.ofLetter?_letter]
      exact hbind (.escape e)
    · next hescape heq =>
      obtain ⟨rfl, rfl⟩ := List.cons.inj heq
      exact (hescape _ _ rfl rfl).elim
  | @unit u a b c d hunit =>
    show read? ('\\' :: 'u' :: a :: b :: c :: d :: cs) = _
    rw [read?, hunit]
    exact hbind (.unit u)

/-- What is read is the pieces as they are written, and their quote. -/
theorem exists_writtenAs_of_read? {cs rest : List Char} {q : Quoted}
    (h : read? cs = some (q, rest)) : ∃ qs, q.WrittenAs qs ∧ cs = qs ++ '"' :: rest := by
  fun_induction read? cs generalizing q with
  | case1 => cases h
  | case2 cs =>
    obtain ⟨rfl, rfl⟩ := Prod.mk.inj (Option.some.inj h)
    exact ⟨[], .nil, rfl⟩
  | case3 a b c d cs ih =>
    obtain ⟨u, hunit, h⟩ := Option.bind_eq_some_iff.mp h
    obtain ⟨⟨q', rest'⟩, hread, h⟩ := Option.bind_eq_some_iff.mp h
    obtain ⟨rfl, rfl⟩ := Prod.mk.inj (Option.some.inj h)
    obtain ⟨qs, hqs, rfl⟩ := ih hread
    exact ⟨_, .cons (.unit hunit) hqs, rfl⟩
  | case4 letter cs _ ih =>
    obtain ⟨e, hletter, h⟩ := Option.bind_eq_some_iff.mp h
    obtain ⟨⟨q', rest'⟩, hread, h⟩ := Option.bind_eq_some_iff.mp h
    obtain ⟨rfl, rfl⟩ := Prod.mk.inj (Option.some.inj h)
    obtain ⟨qs, hqs, rfl⟩ := ih hread
    rw [← Escape.letter_of_ofLetter? hletter]
    exact ⟨_, .cons (.escape e) hqs, rfl⟩
  | case5 => cases h
  | case6 c cs hquote _ _ hallowed ih =>
    obtain ⟨⟨q', rest'⟩, hread, h⟩ := Option.bind_eq_some_iff.mp h
    obtain ⟨rfl, rfl⟩ := Prod.mk.inj (Option.some.inj h)
    obtain ⟨qs, hqs, rfl⟩ := ih hread
    rw [Bool.or_eq_true, not_or, beq_iff_eq, decide_eq_true_eq, Nat.not_lt] at hallowed
    exact ⟨_, .cons (.plain hquote hallowed.1 hallowed.2) hqs, rfl⟩

/-- **Reading gives the pieces of a string** exactly if it is written as them and a quote
follows. -/
theorem read?_eq_some_iff {cs rest : List Char} {q : Quoted} :
    read? cs = some (q, rest) ↔ ∃ qs, q.WrittenAs qs ∧ cs = qs ++ '"' :: rest := by
  refine ⟨exists_writtenAs_of_read?, ?_⟩
  rintro ⟨qs, hqs, rfl⟩
  induction hqs with
  | nil => rw [List.nil_append, read?]
  | cons hp _ ih =>
    rw [List.append_assoc, read?_append hp, ih]
    rfl

/-! ## Compact strings -/

end Quoted

/-- **The piece can be written** as it is by itself. -/
def Piece.Spellable : Piece → Prop
  | .plain c => c ≠ '"' ∧ c ≠ '\\' ∧ 32 ≤ c.toNat
  | .escape _ => True
  | .unit _ => True

/-- The four digits of a code unit give it back. -/
theorem exists_hexOfUnit (u : Fin 65536) :
    ∃ a b c d, hexOfUnit u = [a, b, c, d] ∧ unitOfHex? a b c d = some u := by
  refine ⟨_, _, _, _, rfl, ?_⟩
  simp only [unitOfHex?, hexValue?_hexDigit, Option.bind_eq_bind, Option.bind_some,
    Option.pure_def, Option.some.injEq]
  refine Fin.ext ?_
  show ((u.val / 4096 % 16 % 16 * 16 + u.val / 256 % 16 % 16) * 16 + u.val / 16 % 16 % 16) * 16
    + u.val % 16 % 16 = u.val
  omega

namespace Quoted

/-- Pieces that can be written are written piece by piece. -/
theorem writtenAs_flatMap {q : Quoted} (h : ∀ p ∈ q, p.Spellable) :
    q.WrittenAs (q.flatMap spellPiece) := by
  induction q with
  | nil => exact .nil
  | cons p q ih =>
    obtain ⟨hp, hq⟩ := List.forall_mem_cons.mp h
    rw [List.flatMap_cons]
    refine .cons ?_ (ih hq)
    cases p with
    | plain c => exact .plain hp.1 hp.2.1 hp.2.2
    | escape e => exact .escape e
    | unit u =>
      obtain ⟨a, b, c, d, hdigits, hunit⟩ := exists_hexOfUnit u
      rw [spellPiece, hdigits]
      exact .unit hunit

/-! ## Texts -/

/-- The piece of a character can be written. -/
theorem spellable_ofChar (c : Char) : (ofChar c).Spellable := by
  unfold ofChar
  split
  · trivial
  · next hescape =>
    split
    · trivial
    · next hcontrol =>
      have hne (d : Char) (hd : (Escape.ofChar? d).isSome = true) : c ≠ d := by
        rintro rfl
        rw [hescape] at hd
        exact Bool.false_ne_true hd
      exact ⟨hne '"' rfl, hne '\\' rfl, Nat.not_lt.mp hcontrol⟩

/-- The pieces of a text can be written. -/
theorem spellable_ofText (text : String) : ∀ p ∈ ofText text, p.Spellable := by
  rw [ofText, encode, List.forall_mem_map]
  exact fun c _ => spellable_ofChar c

/-- A code unit that belongs to no pair stands for a character, whatever follows. -/
theorem decode?_unit {u : Fin 65536} (h : u.val < 0xd800) (q : Quoted) :
    decode? (.unit u :: q) = (decode? q).map (Char.ofNat u.val :: ·) := by
  have hleading : isLeading u.val = false := by
    rw [isLeading, decide_eq_false (Nat.not_le.mpr h), Bool.false_and]
  have htrailing : isTrailing u.val = false := by
    rw [isTrailing, decide_eq_false (Nat.not_le.mpr (Nat.lt_trans h (by decide))), Bool.false_and]
  rw [decode?.eq_def]
  split
  · next heq => cases heq
  · next heq => cases heq
  · next heq => cases heq
  · next heq =>
    obtain ⟨hu, rfl⟩ := List.cons.inj heq
    obtain rfl := Piece.unit.inj hu
    rw [hleading, htrailing]
    rfl
  · next heq =>
    obtain ⟨hu, rfl⟩ := List.cons.inj heq
    obtain rfl := Piece.unit.inj hu
    rw [hleading, htrailing]
    rfl

/-- The piece of a character stands for it, whatever follows. -/
theorem decode?_ofChar (c : Char) (q : Quoted) :
    decode? (ofChar c :: q) = (decode? q).map (c :: ·) := by
  unfold ofChar
  split
  · next hescape => rw [decode?, Escape.char_of_ofChar? hescape]
  · split
    · next hcontrol =>
      have hunit : c.toNat < 0xd800 := Nat.lt_trans hcontrol (by decide)
      rw [decode?_unit hunit, Char.ofNat_toNat]
    · rw [decode?]

/-- What a text is written as stands for the text. -/
theorem decode?_encode (cs : List Char) : decode? (encode cs) = some cs := by
  induction cs with
  | nil => rfl
  | cons c cs ih =>
    have hcons : encode (c :: cs) = ofChar c :: encode cs := rfl
    rw [hcons, decode?_ofChar, ih]
    rfl

/-- **The string of a text stands for the text.** -/
@[simp] theorem text?_ofText (text : String) : (ofText text).text? = some text := by
  rw [text?, ofText, decode?_encode, Option.map_some, String.ofList_toList]

end Quoted

end RecordRules.Json
