import RecordRules.Proofs.Condition.Spelling
import RecordRules.Proofs.Token.Layout

/-!
# What tokens are made of

A word is made of bare characters and of spans between two quotes of one kind, in any order
(`Token.WordForm`). There is neither a blank nor a parenthesis outside of its spans, and
inside of them the only blanks are single spaces. Only the last token of a text can be a word
of which the last span is not closed.

Cutting loses nothing but blanks: one after the other the tokens are the text without its
blanks, if the blanks inside of spans are left out on both sides
(`Token.tokenize_makeup`).
-/

namespace RecordRules

open Text

/-! ## Texts without their blanks -/

namespace Text

/-- **The characters without the blanks.** -/
def unspaced (cs : List Char) : List Char := cs.filter (!isBlank ·)

@[simp] theorem unspaced_append (cs ds : List Char) :
    unspaced (cs ++ ds) = unspaced cs ++ unspaced ds :=
  List.filter_append cs ds

/-- A blank is left out. -/
theorem unspaced_cons_of_isBlank {c : Char} (h : isBlank c = true) (cs : List Char) :
    unspaced (c :: cs) = unspaced cs := by
  rw [unspaced, List.filter_cons, h]
  rfl

/-- Any other character stays. -/
theorem unspaced_cons_of_not_isBlank {c : Char} (h : isBlank c = false) (cs : List Char) :
    unspaced (c :: cs) = c :: unspaced cs := by
  rw [unspaced, List.filter_cons, h]
  rfl

/-- Leading blanks make no difference. -/
theorem unspaced_dropBlanks (cs : List Char) : unspaced (dropBlanks cs) = unspaced cs := by
  induction cs with
  | nil => rfl
  | cons c cs ih =>
    rw [dropBlanks_cons]
    split
    · next hblank => rw [ih, unspaced_cons_of_isBlank hblank]
    · rfl

/-- Blanks at the ends make no difference. -/
theorem unspaced_strip (cs : List Char) : unspaced (strip cs) = unspaced cs := by
  have hreverse (ds : List Char) : unspaced ds.reverse = (unspaced ds).reverse :=
    List.filter_reverse
  rw [strip, hreverse, unspaced_dropBlanks, hreverse, List.reverse_reverse, unspaced_dropBlanks]

/-- The width of blanks makes no difference. -/
theorem unspaced_collapseFrom (inRun : Bool) (cs : List Char) :
    unspaced (collapseFrom inRun cs) = unspaced cs := by
  fun_induction collapseFrom inRun cs with
  | case1 => rfl
  | case2 c cs hblank ih => rw [ih, unspaced_cons_of_isBlank hblank]
  | case3 c cs inRun hblank hrun ih =>
    rw [unspaced_cons_of_isBlank (by decide), ih, unspaced_cons_of_isBlank hblank]
  | case4 inRun c cs hblank ih =>
    have hc : isBlank c = false := Bool.eq_false_iff.mpr hblank
    rw [unspaced_cons_of_not_isBlank hc, ih, unspaced_cons_of_not_isBlank hc]

end Text

namespace Token

open Condition (isQuote isBare isBare_iff)

/-- **Nothing but blanks is lost**: the tokens of a layout are its characters without the
blanks. -/
theorem Layout.unspaced_eq {ts : List Token} {cs : List Char} (h : Layout ts cs) :
    unspaced (ts.flatMap fun t => t.text.toList) = unspaced cs := by
  induction h with
  | nil => rfl
  | blank hblank _ ih => rw [ih, unspaced_cons_of_isBlank hblank]
  | opening _ ih | closing _ ih =>
    rw [List.flatMap_cons, unspaced_append, ih, ← unspaced_append]
    rfl
  | word _ _ _ ih =>
    rw [List.flatMap_cons, unspaced_append, ih, unspaced_append, text, String.toList_ofList]
  | last _ _ => rw [List.flatMap_singleton, text, String.toList_ofList]

/-! ## Words -/

/-- **The form of a word**: bare characters, and spans between two quotes of one kind with
none of that kind inside. Inside of a span the only blanks are single spaces. The last span
may run to the end of the word without being closed; `closed` says that it does not. -/
inductive WordForm : (closed : Bool) → List Char → Prop where
  | nil : WordForm true []
  | bare {closed : Bool} {c : Char} {cs : List Char} :
    isBare c = true → WordForm closed cs → WordForm closed (c :: cs)
  | span {closed : Bool} {q : Char} {inner cs : List Char} :
    isQuote q = true → q ∉ inner → SingleSpaced inner → WordForm closed cs →
    WordForm closed (q :: (inner ++ q :: cs))
  | unclosed {q : Char} {inner : List Char} :
    isQuote q = true → q ∉ inner → SingleSpaced inner → WordForm false (q :: inner)

/-- **A span goes on up to its quote**, or to the end of the word. -/
theorem exists_span {q : Char} {last : Option Char} {cs : List Char}
    (h : Gathers (some q) last cs) :
    (q ∉ cs ∧ quoteAfter (some q) cs = some q)
      ∨ ∃ inner rest, cs = inner ++ q :: rest ∧ q ∉ inner ∧ Gathers none (some q) rest
        ∧ quoteAfter (some q) cs = quoteAfter none rest := by
  induction cs generalizing last with
  | nil => exact .inl ⟨List.not_mem_nil, rfl⟩
  | cons c cs ih =>
    obtain ⟨-, hcs⟩ := h
    rw [quoteAfter_cons]
    by_cases hclose : c = q
    · subst hclose
      rw [quoteStep_self] at hcs ⊢
      exact .inr ⟨[], cs, rfl, List.not_mem_nil, hcs, rfl⟩
    · rw [quoteStep_of_ne hclose] at hcs ⊢
      rcases ih hcs with ⟨hnone, hopen⟩ | ⟨inner, rest, rfl, hinner, hrest⟩
      · exact .inl ⟨List.not_mem_cons_of_ne_of_not_mem (Ne.symm hclose) hnone, hopen⟩
      · exact .inr ⟨c :: inner, rest, rfl,
          List.not_mem_cons_of_ne_of_not_mem (Ne.symm hclose) hinner, hrest⟩

/-- **A stretch that stays has the form of a word**, closed if it leaves no quote open. -/
theorem wordForm_of_gathers {last : Option Char} {cs : List Char} (h : Gathers none last cs) :
    WordForm (quoteAfter none cs).isNone cs := by
  match cs with
  | [] => exact .nil
  | c :: cs =>
    obtain ⟨⟨hblank, hopening, hclosing⟩, hcs⟩ := h
    rw [quoteAfter_cons]
    cases hquote : isQuote c with
    | false =>
      rw [quoteStep_of_not_isQuote hquote] at hcs ⊢
      exact .bare (isBare_iff.mpr ⟨hblank, hquote, hopening, hclosing⟩) (wordForm_of_gathers hcs)
    | true =>
      rw [quoteStep_of_isQuote hquote] at hcs ⊢
      have hspaced := hcs.singleSpaced
      rcases exists_span hcs with ⟨hnone, hopen⟩ | ⟨inner, rest, hsplit, hinner, hrest, hclosed⟩
      · rw [hopen]
        exact .unclosed hquote hnone hspaced
      · rw [hclosed, hsplit]
        refine .span hquote hinner (hspaced.of_isInfix ?_) (wordForm_of_gathers hrest)
        exact hsplit ▸ (List.prefix_append inner _).isInfix
termination_by cs.length
decreasing_by
  · exact Nat.lt_succ_self _
  · rw [hsplit, List.length_cons, List.length_append, List.length_cons]
    omega

/-- **The form of a token**: a parenthesis, or a word that is not empty. -/
def Form (closed : Bool) : Token → Prop
  | opening => True
  | closing => True
  | word w => w ≠ "" ∧ WordForm closed w.toList

/-- **The tokens of a layout have the form of tokens**, and all but the last are closed. -/
theorem Layout.form {ts : List Token} {cs : List Char} (h : Layout ts cs) :
    (∀ t ∈ ts, ∃ closed, t.Form closed) ∧ ∀ t ∈ ts.dropLast, t.Form true := by
  have hne {w : String} (hw : w.toList ≠ []) : w ≠ "" := by
    rintro rfl
    exact hw rfl
  constructor
  · intro t ht
    cases t with
    | opening => exact ⟨true, trivial⟩
    | closing => exact ⟨true, trivial⟩
    | word w =>
      obtain ⟨hw, hgathers⟩ := h.gathers ht
      exact ⟨_, hne hw, wordForm_of_gathers hgathers⟩
  · intro t ht
    cases t with
    | opening => trivial
    | closing => trivial
    | word w =>
      have hwhole := h.isWhole ht
      have hform := wordForm_of_gathers hwhole.gathers
      rw [hwhole.closed] at hform
      exact ⟨hne hwhole.ne_nil, hform⟩

/-- **What a text is cut into.** Its tokens one after the other are the text without its
blanks, if blanks are left out on both sides. Each of them is a parenthesis or a word of bare
characters and spans, and only in the last one a span can be left open. -/
theorem tokenize_makeup (text : String) :
    unspaced ((tokenize text).flatMap fun t => t.text.toList) = unspaced text.toList
      ∧ (∀ t ∈ tokenize text, ∃ closed, t.Form closed)
      ∧ ∀ t ∈ (tokenize text).dropLast, t.Form true := by
  have hlayout := layout_tokenize text
  refine ⟨?_, hlayout.form⟩
  rw [hlayout.unspaced_eq, collapse, unspaced_collapseFrom, unspaced_strip]

/-- A quote opens in the middle of a word, and the parenthesis and the blanks in its span
belong to the word. -/
example : tokenize "(a'b  (\"c'd) 'e" =
    [.opening, .word "a'b (\"c'd", .closing, .word "'e"] := by
  decide +kernel

end Token

end RecordRules
