import RecordRules.Proofs.Text.Blanks
import RecordRules.Token

/-!
# How words are gathered

Cutting a text into tokens is going through its characters with two things in
hand: the quote that is open, and the word that is being gathered. The quote
after a character is `Token.quoteStep`; a character **stays** if it goes into
the word as it is, instead of ending the word, being a token of its own or being
dropped (`Token.Stays`). A stretch of characters that all stay is moved to the
word as a whole (`Token.scan_append_of_gathers`).

A stretch that stays and leaves no quote open is therefore a token wherever it
stands on its own (`Token.IsWhole.scan_append`). Its blanks are single spaces
(`Token.Gathers.singleSpaced`), all of them inside quotes.
-/

namespace RecordRules.Token

open Condition (isQuote)
open Text

/-! ## Quotes -/

/-- **The quote that is open after a character.** -/
def quoteStep : Option Char → Char → Option Char
  | some q, c => if c == q then none else some q
  | none, c => if isQuote c then some c else none

/-- A quote opens where none is open. -/
theorem quoteStep_of_isQuote {c : Char} (h : isQuote c = true) :
    quoteStep none c = some c := by
  rw [quoteStep, if_pos h]

/-- No other character opens anything. -/
theorem quoteStep_of_not_isQuote {c : Char} (h : isQuote c = false) :
    quoteStep none c = none := by
  rw [quoteStep, h, if_neg Bool.false_ne_true]

/-- The quote that is open closes with its own kind. -/
theorem quoteStep_self (q : Char) : quoteStep (some q) q = none := by
  rw [quoteStep, beq_self_eq_true, if_pos rfl]

/-- With any other character it stays open. -/
theorem quoteStep_of_ne {q c : Char} (h : c ≠ q) : quoteStep (some q) c = some q := by
  rw [quoteStep, beq_eq_false_iff_ne.mpr h, if_neg Bool.false_ne_true]

/-- The quote that is open after some characters. -/
def quoteAfter (quote : Option Char) (cs : List Char) : Option Char :=
  cs.foldl quoteStep quote

theorem quoteAfter_cons (quote : Option Char) (c : Char) (cs : List Char) :
    quoteAfter quote (c :: cs) = quoteAfter (quoteStep quote c) cs := rfl

/-- Of two texts the second starts with the quote that the first leaves open. -/
theorem quoteAfter_append (quote : Option Char) (cs ds : List Char) :
    quoteAfter quote (cs ++ ds) = quoteAfter (quoteAfter quote cs) ds :=
  List.foldl_append

/-- What is open is a quote. -/
def IsOpen (quote : Option Char) : Prop := ∀ q ∈ quote, isQuote q = true

/-- No blank is a quote. -/
theorem isQuote_eq_false_of_isBlank {c : Char} (h : isBlank c = true) :
    isQuote c = false := by
  have table : (blanks.all fun b => !isQuote b) = true := by decide
  simpa using List.all_eq_true.mp table c (List.contains_iff_mem.mp h)

/-- No quote is a blank. -/
theorem isBlank_eq_false_of_isQuote {c : Char} (h : isQuote c = true) :
    isBlank c = false := by
  refine Bool.eq_false_iff.mpr fun hblank => ?_
  exact Bool.false_ne_true ((isQuote_eq_false_of_isBlank hblank).symm.trans h)

theorem isOpen_none : IsOpen none := nofun

theorem isOpen_some {q : Char} (h : isQuote q = true) : IsOpen (some q) := by
  intro q' hq'
  exact Option.some.inj hq' ▸ h

/-- Only quotes are ever open. -/
theorem IsOpen.step {quote : Option Char} (h : IsOpen quote) (c : Char) :
    IsOpen (quoteStep quote c) := by
  cases quote with
  | none =>
    rw [quoteStep]
    split
    · next hc => exact isOpen_some hc
    · exact isOpen_none
  | some q =>
    rw [quoteStep]
    split
    · exact isOpen_none
    · exact h

/-- Only quotes are ever open, after however many characters. -/
theorem IsOpen.after {quote : Option Char} (h : IsOpen quote) (cs : List Char) :
    IsOpen (quoteAfter quote cs) := by
  induction cs generalizing quote with
  | nil => exact h
  | cons c cs ih => exact ih (h.step c)

/-- A blank opens and closes nothing. -/
theorem quoteStep_of_isBlank {quote : Option Char} (h : IsOpen quote) {c : Char}
    (hc : isBlank c = true) : quoteStep quote c = quote := by
  have hquote := isQuote_eq_false_of_isBlank hc
  cases quote with
  | none => exact quoteStep_of_not_isQuote hquote
  | some q =>
    have hne : q ≠ c := ne_of_class (h q rfl) hquote
    exact quoteStep_of_ne hne.symm

/-! ## Characters that stay -/

/-- **The character goes into the word as it is**, after the character `last`.
Outside quotes it must not end a word; inside it must not be a blank, unless it
is a space that follows none. -/
def Stays : (quote last : Option Char) → Char → Prop
  | none, _, c => isBlank c = false ∧ c ≠ '(' ∧ c ≠ ')'
  | some _, last, c => isBlank c = true → c = ' ' ∧ last ≠ some ' '

/-- A quote that opens stays. -/
theorem stays_of_isQuote {c : Char} (h : isQuote c = true) (last : Option Char) :
    Stays none last c :=
  ⟨isBlank_eq_false_of_isQuote h, ne_of_class h (by decide), ne_of_class h (by decide)⟩

/-- **All of the characters stay**, one after the other. -/
def Gathers : (quote last : Option Char) → List Char → Prop
  | _, _, [] => True
  | quote, last, c :: cs => Stays quote last c ∧ Gathers (quoteStep quote c) (some c) cs

/-- A character that stays is put to the word. -/
theorem scan_cons_of_stays {quote : Option Char} (hquote : IsOpen quote)
    {pending : List Char} {c : Char} (h : Stays quote pending.head? c)
    (cs : List Char) :
    scan quote pending (c :: cs) = scan (quoteStep quote c) (c :: pending) cs := by
  cases quote with
  | none =>
    obtain ⟨hblank, hopening, hclosing⟩ := h
    rw [scan, quoteStep]
    split
    · rfl
    · rw [beq_eq_false_iff_ne.mpr hopening, beq_eq_false_iff_ne.mpr hclosing, hblank]
      rfl
  | some q =>
    rw [scan]
    cases hblank : isBlank c with
    | false => rfl
    | true =>
      obtain ⟨rfl, hlast⟩ := h hblank
      rw [quoteStep_of_isBlank hquote hblank, beq_eq_false_iff_ne.mpr hlast]
      rfl

/-- **A stretch of characters that stay** is put to the word. -/
theorem scan_append_of_gathers {quote : Option Char} (hquote : IsOpen quote)
    {pending cs : List Char} (h : Gathers quote pending.head? cs) (rest : List Char) :
    scan quote pending (cs ++ rest)
      = scan (quoteAfter quote cs) (cs.reverse ++ pending) rest := by
  induction cs generalizing quote pending with
  | nil => rfl
  | cons c cs ih =>
    have hcs : Gathers (quoteStep quote c) (c :: pending).head? cs := h.2
    rw [List.cons_append, scan_cons_of_stays hquote h.1, ih (hquote.step c) hcs,
      List.reverse_cons, List.append_assoc]
    rfl

/-- **Of two stretches** the second stays if it does so after the first. -/
theorem gathers_append {quote last : Option Char} {cs ds : List Char} :
    Gathers quote last (cs ++ ds)
      ↔ Gathers quote last cs ∧ Gathers (quoteAfter quote cs) (cs.getLast?.or last) ds := by
  induction cs generalizing quote last with
  | nil => exact (and_iff_right trivial).symm
  | cons c cs ih =>
    have hlast : cs.getLast?.or (some c) = (c :: cs).getLast?.or last := by
      rw [List.getLast?_cons]
      cases cs.getLast? <;> rfl
    rw [List.cons_append, Gathers, ih, Gathers, and_assoc, hlast]
    rfl

/-- Outside of quotes it does not matter what came before. -/
theorem Gathers.after {last : Option Char} {cs : List Char} (h : Gathers none none cs) :
    Gathers none last cs := by
  cases cs with
  | nil => trivial
  | cons c cs => exact h

/-- Characters that stay outside of quotes do not begin with a blank. -/
theorem Gathers.isBlank_of_head {last : Option Char} {cs : List Char}
    (h : Gathers none last cs) {c : Char} (hc : c ∈ cs.head?) : isBlank c = false := by
  obtain ⟨cs, rfl⟩ := List.head?_eq_some_iff.mp hc
  exact h.1.1

/-- **Characters that stay are single-spaced.** -/
theorem Gathers.singleSpaced {quote last : Option Char} {cs : List Char}
    (h : Gathers quote last cs) : SingleSpaced cs := by
  induction cs generalizing quote last with
  | nil => exact ⟨nofun, .nil⟩
  | cons c cs ih =>
    obtain ⟨hc, hcs⟩ := h
    refine singleSpaced_cons.mpr ⟨?_, ?_, ih hcs⟩
    · intro hblank
      cases quote with
      | none => exact absurd hblank (by rw [hc.1]; exact Bool.false_ne_true)
      | some q => exact (hc hblank).1
    · rintro rfl hhead
      cases cs with
      | nil => cases hhead
      | cons d cs =>
        obtain rfl := Option.some.inj hhead
        -- the second of two spaces stays neither outside nor inside quotes
        obtain ⟨hd, -⟩ := hcs
        cases hquote : quoteStep quote ' ' with
        | none =>
          rw [hquote] at hd
          exact absurd hd.1 (by decide)
        | some q =>
          rw [hquote] at hd
          exact absurd rfl (hd (by decide)).2

/-! ## Words that end -/

/-- Characters that have been gathered are a word where the word ends. -/
theorem flush_of_ne_nil {pending : List Char} (h : pending ≠ []) (rest : List Token) :
    flush pending rest = .word (String.ofList pending.reverse) :: rest := by
  obtain ⟨c, cs, rfl⟩ := List.exists_cons_of_ne_nil h
  exact flush_cons c cs rest

/-- Blanks at the ends of a text do not show in its tokens. -/
@[simp] theorem tokenize_trim (text : String) :
    tokenize (trim text) = tokenize text := by
  rw [tokenize, tokenize, ofChars, ofChars, toList_trim, strip_strip]

/-! ## Words that stand on their own -/

/-- A stretch that stays and leaves no quote open. -/
structure Completes (quote last : Option Char) (cs : List Char) : Prop where
  gathers : Gathers quote last cs
  closed : quoteAfter quote cs = none

/-- Such a stretch with a character in front of it. -/
theorem Completes.cons {quote quote' last : Option Char} {c : Char} {cs : List Char}
    (hstays : Stays quote last c) (hstep : quoteStep quote c = quote')
    (h : Completes quote' (some c) cs) : Completes quote last (c :: cs) := by
  subst hstep
  exact ⟨⟨hstays, h.gathers⟩, h.closed⟩

/-- **A word on its own**: characters that stay, without a quote left open. -/
structure IsWhole (cs : List Char) : Prop extends Completes none none cs where
  ne_nil : cs ≠ []

/-- The word ends before these characters: at a blank, at a parenthesis, or
with the text. -/
def EndsWord (cs : List Char) : Prop :=
  ∀ c ∈ cs.head?, isBlank c = true ∨ c = '(' ∨ c = ')'

theorem endsWord_nil : EndsWord [] := nofun

theorem endsWord_space (cs : List Char) : EndsWord (' ' :: cs) := by
  intro c hc
  obtain rfl := Option.some.inj hc
  exact .inl (by decide)

theorem endsWord_closing (cs : List Char) : EndsWord (')' :: cs) := by
  intro c hc
  exact .inr (.inr (Option.some.inj hc).symm)

/-- A word ends before a character, or the character stays in it. -/
theorem endsWord_or_stays (last : Option Char) (c : Char) (cs : List Char) :
    EndsWord (c :: cs) ∨ Stays none last c := by
  by_cases h : isBlank c = true ∨ c = '(' ∨ c = ')'
  · refine .inl fun d hd => ?_
    obtain rfl := Option.some.inj hd
    exact h
  · obtain ⟨hblank, hparentheses⟩ := not_or.mp h
    exact .inr ⟨Bool.eq_false_iff.mpr hblank, not_or.mp hparentheses⟩

/-- A blank outside of quotes ends the word, if there is one, and is passed over. -/
theorem scan_cons_of_isBlank {c : Char} (h : isBlank c = true) (pending cs : List Char) :
    scan none pending (c :: cs) = flush pending (scan none [] cs) := by
  have hopening : c ≠ '(' := ne_of_class h (by decide)
  have hclosing : c ≠ ')' := ne_of_class h (by decide)
  rw [scan, isQuote_eq_false_of_isBlank h, beq_eq_false_iff_ne.mpr hopening,
    beq_eq_false_iff_ne.mpr hclosing, h]
  rfl

/-- A space between words is passed over. -/
theorem scan_space (cs : List Char) : scan none [] (' ' :: cs) = scan none [] cs :=
  scan_cons_of_isBlank (by decide) [] cs

/-- An opening parenthesis is a token by itself. -/
theorem scan_opening (cs : List Char) :
    scan none [] ('(' :: cs) = opening :: scan none [] cs := by
  rw [scan]
  rfl

/-- A closing parenthesis is a token by itself. -/
theorem scan_closing (cs : List Char) :
    scan none [] (')' :: cs) = closing :: scan none [] cs := by
  rw [scan]
  rfl

/-- Where the word ends, it becomes a token, and the rest is cut as if nothing
had been before it. -/
theorem scan_of_endsWord {cs : List Char} (h : EndsWord cs) (pending : List Char) :
    scan none pending cs = flush pending (scan none [] cs) := by
  cases cs with
  | nil => rw [scan, scan, flush_nil]
  | cons c cs =>
    rcases h c rfl with hblank | rfl | rfl
    · rw [scan_cons_of_isBlank hblank, scan_cons_of_isBlank hblank, flush_nil]
    · rw [scan, scan]
      rfl
    · rw [scan, scan]
      rfl

/-- **A word on its own is a token**, wherever it ends. -/
theorem IsWhole.scan_append {cs : List Char} (h : IsWhole cs) {rest : List Char}
    (hrest : EndsWord rest) :
    scan none [] (cs ++ rest) = .word (String.ofList cs) :: scan none [] rest := by
  have hgathers : Gathers none ([] : List Char).head? cs := h.gathers
  rw [scan_append_of_gathers isOpen_none hgathers, h.closed, List.append_nil,
    scan_of_endsWord hrest, flush_of_ne_nil (List.reverse_ne_nil_iff.mpr h.ne_nil),
    List.reverse_reverse]

/-- Two words on their own make up one. -/
theorem IsWhole.append {cs ds : List Char} (hcs : IsWhole cs) (hds : IsWhole ds) :
    IsWhole (cs ++ ds) := by
  refine ⟨⟨gathers_append.mpr ⟨hcs.gathers, ?_⟩, ?_⟩, List.append_ne_nil_of_left_ne_nil hcs.ne_nil _⟩
  · rw [hcs.closed]
    exact hds.gathers.after
  · rw [quoteAfter_append, hcs.closed, hds.closed]

/-- A word on its own has no blank at its ends. -/
theorem IsWhole.trimmed {cs : List Char} (h : IsWhole cs) : Trimmed cs := by
  constructor
  · exact fun _ hc => h.gathers.isBlank_of_head hc
  · intro c hc
    obtain ⟨cs, rfl⟩ := List.getLast?_eq_some_iff.mp hc
    obtain ⟨-, hlast, -⟩ := gathers_append.mp h.gathers
    have hclosed : quoteStep (quoteAfter none cs) c = none :=
      (quoteAfter_append none cs [c]).symm.trans h.closed
    have hopen : IsOpen (quoteAfter none cs) := isOpen_none.after cs
    refine Bool.eq_false_iff.mpr fun hblank => ?_
    -- a blank at the end is inside of a quote, and that quote stays open
    rw [quoteStep_of_isBlank hopen hblank] at hclosed
    rw [hclosed] at hlast
    exact Bool.false_ne_true (hlast.1.symm.trans hblank)

end RecordRules.Token
