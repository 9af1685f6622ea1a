import RecordRules.Condition.Basic
import RecordRules.Proofs.Token.Words

/-!
# The words of a spelled condition

What `Condition.ofText?` reads has a name of word characters and a literal of
one of the three forms (`Condition.wellSpelled_of_ofText?`). That is what makes
the parts of a condition words on their own: word characters and bare characters
stay outside of quotes, and what is between the quotes of a literal stays if it
is single-spaced. A literal with other blanks is still a literal, but cutting it
out of a text does not give it back.
-/

namespace RecordRules

open Text

namespace Condition

/-- The characters of the text of a condition. -/
theorem toList_text (c : Condition) :
    c.text.toList = c.name.toList
      ++ ' ' :: (c.comparison.symbol.toList ++ ' ' :: c.literal.toList) := by
  simp only [Condition.text, String.toList_append, List.append_assoc]
  rfl

/-- A condition has no blank at its ends if its name and its literal have none. -/
theorem trimmed_text {c : Condition} (hname : Trimmed c.name.toList)
    (hname_ne : c.name.toList ≠ []) (hliteral : Trimmed c.literal.toList)
    (hliteral_ne : c.literal.toList ≠ []) : c.text.toList ≠ [] ∧ Trimmed c.text.toList := by
  have hbegins : c.name.toList <+: c.text.toList := by
    rw [toList_text]
    exact List.prefix_append _ _
  have hends : c.literal.toList <:+ c.text.toList := by
    rw [toList_text]
    exact ⟨c.name.toList ++ ' ' :: (c.comparison.symbol.toList ++ [' ']), by simp⟩
  exact ⟨hbegins.ne_nil hname_ne,
    .of_prefix_of_suffix hname hname_ne hbegins hliteral hliteral_ne hends⟩

/-- **The parts of a condition as they can be spelled**: the name is made of
word characters, and the literal has the form of one. -/
structure WellSpelled (c : Condition) : Prop where
  name_ne_nil : c.name.toList ≠ []
  isWord_name : ∀ ch ∈ c.name.toList, isWord ch = true
  isLiteral : isLiteral c.literal.toList = true

/-- **What is read from a text has the parts of a condition.** -/
theorem wellSpelled_of_ofText? {text : String} {c : Condition}
    (h : ofText? text = some c) : c.WellSpelled := by
  unfold ofText? at h
  dsimp only at h
  split at h
  · contradiction
  · next name hname =>
    obtain ⟨⟨op, rest⟩, -, hread⟩ := List.exists_of_findSome?_eq_some h
    dsimp only at hread
    split at hread
    · next hliteral =>
      obtain rfl := Option.some.inj hread
      refine ⟨?_, ?_, ?_⟩
      · rw [String.toList_ofList]
        exact hname
      · intro ch hch
        rw [String.toList_ofList] at hch
        exact List.mem_takeWhile_imp hch
      · rw [String.toList_ofList]
        exact hliteral
    · contradiction

/-- A condition that its own text spells has the parts of one. -/
theorem wellSpelled_of_isSpelled {c : Condition} (h : c.isSpelled = true) :
    c.WellSpelled :=
  wellSpelled_of_ofText? (beq_iff_eq.mp h)

/-! ## Bare characters -/

/-- What makes a character bare. -/
theorem isBare_iff {c : Char} :
    isBare c = true ↔ isBlank c = false ∧ isQuote c = false ∧ c ≠ '(' ∧ c ≠ ')' := by
  simp only [isBare, Bool.not_eq_true', Bool.or_eq_false_iff, beq_eq_false_iff_ne,
    and_assoc, ne_eq]

/-- A word character may stand in a literal without quotes. -/
theorem isBare_of_isWord {c : Char} (h : isWord c = true) : isBare c = true := by
  have hblank : isBlank c = false := by
    refine Bool.eq_false_iff.mpr fun hc => ?_
    exact Bool.false_ne_true ((isWord_eq_false_of_isBlank hc).symm.trans h)
  have hsingle : c ≠ '\'' := ne_of_class h (by decide +kernel)
  have hdouble : c ≠ '"' := ne_of_class h (by decide +kernel)
  have hquote : isQuote c = false := by
    rw [isQuote, beq_eq_false_iff_ne.mpr hsingle, beq_eq_false_iff_ne.mpr hdouble]
    rfl
  exact isBare_iff.mpr ⟨hblank, hquote, ne_of_class h (by decide +kernel),
    ne_of_class h (by decide +kernel)⟩

end Condition

namespace Token

open Condition

/-- **Bare characters stay**, and open no quote. -/
theorem completes_of_isBare {cs : List Char} (h : ∀ c ∈ cs, isBare c = true)
    (last : Option Char) : Completes none last cs := by
  induction cs generalizing last with
  | nil => exact ⟨trivial, rfl⟩
  | cons c cs ih =>
    obtain ⟨hc, hcs⟩ := List.forall_mem_cons.mp h
    obtain ⟨hblank, hquote, hopening, hclosing⟩ := isBare_iff.mp hc
    exact .cons ⟨hblank, hopening, hclosing⟩ (quoteStep_of_not_isQuote hquote) (ih hcs (some c))

/-- Bare characters are a word on their own. -/
theorem isWhole_of_isBare {cs : List Char} (hne : cs ≠ [])
    (h : ∀ c ∈ cs, isBare c = true) : IsWhole cs :=
  ⟨completes_of_isBare h none, hne⟩

/-- **Inside quotes all characters stay** up to the closing quote, if they are
single-spaced and no two spaces meet at the front. -/
theorem completes_of_endsAtFirst {q : Char} {cs : List Char} {last : Option Char}
    (h : endsAtFirst q cs = true) (hspaced : SingleSpaced cs)
    (hlast : last = some ' ' → cs.head? ≠ some ' ') :
    Completes (some q) last cs := by
  induction cs generalizing last with
  | nil => exact absurd h Bool.false_ne_true
  | cons c cs ih =>
    obtain ⟨hblank, hnext, hcs⟩ := singleSpaced_cons.mp hspaced
    have hstays : Stays (some q) last c := by
      intro hc
      obtain rfl := hblank hc
      exact ⟨rfl, fun heq => hlast heq rfl⟩
    rw [endsAtFirst] at h
    split at h
    · next hclose =>
      obtain rfl := List.isEmpty_iff.mp h
      obtain rfl := eq_of_beq hclose
      exact .cons hstays (quoteStep_self c) ⟨trivial, rfl⟩
    · next hopen =>
      have hne : c ≠ q := fun heq => hopen (beq_iff_eq.mpr heq)
      have hafter : some c = some ' ' → cs.head? ≠ some ' ' :=
        fun heq => hnext (Option.some.inj heq)
      exact .cons hstays (quoteStep_of_ne hne) (ih h hcs hafter)

/-- **A single-spaced literal is a word on its own.** -/
theorem isWhole_of_isLiteral {cs : List Char} (h : isLiteral cs = true)
    (hspaced : SingleSpaced cs) : IsWhole cs := by
  cases cs with
  | nil => exact absurd h Bool.false_ne_true
  | cons c cs =>
    rw [isLiteral] at h
    split at h
    · next hquote =>
      obtain ⟨-, hnext, hcs⟩ := singleSpaced_cons.mp hspaced
      have hfirst : some c = some ' ' → cs.head? ≠ some ' ' :=
        fun heq => hnext (Option.some.inj heq)
      have hspan := completes_of_endsAtFirst h hcs hfirst
      exact ⟨.cons (stays_of_isQuote hquote none) (quoteStep_of_isQuote hquote) hspan,
        List.cons_ne_nil _ _⟩
    · exact isWhole_of_isBare (List.cons_ne_nil _ _) (List.all_eq_true.mp h)

/-- The symbol of a comparison is a word on its own. -/
theorem isWhole_comparison (op : Comparison) : IsWhole op.symbol.toList := by
  cases op <;>
    exact isWhole_of_isBare (List.cons_ne_nil _ _) (List.all_eq_true.mp (by decide))

/-- The symbol of a connective is a word on its own. -/
theorem isWhole_connective (k : Connective) : IsWhole k.symbol.toList := by
  cases k <;>
    exact isWhole_of_isBare (List.cons_ne_nil _ _) (List.all_eq_true.mp (by decide))

end Token

end RecordRules
