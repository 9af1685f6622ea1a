import RecordRules.Proofs.Condition.Reading
import RecordRules.Proofs.Grammar.Parsing
import RecordRules.Proofs.Tree.Checking

/-!
# What the text of a rule begins with

Apart from blanks, the text of a rule begins with a parenthesis or with the first
character of a name (`Tree.head?_strip_of_ofText`). No other character can begin it,
because the first token of an expression is one of the two, and the first character of a
text is the first one of its first token: a word that is being gathered only grows.

The brace that JSON text of a draft begins with is neither, so that none of these is the
text of a rule.
-/

namespace RecordRules

open Text (isBlank isWord strip)

namespace Token

/-- A word that is being gathered is how the first token begins. -/
theorem exists_scan_eq_word {pending : List Char} (hne : pending ≠ [])
    (quote : Option Char) (cs : List Char) :
    ∃ w rest, scan quote pending cs = .word w :: rest ∧ pending.reverse <+: w.toList := by
  have hflush {pending : List Char} (hne : pending ≠ []) (rest : List Token) :
      ∃ w rest', flush pending rest = .word w :: rest' ∧ pending.reverse <+: w.toList := by
    obtain ⟨c, cs, rfl⟩ := List.exists_cons_of_ne_nil hne
    have hword : (String.ofList (c :: cs).reverse).toList = (c :: cs).reverse ++ [] := by
      rw [String.toList_ofList, List.append_nil]
    exact ⟨_, rest, rfl, [], hword.symm⟩
  -- one more character in front of what is pending makes the word longer
  have hgrow {c : Char} {pending : List Char} {ts : List Token}
      (h : ∃ w rest, ts = .word w :: rest ∧ (c :: pending).reverse <+: w.toList) :
      ∃ w rest, ts = .word w :: rest ∧ pending.reverse <+: w.toList := by
    obtain ⟨w, rest, hts, hprefix⟩ := h
    rw [List.reverse_cons] at hprefix
    exact ⟨w, rest, hts, (List.prefix_append _ _).trans hprefix⟩
  induction cs generalizing quote pending with
  | nil =>
    unfold scan
    exact hflush hne []
  | cons c cs ih =>
    have hgather (quote : Option Char) (c : Char) :=
      hgrow (ih (List.cons_ne_nil c pending) quote)
    cases quote with
    | some q =>
      unfold scan
      split
      · split
        · exact ih hne (some q)
        · exact hgather (some q) ' '
      · exact hgather _ c
    | none =>
      unfold scan
      split
      · exact hgather (some c) c
      · split
        · exact hflush hne _
        · split
          · exact hflush hne _
          · split
            · exact hflush hne _
            · exact hgather none c

/-- **The first token begins with the first character**, if that is no blank: it is a
parenthesis or a word. -/
theorem exists_scan_cons {c : Char} (hc : isBlank c = false) (cs : List Char) :
    ∃ t rest, scan none [] (c :: cs) = t :: rest ∧ t.text.toList.head? = some c := by
  have hword (quote : Option Char) : ∃ t rest,
      scan quote [c] cs = t :: rest ∧ t.text.toList.head? = some c := by
    obtain ⟨w, rest, hscan, tail, hw⟩ := exists_scan_eq_word (List.cons_ne_nil c []) quote cs
    exact ⟨.word w, rest, hscan, (congrArg List.head? hw).symm⟩
  rw [scan]
  split
  · exact hword (some c)
  · split
    · next hopening => exact ⟨.opening, _, rfl, congrArg some (beq_iff_eq.mp hopening).symm⟩
    · split
      · next hclosing => exact ⟨.closing, _, rfl, congrArg some (beq_iff_eq.mp hclosing).symm⟩
      · rw [hc, if_neg Bool.false_ne_true]
        exact hword none

end Token

namespace Grammar

/-- Folding links onto a tree loses none of its conditions. -/
theorem Links.subset_conditions_foldOnto {c : Condition} :
    (links : Links) → {left : Tree} → c ∈ left.conditions →
    c ∈ (links.foldOnto left).conditions
  | .done, _, h => h
  | .link _ _ more, _, h =>
    more.subset_conditions_foldOnto (List.mem_append_left _ h)

/-- **An expression begins** with a parenthesis or with the name of a condition. -/
theorem Expression.exists_tokens_eq (e : Expression) :
    (∃ rest, e.tokens = .opening :: rest)
      ∨ ∃ c ∈ e.tree.conditions, ∃ rest, e.tokens = .word c.name :: rest := by
  obtain ⟨first, links⟩ := e
  cases first with
  | group inner => exact .inl ⟨_, rfl⟩
  | condition c =>
    have hc : c ∈ (Tree.leaf c).conditions := List.mem_singleton_self c
    exact .inr ⟨c, links.subset_conditions_foldOnto hc, _, rfl⟩

end Grammar

/-- **The text of a rule begins**, after blanks, with a parenthesis or with a character of
a name. -/
theorem Tree.head?_strip_of_ofText {limit : ℕ} {text : String} {t : Tree}
    (h : ofText limit text = .ok t) :
    ∃ c, (strip text.toList).head? = some c ∧ (c = '(' ∨ isWord c = true) := by
  obtain ⟨hparse, hcheck⟩ := ofText_eq_ok_iff.mp h
  obtain ⟨e, htokens, rfl, -, -⟩ := ofTokens_eq_ok_iff.mp hparse
  rw [Token.tokenize, Token.ofChars] at htokens
  have htrimmed := Text.trimmed_strip text.toList
  cases hstrip : strip text.toList with
  | nil =>
    rw [hstrip] at htokens
    exact absurd htokens e.tokens_ne_nil
  | cons c cs =>
    rw [hstrip] at htokens htrimmed
    obtain ⟨token, rest, hscan, hhead⟩ := Token.exists_scan_cons (htrimmed.head c rfl) cs
    refine ⟨c, rfl, ?_⟩
    rcases e.exists_tokens_eq with ⟨rest', hopening⟩ | ⟨d, hd, rest', hname⟩
    · obtain ⟨rfl, -⟩ := List.cons.inj (hopening.symm.trans (htokens.trans hscan))
      exact .inl (Option.some.inj hhead).symm
    · obtain ⟨rfl, -⟩ := List.cons.inj (hname.symm.trans (htokens.trans hscan))
      have hspelled := (check_eq_ok_iff.mp hcheck).2 d hd
      have hwords := (Condition.isSpelled_iff.mp hspelled).isWord_name
      exact .inr (hwords c (List.mem_of_mem_head? hhead))

/-- **No rule begins with another character**, after blanks. -/
theorem Tree.ofText_ne_ok_of_head? {text : String} {c : Char}
    (h : (Text.dropBlanks text.toList).head? = some c) (hparenthesis : c ≠ '(')
    (hword : isWord c = false) (limit : ℕ) (t : Tree) : ofText limit text ≠ .ok t := by
  intro hread
  obtain ⟨d, hhead, hd⟩ := head?_strip_of_ofText hread
  rw [Text.head?_strip, h] at hhead
  obtain rfl := Option.some.inj hhead
  rcases hd with heq | hd
  · exact hparenthesis heq
  · exact Bool.false_ne_true (hword.symm.trans hd)

end RecordRules
