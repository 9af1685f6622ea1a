import RecordRules.Proofs.Tree.Beginning

/-!
# Words without quotes

A token without quotes stands in the text as it is: nothing in it can have been collapsed,
for that happens inside of quotes only. So the text can be told from its first token
(`Token.exists_of_scan_eq_word`). It begins with blanks, then comes the word, and then what
ends a word; what is left has the other tokens.

A quote that opens in a word becomes a part of the word, which is why a word without quotes
was gathered outside of quotes from its first character to its last.
-/

namespace RecordRules.Token

open Condition (isQuote)
open Text

/-- Blanks between words are passed over. -/
theorem scan_blanks_append {before : List Char} (h : ∀ b ∈ before, isBlank b = true)
    (cs : List Char) : scan none [] (before ++ cs) = scan none [] cs := by
  induction before with
  | nil => rfl
  | cons b before ih =>
    obtain ⟨hb, hbefore⟩ := List.forall_mem_cons.mp h
    rw [List.cons_append, scan_cons_of_isBlank hb, flush_nil, ih hbefore]

/-- A word on its own is a token before blanks. -/
theorem IsWhole.scan_blanks_append {w between : List Char} (hw : IsWhole w)
    (hne : between ≠ []) (h : ∀ b ∈ between, isBlank b = true) (rest : List Char) :
    scan none [] (w ++ (between ++ rest)) = .word (String.ofList w) :: scan none [] rest := by
  have hends : EndsWord (between ++ rest) := by
    obtain ⟨b, between, rfl⟩ := List.exists_cons_of_ne_nil hne
    intro c hc
    obtain rfl := Option.some.inj hc
    exact .inl (h b List.mem_cons_self)
  rw [hw.scan_append hends, Token.scan_blanks_append h]

/-- **Only blanks have no tokens.** -/
theorem isBlank_of_scan_eq_nil {cs : List Char} (h : scan none [] cs = []) :
    ∀ c ∈ cs, isBlank c = true := by
  obtain ⟨before, hbefore, hcs⟩ := exists_append_dropBlanks cs
  cases hdrop : dropBlanks cs with
  | nil =>
    rw [hcs, hdrop, List.append_nil]
    exact hbefore
  | cons c rest =>
    have hhead : (cs.dropWhile isBlank).head? = some c := congrArg List.head? hdrop
    obtain ⟨t, ts, hscan, -⟩ := exists_scan_cons (isBlank_of_head_dropWhile hhead) rest
    rw [hcs, scan_blanks_append hbefore, hdrop, hscan] at h
    cases h

section Words

variable {w : String} {ts : List Token} (hw : ∀ c ∈ w.toList, isQuote c = false)

include hw

/-- A character that stays goes into the word, and opens no quote. -/
theorem scan_cons_eq_word {pending : List Char} {c : Char} {cs : List Char}
    (hc : Stays none pending.head? c) (h : scan none pending (c :: cs) = .word w :: ts) :
    scan none (c :: pending) cs = .word w :: ts := by
  rw [scan_cons_of_stays isOpen_none hc] at h
  have hquote : isQuote c = false := by
    obtain ⟨w', rest, hscan, hbegins⟩ :=
      exists_scan_eq_word (List.cons_ne_nil c pending) (quoteStep none c) cs
    obtain ⟨hword, -⟩ := List.cons.inj (hscan.symm.trans h)
    obtain rfl := Token.word.inj hword
    exact hw c (hbegins.subset (List.mem_reverse.mpr List.mem_cons_self))
  rwa [quoteStep_of_not_isQuote hquote] at h

omit hw in
/-- Where the word that is being gathered ends, it is the first token. -/
theorem eq_of_scan_of_endsWord {pending cs : List Char} (hne : pending ≠ [])
    (hends : EndsWord cs) (h : scan none pending cs = .word w :: ts) :
    w.toList = pending.reverse ∧ scan none [] cs = ts := by
  rw [scan_of_endsWord hends, flush_of_ne_nil hne] at h
  obtain ⟨hword, hrest⟩ := List.cons.inj h
  rw [← Token.word.inj hword, String.toList_ofList]
  exact ⟨rfl, hrest⟩

/-- **The rest of a word that is being gathered** stands at the front of the text, up to where
the word ends. -/
theorem exists_of_scan_pending {pending cs : List Char} (hne : pending ≠ [])
    (h : scan none pending cs = .word w :: ts) :
    ∃ front rest, cs = front ++ rest ∧ w.toList = pending.reverse ++ front
      ∧ EndsWord rest ∧ scan none [] rest = ts := by
  induction cs generalizing pending with
  | nil =>
    obtain ⟨hword, hrest⟩ := eq_of_scan_of_endsWord hne endsWord_nil h
    exact ⟨[], [], rfl, hword.trans (List.append_nil _).symm, endsWord_nil, hrest⟩
  | cons c cs ih =>
    rcases endsWord_or_stays pending.head? c cs with hends | hstays
    · obtain ⟨hword, hrest⟩ := eq_of_scan_of_endsWord hne hends h
      exact ⟨[], c :: cs, rfl, hword.trans (List.append_nil _).symm, hends, hrest⟩
    · obtain ⟨front, rest, rfl, hword, hends, hrest⟩ :=
        ih (List.cons_ne_nil c pending) (scan_cons_eq_word hw hstays h)
      rw [List.reverse_cons, List.append_assoc] at hword
      exact ⟨c :: front, rest, rfl, hword, hends, hrest⟩

/-- **A first token without quotes stands in the text as it is**, after blanks and before what
ends a word. -/
theorem exists_of_scan_eq_word {cs : List Char} (h : scan none [] cs = .word w :: ts) :
    ∃ before rest, (∀ b ∈ before, isBlank b = true) ∧ cs = before ++ (w.toList ++ rest)
      ∧ EndsWord rest ∧ scan none [] rest = ts := by
  obtain ⟨before, hbefore, hcs⟩ := exists_append_dropBlanks cs
  rw [hcs, scan_blanks_append hbefore] at h
  cases hdrop : dropBlanks cs with
  | nil =>
    rw [hdrop, scan, flush_nil] at h
    cases h
  | cons c rest =>
    have hhead : (cs.dropWhile isBlank).head? = some c := congrArg List.head? hdrop
    have hblank := isBlank_of_head_dropWhile hhead
    rw [hdrop] at h hcs
    rcases endsWord_or_stays none c rest with hends | hstays
    · -- a parenthesis is a token of its own, and no word
      rcases hends c rfl with hc | rfl | rfl
      · exact absurd (hblank.symm.trans hc) Bool.false_ne_true
      · rw [scan_opening] at h
        cases h
      · rw [scan_closing] at h
        cases h
    · obtain ⟨front, rest, rfl, hword, hends, hrest⟩ :=
        exists_of_scan_pending hw (List.cons_ne_nil c []) (scan_cons_eq_word hw hstays h)
      refine ⟨before, rest, hbefore, ?_, hends, hrest⟩
      rw [hcs, hword]
      rfl

end Words

/-- **A text of two words without quotes** is the first of them, blanks, and the second. -/
theorem exists_of_tokenize_eq_two {text first second : String}
    (hfirst : ∀ c ∈ first.toList, isQuote c = false)
    (hsecond : ∀ c ∈ second.toList, isQuote c = false)
    (h : tokenize text = [.word first, .word second]) :
    ∃ between, (∀ b ∈ between, isBlank b = true)
      ∧ strip text.toList = first.toList ++ (between ++ second.toList) := by
  have htrimmed := trimmed_strip text.toList
  obtain ⟨before, rest, hbefore, hstrip, -, hrest⟩ := exists_of_scan_eq_word hfirst h
  obtain ⟨between, after, hbetween, rfl, -, hafter⟩ := exists_of_scan_eq_word hsecond hrest
  rw [hstrip] at htrimmed ⊢
  -- there is nothing in front of the first word and after the second
  obtain rfl := htrimmed.eq_nil_of_leading hbefore
  rw [List.nil_append, ← List.append_assoc, ← List.append_assoc] at htrimmed
  obtain rfl := htrimmed.eq_nil_of_trailing (isBlank_of_scan_eq_nil hafter)
  refine ⟨between, hbetween, ?_⟩
  rw [List.nil_append, List.append_nil]

end RecordRules.Token
