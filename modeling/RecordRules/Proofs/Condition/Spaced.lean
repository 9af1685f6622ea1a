import RecordRules.Proofs.Condition.Splitting
import RecordRules.Proofs.Token.Bare
import RecordRules.Proofs.Token.Layout
import RecordRules.Proofs.Tree.Collapsed

/-!
# Conditions of three tokens

A condition can be read in two ways: as the text of a rule, which is cut into tokens first, or
as a condition and nothing else, which is split character by character. Where the text has
three tokens, both read it or neither does (`Condition.readers_agree_of_three_tokens`), and
what they read is the same up to the blanks inside of the literal.

From the splitting to the tokens: a name, a comparison and a literal are words on their own,
and two of them make up one word if no blank is between them. So there are three tokens only
if there are blanks on both sides of the comparison (`Condition.tokenize_of_splits`). From the
tokens to the splitting: a name and a comparison have no quotes and stand in the text as they
are, and the rest of it is a literal if it is one after its blanks have been collapsed.
-/

namespace RecordRules

open Text

/-! ## From the splitting to the tokens -/

namespace Token

open Condition (isLiteral isLiteral_collapse)

/-- A literal is a word on its own once its blanks are collapsed. -/
theorem isWhole_collapse_of_isLiteral {literal : List Char} (h : isLiteral literal = true) :
    IsWhole (collapse literal) :=
  isWhole_of_isLiteral ((isLiteral_collapse literal).trans h) (singleSpaced_collapse literal)

/-- **A word and a literal** are two tokens if there are blanks between them, and one token if
there are none. -/
theorem scan_append_literal {w after literal : List Char} (hw : IsWhole w)
    (hafter : ∀ b ∈ after, isBlank b = true) (hliteral : isLiteral literal = true) :
    scan none [] (w ++ (after ++ literal))
      = if after = [] then [.word (String.ofList (w ++ collapse literal))]
        else [.word (String.ofList w), .word (String.ofList (collapse literal))] := by
  have hwhole := isWhole_collapse_of_isLiteral hliteral
  split
  · next hnil =>
    have hword : collapse (w ++ literal) = w ++ collapse literal := by
      rw [collapse, collapseFrom_append_of_trimmed hw.trimmed hw.ne_nil,
        collapse_eq_self_iff.mpr hw.gathers.singleSpaced]
    have hboth := hw.append hwhole
    rw [hnil, List.nil_append, ← scan_collapse, hword, scan_of_gathers hboth.ne_nil hboth.gathers]
  · next hne =>
    rw [hw.scan_blanks_append hne hafter, ← scan_collapse literal,
      scan_of_gathers hwhole.ne_nil hwhole.gathers]

end Token

namespace Condition

open Token

/-- **A text of three tokens that can be split** into a condition has the tokens of that
condition, with the blanks of its literal collapsed. -/
theorem tokenize_of_splits {text : String} {c : Condition} (h : Splits (strip text.toList) c)
    (hthree : (tokenize text).length = 3) : tokenize text = c.collapsed.tokens := by
  obtain ⟨hne, hword, hform, before, after, hbefore, hafter, htext⟩ := h
  have hliteral := isLiteral_iff.mpr hform
  have hname : IsWhole c.name.toList :=
    isWhole_of_isBare hne fun ch hch => isBare_of_isWord (hword ch hch)
  have hsymbol := isWhole_comparison c.comparison
  rw [tokenize, ofChars, htext] at hthree ⊢
  by_cases hnil : before = []
  · -- the name and the comparison are one word, and two tokens are too few
    rw [hnil, List.nil_append, ← List.append_assoc,
      scan_append_literal (hname.append hsymbol) hafter hliteral] at hthree
    split at hthree <;> cases hthree
  · rw [hname.scan_blanks_append hnil hbefore, scan_append_literal hsymbol hafter hliteral]
      at hthree ⊢
    split at hthree
    · cases hthree
    · next hafter' =>
      rw [if_neg hafter']
      simp only [String.ofList_toList]
      rfl

end Condition

/-- **The tokens of a condition** that is well spelled are read as a tree of one leaf. -/
theorem Tree.ofText_of_tokenize {limit : ℕ} (hlimit : 1 ≤ limit) {text : String} {c : Condition}
    (htokens : Token.tokenize text = c.tokens) (h : c.WellSpelled) :
    ofText limit text = .ok (leaf c) := by
  have hparse : parse limit text = .ok (leaf c) := by
    have hheight : (leaf c).height ≤ max 1 limit := le_max_left 1 limit
    refine ofTokens_eq_ok_iff.mpr
      ⟨.chain (.condition c) .done, ?_, rfl, Nat.zero_le limit, hheight⟩
    rw [htokens]
    rfl
  have hcheck : (leaf c).check limit = .ok () := by
    rw [check_eq_ok_iff, depth_eq_height, conditions_leaf, List.forall_mem_singleton]
    exact ⟨hlimit, Condition.isSpelled_iff.mpr h⟩
  exact ofText_eq_ok_iff.mpr ⟨hparse, hcheck⟩

/-! ## From the tokens to the splitting -/

namespace Grammar

mutual

/-- No expression has fewer tokens than a condition. -/
theorem Expression.three_le_length : ∀ e : Expression, 3 ≤ e.tokens.length
  | .chain first links => by
    rw [Expression.tokens, List.length_append]
    have := first.three_le_length
    omega

theorem Term.three_le_length : ∀ t : Term, 3 ≤ t.tokens.length
  | .condition c => le_rfl
  | .group inner => by
    rw [Term.tokens, List.length_cons, List.length_append]
    have := inner.three_le_length
    omega

end

/-- **An expression of three tokens is a condition.** -/
theorem Expression.eq_condition_of_length {e : Expression} (h : e.tokens.length = 3) :
    ∃ c, e = .chain (.condition c) .done := by
  obtain ⟨first, links⟩ := e
  have hfirst := first.three_le_length
  rw [Expression.tokens, List.length_append] at h
  cases links with
  | link k term more =>
    rw [Links.tokens, List.length_cons] at h
    omega
  | done =>
    cases first with
    | condition c => exact ⟨c, rfl⟩
    | group inner =>
      have hinner := inner.three_le_length
      rw [Term.tokens, List.length_cons, List.length_append] at h
      omega

end Grammar

/-- **A rule of three tokens** is a condition of well spelled parts. -/
theorem Tree.exists_condition_of_ofText {limit : ℕ} {text : String} {t : Tree}
    (h : ofText limit text = .ok t) (hthree : (Token.tokenize text).length = 3) :
    ∃ c : Condition, Token.tokenize text = c.tokens ∧ c.WellSpelled := by
  obtain ⟨hparse, hcheck⟩ := ofText_eq_ok_iff.mp h
  obtain ⟨e, htokens, rfl, -, -⟩ := ofTokens_eq_ok_iff.mp hparse
  obtain ⟨c, rfl⟩ := Grammar.Expression.eq_condition_of_length (htokens ▸ hthree)
  refine ⟨c, htokens.symm, Condition.isSpelled_iff.mp ?_⟩
  exact (check_eq_ok_iff.mp hcheck).2 c (List.mem_singleton_self c)

/-- **A text of one token** is the token, once its blanks are collapsed. -/
theorem Token.collapse_of_scan_eq_singleton {cs : List Char} {w : String} (hcs : Trimmed cs)
    (h : scan none [] cs = [.word w]) : collapse cs = w.toList := by
  obtain ⟨ts, hlayout⟩ := exists_layout (singleSpaced_collapse cs)
  have htrimmed := hcs.collapse
  obtain rfl : ts = [.word w] := by
    rw [← hlayout.scan_eq, scan_collapse, h]
  generalize collapse cs = ds at hlayout htrimmed ⊢
  cases hlayout with
  | blank hblank _ => exact absurd hblank (Bool.eq_false_iff.mp (htrimmed.head _ rfl))
  | word _ _ hrest =>
    obtain rfl := htrimmed.eq_nil_of_trailing (isBlank_of_scan_eq_nil hrest.scan_eq)
    rw [List.append_nil, String.toList_ofList]
  | last _ _ => exact String.toList_ofList.symm

namespace Condition

open Token

/-- **A text with the tokens of a condition can be split**, if the condition is well spelled.
The literal may have more blanks than the token. -/
theorem exists_splits_of_tokenize {text : String} {c : Condition}
    (htokens : tokenize text = c.tokens) (h : c.WellSpelled) :
    ∃ d, Splits (strip text.toList) d := by
  have hquote : ∀ ch ∈ c.name.toList, isQuote ch = false := fun ch hch =>
    (isBare_iff.mp (isBare_of_isWord (h.isWord_name ch hch))).2.1
  have htrimmed := trimmed_strip text.toList
  obtain ⟨front, rest, hfront, hstrip, -, hrest⟩ := exists_of_scan_eq_word hquote htokens
  obtain ⟨before, tail, hbefore, rfl, -, htail⟩ :=
    exists_of_scan_eq_word (fun _ hch => (Comparison.of_mem_symbol hch).2.2) hrest
  obtain ⟨after, hafter, hsplit⟩ := exists_append_dropBlanks tail
  have hhead : ∀ ch ∈ (dropBlanks tail).head?, isBlank ch = false :=
    fun _ hch => isBlank_of_head_dropWhile hch
  generalize dropBlanks tail = literal at hsplit hhead
  subst hsplit
  rw [hstrip] at htrimmed ⊢
  obtain rfl := htrimmed.eq_nil_of_leading hfront
  rw [scan_blanks_append hafter] at htail
  have hlast : ∀ ch ∈ literal.getLast?, isBlank ch = false := by
    intro ch hch
    have hmem : ch ∈ (c.name.toList ++ before ++ c.comparison.symbol.toList ++ after
        ++ literal).getLast? := List.mem_getLast?_append_of_mem_getLast? hch
    exact htrimmed.last ch (by simpa only [List.nil_append, List.append_assoc] using hmem)
  have hcollapse := collapse_of_scan_eq_singleton ⟨hhead, hlast⟩ htail
  have hliteral : isLiteral literal = true := by
    rw [← isLiteral_collapse, hcollapse]
    exact h.isLiteral
  refine ⟨⟨c.name, c.comparison, String.ofList literal⟩, h.name_ne_nil, h.isWord_name, ?_,
    before, after, hbefore, hafter, ?_⟩
  · rw [String.toList_ofList]
    exact isLiteral_iff.mp hliteral
  · rw [String.toList_ofList]
    rfl

/-- **Both readers read the same of three tokens.** -/
theorem readers_agree_of_three_tokens {limit : ℕ} (hlimit : 1 ≤ limit) {text : String}
    (hthree : (tokenize text).length = 3) :
    ((∃ t, Tree.ofText limit text = .ok t) ↔ ∃ c, ofText text = .ok c)
      ∧ ∀ t c, Tree.ofText limit text = .ok t → ofText text = .ok c → t = .leaf c.collapsed := by
  have hleaf {c : Condition} (h : ofText text = .ok c) :
      Tree.ofText limit text = .ok (.leaf c.collapsed) := by
    have hread := ofText_eq_ok_iff.mp h
    exact Tree.ofText_of_tokenize hlimit
      (tokenize_of_splits (ofText?_eq_some_iff_splits.mp hread).1 hthree)
      (wellSpelled_of_ofText? hread).collapsed
  refine ⟨⟨?_, ?_⟩, ?_⟩
  · rintro ⟨t, ht⟩
    obtain ⟨c, htokens, hc⟩ := Tree.exists_condition_of_ofText ht hthree
    obtain ⟨d, hd⟩ := exists_splits_of_tokenize htokens hc
    cases hread : ofText? text with
    | none => exact absurd hd (ofText?_eq_none_iff.mp hread d)
    | some c => exact ⟨c, ofText_eq_ok_iff.mpr hread⟩
  · rintro ⟨c, hc⟩
    exact ⟨_, hleaf hc⟩
  · intro t c ht hc
    exact Except.ok.inj (ht.symm.trans (hleaf hc))

/-- The literal keeps its line break and its three spaces in one reading, and has single spaces
in the other. -/
theorem readers_agree_of_wide_blanks :
    1 ≤ 1 ∧ (tokenize " naïve\u00a0 !=\t'it\"s \n (x   y' ").length = 3
      ∧ ofText " naïve\u00a0 !=\t'it\"s \n (x   y' "
        = .ok ⟨"naïve", .notEqual, "'it\"s \n (x   y'"⟩
      ∧ Tree.ofText 1 " naïve\u00a0 !=\t'it\"s \n (x   y' "
        = .ok (.leaf ⟨"naïve", .notEqual, "'it\"s (x y'"⟩) := by
  have hthree : (tokenize " naïve\u00a0 !=\t'it\"s \n (x   y' ").length = 3 := by
    decide +kernel
  have hread : ofText " naïve\u00a0 !=\t'it\"s \n (x   y' "
      = .ok ⟨"naïve", .notEqual, "'it\"s \n (x   y'"⟩ := by
    decide +kernel
  obtain ⟨hiff, heq⟩ := readers_agree_of_three_tokens le_rfl hthree
  obtain ⟨t, ht⟩ := hiff.mpr ⟨_, hread⟩
  obtain rfl := heq t _ ht hread
  have hcollapsed : collapsed ⟨"naïve", .notEqual, "'it\"s \n (x   y'"⟩
      = ⟨"naïve", .notEqual, "'it\"s (x y'"⟩ := by
    decide +kernel
  rw [hcollapsed] at ht
  exact ⟨le_rfl, hthree, hread, ht⟩

end Condition

end RecordRules
