import RecordRules.Proofs.Tree.RoundTrip

/-!
# Trees that were read without a check

The conditions of a tree that was parsed may be made of any words, with quotes in the middle
and comparisons glued to a name. The text of such a tree is still parsed as the tree
(`Tree.parse_render_of_parse`), for its words were cut out of a text, and the writer puts a
blank or a parenthesis after each of them, which is where a word ends.

The one word that this does not hold for is a last token with a quote left open: it would
take in whatever comes after it. But it is the literal of the last condition, and since no
parenthesis closes after it, that condition is the tree itself or the right child of its
root. There the writer puts nothing after it either.
-/

namespace RecordRules

open Grammar Text Token

/-! ## The end of a derivation -/

namespace Grammar

/-- Links are none, or some with one more at their end. -/
theorem Links.eq_done_or_snoc (links : Links) :
    links = .done ∨ ∃ front k t, links = Links.snoc k t front := by
  cases links with
  | done => exact .inl rfl
  | link k t more =>
    rcases more.eq_done_or_snoc with rfl | ⟨front, k', t', rfl⟩
    · exact .inr ⟨.done, k, t, rfl⟩
    · exact .inr ⟨.link k t front, k', t', rfl⟩

/-- **An expression ends** with a parenthesis or with a condition. The condition is the whole
expression then, or the term of its last link. -/
theorem Expression.eq_or_extend (e : Expression) :
    (∃ front, e.tokens = front ++ [.closing])
      ∨ (∃ c, e = .chain (.condition c) .done)
      ∨ ∃ e' k c, e = Expression.extend k (.condition c) e' := by
  obtain ⟨first, links⟩ := e
  rcases links.eq_done_or_snoc with rfl | ⟨front, k, t, rfl⟩
  · cases first with
    | condition c => exact .inr (.inl ⟨c, rfl⟩)
    | group inner =>
      refine .inl ⟨.opening :: inner.tokens, ?_⟩
      rw [Expression.tokens, Term.tokens, Links.tokens, List.append_nil, List.cons_append]
  · cases t with
    | condition c => exact .inr (.inr ⟨.chain first front, k, c, rfl⟩)
    | group inner =>
      have hextend : Expression.chain first (front.snoc k (.group inner))
          = (Expression.chain first front).extend k (.group inner) := rfl
      refine .inl ⟨(Expression.chain first front).tokens
        ++ .word k.symbol :: .opening :: inner.tokens, ?_⟩
      rw [hextend, Expression.tokens_extend, Term.tokens, List.append_assoc]
      rfl

end Grammar

/-! ## Conditions at the end of a text -/

namespace Condition

/-- **The words of a condition at the end of a text**: the literal may leave a quote open. -/
structure LastWords (c : Condition) : Prop where
  name : IsWhole c.name.toList
  literal_ne_nil : c.literal.toList ≠ []
  gathers : Gathers none none c.literal.toList
  trimmed : Trimmed c.literal.toList

/-- The last condition of a text has such words. -/
theorem lastWords_of_tokenize {text : String} {front : List Token} {c : Condition}
    (h : tokenize text = front ++ c.tokens) : c.LastWords := by
  have hmem : Token.word c.literal ∈ tokenize text := by simp [h, Condition.tokens]
  obtain ⟨hne, hgathers⟩ := gathers_of_mem_tokenize hmem
  have hname : IsWhole c.name.toList := by
    rw [Condition.tokens, List.append_cons] at h
    exact isWhole_of_tokenize_eq_append h (List.cons_ne_nil _ _) (by simp)
  exact ⟨hname, hne, hgathers, (trimmed_of_mem_tokenize hmem).2⟩

/-- A condition with other tokens after it has whole words. -/
theorem wholeWords_of_tokenize {text : String} {front back : List Token} {c : Condition}
    (h : tokenize text = front ++ back) (hne : back ≠ []) (hc : c.tokens ⊆ front) :
    c.WholeWords where
  name := isWhole_of_tokenize_eq_append h hne (hc (by simp [Condition.tokens]))
  literal := isWhole_of_tokenize_eq_append h hne (hc (by simp [Condition.tokens]))

namespace LastWords

variable {c : Condition} (h : c.LastWords)

include h

/-- **The text of the condition is cut into its tokens**, where nothing follows it. -/
theorem scan_text : scan none [] c.text.toList = c.tokens := by
  rw [Condition.toList_text, h.name.scan_append (endsWord_space _), scan_space,
    (isWhole_comparison c.comparison).scan_append (endsWord_space _), scan_space,
    scan_of_gathers h.literal_ne_nil h.gathers]
  simp only [String.ofList_toList]
  rfl

/-- Its text has no blank at its ends, and it is not empty. -/
theorem trimmed_text : c.text.toList ≠ [] ∧ Trimmed c.text.toList :=
  Condition.trimmed_text h.name.trimmed h.name.ne_nil h.trimmed h.literal_ne_nil

end LastWords

end Condition

/-! ## The text of the tree -/

namespace Tree

/-- **A condition by itself** may leave a quote open. -/
theorem tokenize_render_leaf {c : Condition} (h : c.LastWords) :
    tokenize (leaf c).render = (Expression.ofTree (leaf c)).tokens := by
  rw [render_leaf, tokenize, ofChars, strip_eq_self h.trimmed_text.2, h.scan_text]
  rfl

/-- **A condition as the right child of the root** may leave a quote open, for its literal
comes last in the text of the tree. -/
theorem tokenize_render_node_leaf {k : Connective} {l : Tree} {c : Condition}
    (hl : ∀ d ∈ l.conditions, d.WholeWords) (hc : c.LastWords) :
    tokenize (node k l (leaf c)).render = (Expression.ofTree (node k l (leaf c))).tokens := by
  have hconditions : ∀ d ∈ (node k l (leaf c)).conditions,
      d.text.toList ≠ [] ∧ Trimmed d.text.toList := by
    rw [conditions_node, List.forall_mem_append, conditions_leaf, List.forall_mem_singleton]
    exact ⟨fun d hd => (hl d hd).trimmed_text, hc.trimmed_text⟩
  rw [tokenize, ofChars, strip_eq_self (trimmed_render _ hconditions).2, toList_render_node,
    scan_render_append l hl (endsWord_space _), scan_space,
    (isWhole_connective k).scan_append (endsWord_space _), scan_space, isLeaf, if_pos rfl,
    render_leaf, hc.scan_text, Expression.ofTree, Expression.tokens_extend, String.ofList_toList]
  rfl

/-- **What was parsed is parsed again from its own text**, within the same limit. -/
theorem parse_render_of_parse {limit : ℕ} {text : String} {t : Tree}
    (h : parse limit text = .ok t) : parse limit t.render = .ok t := by
  obtain ⟨e, htokens, rfl, -, hheight⟩ := ofTokens_eq_ok_iff.mp h
  refine parse_render_of_tokenize hheight ?_
  rcases e.eq_or_extend with ⟨front, hlast⟩ | ⟨c, rfl⟩ | ⟨e', k, c, rfl⟩
  · -- all words come before the parenthesis
    refine tokenize_render _ fun c hc => ?_
    refine Condition.wholeWords_of_tokenize (htokens.symm.trans hlast) (List.cons_ne_nil _ _) ?_
    intro t ht
    have hmem := e.tokens_subset hc ht
    rw [hlast] at hmem
    rcases List.mem_append.mp hmem with hfront | hclosing
    · exact hfront
    · rw [List.mem_singleton.mp hclosing] at ht
      exact absurd ht (by simp [Condition.tokens])
  · have hc : tokenize text = [] ++ c.tokens := htokens.symm
    exact tokenize_render_leaf (Condition.lastWords_of_tokenize hc)
  · rw [Expression.tokens_extend, Term.tokens] at htokens
    rw [Expression.tree_extend, Term.tree]
    refine tokenize_render_node_leaf (fun d hd => ?_) ?_
    · exact Condition.wholeWords_of_tokenize htokens.symm (List.cons_ne_nil _ _)
        (e'.tokens_subset hd)
    · rw [List.append_cons] at htokens
      exact Condition.lastWords_of_tokenize htokens.symm

/-- The name holds a span with a parenthesis, the first literal a quote of the other kind, and
the last one leaves its quote open; the group on the left loses its parentheses. -/
theorem parse_render_of_open_quote :
    parse 2 "(x'a  (b' >= \"it's\") OR AND != y'  (z AND 1 "
        = .ok (.node .or (.leaf ⟨"x'a (b'", .greaterEqual, "\"it's\""⟩)
          (.leaf ⟨"AND", .notEqual, "y' (z AND 1"⟩))
      ∧ parse 2 "x'a (b' >= \"it's\" OR AND != y' (z AND 1"
        = .ok (.node .or (.leaf ⟨"x'a (b'", .greaterEqual, "\"it's\""⟩)
          (.leaf ⟨"AND", .notEqual, "y' (z AND 1"⟩)) := by
  have h : parse 2 "(x'a  (b' >= \"it's\") OR AND != y'  (z AND 1 "
      = .ok (.node .or (.leaf ⟨"x'a (b'", .greaterEqual, "\"it's\""⟩)
        (.leaf ⟨"AND", .notEqual, "y' (z AND 1"⟩)) := by
    decide +kernel
  have hrender : render (.node .or (.leaf ⟨"x'a (b'", .greaterEqual, "\"it's\""⟩)
      (.leaf ⟨"AND", .notEqual, "y' (z AND 1"⟩))
      = "x'a (b' >= \"it's\" OR AND != y' (z AND 1" := by
    decide +kernel
  have hagain := parse_render_of_parse h
  rw [hrender] at hagain
  exact ⟨h, hagain⟩

end Tree

end RecordRules
