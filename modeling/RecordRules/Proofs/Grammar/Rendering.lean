import RecordRules.Proofs.Condition.Spelling
import RecordRules.Proofs.Grammar.Derivation

/-!
# The text of a tree has the derivation of the tree

Every tree is the tree of a derivation, and one of its derivations has no more
groups than it needs: a left child goes on with the chain, a right child that is
not a condition becomes a group (`Grammar.Expression.ofTree`). The groups of
that derivation are nested less deep than the tree is high, so wherever the tree
fits a limit its parentheses do, too.

`Tree.render` writes the tokens of this derivation. Cutting the text gives them
back (`Tree.tokenize_render`) if every name and every literal in it is a word on
its own. For how a word was written is all that cutting depends on: where a word
ends is seen from the blank or the parenthesis after it.
-/

namespace RecordRules

namespace Grammar

/-! ## The derivation of a tree -/

/-- The links with one more at their end. -/
def Links.snoc (k : Connective) (t : Term) : Links → Links
  | .done => .link k t .done
  | .link k' u more => .link k' u (more.snoc k t)

/-- **The expression with one more link.** -/
def Expression.extend (k : Connective) (t : Term) : Expression → Expression
  | .chain first links => .chain first (links.snoc k t)

mutual

/-- **The derivation of a tree** as an expression, with as few groups as
possible. -/
def Expression.ofTree : Tree → Expression
  | .leaf c => .chain (.condition c) .done
  | .node k l r => (Expression.ofTree l).extend k (Term.ofTree r)

/-- The derivation of a tree as a term. -/
def Term.ofTree : Tree → Term
  | .leaf c => .condition c
  | .node k l r => .group ((Expression.ofTree l).extend k (Term.ofTree r))

end

theorem Links.tokens_snoc (k : Connective) (t : Term) (links : Links) :
    (links.snoc k t).tokens = links.tokens ++ .word k.symbol :: t.tokens := by
  fun_induction Links.snoc k t links with
  | case1 => simp only [Links.tokens, List.append_nil, List.nil_append]
  | case2 k' u more ih => rw [Links.tokens, ih, Links.tokens, List.cons_append, List.append_assoc]

theorem Links.foldOnto_snoc (k : Connective) (t : Term) (links : Links) (left : Tree) :
    (links.snoc k t).foldOnto left = .node k (links.foldOnto left) t.tree := by
  fun_induction Links.snoc k t links generalizing left with
  | case1 => rfl
  | case2 k' u more ih => rw [Links.foldOnto, ih, Links.foldOnto]

theorem Links.nesting_snoc (k : Connective) (t : Term) (links : Links) :
    (links.snoc k t).nesting = max links.nesting t.nesting := by
  fun_induction Links.snoc k t links with
  | case1 => exact Nat.max_comm _ _
  | case2 k' u more ih => rw [Links.nesting, ih, Links.nesting, max_assoc]

@[simp] theorem Expression.tokens_extend (k : Connective) (t : Term) (e : Expression) :
    (e.extend k t).tokens = e.tokens ++ .word k.symbol :: t.tokens := by
  obtain ⟨first, links⟩ := e
  rw [Expression.extend, Expression.tokens, Links.tokens_snoc, Expression.tokens,
    List.append_assoc]

@[simp] theorem Expression.tree_extend (k : Connective) (t : Term) (e : Expression) :
    (e.extend k t).tree = .node k e.tree t.tree := by
  obtain ⟨first, links⟩ := e
  rw [Expression.extend, Expression.tree, Links.foldOnto_snoc, Expression.tree]

@[simp] theorem Expression.nesting_extend (k : Connective) (t : Term) (e : Expression) :
    (e.extend k t).nesting = max e.nesting t.nesting := by
  obtain ⟨first, links⟩ := e
  rw [Expression.extend, Expression.nesting, Links.nesting_snoc, Expression.nesting,
    max_assoc]

/-- **The derivation of a tree derives the tree.** -/
theorem tree_ofTree (t : Tree) :
    (Expression.ofTree t).tree = t ∧ (Term.ofTree t).tree = t := by
  induction t with
  | leaf c => exact ⟨rfl, rfl⟩
  | node k l r ihl ihr =>
    have h : ((Expression.ofTree l).extend k (Term.ofTree r)).tree = .node k l r := by
      rw [Expression.tree_extend, ihl.1, ihr.2]
    exact ⟨h, h⟩

/-- **Its groups are nested less deep than the tree is high.** A term is allowed
one more, for it may be a group itself. -/
theorem nesting_ofTree (t : Tree) :
    (Expression.ofTree t).nesting < t.height ∧ (Term.ofTree t).nesting ≤ t.height := by
  induction t with
  | leaf c => exact ⟨Nat.zero_lt_one, Nat.zero_le 1⟩
  | node k l r ihl ihr =>
    have h : ((Expression.ofTree l).extend k (Term.ofTree r)).nesting
        < (Tree.node k l r).height := by
      rw [Expression.nesting_extend, Tree.height_node]
      omega
    exact ⟨h, h⟩

end Grammar

/-! ## Cutting the text of a tree -/

open Grammar Token Text

/-- The name and the literal of the condition are words on their own. -/
structure Condition.WholeWords (c : Condition) : Prop where
  name : IsWhole c.name.toList
  literal : IsWhole c.literal.toList

/-- A condition of which the parts are well spelled has whole words, if its
literal is single-spaced. -/
theorem Condition.WellSpelled.wholeWords {c : Condition} (h : c.WellSpelled)
    (hspaced : SingleSpaced c.literal.toList) : c.WholeWords where
  name := isWhole_of_isBare h.name_ne_nil fun ch hch => isBare_of_isWord (h.isWord_name ch hch)
  literal := isWhole_of_isLiteral h.isLiteral hspaced

/-- **The text of a condition is cut into its three tokens.** -/
theorem Condition.WholeWords.scan_text {c : Condition} (h : c.WholeWords)
    {rest : List Char} (hrest : EndsWord rest) :
    scan none [] (c.text.toList ++ rest) = c.tokens ++ scan none [] rest := by
  rw [toList_text, List.append_assoc, List.cons_append,
    h.name.scan_append (endsWord_space _), scan_space, List.append_assoc, List.cons_append,
    (isWhole_comparison c.comparison).scan_append (endsWord_space _), scan_space,
    h.literal.scan_append hrest]
  simp only [String.ofList_toList]
  rfl

/-- The text of a condition with whole words has no blank at its ends. -/
theorem Condition.WholeWords.trimmed_text {c : Condition} (h : c.WholeWords) :
    c.text.toList ≠ [] ∧ Trimmed c.text.toList :=
  Condition.trimmed_text h.name.trimmed h.name.ne_nil h.literal.trimmed h.literal.ne_nil

namespace Tree

/-- The characters of the text of a node. -/
theorem toList_render_node (k : Connective) (l r : Tree) :
    (node k l r).render.toList = l.render.toList
      ++ ' ' :: (k.symbol.toList ++ ' ' :: (if r.isLeaf then r.render.toList
        else '(' :: (r.render.toList ++ [')']))) := by
  simp only [render, String.toList_append, List.append_assoc]
  cases r.isLeaf with
  | true => rfl
  | false =>
    simp only [Bool.false_eq_true, if_false, String.toList_append, List.append_assoc]
    rfl

/-- **The text of a tree is cut into the tokens of its derivation**, whatever
follows after the end of a word. -/
theorem scan_render_append (t : Tree) (h : ∀ c ∈ t.conditions, c.WholeWords)
    {rest : List Char} (hrest : EndsWord rest) :
    scan none [] (t.render.toList ++ rest)
      = (Expression.ofTree t).tokens ++ scan none [] rest := by
  induction t generalizing rest with
  | leaf c =>
    rw [render_leaf, (h c (List.mem_singleton_self c)).scan_text hrest]
    simp only [Expression.ofTree, Expression.tokens, Term.tokens, Links.tokens,
      List.append_nil]
  | node k l r ihl ihr =>
    rw [conditions_node, List.forall_mem_append] at h
    -- the right child is cut into the tokens of a term, in parentheses or not
    have hright : scan none [] ((if r.isLeaf then r.render.toList
          else '(' :: (r.render.toList ++ [')'])) ++ rest)
        = (Term.ofTree r).tokens ++ scan none [] rest := by
      cases r with
      | leaf c => exact (h.2 c (List.mem_singleton_self c)).scan_text hrest
      | node k' l' r' =>
        show scan none [] ('(' :: ((node k' l' r').render.toList ++ [')'] ++ rest)) = _
        rw [scan_opening, List.append_assoc, List.singleton_append,
          ihr h.2 (endsWord_closing rest),
          scan_closing, Term.ofTree, Term.tokens, List.cons_append, List.append_assoc]
        rfl
    rw [toList_render_node, List.append_assoc, List.cons_append,
      ihl h.1 (endsWord_space _), scan_space, List.append_assoc, List.cons_append,
      (isWhole_connective k).scan_append (endsWord_space _), scan_space, hright,
      Expression.ofTree, Expression.tokens_extend, List.append_assoc, String.ofList_toList]
    rfl

/-- **The text of a tree has no blank at its ends**, and it is not empty, if that
is so for its conditions. -/
theorem trimmed_render (t : Tree)
    (h : ∀ c ∈ t.conditions, c.text.toList ≠ [] ∧ Trimmed c.text.toList) :
    t.render.toList ≠ [] ∧ Trimmed t.render.toList := by
  induction t with
  | leaf c => exact h c (List.mem_singleton_self c)
  | node k l r ihl ihr =>
    rw [conditions_node, List.forall_mem_append] at h
    obtain ⟨hl, hltrimmed⟩ := ihl h.1
    obtain ⟨hr, hrtrimmed⟩ := ihr h.2
    have hbegins : l.render.toList <+: (node k l r).render.toList := by
      rw [toList_render_node]
      exact List.prefix_append _ _
    refine ⟨hbegins.ne_nil hl, ?_⟩
    -- the last character is that of the right child, or a parenthesis
    cases hleaf : r.isLeaf with
    | true =>
      refine .of_prefix_of_suffix hltrimmed hl hbegins hrtrimmed hr ?_
      rw [toList_render_node, hleaf]
      exact ⟨l.render.toList ++ ' ' :: (k.symbol.toList ++ [' ']), by simp⟩
    | false =>
      have hclosing : Trimmed [')'] := trimmed_singleton (by decide)
      refine .of_prefix_of_suffix hltrimmed hl hbegins hclosing (List.cons_ne_nil _ _) ?_
      rw [toList_render_node, hleaf]
      exact ⟨l.render.toList ++ ' ' :: (k.symbol.toList ++ ' ' :: '(' :: r.render.toList),
        by simp⟩

/-- **Cutting the text of a tree gives the tokens of its derivation.** -/
theorem tokenize_render (t : Tree) (h : ∀ c ∈ t.conditions, c.WholeWords) :
    tokenize t.render = (Expression.ofTree t).tokens := by
  have htrimmed := (trimmed_render t fun c hc => (h c hc).trimmed_text).2
  rw [tokenize, ofChars, strip_eq_self htrimmed]
  have hscan := scan_render_append t h endsWord_nil
  rwa [List.append_nil, scan, flush_nil, List.append_nil] at hscan

end Tree

end RecordRules
