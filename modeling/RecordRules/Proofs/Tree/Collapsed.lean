import RecordRules.Proofs.Condition.Reading
import RecordRules.Proofs.Token.Spacing
import RecordRules.Proofs.Tree.RoundTrip

/-!
# What is read back from the text of a tree

A tree that passes its check may have literals with any blanks inside of their
quotes, if it was not read from a text. Its own text is still the text of a rule.
What is read back from it is the tree with the blanks of every literal collapsed
(`Tree.ofText_render`), and that is the same tree exactly if its literals are
single-spaced (`Tree.collapsed_eq_self_iff`).

Collapsing the blanks of a tree's text collapses those of its literals and nothing
else, for the words and the parentheses of the text are trimmed and stand between
single spaces.
-/

namespace RecordRules

open Text

/-! ## Conditions -/

namespace Condition

/-- **The condition with the blanks of its literal collapsed.** -/
def collapsed (c : Condition) : Condition :=
  { c with literal := String.ofList (collapse c.literal.toList) }

@[simp] theorem toList_literal_collapsed (c : Condition) :
    c.collapsed.literal.toList = collapse c.literal.toList :=
  String.toList_ofList

/-- **The conditions that collapsing leaves alone.** -/
theorem collapsed_eq_self_iff {c : Condition} :
    c.collapsed = c ↔ SingleSpaced c.literal.toList := by
  rw [← collapse_eq_self_iff]
  constructor
  · intro h
    rw [← toList_literal_collapsed, h]
  · intro h
    rw [collapsed, h, String.ofList_toList]

/-- A span is closed by its last character as it was before. -/
theorem endsAtFirst_collapseFrom {q : Char} (hq : isQuote q = true) (inRun : Bool)
    (cs : List Char) : endsAtFirst q (collapseFrom inRun cs) = endsAtFirst q cs := by
  have hne {c : Char} (hc : isBlank c = true) : ¬ (c == q) = true :=
    mt beq_iff_eq.mp (ne_of_class hc (Token.isBlank_eq_false_of_isQuote hq))
  induction cs generalizing inRun with
  | nil => rfl
  | cons c cs ih =>
    cases hblank : isBlank c with
    | false =>
      rw [collapseFrom_cons_of_not_isBlank hblank, endsAtFirst, endsAtFirst, isEmpty_collapse,
        collapse, ih]
    | true =>
      rw [collapseFrom_cons_of_isBlank hblank, endsAtFirst, if_neg (hne hblank)]
      split
      · exact ih true
      · rw [endsAtFirst, if_neg (hne (by decide))]
        exact ih true

/-- Blanks are not bare, however many there are. -/
theorem all_isBare_collapse (cs : List Char) : (collapse cs).all isBare = cs.all isBare := by
  have hbare {c : Char} (hc : isBlank c = true) : isBare c = false := by
    rw [isBare, hc]
    rfl
  induction cs with
  | nil => rfl
  | cons c cs ih =>
    cases hc : isBlank c with
    | false => rw [collapse, collapseFrom_cons_of_not_isBlank hc, List.all_cons, ih, List.all_cons]
    | true =>
      rw [collapse, collapseFrom_cons_of_isBlank hc, if_neg Bool.false_ne_true, List.all_cons,
        List.all_cons, hbare hc, hbare (by decide)]
      rfl

/-- **A literal stays a literal**, and nothing else becomes one. -/
theorem isLiteral_collapse (cs : List Char) : isLiteral (collapse cs) = isLiteral cs := by
  cases cs with
  | nil => rfl
  | cons c cs =>
    cases hblank : isBlank c with
    | false =>
      have hcollapse : collapse (c :: cs) = c :: collapse cs :=
        collapseFrom_cons_of_not_isBlank hblank false cs
      rw [hcollapse, isLiteral, isLiteral, ← hcollapse, all_isBare_collapse]
      split
      · next hquote => exact endsAtFirst_collapseFrom hquote false cs
      · rfl
    | true =>
      have hcollapse : collapse (c :: cs) = ' ' :: collapseFrom true cs :=
        collapseFrom_cons_of_isBlank hblank false cs
      rw [isLiteral, Token.isQuote_eq_false_of_isBlank hblank, if_neg Bool.false_ne_true,
        ← all_isBare_collapse, hcollapse]
      rfl

/-- A condition stays well spelled. -/
theorem WellSpelled.collapsed {c : Condition} (h : c.WellSpelled) : c.collapsed.WellSpelled where
  name_ne_nil := h.name_ne_nil
  isWord_name := h.isWord_name
  isLiteral := by
    rw [toList_literal_collapsed, isLiteral_collapse]
    exact h.isLiteral

/-- **Collapsing the text of a condition** collapses its literal. -/
theorem WellSpelled.collapse_text {c : Condition} (h : c.WellSpelled) :
    collapse c.text.toList = c.collapsed.text.toList := by
  have hname : collapse c.name.toList = c.name.toList := collapse_of_no_blank h.isBlank_name
  have hsymbol := Token.isWhole_comparison c.comparison
  have hliteral := (trimmed_of_isLiteral h.isLiteral).2
  rw [toList_text, toList_text, toList_literal_collapsed, collapse,
    collapseFrom_append_of_trimmed h.trimmed_name h.name_ne_nil, hname, collapse_space,
    collapseFrom_append_of_trimmed hsymbol.trimmed hsymbol.ne_nil,
    collapse_eq_self_iff.mpr hsymbol.gathers.singleSpaced, collapse_space,
    collapseFrom_of_head hliteral.head]
  rfl

end Condition

/-! ## Trees -/

namespace Tree

/-- **The tree with the blanks of its literals collapsed.** -/
def collapsed : Tree → Tree
  | leaf c => leaf c.collapsed
  | node k l r => node k l.collapsed r.collapsed

@[simp] theorem conditions_collapsed (t : Tree) :
    t.collapsed.conditions = t.conditions.map Condition.collapsed := by
  induction t with
  | leaf c => rfl
  | node k l r ihl ihr => rw [collapsed, conditions_node, ihl, ihr, conditions_node, List.map_append]

@[simp] theorem height_collapsed (t : Tree) : t.collapsed.height = t.height := by
  induction t with
  | leaf c => rfl
  | node k l r ihl ihr => rw [collapsed, height_node, ihl, ihr, height_node]

@[simp] theorem isLeaf_collapsed (t : Tree) : t.collapsed.isLeaf = t.isLeaf := by
  cases t <;> rfl

/-- **The trees that collapsing leaves alone** are those with single-spaced
literals. -/
theorem collapsed_eq_self_iff {t : Tree} :
    t.collapsed = t ↔ ∀ c ∈ t.conditions, SingleSpaced c.literal.toList := by
  induction t with
  | leaf c =>
    rw [collapsed, leaf.injEq, Condition.collapsed_eq_self_iff, conditions_leaf,
      List.forall_mem_singleton]
  | node k l r ihl ihr =>
    rw [collapsed, node.injEq, ihl, ihr, conditions_node, List.forall_mem_append, eq_self,
      true_and]

/-- **Collapsing the text of a tree** collapses its literals. -/
theorem collapse_render {t : Tree} (h : ∀ c ∈ t.conditions, c.WellSpelled) :
    collapse t.render.toList = t.collapsed.render.toList := by
  induction t with
  | leaf c => exact (h c (List.mem_singleton_self c)).collapse_text
  | node k l r ihl ihr =>
    rw [conditions_node, List.forall_mem_append] at h
    obtain ⟨hl, hr⟩ := h
    obtain ⟨hlne, hltrimmed⟩ := trimmed_render l fun c hc => (hl c hc).trimmed_text
    obtain ⟨hrne, hrtrimmed⟩ := trimmed_render r fun c hc => (hr c hc).trimmed_text
    have hsymbol := Token.isWhole_connective k
    -- the right child is collapsed on its own, in parentheses or not
    have hright : collapseFrom true (if r.isLeaf then r.render.toList
          else '(' :: (r.render.toList ++ [')']))
        = if r.collapsed.isLeaf then r.collapsed.render.toList
          else '(' :: (r.collapsed.render.toList ++ [')']) := by
      rw [isLeaf_collapsed, ← ihr hr]
      split
      · exact collapseFrom_of_head hrtrimmed.head true
      · rw [collapseFrom_cons_of_not_isBlank (by decide), collapse,
          collapseFrom_append_of_trimmed hrtrimmed hrne]
        rfl
    rw [toList_render_node, collapse, collapseFrom_append_of_trimmed hltrimmed hlne, ihl hl,
      collapse_space, collapseFrom_append_of_trimmed hsymbol.trimmed hsymbol.ne_nil,
      collapse_eq_self_iff.mpr hsymbol.gathers.singleSpaced, collapse_space, hright, collapsed,
      toList_render_node]

/-- A tree that passes its check goes on passing. -/
theorem check_collapsed {limit : ℕ} {t : Tree} (h : t.check limit = .ok ()) :
    t.collapsed.check limit = .ok () := by
  obtain ⟨hdepth, hspelled⟩ := check_eq_ok_iff.mp h
  rw [depth_eq_height] at hdepth
  rw [check_eq_ok_iff, depth_eq_height, height_collapsed, conditions_collapsed,
    List.forall_mem_map]
  refine ⟨hdepth, fun c hc => ?_⟩
  exact Condition.isSpelled_iff.mpr (Condition.isSpelled_iff.mp (hspelled c hc)).collapsed

/-- **What is read back from the text of a tree** that passes its check is the tree
with the blanks of its literals collapsed. -/
theorem ofText_render {limit : ℕ} {t : Tree} (h : t.check limit = .ok ()) :
    ofText limit t.render = .ok t.collapsed := by
  have hspelled : ∀ c ∈ t.conditions, c.WellSpelled :=
    fun c hc => Condition.isSpelled_iff.mp ((check_eq_ok_iff.mp h).2 c hc)
  have hcollapsed : ∀ c ∈ t.collapsed.conditions, c.WholeWords := by
    rw [conditions_collapsed, List.forall_mem_map]
    intro c hc
    refine (hspelled c hc).collapsed.wholeWords ?_
    rw [Condition.toList_literal_collapsed]
    exact singleSpaced_collapse _
  have htrimmed := (trimmed_render t fun c hc => (hspelled c hc).trimmed_text).2
  have htrimmed' := (trimmed_render t.collapsed fun c hc => (hcollapsed c hc).trimmed_text).2
  -- the text has the tokens of the text of the collapsed tree
  have htokens : Token.tokenize t.render = Token.tokenize t.collapsed.render := by
    refine Token.ofChars_eq_of_collapse_eq htrimmed htrimmed' ?_
    rw [← collapse_render hspelled]
    exact (collapse_eq_self_iff.mpr (singleSpaced_collapse _)).symm
  have hcheck := check_collapsed h
  rw [ofText_eq_ok_iff, parse, htokens]
  exact ⟨parse_render (check_eq_ok_iff.mp hcheck).1 hcollapsed, hcheck⟩

end Tree

end RecordRules
