import RecordRules.Proofs.Tree.Depth

/-!
# The grammar of rule text

Tokens are derived by

    expression  :=  term (connective term)*
    term        :=  "(" expression ")"  |  name comparison literal

and a **derivation** is kept as data: an expression is a term with the links
that follow it, a link is a connective with a term, a term is a group or a
condition. Three things are read off a derivation: the tokens it derives, the
tree it stands for, in which every link becomes the root of all that is to its
left, and how deep its groups are nested.

The last is also a property of the tokens alone. `Token.NestWithin` asks how
many parentheses are open after any first part of them, and
`Grammar.Expression.nestWithin_tokens` says that for derived tokens both come
to the same.

A condition of a derivation may have any words for its name and its literal,
the symbols of connectives among them; only its comparison is bound to be one
of the six symbols.
-/

namespace RecordRules

/-- The three tokens of a condition. -/
def Condition.tokens (c : Condition) : List Token :=
  [.word c.name, .word c.comparison.symbol, .word c.literal]

namespace Grammar

mutual

/-- **A derivation of an expression**: its first term, and what follows it. -/
inductive Expression where
  | chain (first : Term) (links : Links)

/-- **What follows the first term of an expression**: any number of
connectives, each with a term. -/
inductive Links where
  | done
  | link (connective : Connective) (term : Term) (more : Links)

/-- **A derivation of a term**: a condition, or an expression in parentheses. -/
inductive Term where
  | condition (condition : Condition)
  | group (inner : Expression)

end

/-! ## What is read off a derivation -/

mutual

/-- **The tokens that an expression derives.** -/
def Expression.tokens : Expression → List Token
  | .chain first links => first.tokens ++ links.tokens

/-- The tokens of the links. -/
def Links.tokens : Links → List Token
  | .done => []
  | .link k term more => .word k.symbol :: (term.tokens ++ more.tokens)

/-- The tokens of a term. -/
def Term.tokens : Term → List Token
  | .condition c => c.tokens
  | .group inner => .opening :: (inner.tokens ++ [.closing])

end

mutual

/-- **The tree of an expression**: the links are folded onto the first term
from the left, whatever their connectives are. -/
def Expression.tree : Expression → Tree
  | .chain first links => links.foldOnto first.tree

/-- The links folded onto a tree: each joins all that is to its left with its
own term. -/
def Links.foldOnto (left : Tree) : Links → Tree
  | .done => left
  | .link k term more => more.foldOnto (.node k left term.tree)

/-- The tree of a term; parentheses leave no trace. -/
def Term.tree : Term → Tree
  | .condition c => .leaf c
  | .group inner => inner.tree

end

mutual

/-- **How deep the groups of an expression are nested.** -/
def Expression.nesting : Expression → ℕ
  | .chain first links => max first.nesting links.nesting

/-- How deep the groups of the links are nested. -/
def Links.nesting : Links → ℕ
  | .done => 0
  | .link _ term more => max term.nesting more.nesting

/-- How deep the groups of a term are nested, itself included. -/
def Term.nesting : Term → ℕ
  | .condition _ => 0
  | .group inner => inner.nesting + 1

end

/-! ## Tokens and trees -/

/-- No term is without tokens. -/
theorem Term.tokens_ne_nil (t : Term) : t.tokens ≠ [] := by
  cases t with
  | condition c => exact List.cons_ne_nil _ _
  | group inner => exact List.cons_ne_nil _ _

/-- No expression is without tokens. -/
theorem Expression.tokens_ne_nil (e : Expression) : e.tokens ≠ [] := by
  obtain ⟨first, links⟩ := e
  exact List.append_ne_nil_of_left_ne_nil first.tokens_ne_nil _

/-- Folding links onto a tree makes it no lower. -/
theorem Links.height_le_foldOnto :
    ∀ (links : Links) (left : Tree), left.height ≤ (links.foldOnto left).height
  | .done, _ => le_rfl
  | .link k term more, left => by
    refine le_trans ?_ (more.height_le_foldOnto (.node k left term.tree))
    rw [Tree.height_node]
    omega

mutual

/-- **The conditions of the tree are spelled by the tokens.** -/
theorem Expression.tokens_subset {c : Condition} :
    ∀ e : Expression, c ∈ e.tree.conditions → c.tokens ⊆ e.tokens
  | .chain first links, h => by
    rw [Expression.tokens]
    rcases Links.tokens_subset links h with hc | hc
    · exact List.subset_append_of_subset_left _ (Term.tokens_subset first hc)
    · exact List.subset_append_of_subset_right _ hc

theorem Links.tokens_subset {c : Condition} :
    ∀ (links : Links) {left : Tree}, c ∈ (links.foldOnto left).conditions →
      c ∈ left.conditions ∨ c.tokens ⊆ links.tokens
  | .done, _, h => .inl h
  | .link k term more, left, h => by
    rw [Links.tokens]
    rcases Links.tokens_subset more h with hc | hc
    · rcases List.mem_append.mp hc with hl | hr
      · exact .inl hl
      · exact .inr (List.subset_cons_of_subset _
          (List.subset_append_of_subset_left _ (Term.tokens_subset term hr)))
    · exact .inr (List.subset_cons_of_subset _
        (List.subset_append_of_subset_right _ hc))

theorem Term.tokens_subset {c : Condition} :
    ∀ t : Term, c ∈ t.tree.conditions → c.tokens ⊆ t.tokens
  | .condition c', h => by
    obtain rfl := List.mem_singleton.mp h
    exact List.Subset.refl _
  | .group inner, h => by
    rw [Term.tokens]
    exact List.subset_cons_of_subset _
      (List.subset_append_of_subset_left _ (Expression.tokens_subset inner h))

end

end Grammar

/-! ## How many parentheses are open -/

namespace Token

/-- **At most `m` parentheses are open at a time**: any first part of the
tokens opens at most `m` more of them than it closes. -/
def NestWithin (m : ℕ) (ts : List Token) : Prop :=
  ∀ front, front <+: ts → front.count opening ≤ front.count closing + m

variable {m : ℕ} {ts : List Token}

/-- Without tokens nothing is open. -/
@[simp] theorem nestWithin_nil : NestWithin m [] := by
  intro front hfront
  rw [List.prefix_nil.mp hfront]
  exact Nat.zero_le _

/-- The first parts of a list that is not empty are empty or begin alike. -/
theorem nestWithin_cons (t : Token) :
    NestWithin m (t :: ts)
      ↔ ∀ front, front <+: ts →
        (t :: front).count opening ≤ (t :: front).count closing + m := by
  constructor
  · intro h front hfront
    exact h (t :: front) (List.cons_prefix_cons.mpr ⟨rfl, hfront⟩)
  · intro h front hfront
    obtain rfl | ⟨tail, rfl, htail⟩ := List.prefix_cons_iff.mp hfront
    · exact Nat.zero_le _
    · exact h tail htail

/-- Where more may be open, as many may be. -/
theorem NestWithin.mono {n : ℕ} (h : NestWithin m ts) (hmn : m ≤ n) :
    NestWithin n ts :=
  fun front hfront => (h front hfront).trans (Nat.add_le_add_left hmn _)

/-- Where no parenthesis is opened, none is open. -/
theorem nestWithin_of_not_mem (h : opening ∉ ts) : NestWithin m ts := by
  intro front hfront
  rw [List.count_eq_zero.mpr fun hmem => h (hfront.subset hmem)]
  exact Nat.zero_le _

/-- A word opens and closes nothing. -/
@[simp] theorem nestWithin_word (w : String) :
    NestWithin m (word w :: ts) ↔ NestWithin m ts := by
  rw [nestWithin_cons]
  rfl

/-- An opening parenthesis takes up one of those that may be open. -/
theorem nestWithin_opening :
    NestWithin m (opening :: ts) ↔ ∃ n, m = n + 1 ∧ NestWithin n ts := by
  rw [nestWithin_cons]
  simp only [List.count_cons_self, List.count_cons_of_ne (by decide : opening ≠ closing)]
  cases m with
  | zero =>
    refine ⟨fun h => absurd (h [] List.nil_prefix) (by decide), ?_⟩
    rintro ⟨n, hn, -⟩
    exact absurd hn (Nat.zero_ne_add_one n)
  | succ n =>
    constructor
    · intro h
      exact ⟨n, rfl, fun front hfront => by have := h front hfront; omega⟩
    · rintro ⟨n', hn, h⟩ front hfront
      obtain rfl := Nat.succ.inj hn
      have := h front hfront
      omega

/-- A closing parenthesis gives one back. -/
@[simp] theorem nestWithin_closing :
    NestWithin m (closing :: ts) ↔ NestWithin (m + 1) ts := by
  rw [nestWithin_cons]
  simp only [List.count_cons_self, List.count_cons_of_ne (by decide : closing ≠ opening)]
  refine forall₂_congr fun front _ => ?_
  omega

end Token

namespace Grammar

open Token (NestWithin)

mutual

/-- **The groups of an expression are what its parentheses open**, also where
other tokens follow. -/
theorem Expression.nestWithin_append (m : ℕ) (rest : List Token) :
    ∀ e : Expression,
      NestWithin m (e.tokens ++ rest) ↔ e.nesting ≤ m ∧ NestWithin m rest
  | .chain first links => by
    rw [Expression.tokens, List.append_assoc, Term.nestWithin_append m _ first,
      Links.nestWithin_append m rest links, Expression.nesting, max_le_iff, and_assoc]

theorem Links.nestWithin_append (m : ℕ) (rest : List Token) :
    ∀ links : Links,
      NestWithin m (links.tokens ++ rest) ↔ links.nesting ≤ m ∧ NestWithin m rest
  | .done => (and_iff_right (Nat.zero_le m)).symm
  | .link k term more => by
    rw [Links.tokens, List.cons_append, Token.nestWithin_word, List.append_assoc,
      Term.nestWithin_append m _ term, Links.nestWithin_append m rest more,
      Links.nesting, max_le_iff, and_assoc]

theorem Term.nestWithin_append (m : ℕ) (rest : List Token) :
    ∀ t : Term,
      NestWithin m (t.tokens ++ rest) ↔ t.nesting ≤ m ∧ NestWithin m rest
  | .condition c => by
    simp [Term.tokens, Condition.tokens, Term.nesting]
  | .group inner => by
    rw [Term.tokens, List.cons_append, List.append_assoc, Token.nestWithin_opening,
      Term.nesting]
    constructor
    · rintro ⟨n, rfl, h⟩
      rw [Expression.nestWithin_append n _ inner] at h
      exact ⟨Nat.succ_le_succ h.1, Token.nestWithin_closing.mp h.2⟩
    · rintro ⟨hnesting, h⟩
      obtain ⟨n, rfl⟩ := Nat.exists_eq_add_of_le' (Nat.one_le_of_lt hnesting)
      refine ⟨n, rfl, (Expression.nestWithin_append n _ inner).mpr ⟨?_, ?_⟩⟩
      · exact Nat.le_of_succ_le_succ hnesting
      · exact Token.nestWithin_closing.mpr h

end

/-- **How deep the groups are nested is how many parentheses are open.** -/
theorem Expression.nestWithin_tokens {m : ℕ} {e : Expression} :
    NestWithin m e.tokens ↔ e.nesting ≤ m := by
  have h := Expression.nestWithin_append m [] e
  rwa [List.append_nil, and_iff_left Token.nestWithin_nil] at h

end Grammar

end RecordRules
