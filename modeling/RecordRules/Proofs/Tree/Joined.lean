import RecordRules.Proofs.Filtering
import RecordRules.Proofs.Token.Closed
import RecordRules.Proofs.Tree.Conjunction
import RecordRules.Proofs.Tree.Unchecked

/-!
# Texts that are joined

Rules can be required together by combining their trees, or by writing their texts one after the
other, each in parentheses and with `AND` between them (`Text.conjunction`). Both come to the
same (`Tree.ofText_conjunction`).

The texts are cut apart again where they were joined, for the text of a rule leaves no quote
open. A derivation of the whole puts each of their derivations into a group, and the groups into
one chain; the tree of that is the chain of their trees, since parentheses leave no trace in a
tree. So within a limit that is high enough the whole is read as the chain. Within any other
limit it is read as the same or the limit is exceeded, for a limit only filters. What remains is
to tell the limits that admit the whole: those that admit its tree, which are the ones that
combining asks for, and those that leave room for one parenthesis more than each of the texts
opens.
-/

namespace RecordRules

open Grammar Token

/-! ## Joining texts -/

namespace Text

/-- **The texts required together**: each in parentheses, with `AND` between them. -/
def conjunction (texts : List String) : String :=
  " AND ".intercalate (texts.map fun text => "(" ++ text ++ ")")

/-- The characters of the texts that follow the first one. -/
def linked (texts : List String) : List Char :=
  texts.flatMap fun text =>
    ' ' :: (Connective.and.symbol.toList ++ ' ' :: '(' :: (text.toList ++ [')']))

theorem linked_cons (text : String) (texts : List String) :
    linked (text :: texts)
      = ' ' :: (Connective.and.symbol.toList
        ++ ' ' :: '(' :: (text.toList ++ ')' :: linked texts)) := by
  rw [linked, List.flatMap_cons, ← linked]
  simp

/-- The characters of texts that are joined. -/
theorem toList_conjunction (first : String) (others : List String) :
    (conjunction (first :: others)).toList = '(' :: (first.toList ++ ')' :: linked others) := by
  -- the separator stands before each text but the first, which changes with every step
  induction others generalizing first with
  | nil => simp [conjunction, linked]
  | cons second others ih =>
    have hseparator : " AND ".toList = ' ' :: (Connective.and.symbol.toList ++ [' ']) := rfl
    have hsecond := ih second
    simp only [conjunction, String.toList_intercalate, List.map_cons,
      List.intercalate_cons_cons] at hsecond ⊢
    rw [hsecond, linked_cons, hseparator]
    simp

/-- Joined texts end with a parenthesis. -/
theorem closing_suffix_linked (texts : List String) : [')'] <:+ ')' :: linked texts := by
  induction texts with
  | nil => exact List.suffix_refl _
  | cons text texts ih =>
    rw [linked_cons]
    refine ih.trans ?_
    exact ⟨')' :: ' ' :: (Connective.and.symbol.toList ++ ' ' :: '(' :: text.toList), by simp⟩

/-- Joined texts have no blank at their ends. -/
theorem trimmed_conjunction (first : String) (others : List String) :
    Trimmed (conjunction (first :: others)).toList := by
  have hopening : Trimmed ['('] := trimmed_singleton (by decide)
  have hclosing : Trimmed [')'] := trimmed_singleton (by decide)
  rw [toList_conjunction]
  refine .of_prefix_of_suffix hopening (List.cons_ne_nil _ _) ⟨_, rfl⟩ hclosing
    (List.cons_ne_nil _ _) ?_
  exact ((closing_suffix_linked others).trans (List.suffix_append _ _)).trans
    (List.suffix_cons _ _)

end Text

/-! ## Joining derivations -/

namespace Grammar

/-- The expressions in groups, each required by a link of its own. -/
def Links.groups : List Expression → Links
  | [] => .done
  | e :: es => .link .and (.group e) (groups es)

/-- **The expressions required together**: a chain of groups. -/
def Expression.conjunction (first : Expression) (others : List Expression) : Expression :=
  .chain (.group first) (.groups others)

/-- Groups are folded as trees are combined. -/
theorem Links.foldOnto_groups (left : Tree) (es : List Expression) :
    (Links.groups es).foldOnto left = Tree.conjunction left (es.map Expression.tree) := by
  induction es generalizing left with
  | nil => rfl
  | cons e es ih => exact ih _

/-- **The tree of a chain of groups** is the chain of their trees. -/
theorem Expression.tree_conjunction (first : Expression) (others : List Expression) :
    (Expression.conjunction first others).tree
      = Tree.conjunction first.tree (others.map Expression.tree) :=
  Links.foldOnto_groups _ _

/-- No expression leaves a quote open if the conditions of its tree have whole words: its last
token is a parenthesis, or the literal of one of them. -/
theorem Expression.closed_tokens {e : Expression} (h : ∀ c ∈ e.tree.conditions, c.WholeWords) :
    Closed e.tokens := by
  intro w hw
  rcases e.eq_or_extend with ⟨front, hlast⟩ | ⟨c, rfl⟩ | ⟨e', k, c, rfl⟩
  · -- the last token is a parenthesis and no word
    rw [hlast, List.getLast?_concat] at hw
    cases hw
  · cases hw
    exact (h c (List.mem_singleton_self c)).literal
  · rw [Expression.tokens_extend, Term.tokens, List.getLast?_append_of_ne_nil _ (by simp)] at hw
    cases hw
    refine (h c ?_).literal
    rw [Expression.tree_extend]
    exact List.mem_append_right _ (List.mem_singleton_self c)

end Grammar

namespace Token

/-- **The expression derives the text**, which leaves no quote open. -/
structure Derives (text : String) (e : Expression) : Prop where
  tokens : tokenize text = e.tokens
  closed : Closed (tokenize text)

variable {text : String} {texts : List String} {e : Expression} {es : List Expression}

/-- **A text in parentheses** is cut into the tokens of a group, whatever comes after. -/
theorem Derives.scan_group (h : Derives text e) (rest : List Char) :
    scan none [] ('(' :: (text.toList ++ ')' :: rest))
      = (Term.group e).tokens ++ scan none [] rest := by
  rw [scan_opening, scan_append_of_closed h.closed (endsWord_closing rest), scan_closing,
    h.tokens, Term.tokens, List.cons_append, List.append_assoc, List.singleton_append]

/-- Texts that follow are cut into the tokens of groups. -/
theorem scan_linked (h : List.Forall₂ Derives texts es) :
    scan none [] (Text.linked texts) = (Links.groups es).tokens := by
  induction h with
  | nil => rfl
  | cons hfirst _ ih =>
    rw [Text.linked_cons, scan_space,
      (isWhole_connective .and).scan_append (endsWord_space _), scan_space,
      hfirst.scan_group, ih]
    rfl

/-- **Joined texts are derived by the chain of groups.** -/
theorem tokenize_conjunction (hfirst : Derives text e) (h : List.Forall₂ Derives texts es) :
    tokenize (Text.conjunction (text :: texts)) = (Expression.conjunction e es).tokens := by
  rw [tokenize, ofChars, Text.strip_eq_self (Text.trimmed_conjunction text texts),
    Text.toList_conjunction, hfirst.scan_group, scan_linked h]
  rfl

/-- Groups are nested by one more than what is in them. -/
theorem nesting_groups_le_iff (h : List.Forall₂ Derives texts es) {m : ℕ} :
    (Links.groups es).nesting ≤ m + 1 ↔ ∀ text ∈ texts, NestWithin m (tokenize text) := by
  induction h with
  | nil => exact iff_of_true (Nat.zero_le _) nofun
  | cons hfirst _ ih =>
    rw [Links.groups, Links.nesting, Term.nesting, max_le_iff, Nat.add_le_add_iff_right, ih,
      List.forall_mem_cons, hfirst.tokens, Expression.nestWithin_tokens]

end Token

/-! ## Joining rules -/

namespace Tree

variable {m : ℕ} {text : String} {texts : List String} {t : Tree} {ts : List Tree}

/-- **The text of a rule has a derivation** that ends with whole words, for its conditions have
been checked. -/
theorem exists_derives (h : ofText m text = .ok t) : ∃ e, Derives text e ∧ e.tree = t := by
  obtain ⟨hparse, hcheck⟩ := ofText_eq_ok_iff.mp h
  obtain ⟨e, htokens, rfl, -, -⟩ := ofTokens_eq_ok_iff.mp hparse
  refine ⟨e, ⟨htokens.symm, htokens ▸ Expression.closed_tokens fun c hc => ?_⟩, rfl⟩
  have hspelled := (check_eq_ok_iff.mp hcheck).2 c hc
  exact (Condition.wellSpelled_of_isSpelled hspelled).wholeWords (singleSpaced_of_parse hparse hc)

/-- The texts of rules have derivations. -/
theorem exists_forall₂_derives (h : List.Forall₂ (fun text t => ofText m text = .ok t) texts ts) :
    ∃ es, List.Forall₂ Derives texts es ∧ es.map Expression.tree = ts := by
  induction h with
  | nil => exact ⟨[], .nil, rfl⟩
  | cons hfirst _ ih =>
    obtain ⟨e, he, rfl⟩ := exists_derives hfirst
    obtain ⟨es, hes, rfl⟩ := ih
    exact ⟨e :: es, .cons he hes, rfl⟩

/-- **The texts of rules are joined to a text that has a derivation**: its tree is the chain of
their trees, and it nests groups by one more than they do. -/
theorem exists_tokenize_conjunction (hne : ts ≠ [])
    (h : List.Forall₂ (fun text t => ofText m text = .ok t) texts ts) :
    ∃ e : Expression, e.tokens = tokenize (Text.conjunction texts) ∧ Conjoins ts e.tree
      ∧ ∀ n, e.nesting ≤ n + 1 ↔ ∀ text ∈ texts, NestWithin n (tokenize text) := by
  obtain ⟨es, hderives, rfl⟩ := exists_forall₂_derives h
  cases hderives with
  | nil => exact absurd rfl hne
  | @cons text e texts es hfirst hothers =>
    refine ⟨.conjunction e es, (tokenize_conjunction hfirst hothers).symm, ?_, fun n => ?_⟩
    · exact conjoins_iff.mpr ⟨_, _, rfl, (Expression.tree_conjunction e es).symm⟩
    · exact nesting_groups_le_iff (hothers.cons hfirst)

/-- The conditions of rules are spelled by their texts. -/
theorem isSpelled_of_forall₂ (h : List.Forall₂ (fun text t => ofText m text = .ok t) texts ts) :
    ∀ t ∈ ts, ∀ c ∈ t.conditions, c.isSpelled = true := by
  induction h with
  | nil => exact nofun
  | cons hfirst _ ih =>
    exact List.forall_mem_cons.mpr ⟨(check_eq_ok_iff.mp (ofText_eq_ok_iff.mp hfirst).2).2, ih⟩

/-- **Within a limit that is high enough** joined texts are read as the chain. -/
theorem exists_ofText_conjunction {e : Expression}
    (htokens : e.tokens = tokenize (Text.conjunction texts)) (hchain : Conjoins ts e.tree)
    (h : List.Forall₂ (fun text t => ofText m text = .ok t) texts ts) :
    ∃ limit, m ≤ limit ∧ ofText limit (Text.conjunction texts) = .ok e.tree := by
  refine ⟨m + e.nesting + e.tree.height, by omega, ofText_eq_ok_iff.mpr ⟨?_, ?_⟩⟩
  · exact ofTokens_eq_ok_iff.mpr ⟨e, htokens, rfl, by omega, by omega⟩
  · refine check_eq_ok_iff.mpr ⟨?_, hchain.forall_mem_conditions (isSpelled_of_forall₂ h)⟩
    rw [depth_eq_height]
    exact Nat.le_add_left _ _

/-- **Joining the texts of rules agrees with combining their trees.** The joined text is the
chain if the trees are combined to it and each text leaves room for one more parenthesis within
the limit. In every other case the limit is exceeded. -/
theorem ofText_conjunction (hm : 1 ≤ m) (hlength : 2 ≤ texts.length)
    (h : List.Forall₂ (fun text t => ofText m text = .ok t) texts ts) :
    (∀ t, ofText m (Text.conjunction texts) = .ok t
        ↔ combine m ts = .ok t ∧ ∀ text ∈ texts, NestWithin (m - 1) (tokenize text))
      ∧ ∀ e, ofText m (Text.conjunction texts) = .error e
        ↔ e = .nestingTooDeep m
          ∧ ¬ ((∃ t, combine m ts = .ok t) ∧ ∀ text ∈ texts, NestWithin (m - 1) (tokenize text)) := by
  obtain ⟨n, rfl⟩ := Nat.exists_eq_add_of_le' hm
  rw [h.length_eq] at hlength
  have hne : ts ≠ [] := List.ne_nil_of_length_pos (Nat.zero_lt_of_lt hlength)
  obtain ⟨e, htokens, hchain, hnesting⟩ := exists_tokenize_conjunction hne h
  obtain ⟨limit, hle, hlimit⟩ := exists_ofText_conjunction htokens hchain h
  have hok (t : Tree) : ofText (n + 1) (Text.conjunction texts) = .ok t
      ↔ combine (n + 1) ts = .ok t ∧ ∀ text ∈ texts, NestWithin n (tokenize text) := by
    have hwithin := ofText_eq_ok_iff_within hlimit (n + 1)
    rw [← htokens, Expression.nestWithin_tokens, hnesting] at hwithin
    rw [combine_eq_ok_iff_conjoins, and_iff_right hlength]
    constructor
    · intro ht
      obtain rfl := ofText_unique ht hlimit
      exact ⟨⟨hchain, (hwithin.mp ht).2⟩, (hwithin.mp ht).1⟩
    · rintro ⟨⟨ht, hdepth⟩, hnest⟩
      obtain rfl := (existsUnique_conjoins hne).unique hchain ht
      exact hwithin.mpr ⟨hnest, hdepth⟩
  refine ⟨hok, fun e' => ?_⟩
  rw [ofText_eq_error_iff_of_le hm hle hlimit, exists_congr hok, exists_and_right,
    Nat.add_sub_cancel]

/-- A quoted parenthesis opens nothing, and blanks at the ends of a text do not matter. A text
that takes up the limit with parentheses, while its tree does not, cannot be joined. -/
theorem ofText_conjunction_at_limit :
    Text.conjunction [" (a = '( AND ') ", "b > 2"] = "( (a = '( AND ') ) AND (b > 2)"
      ∧ ofText 2 (Text.conjunction [" (a = '( AND ') ", "b > 2"])
        = .ok (.node .and (.leaf ⟨"a", .equal, "'( AND '"⟩) (.leaf ⟨"b", .greater, "2"⟩))
      ∧ combine 2 [.leaf ⟨"a", .equal, "1"⟩, .leaf ⟨"b", .greater, "2"⟩]
        = .ok (.node .and (.leaf ⟨"a", .equal, "1"⟩) (.leaf ⟨"b", .greater, "2"⟩))
      ∧ ofText 2 (Text.conjunction ["((a = 1))", "b > 2"]) = .error (.nestingTooDeep 2) := by
  have hlimit : 1 ≤ 2 := by decide
  have hsecond : ofText 2 "b > 2" = .ok (.leaf ⟨"b", .greater, "2"⟩) := by decide +kernel
  have hquoted : ofText 2 " (a = '( AND ') " = .ok (.leaf ⟨"a", .equal, "'( AND '"⟩) := by
    decide +kernel
  have hnested : ofText 2 "((a = 1))" = .ok (.leaf ⟨"a", .equal, "1"⟩) := by decide +kernel
  have htokens : tokenize " (a = '( AND ') "
      = [.opening, .word "a", .word "=", .word "'( AND '", .closing] := by
    decide +kernel
  have htokens_second : tokenize "b > 2" = [.word "b", .word ">", .word "2"] := by decide +kernel
  have htokens_nested : tokenize "((a = 1))"
      = [.opening, .opening, .word "a", .word "=", .word "1", .closing, .closing] := by
    decide +kernel
  refine ⟨by decide +kernel, ?_, by decide +kernel, ?_⟩
  · refine ((ofText_conjunction hlimit le_rfl (.cons hquoted (.cons hsecond .nil))).1 _).mpr ?_
    refine ⟨by decide +kernel, ?_⟩
    simp [htokens, htokens_second, nestWithin_opening]
  · refine ((ofText_conjunction hlimit le_rfl (.cons hnested (.cons hsecond .nil))).2 _).mpr ?_
    refine ⟨rfl, fun h => ?_⟩
    have hnest := h.2 _ List.mem_cons_self
    simp [htokens_nested, nestWithin_opening] at hnest

end Tree

end RecordRules
