import RecordRules.Proofs.Grammar.Derivation
import RecordRules.Proofs.Outcome
import RecordRules.Tree.Parser

/-!
# The reader of rule text reads its grammar

Each of the functions that read tokens succeeds exactly on a first part of them
that the grammar derives, and gives the tree of the derivation together with
the tokens after it. That is stated for one function at a time, as an
equivalence: what a reader of terms gives is a parameter of the statement on
chains, and what a reader of groups gives is a parameter of the statement on
terms, so that the recursion of `Tree.expression` is an induction on the room
for parentheses and nothing else.

A reader of expressions does not stop before it has to, hence the condition
that no connective follows (`Token.EndsChain`). It makes the first part unique:
whichever tokens follow, an expression takes all the links there are.

The bound on the height of a tree is `max 1 limit` and not `limit`, for the
depth is looked at only where two trees are joined.
-/

namespace RecordRules

/-- **No connective comes next**, so that a chain ends here. -/
def Token.EndsChain (ts : List Token) : Prop :=
  ∀ t ∈ ts.head?, t.connective? = none

/-- A chain ends before a closing parenthesis. -/
theorem Token.endsChain_closing (ts : List Token) :
    Token.EndsChain (.closing :: ts) := by
  intro t ht
  obtain rfl := Option.some.inj ht
  rfl

/-- A chain ends with the tokens. -/
theorem Token.endsChain_nil : Token.EndsChain [] := nofun

/-- A connective does not end a chain. -/
theorem Token.not_endsChain_link (k : Connective) (ts : List Token) :
    ¬ Token.EndsChain (.word k.symbol :: ts) := by
  intro h
  have hnone : Connective.ofSymbol? k.symbol = none := h _ rfl
  rw [Connective.ofSymbol?_symbol] at hnone
  exact Option.some_ne_none k hnone

/-- The tokens that are connectives. -/
theorem Token.connective?_eq_some_iff {t : Token} {k : Connective} :
    t.connective? = some k ↔ t = .word k.symbol := by
  cases t with
  | word text =>
    rw [Token.word.injEq]
    exact Connective.ofSymbol?_eq_some_iff
  | opening => exact ⟨nofun, nofun⟩
  | closing => exact ⟨nofun, nofun⟩

namespace Tree

open Grammar Token

/-- **What was read of the tokens `ts`** is the tree `t`, whose tokens are
`front`. -/
structure Parsed.Took {bound : ℕ} (p : Parsed bound) (ts front : List Token)
    (t : Tree) : Prop where
  tokens : ts = front ++ p.rest
  tree : p.tree = t
  depth : p.depth = t.height

/-- The tokens and the tree say what was read. -/
theorem Parsed.Took.unique {bound : ℕ} {p q : Parsed bound}
    {ts front : List Token} {t : Tree} (hp : p.Took ts front t)
    (hq : q.Took ts front t) : p = q := by
  have hrest : p.rest = q.rest :=
    List.append_cancel_left (hp.tokens.symm.trans hq.tokens)
  have htree : p.tree = q.tree := hp.tree.trans hq.tree.symm
  have hdepth : p.depth = q.depth := hp.depth.trans hq.depth.symm
  cases p
  cases q
  cases hrest
  cases htree
  cases hdepth
  rfl

/-- Whatever can be read can be given as what was read. -/
theorem Parsed.exists_took {ts front rest : List Token} (t : Tree)
    (hts : ts = front ++ rest) (hfront : front ≠ []) :
    ∃ p : Parsed ts.length, p.rest = rest ∧ p.Took ts front t := by
  have hlt : rest.length < ts.length := by
    rw [hts, List.length_append]
    have := List.length_pos_iff.mpr hfront
    omega
  exact ⟨⟨t, t.height, rest, hlt⟩, rfl, hts, rfl, rfl⟩

/-! ## Conditions -/

/-- Three tokens of a condition are read, whatever follows them. -/
theorem readCondition_tokens_append (c : Condition) (rest : List Token) :
    ∃ p, readCondition (c.tokens ++ rest) = .ok p ∧ p.rest = rest
      ∧ p.Took (c.tokens ++ rest) c.tokens (.leaf c) := by
  have hlt : rest.length < (c.tokens ++ rest).length := by
    simp only [Condition.tokens, List.cons_append, List.nil_append, List.length_cons]
    omega
  refine ⟨⟨.leaf c, 1, rest, hlt⟩, ?_, rfl, rfl, rfl, rfl⟩
  obtain ⟨name, comparison, literal⟩ := c
  cases comparison <;> rfl

/-- **A condition is read exactly where its three tokens stand.** -/
theorem readCondition_eq_ok_iff {ts : List Token} {p : Parsed ts.length} :
    readCondition ts = .ok p ↔ ∃ c : Condition, p.Took ts c.tokens (.leaf c) := by
  constructor
  · intro h
    unfold readCondition at h
    split at h <;> try contradiction
    split at h <;> try contradiction
    next name op literal rest _ comparison hop =>
      obtain rfl := Except.ok.inj h
      rw [Comparison.ofSymbol?_eq_some_iff] at hop
      exact ⟨⟨name, comparison, literal⟩, by rw [hop]; rfl, rfl, rfl⟩
  · rintro ⟨c, htook⟩
    obtain ⟨rest, hts⟩ : ∃ rest, ts = c.tokens ++ rest := ⟨p.rest, htook.tokens⟩
    subst hts
    obtain ⟨q, hq, -, hqtook⟩ := readCondition_tokens_append c rest
    rw [hq, hqtook.unique htook]

/-! ## Terms -/

/-- The reader reads terms: those with at most `room` groups one within the
other. -/
def Reader.ReadsTerms (limit room : ℕ) (read : Reader) : Prop :=
  ∀ (ts : List Token) (p : Parsed ts.length), read ts = .ok p
    ↔ ∃ t : Term, p.Took ts t.tokens t.tree
      ∧ t.nesting ≤ room ∧ t.tree.height ≤ max 1 limit

/-- The reader reads expressions: those with fewer than `room` groups one
within the other, and as much of them as there is. -/
def Reader.ReadsExpressions (limit room : ℕ) (read : Reader) : Prop :=
  ∀ (ts : List Token) (p : Parsed ts.length), read ts = .ok p
    ↔ ∃ e : Expression, p.Took ts e.tokens e.tree
      ∧ e.nesting < room ∧ e.tree.height ≤ max 1 limit ∧ EndsChain p.rest

/-- What is between two parentheses, read as a group. -/
theorem Parsed.Took.group {bound bound' : ℕ} {inner : Parsed bound}
    {ts rest : List Token} {e : Expression} (h : inner.Took ts e.tokens e.tree)
    (hrest : inner.rest = .closing :: rest) (hlt : rest.length < bound') :
    (⟨inner.tree, inner.depth, rest, hlt⟩ : Parsed bound').Took
      (.opening :: ts) (Term.group e).tokens (Term.group e).tree := by
  refine ⟨?_, h.tree, h.depth⟩
  have htokens := h.tokens
  rw [hrest] at htokens
  rw [Term.tokens, List.cons_append, List.append_assoc]
  exact congrArg (.opening :: ·) htokens

/-- A group that was read, told from its first token. -/
theorem Parsed.Took.exists_group {bound : ℕ} {p : Parsed bound}
    {ts : List Token} {t : Term} (h : p.Took (.opening :: ts) t.tokens t.tree) :
    ∃ e, t = .group e ∧ ts = e.tokens ++ .closing :: p.rest := by
  have htokens := h.tokens
  cases t with
  | condition c => exact absurd htokens (by simp [Term.tokens, Condition.tokens])
  | group e =>
    rw [Term.tokens, List.cons_append, List.append_assoc] at htokens
    exact ⟨e, rfl, (List.cons.inj htokens).2⟩

/-- **Terms are read if the groups in them are.** -/
theorem readTerm_readsTerms {limit room : ℕ} {group : Reader}
    (hgroup : group.ReadsExpressions limit room) :
    (readTerm group).ReadsTerms limit room := by
  intro ts p
  unfold readTerm
  split
  · next ts =>
    rw [Except.bind_eq_ok_iff]
    constructor
    · rintro ⟨inner, hinner, h⟩
      obtain ⟨e, htook, hnesting, hheight, -⟩ := (hgroup ts inner).mp hinner
      split at h
      · next rest hrest =>
        obtain rfl := Except.ok.inj h
        exact ⟨.group e, htook.group hrest _, hnesting, hheight⟩
      · contradiction
    · rintro ⟨t, htook, hnesting, hheight⟩
      obtain ⟨e, rfl, hts⟩ := htook.exists_group
      obtain ⟨inner, hrest, hinner⟩ := Parsed.exists_took e.tree hts e.tokens_ne_nil
      refine ⟨inner, (hgroup ts inner).mpr ⟨e, hinner, hnesting, hheight, ?_⟩, ?_⟩
      · rw [hrest]
        exact endsChain_closing _
      · split
        · next rest hrest' =>
          exact congrArg Except.ok ((hinner.group hrest' _).unique htook)
        · next hne => exact absurd hrest (hne _)
  · next hne =>
    rw [readCondition_eq_ok_iff]
    constructor
    · rintro ⟨c, htook⟩
      exact ⟨.condition c, htook, Nat.zero_le _, le_max_left 1 limit⟩
    · rintro ⟨t, htook, -, -⟩
      cases t with
      | condition c => exact ⟨c, htook⟩
      | group e => exact absurd htook.tokens (hne _)

/-! ## Chains -/

section Chains

variable {limit room bound : ℕ} {term : Reader}

/-- Two trees joined are as deep as their node is high. -/
theorem Parsed.depth_join {left : Parsed bound} {t : Token} {ts : List Token}
    (k : Connective) (h : left.rest = t :: ts) {right : Parsed ts.length}
    (hleft : left.depth = left.tree.height) (hright : right.depth = right.tree.height) :
    (left.join k h right).depth = (left.join k h right).tree.height := by
  show max left.depth right.depth + 1 = 1 + max left.tree.height right.tree.height
  rw [hleft, hright, Nat.add_comm]

/-- The first link, told from the tokens that it begins with. -/
theorem Parsed.Took.exists_link {p : Parsed bound} {k : Connective}
    {ts : List Token} {links : Links} {t : Tree}
    (h : p.Took (.word k.symbol :: ts) links.tokens t) (hends : EndsChain p.rest) :
    ∃ u more, links = .link k u more ∧ ts = u.tokens ++ (more.tokens ++ p.rest) := by
  have htokens := h.tokens
  cases links with
  | done =>
    rw [Links.tokens, List.nil_append] at htokens
    rw [← htokens] at hends
    exact absurd hends (not_endsChain_link k ts)
  | link k' u more =>
    rw [Links.tokens, List.cons_append, List.append_assoc] at htokens
    obtain ⟨hword, hts⟩ := List.cons.inj htokens
    have hk : (Token.word k'.symbol).connective? = some k :=
      connective?_eq_some_iff.mpr hword.symm
    obtain rfl := Option.some.inj ((connective?_eq_some_iff.mpr rfl).symm.trans hk)
    exact ⟨u, more, rfl, hts⟩

/-- What is read after a term has been joined is what is read after its link. -/
theorem Parsed.took_join_iff {left p : Parsed bound} {k : Connective}
    {ts : List Token} (h : left.rest = .word k.symbol :: ts)
    {right : Parsed ts.length} {u : Term} (hu : right.Took ts u.tokens u.tree)
    {more : Links} :
    p.Took (left.join k h right).rest more.tokens
        (more.foldOnto (left.join k h right).tree)
      ↔ p.Took left.rest (Links.link k u more).tokens
        ((Links.link k u more).foldOnto left.tree) := by
  have htree : more.foldOnto (left.join k h right).tree
      = (Links.link k u more).foldOnto left.tree := by
    rw [Links.foldOnto, ← hu.tree]
    rfl
  have htokens : left.rest = (Links.link k u more).tokens ++ p.rest
      ↔ right.rest = more.tokens ++ p.rest := by
    rw [h, Links.tokens, List.cons_append, List.append_assoc, List.cons.injEq,
      and_iff_right rfl]
    constructor
    · intro hts
      exact List.append_cancel_left (hu.tokens.symm.trans hts)
    · intro hrest
      exact hu.tokens.trans (congrArg (u.tokens ++ ·) hrest)
  rw [htree]
  constructor
  · rintro ⟨hrest, ht, hd⟩
    exact ⟨htokens.mpr hrest, ht, hd⟩
  · rintro ⟨hrest, ht, hd⟩
    exact ⟨htokens.mp hrest, ht, hd⟩

/-- **Where no link can be taken**, the chain is what has been read. -/
theorem Parsed.took_links_iff_of_endsChain {left p : Parsed bound}
    (hleft : left.depth = left.tree.height) (hrest : EndsChain left.rest) :
    .ok left = (.ok p : Except Error (Parsed bound))
      ↔ ∃ links : Links, p.Took left.rest links.tokens (links.foldOnto left.tree)
        ∧ links.nesting ≤ room ∧ p.tree.height ≤ max left.tree.height limit
        ∧ EndsChain p.rest := by
  constructor
  · intro h
    obtain rfl := Except.ok.inj h
    exact ⟨.done, ⟨rfl, rfl, hleft⟩, Nat.zero_le _, le_max_left _ _, hrest⟩
  · rintro ⟨links, htook, -, -, -⟩
    cases links with
    | done =>
      have hstay : left.Took left.rest [] left.tree := ⟨rfl, rfl, hleft⟩
      exact congrArg Except.ok (hstay.unique htook)
    | link k u more =>
      rw [htook.tokens] at hrest
      exact absurd hrest (not_endsChain_link k _)

/-- **A chain takes all the links that follow, and no others.** The depth that
is kept along is the height of what has been joined so far. -/
theorem readChain_eq_ok_iff (hterm : term.ReadsTerms limit room)
    (left : Parsed bound) (hleft : left.depth = left.tree.height) (p : Parsed bound) :
    readChain limit term left = .ok p
      ↔ ∃ links : Links, p.Took left.rest links.tokens (links.foldOnto left.tree)
        ∧ links.nesting ≤ room ∧ p.tree.height ≤ max left.tree.height limit
        ∧ EndsChain p.rest := by
  fun_induction readChain limit term left with
  | case1 left hrest =>
    refine Parsed.took_links_iff_of_endsChain hleft ?_
    rw [hrest]
    exact endsChain_nil
  | case2 left t ts hrest hconn =>
    refine Parsed.took_links_iff_of_endsChain hleft ?_
    rw [hrest]
    intro t' ht'
    obtain rfl := Option.some.inj ht'
    exact hconn
  | case3 left t ts hrest k hconn ih =>
    obtain rfl := connective?_eq_some_iff.mp hconn
    rw [Except.bind_eq_ok_iff]
    dsimp only at ih ⊢
    constructor
    · rintro ⟨right, hright, h⟩
      obtain ⟨u, hu, hnesting, -⟩ := (hterm ts right).mp hright
      have hdepth := Parsed.depth_join k hrest hleft (hu.depth.trans (hu.tree ▸ rfl))
      split at h
      · contradiction
      · next hle =>
        obtain ⟨more, htook, hmore, hheight, hends⟩ := (ih right hdepth).mp h
        refine ⟨.link k u more, (Parsed.took_join_iff hrest hu).mp htook,
          max_le hnesting hmore, ?_, hends⟩
        rw [hdepth, not_lt] at hle
        exact hheight.trans (max_le (hle.trans (le_max_right _ _)) (le_max_right _ _))
    · rintro ⟨links, htook, hnesting, hheight, hends⟩
      obtain ⟨u, more, rfl, hts⟩ := (hrest ▸ htook).exists_link hends
      rw [Links.nesting, max_le_iff] at hnesting
      -- the joined tree is a part of the whole, so it cannot be too high
      have hjoined : (Tree.node k left.tree u.tree).height ≤ max left.tree.height limit := by
        refine le_trans ?_ hheight
        rw [htook.tree]
        exact more.height_le_foldOnto _
      rw [height_node] at hjoined
      obtain ⟨right, -, hu⟩ := Parsed.exists_took u.tree hts u.tokens_ne_nil
      have hdepth := Parsed.depth_join k hrest hleft (hu.depth.trans (hu.tree ▸ rfl))
      have hle : ¬ (left.join k hrest right).depth > limit := by
        rw [hdepth]
        show ¬ 1 + max left.tree.height right.tree.height > limit
        rw [hu.tree]
        omega
      refine ⟨right, (hterm ts right).mpr ⟨u, hu, hnesting.1, by omega⟩, ?_⟩
      rw [if_neg hle, ih right hdepth]
      refine ⟨more, (Parsed.took_join_iff hrest hu).mpr htook, hnesting.2, ?_, hends⟩
      have hlow : left.tree.height ≤ (left.join k hrest right).tree.height := by
        show _ ≤ 1 + max left.tree.height right.tree.height
        omega
      exact hheight.trans (max_le_max_right limit hlow)

end Chains

/-! ## Expressions -/

variable {limit : ℕ}

/-- **Expressions are read if their terms are.** -/
theorem readTerms_readsExpressions {room : ℕ} {term : Reader}
    (hterm : term.ReadsTerms limit room) :
    Reader.ReadsExpressions limit (room + 1) (readTerms limit term) := by
  intro ts p
  unfold readTerms
  rw [Except.bind_eq_ok_iff]
  constructor
  · rintro ⟨left, hleft, h⟩
    obtain ⟨first, hfirst, hnesting, hfheight⟩ := (hterm ts left).mp hleft
    have hdepth : left.depth = left.tree.height := hfirst.tree ▸ hfirst.depth
    obtain ⟨links, htook, hlinks, hheight, hends⟩ :=
      (readChain_eq_ok_iff hterm left hdepth p).mp h
    refine ⟨.chain first links, ⟨?_, ?_, ?_⟩, Nat.lt_succ_of_le (max_le hnesting hlinks), ?_,
      hends⟩
    · refine hfirst.tokens.trans ?_
      rw [htook.tokens, Expression.tokens, List.append_assoc]
    · rw [htook.tree, hfirst.tree]
      rfl
    · rw [htook.depth, hfirst.tree]
      rfl
    · rw [Expression.tree, ← hfirst.tree, ← htook.tree]
      rw [hfirst.tree] at hheight
      exact hheight.trans (max_le hfheight (le_max_right 1 limit))
  · rintro ⟨⟨first, links⟩, htook, hnesting, hheight, hends⟩
    rw [Expression.tree] at htook hheight
    obtain ⟨hfnesting, hlnesting⟩ := max_le_iff.mp (Nat.le_of_lt_succ hnesting)
    have hts : ts = first.tokens ++ (links.tokens ++ p.rest) := by
      rw [← List.append_assoc]
      exact htook.tokens
    obtain ⟨left, hrest, hfirst⟩ := Parsed.exists_took first.tree hts first.tokens_ne_nil
    have hfheight := (links.height_le_foldOnto first.tree).trans hheight
    refine ⟨left, (hterm ts left).mpr ⟨first, hfirst, hfnesting, hfheight⟩, ?_⟩
    have hdepth : left.depth = left.tree.height := hfirst.tree ▸ hfirst.depth
    rw [readChain_eq_ok_iff hterm left hdepth p]
    refine ⟨links, ⟨hrest, ?_, ?_⟩, hlnesting, ?_, hends⟩
    · rw [hfirst.tree]
      exact htook.tree
    · rw [hfirst.tree]
      exact htook.depth
    · rw [htook.tree]
      have := left.tree.height_pos
      omega

/-- Without room no parenthesis can be opened, and no expression is inside of
one. -/
theorem readsExpressions_zero :
    Reader.ReadsExpressions limit 0 fun _ => .error (.nestingTooDeep limit) := by
  intro ts p
  exact ⟨nofun, fun ⟨_, _, hnesting, _⟩ => absurd hnesting (Nat.not_lt_zero _)⟩

/-- **The reader of expressions reads the expressions** that open at most as
many parentheses at a time as there is room for. -/
theorem expression_readsExpressions (room : ℕ) :
    Reader.ReadsExpressions limit (room + 1) (fun ts => expression limit room ts) := by
  induction room with
  | zero =>
    simp only [expression]
    exact readTerms_readsExpressions (readTerm_readsTerms readsExpressions_zero)
  | succ room ih =>
    simp only [expression]
    exact readTerms_readsExpressions (readTerm_readsTerms ih)

/-! ## Texts -/

/-- **Tokens are read exactly if an expression derives them** that respects
both limits. The tree is that of the derivation. -/
theorem ofTokens_eq_ok_iff {ts : List Token} {t : Tree} :
    ofTokens limit ts = .ok t
      ↔ ∃ e : Expression, e.tokens = ts ∧ e.tree = t
        ∧ e.nesting ≤ limit ∧ t.height ≤ max 1 limit := by
  unfold ofTokens
  split
  · refine ⟨nofun, ?_⟩
    rintro ⟨e, hnil, -⟩
    exact absurd hnil e.tokens_ne_nil
  · rw [Except.bind_eq_ok_iff]
    constructor
    · rintro ⟨p, hp, h⟩
      obtain ⟨e, htook, hnesting, hheight, -⟩ := (expression_readsExpressions limit ts p).mp hp
      split at h <;> try contradiction
      next hrest =>
        obtain rfl := Except.ok.inj h
        refine ⟨e, ?_, htook.tree.symm, Nat.le_of_lt_succ hnesting, htook.tree ▸ hheight⟩
        rw [htook.tokens, hrest, List.append_nil]
    · rintro ⟨e, rfl, rfl, hnesting, hheight⟩
      obtain ⟨p, hrest, htook⟩ :=
        Parsed.exists_took e.tree (List.append_nil e.tokens).symm e.tokens_ne_nil
      refine ⟨p, (expression_readsExpressions limit e.tokens p).mpr ⟨e, htook,
        Nat.lt_succ_of_le hnesting, hheight, ?_⟩, ?_⟩
      · rw [hrest]
        exact endsChain_nil
      · rw [hrest, htook.tree]

/-- **The parser accepts exactly its grammar.** Within a limit of at least one
level a text has the tree `t` if and only if its tokens have a derivation of
which `t` is the left fold, no more parentheses are open at a time than the
limit allows, and `t` is no deeper than it allows. -/
theorem parse_eq_ok_iff_derivation (hlimit : 1 ≤ limit) (text : String) (t : Tree) :
    parse limit text = .ok t
      ↔ (∃ e : Expression, e.tokens = tokenize text ∧ e.tree = t)
        ∧ NestWithin limit (tokenize text) ∧ t.depth ≤ limit := by
  rw [parse, ofTokens_eq_ok_iff, depth_eq_height, max_eq_right hlimit]
  constructor
  · rintro ⟨e, htokens, htree, hnesting, hheight⟩
    exact ⟨⟨e, htokens, htree⟩, htokens ▸ Expression.nestWithin_tokens.mpr hnesting, hheight⟩
  · rintro ⟨⟨e, htokens, htree⟩, hnest, hheight⟩
    rw [← htokens, Expression.nestWithin_tokens] at hnest
    exact ⟨e, htokens, htree, hnest, hheight⟩

/-- Connectives are read as a name and as a literal, and a parenthesis as a part
of a quoted literal, in a text that takes both limits up. -/
theorem parse_at_both_limits :
    1 ≤ 3 ∧ parse 3 "(AND = OR OR ((b > 2))) AND c != 'x)'"
      = .ok (.node .and
          (.node .or (.leaf ⟨"AND", .equal, "OR"⟩) (.leaf ⟨"b", .greater, "2"⟩))
          (.leaf ⟨"c", .notEqual, "'x)'"⟩)) := by
  have hlimit : 1 ≤ 3 := by decide
  have htokens : tokenize "(AND = OR OR ((b > 2))) AND c != 'x)'" =
      [.opening, .word "AND", .word "=", .word "OR", .word "OR", .opening, .opening,
        .word "b", .word ">", .word "2", .closing, .closing, .closing, .word "AND",
        .word "c", .word "!=", .word "'x)'"] := by
    decide +kernel
  refine ⟨hlimit, (parse_eq_ok_iff_derivation hlimit _ _).mpr ⟨?_, ?_, ?_⟩⟩
  · rw [htokens]
    exact ⟨.chain
      (.group (.chain (.condition ⟨"AND", .equal, "OR"⟩) (.link .or
        (.group (.chain (.group (.chain (.condition ⟨"b", .greater, "2"⟩) .done)) .done))
        .done)))
      (.link .and (.condition ⟨"c", .notEqual, "'x)'"⟩) .done), rfl, rfl⟩
  · rw [htokens]
    simp [nestWithin_opening]
  · rw [depth_eq_height]
    decide

end Tree

end RecordRules
