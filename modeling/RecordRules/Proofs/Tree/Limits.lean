import RecordRules.Proofs.Grammar.Parsing
import RecordRules.Proofs.Tree.Checking

/-!
# A limit only filters

The same text read within two limits gives the same outcome twice, unless the
lower limit is exceeded. For the parser that is a comparison of two runs
(`Except.Filtered`): each of its functions, run within the lower limit, either
does what it does within the higher one or ends with the error of the lower
limit, and where the higher limit is exceeded the lower one is, too. The two
runs need not end at the same token, for a chain that has grown too deep is
given up before the tokens after it are looked at. A simulation that goes
through the tokens step by step has to stop there, and `Except.Filtered.bind`
does.

The tree of a text within a limit is therefore its tree within every higher
limit (`Tree.ofText_eq_ok_of_le`), and the limits that admit a text can be told
from its tokens and its tree (`Tree.ofText_eq_ok_iff_within`).
-/

/-- **The outcome `x` is `y`, filtered**: it is the error `e`, or it is `y` and
`y` is not the error `e'` that stands for the same cause. -/
def Except.Filtered {ε α : Type} (e e' : ε) (x y : Except ε α) : Prop :=
  x = .error e ∨ x = y ∧ y ≠ .error e'

namespace Except.Filtered

variable {ε α β : Type} {e e' : ε} {x y : Except ε α}

/-- Outcomes that are not the error are their own filtrates. -/
theorem of_ne (h : x ≠ .error e') : Filtered e e' x x :=
  .inr ⟨rfl, h⟩

/-- A success is its own filtrate. -/
theorem of_ok (a : α) : Filtered e e' (.ok a) (.ok a) := of_ne nofun

/-- **Steps are filtered one after the other.** -/
theorem bind {f g : α → Except ε β} (h : Filtered e e' x y)
    (hstep : ∀ a, x = .ok a → Filtered e e' (f a) (g a)) :
    Filtered e e' (x >>= f) (y >>= g) := by
  rcases h with rfl | ⟨rfl, hne⟩
  · exact .inl rfl
  · cases x with
    | error d => exact .inr ⟨rfl, fun heq => hne (congrArg error (Except.error.inj heq))⟩
    | ok a => exact hstep a rfl

end Except.Filtered

namespace RecordRules

open Except (Filtered)

/-- The error says that a limit was exceeded. -/
def Error.IsTooDeep : Error → Prop
  | .nestingTooDeep _ => True
  | .treeTooDeep _ => True
  | _ => False

namespace Tree

variable {m m' n : ℕ}

/-- One reader does what the other does, filtered by its limit `m`. What is kept
is not the error that names `n` for a limit, whichever number that is. -/
def Reader.Filters (m n : ℕ) (read read' : Reader) : Prop :=
  ∀ ts, Filtered (.nestingTooDeep m) (.nestingTooDeep n) (read ts) (read' ts)

/-! ## The parser -/

/-- A condition is read whatever the limit is. -/
theorem readCondition_ne_nestingTooDeep (ts : List Token) :
    readCondition ts ≠ .error (.nestingTooDeep m) := by
  intro h
  unfold readCondition at h
  split at h <;> try cases h
  split at h <;> cases h

/-- **Terms are filtered if the groups in them are.** -/
theorem readTerm_filters {group group' : Reader} (h : group.Filters m n group') :
    (readTerm group).Filters m n (readTerm group') := by
  intro ts
  unfold readTerm
  split
  · next ts =>
    refine (h ts).bind fun inner _ => Filtered.of_ne ?_
    split <;> exact nofun
  · exact Filtered.of_ne (readCondition_ne_nestingTooDeep _)

/-- **A chain is filtered** if its terms are: where it grows deeper than the
lower limit allows it is given up, and until then both runs join the same. -/
theorem readChain_filtered (hm : m ≤ m') {term term' : Reader}
    (h : term.Filters m n term') {bound : ℕ} (left : Parsed bound) :
    Filtered (.nestingTooDeep m) (.nestingTooDeep n)
      (readChain m term left) (readChain m' term' left) := by
  fun_induction readChain m term left with
  | case1 left hrest =>
    unfold readChain
    split
    · exact Filtered.of_ok left
    · next hrest' => exact absurd (hrest.symm.trans hrest') (List.cons_ne_nil _ _).symm
  | case2 left t ts hrest hconn =>
    unfold readChain
    split
    · exact Filtered.of_ok left
    · next hrest' =>
      obtain ⟨rfl, rfl⟩ := List.cons.inj (hrest.symm.trans hrest')
      rw [hconn]
      exact Filtered.of_ok left
  | case3 left t ts hrest k hconn ih =>
    rw [readChain.eq_def m' term' left]
    split
    · next hrest' => exact absurd (hrest'.symm.trans hrest) (List.cons_ne_nil _ _).symm
    · next hrest' =>
      obtain ⟨rfl, rfl⟩ := List.cons.inj (hrest.symm.trans hrest')
      rw [hconn]
      dsimp only at ih ⊢
      refine (h _).bind fun right _ => ?_
      split
      · exact .inl rfl
      · next hle =>
        rw [if_neg fun hgt => hle (Nat.lt_of_le_of_lt hm hgt)]
        exact ih right

/-- A term and the chain after it are filtered. -/
theorem readTerms_filters (hm : m ≤ m') {term term' : Reader}
    (h : term.Filters m n term') :
    Reader.Filters m n (readTerms m term) (readTerms m' term') := by
  intro ts
  unfold readTerms
  exact (h ts).bind fun left _ => readChain_filtered hm h left

/-- **Expressions are filtered**, if there is no more room for parentheses
within the lower limit than within the higher one. -/
theorem expression_filters (hm : m ≤ m') {room room' : ℕ} (hroom : room ≤ room') :
    Reader.Filters m n (fun ts => expression m room ts)
      (fun ts => expression m' room' ts) := by
  induction room generalizing room' with
  | zero =>
    -- whatever is read as a group within the higher limit, here it is an error
    have hnone (group : Reader) :
        Reader.Filters m n (fun _ => .error (.nestingTooDeep m)) group :=
      fun _ => .inl rfl
    cases room' with
    | zero =>
      simp only [expression]
      exact readTerms_filters hm (readTerm_filters (hnone _))
    | succ room' =>
      simp only [expression]
      exact readTerms_filters hm (readTerm_filters (hnone _))
  | succ room ih =>
    obtain ⟨room', rfl⟩ := Nat.exists_eq_add_of_le' (Nat.one_le_of_lt hroom)
    simp only [expression]
    exact readTerms_filters hm (readTerm_filters (ih (Nat.le_of_succ_le_succ hroom)))

/-- **The parser within a lower limit** is the parser within a higher one,
filtered. -/
theorem parse_filtered (hm : m ≤ m') (n : ℕ) (text : String) :
    Filtered (.nestingTooDeep m) (.nestingTooDeep n) (parse m text) (parse m' text) := by
  unfold parse ofTokens
  split
  · exact Filtered.of_ne nofun
  · refine (expression_filters hm hm _).bind fun parsed _ => Filtered.of_ne ?_
    split <;> exact nofun

/-! ## Texts of rules -/

/-- Apart from the depth, what is checked does not depend on the limit. -/
theorem check_eq_or_treeTooDeep (hm : m ≤ m') (t : Tree) :
    t.check m = t.check m' ∨ t.check m = .error (.treeTooDeep m) := by
  unfold check
  by_cases h : t.depth > m
  · exact .inr (if_pos h)
  · have h' : ¬ t.depth > m' := fun hgt => h (Nat.lt_of_le_of_lt hm hgt)
    exact .inl ((if_neg h).trans (if_neg h').symm)

/-- A text that is parsed is as good as the check of its tree. -/
theorem ofText_of_parse {text : String} {t : Tree} (h : parse m text = .ok t) :
    ofText m text = ((t.check m).mapError Error.inText).map fun _ => t := by
  unfold ofText
  rw [h]
  rfl

/-- **A text within a lower limit** is read as within a higher one, or it is too
deep. -/
theorem ofText_eq_or_isTooDeep (hm : m ≤ m') (text : String) :
    ofText m text = ofText m' text ∨ ∃ e : Error, e.IsTooDeep ∧ ofText m text = .error e := by
  rcases parse_filtered hm m' text with h | ⟨h, -⟩
  · refine .inr ⟨.nestingTooDeep m, trivial, ?_⟩
    unfold ofText
    rw [h]
    rfl
  · cases hparse : parse m' text with
    | error e =>
      left
      unfold ofText
      rw [h, hparse]
      rfl
    | ok t =>
      rw [ofText_of_parse hparse, ofText_of_parse (h.trans hparse)]
      rcases check_eq_or_treeTooDeep hm t with hcheck | hcheck
      · exact .inl (by rw [hcheck])
      · refine .inr ⟨.treeTooDeep m, trivial, ?_⟩
        rw [hcheck]
        rfl

/-- **What a limit admits, every higher one does.** -/
theorem ofText_eq_ok_of_le (hm : m ≤ m') {text : String} {t : Tree}
    (h : ofText m text = .ok t) : ofText m' text = .ok t := by
  rcases ofText_eq_or_isTooDeep hm text with heq | ⟨e, -, he⟩
  · rw [← heq, h]
  · exact absurd (h.symm.trans he) nofun

/-- **A text has one tree**, whatever the limits are that it is read within. -/
theorem ofText_unique {text : String} {t t' : Tree} (h : ofText m text = .ok t)
    (h' : ofText m' text = .ok t') : t = t' := by
  rcases Nat.le_total m m' with hle | hle
  · exact Except.ok.inj ((ofText_eq_ok_of_le hle h).symm.trans h')
  · exact Except.ok.inj (h.symm.trans (ofText_eq_ok_of_le hle h'))

/-- A text that has a tree within one limit is too deep within every other that
does not admit it. -/
theorem isTooDeep_of_ofText {text : String} {t : Tree} (h : ofText m text = .ok t)
    {e : Error} (he : ofText m' text = .error e) : e.IsTooDeep := by
  have hlt : m' ≤ m := by
    refine Nat.le_of_not_le fun hle => ?_
    exact absurd ((ofText_eq_ok_of_le hle h).symm.trans he) nofun
  rcases ofText_eq_or_isTooDeep hlt text with heq | ⟨e', htooDeep, he'⟩
  · exact absurd (h.symm.trans (heq.symm.trans he)) nofun
  · obtain rfl := Except.error.inj (he.symm.trans he')
    exact htooDeep

/-- **The limits that admit a text** are those that neither its parentheses nor
its tree exceed. -/
theorem ofText_eq_ok_iff_within {text : String} {t : Tree} (h : ofText m text = .ok t)
    (m' : ℕ) :
    ofText m' text = .ok t ↔ Token.NestWithin m' (Token.tokenize text) ∧ t.depth ≤ m' := by
  obtain ⟨hparse, hcheck⟩ := ofText_eq_ok_iff.mp h
  obtain ⟨e, htokens, htree, -, -⟩ := ofTokens_eq_ok_iff.mp hparse
  rw [ofText_eq_ok_iff, check_eq_ok_iff, and_iff_left (check_eq_ok_iff.mp hcheck).2,
    parse, ofTokens_eq_ok_iff]
  constructor
  · rintro ⟨⟨e', htokens', -, hnesting, -⟩, hdepth⟩
    exact ⟨htokens' ▸ Grammar.Expression.nestWithin_tokens.mpr hnesting, hdepth⟩
  · rintro ⟨hnest, hdepth⟩
    rw [← htokens, Grammar.Expression.nestWithin_tokens] at hnest
    refine ⟨⟨e, htokens, htree, hnest, ?_⟩, hdepth⟩
    rw [← depth_eq_height]
    exact hdepth.trans (le_max_right 1 m')

end Tree

end RecordRules
