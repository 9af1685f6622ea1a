import Mathlib.Logic.Function.Iterate
import RecordRules.Proofs.Grammar.Parsing

/-!
# Reading with a cursor

`Tree.expression` hands on the tokens that are left and recurses on the room for further
parentheses. How far it has come, how many parentheses are open, and which of its calls are waiting
for which cannot be seen from outside. Here the same is read in single steps (`Tree.step`): a
**cursor** says how many tokens have been read and how many parentheses are open, and what is to be
done with an expression or a term once it has been read is kept as data, one layer for each call
that waits.

Two things are proved about the steps. They come to what the readers give, error for error
(`Tree.ComesTo`): there is one lemma for each function that reads, in which the steps of what it
calls are a hypothesis, and the recursion on the room is an induction (`Tree.inside_inSteps`). And
whatever step is taken, as many parentheses are open as groups are waiting to be closed, beside
those that were open at first (`Tree.bounded_step`). The waiting groups are bounded by the limit,
and so are the calls, for there is one expression between two groups.

`Tree.keepsContract` draws the conclusions for calls from any cursor: they end, and the ones that
succeed leave the cursor further on, with as many parentheses open as before.
-/

namespace RecordRules.Tree

/-! ## Cursors -/

/-- **A place in a list of tokens.** -/
structure Cursor where
  /-- How many tokens have been read. -/
  position : ℕ
  /-- How many parentheses are open. -/
  nesting : ℕ

namespace Cursor

/-- The tokens that are still to be read, the one at the cursor first. -/
def rest (c : Cursor) (ts : List Token) : List Token := ts.drop c.position

/-- The cursor behind the next `n` tokens. -/
def advance (c : Cursor) (n : ℕ) : Cursor := { c with position := c.position + n }

/-- The cursor behind an opening parenthesis. -/
def enter (c : Cursor) : Cursor := ⟨c.position + 1, c.nesting + 1⟩

/-- The cursor before a closing parenthesis, which is not counted as open any more. -/
def leave (c : Cursor) : Cursor := { c with nesting := c.nesting - 1 }

/-- **The cursor stands before these tokens**, with so many parentheses open. -/
structure Before (c : Cursor) (ts rest : List Token) (nesting : ℕ) : Prop where
  position_le : c.position ≤ ts.length
  rest_eq : c.rest ts = rest
  nesting_eq : c.nesting = nesting

variable {c c' : Cursor} {ts front rest : List Token} {n : ℕ}

theorem rest_advance (c : Cursor) (ts : List Token) (n : ℕ) :
    (c.advance n).rest ts = (c.rest ts).drop n :=
  List.drop_drop.symm

/-- Behind the token at the cursor are those that follow it. -/
theorem rest_advance_one {t : Token} (h : c.rest ts = t :: rest) :
    (c.advance 1).rest ts = rest := by
  rw [rest_advance, h, List.drop_one, List.tail_cons]

theorem length_rest (c : Cursor) (ts : List Token) :
    (c.rest ts).length = ts.length - c.position :=
  List.length_drop

/-- **The cursor moves over tokens** that are there. -/
theorem before_advance (hrest : c.rest ts = front ++ rest) (hfront : front ≠ [])
    (hn : c.nesting = n) : (c.advance front.length).Before ts rest n where
  position_le := by
    have hlength := c.length_rest ts
    have hpos := List.length_pos_iff.mpr hfront
    rw [hrest, List.length_append] at hlength
    show c.position + front.length ≤ ts.length
    omega
  rest_eq := by rw [rest_advance, hrest, List.drop_left]
  nesting_eq := hn

/-- There is one such place. -/
theorem Before.unique (h : c.Before ts rest n) (h' : c'.Before ts rest n) : c = c' := by
  have hlength : ts.length - c.position = ts.length - c'.position := by
    rw [← length_rest, ← length_rest, h.rest_eq, h'.rest_eq]
  have hposition : c.position = c'.position := by
    have := h.position_le
    have := h'.position_le
    omega
  have hnesting : c.nesting = c'.nesting := h.nesting_eq.trans h'.nesting_eq.symm
  cases c
  cases c'
  cases hposition
  cases hnesting
  rfl

/-- Where fewer tokens are left, more have been read. -/
theorem Before.position_lt (h : c'.Before ts rest n) (hlt : rest.length < (c.rest ts).length) :
    c.position < c'.position := by
  have hle := h.position_le
  rw [← h.rest_eq, length_rest, length_rest] at hlt
  omega

end Cursor

/-! ## Steps -/

mutual

/-- **What is to be done with an expression** once it has been read. -/
inductive AfterExpression where
  /-- It is the answer. -/
  | answer
  /-- The parenthesis before it is closed, which makes it a term. -/
  | close (after : AfterTerm)

/-- **What is to be done with a term** once it has been read. -/
inductive AfterTerm where
  /-- It is the answer. -/
  | answer
  /-- It is the first of a chain. -/
  | start (after : AfterExpression)
  /-- It is joined to a chain of this depth. -/
  | join (connective : Connective) (left : Tree) (depth : ℕ) (after : AfterExpression)

end

/-- **A reading that is under way.** -/
inductive Reading where
  /-- An expression is to be read, -/
  | expression (c : Cursor) (after : AfterExpression)
  /-- or a term. -/
  | term (c : Cursor) (after : AfterTerm)
  /-- A parenthesis has been opened in a term. -/
  | opened (c : Cursor) (after : AfterTerm)
  /-- The terms that were read so far make a tree of this depth. -/
  | chain (t : Tree) (depth : ℕ) (c : Cursor) (after : AfterExpression)
  /-- An expression has been read, -/
  | expressionRead (t : Tree) (depth : ℕ) (c : Cursor) (after : AfterExpression)
  /-- or a term. -/
  | termRead (t : Tree) (depth : ℕ) (c : Cursor) (after : AfterTerm)
  /-- Nothing can be read. -/
  | failed (e : Error) (c : Cursor)

/-- A condition is read at once: three tokens, if they are one. -/
def stepCondition (c : Cursor) (after : AfterTerm) (rest : List Token) : Reading :=
  match readCondition rest with
  | .ok p => .termRead p.tree p.depth (c.advance 3) after
  | .error e => .failed e c

/-- **One step** of reading the tokens. A reading that is over stays as it is. -/
def step (limit : ℕ) (ts : List Token) : Reading → Reading
  | .expression c after => .term c (.start after)
  | .term c after =>
    match c.rest ts with
    | .opening :: _ => .opened c.enter after
    | rest => stepCondition c after rest
  | .opened c after =>
    -- the parenthesis counts as open before it is seen to be one too many
    if c.nesting > limit then .failed (.nestingTooDeep limit) c
    else .expression c (.close after)
  | .chain t depth c after =>
    match (c.rest ts).head?.bind Token.connective? with
    | none => .expressionRead t depth c after
    | some k => .term (c.advance 1) (.join k t depth after)
  | .termRead t depth c (.start after) => .chain t depth c after
  | .termRead t depth c (.join k left leftDepth after) =>
    if max leftDepth depth + 1 > limit then .failed (.nestingTooDeep limit) c
    else .chain (.node k left t) (max leftDepth depth + 1) c after
  | .expressionRead t depth c (.close after) =>
    match c.rest ts with
    | .closing :: _ => .termRead t depth (c.leave.advance 1) after
    | _ => .failed .mismatchedParentheses c.leave
  | s => s

section Equations

variable {limit : ℕ} {ts rest : List Token} {c : Cursor} {t : Tree} {depth : ℕ}

theorem step_term_opening {after : AfterTerm} (h : c.rest ts = .opening :: rest) :
    step limit ts (.term c after) = .opened c.enter after := by
  simp only [step, h]

theorem step_term_of_ne {after : AfterTerm} (h : ∀ rest, c.rest ts ≠ .opening :: rest) :
    step limit ts (.term c after) = stepCondition c after (c.rest ts) := by
  rw [step]
  split
  · next rest hrest => exact absurd hrest (h rest)
  · rfl

theorem step_chain_link {after : AfterExpression} {token : Token} {k : Connective}
    (h : c.rest ts = token :: rest) (hk : token.connective? = some k) :
    step limit ts (.chain t depth c after) = .term (c.advance 1) (.join k t depth after) := by
  simp only [step, h, List.head?_cons, Option.bind_some, hk]

theorem step_close_closing {after : AfterTerm} (h : c.rest ts = .closing :: rest) :
    step limit ts (.expressionRead t depth c (.close after))
      = .termRead t depth (c.leave.advance 1) after := by
  simp only [step, h]

theorem step_close_of_ne {after : AfterTerm} (h : ∀ rest, c.rest ts ≠ .closing :: rest) :
    step limit ts (.expressionRead t depth c (.close after))
      = .failed .mismatchedParentheses c.leave := by
  rw [step]
  split
  · next rest hrest => exact absurd hrest (h rest)
  · rfl

end Equations

/-- **The reading gets there**, after some number of steps. -/
def Reaches (limit : ℕ) (ts : List Token) (s s' : Reading) : Prop :=
  ∃ n, (step limit ts)^[n] s = s'

section Reaching

variable {limit : ℕ} {ts : List Token} {s s' s'' : Reading}

theorem Reaches.refl (s : Reading) : Reaches limit ts s s := ⟨0, rfl⟩

theorem Reaches.of_step (h : Reaches limit ts (step limit ts s) s') : Reaches limit ts s s' := by
  obtain ⟨n, rfl⟩ := h
  exact ⟨n + 1, Function.iterate_succ_apply _ _ _⟩

theorem Reaches.trans (h : Reaches limit ts s s') (h' : Reaches limit ts s' s'') :
    Reaches limit ts s s'' := by
  obtain ⟨n, rfl⟩ := h
  obtain ⟨m, rfl⟩ := h'
  exact ⟨m + n, Function.iterate_add_apply _ _ _ _⟩

end Reaching

/-! ## The steps come to what the readers give -/

/-- **The reading comes to the outcome**: to a place that `stop` describes, before the tokens that
are left and with so many parentheses open, or to the error. -/
def ComesTo (limit : ℕ) (ts : List Token) (nesting : ℕ) (stop : Tree → ℕ → Cursor → Reading)
    (s : Reading) {bound : ℕ} : Except Error (Parsed bound) → Prop
  | .ok p => ∃ c, c.Before ts p.rest nesting ∧ Reaches limit ts s (stop p.tree p.depth c)
  | .error e => ∃ c, Reaches limit ts s (.failed e c)

/-- **What the reader reads is read in steps** that lead from `start` to `stop` while `nesting`
parentheses are open, whatever is to be done then. -/
def Reader.InSteps {κ : Type} (limit : ℕ) (ts : List Token) (nesting : ℕ)
    (start : Cursor → κ → Reading) (stop : Tree → ℕ → Cursor → κ → Reading)
    (read : Reader) : Prop :=
  ∀ (c : Cursor) (after : κ), c.nesting = nesting →
    ComesTo limit ts nesting (stop · · · after) (start c after) (read (c.rest ts))

/-- **What is read between parentheses** where there is room for so many: an expression, if there is
room for the parentheses that are around it. -/
def inside (limit : ℕ) : (room : ℕ) → Reader
  | 0, _ => .error (.nestingTooDeep limit)
  | room + 1, ts => expression limit room ts

/-- An expression is a chain of terms with groups of expressions inside. -/
theorem expression_eq (limit room : ℕ) (ts : List Token) :
    expression limit room ts = readTerms limit (readTerm (inside limit room)) ts := by
  cases room <;> rfl

section Steps

variable {limit nesting nesting' bound bound' : ℕ} {ts : List Token}
  {stop stop' : Tree → ℕ → Cursor → Reading} {s s' : Reading}

theorem ComesTo.of_reaches {x : Except Error (Parsed bound)} (h : Reaches limit ts s s')
    (hx : ComesTo limit ts nesting stop s' x) : ComesTo limit ts nesting stop s x := by
  cases x with
  | error e =>
    obtain ⟨c, hc⟩ := hx
    exact ⟨c, h.trans hc⟩
  | ok p =>
    obtain ⟨c, hbefore, hc⟩ := hx
    exact ⟨c, hbefore, h.trans hc⟩

theorem ComesTo.of_step {x : Except Error (Parsed bound)}
    (h : ComesTo limit ts nesting stop (step limit ts s) x) :
    ComesTo limit ts nesting stop s x :=
  .of_reaches (.of_step (.refl _)) h

/-- **One reader after another**: the second goes on where the first has stopped. -/
theorem ComesTo.bind {x : Except Error (Parsed bound)}
    {f : Parsed bound → Except Error (Parsed bound')}
    (hx : ComesTo limit ts nesting stop s x)
    (hf : ∀ p c, c.Before ts p.rest nesting →
      ComesTo limit ts nesting' stop' (stop p.tree p.depth c) (f p)) :
    ComesTo limit ts nesting' stop' s (x >>= f) := by
  cases x with
  | error e => exact hx
  | ok p =>
    obtain ⟨c, hbefore, hc⟩ := hx
    exact .of_reaches hc (hf p c hbefore)

/-- A condition is read in one step. -/
theorem stepCondition_comesTo {c : Cursor} {after : AfterTerm} (hc : c.nesting = nesting) :
    ComesTo limit ts nesting (.termRead · · · after) (stepCondition c after (c.rest ts))
      (readCondition (c.rest ts)) := by
  unfold stepCondition
  cases hread : readCondition (c.rest ts) with
  | error e => exact ⟨c, .refl _⟩
  | ok p =>
    obtain ⟨condition, htook⟩ := readCondition_eq_ok_iff.mp hread
    exact ⟨c.advance 3, Cursor.before_advance htook.tokens (List.cons_ne_nil _ _) hc, .refl _⟩

/-- Without a parenthesis a term is a condition. -/
theorem readTerm_of_ne {group : Reader} {rest : List Token}
    (hne : ∀ inner, rest ≠ .opening :: inner) : readTerm group rest = readCondition rest := by
  unfold readTerm
  split
  · next inner => exact absurd rfl (hne inner)
  · rfl

/-- **A term is read in steps if the groups in it are.** -/
theorem readTerm_inSteps {group : Reader}
    (hgroup : group.InSteps limit ts (nesting + 1) .opened
      fun t depth c after => .expressionRead t depth c (.close after)) :
    (readTerm group).InSteps limit ts nesting .term .termRead := by
  intro c after hc
  by_cases hopening : ∃ rest, c.rest ts = .opening :: rest
  · obtain ⟨rest, hrest⟩ := hopening
    have hinner := hgroup c.enter after (congrArg (· + 1) hc)
    rw [show c.enter.rest ts = rest from Cursor.rest_advance_one hrest] at hinner
    refine .of_step ?_
    rw [step_term_opening hrest, hrest]
    refine hinner.bind fun inner c' hc' => .of_step ?_
    split
    · next rest' hrest' =>
      have hclosing : c'.rest ts = .closing :: rest' := hc'.rest_eq.trans hrest'
      have hleave : c'.leave.nesting = nesting := by
        show c'.nesting - 1 = nesting
        rw [hc'.nesting_eq, Nat.add_sub_cancel]
      have hbehind : (c'.leave.advance 1).Before ts rest' nesting :=
        Cursor.before_advance (show c'.leave.rest ts = [.closing] ++ rest' from hclosing)
          (List.cons_ne_nil _ _) hleave
      rw [step_close_closing hclosing]
      exact ⟨c'.leave.advance 1, hbehind, .refl _⟩
    · next hne =>
      rw [step_close_of_ne fun rest' h => hne rest' (hc'.rest_eq.symm.trans h)]
      exact ⟨c'.leave, .refl _⟩
  · have hne : ∀ rest, c.rest ts ≠ .opening :: rest := fun rest h => hopening ⟨rest, h⟩
    refine .of_step ?_
    rw [step_term_of_ne hne, readTerm_of_ne hne]
    exact stepCondition_comesTo hc

/-- **A chain is read on in steps if its terms are.** The cursor stands before the tokens that the
chain has left. -/
theorem readChain_comesTo {term : Reader}
    (hterm : term.InSteps limit ts nesting .term .termRead) (left : Parsed bound) {c : Cursor}
    {after : AfterExpression} (hc : c.Before ts left.rest nesting) :
    ComesTo limit ts nesting (.expressionRead · · · after)
      (.chain left.tree left.depth c after) (readChain limit term left) := by
  fun_induction readChain limit term left generalizing c with
  | case1 left hrest =>
    refine ⟨c, hc, .of_step ?_⟩
    simp only [step, hc.rest_eq, hrest]
    exact .refl _
  | case2 left t rest hrest hconn =>
    refine ⟨c, hc, .of_step ?_⟩
    simp only [step, hc.rest_eq, hrest, List.head?_cons, Option.bind_some, hconn]
    exact .refl _
  | case3 left t rest hrest k hconn ih =>
    have hchain : c.rest ts = t :: rest := hc.rest_eq.trans hrest
    have hright := hterm (c.advance 1) (.join k left.tree left.depth after) hc.nesting_eq
    rw [Cursor.rest_advance_one hchain] at hright
    refine .of_step ?_
    rw [step_chain_link hchain hconn]
    refine hright.bind fun right c' hc' => .of_step ?_
    -- both look at the depth of the joined tree before they go on
    have hdepth : (left.join k hrest right).depth = max left.depth right.depth + 1 := rfl
    rw [step, ← hdepth]
    by_cases hdeep : (left.join k hrest right).depth > limit
    · rw [if_pos hdeep, if_pos hdeep]
      exact ⟨c', .refl _⟩
    · rw [if_neg hdeep, if_neg hdeep]
      exact ih right hc'

/-- **An expression is read in steps if the groups in it are.** -/
theorem expression_inSteps_of_inside {room : ℕ}
    (hgroup : (inside limit room).InSteps limit ts (nesting + 1) .opened
      fun t depth c after => .expressionRead t depth c (.close after)) :
    Reader.InSteps limit ts nesting .expression .expressionRead
      fun ts => expression limit room ts := by
  intro c after hc
  show ComesTo limit ts nesting _ _ (expression limit room (c.rest ts))
  rw [expression_eq]
  have hfirst := readTerm_inSteps hgroup c (.start after) hc
  exact .of_step (hfirst.bind fun left c' hc' =>
    .of_step (readChain_comesTo (readTerm_inSteps hgroup) left hc'))

/-- **Groups are read in steps**: none where the parenthesis was one too many, and expressions
otherwise. -/
theorem inside_inSteps (limit : ℕ) (ts : List Token) (nesting : ℕ) :
    (inside limit (limit - nesting)).InSteps limit ts (nesting + 1) .opened
      fun t depth c after => .expressionRead t depth c (.close after) := by
  generalize hroom : limit - nesting = room
  induction room generalizing nesting with
  | zero =>
    intro c after hc
    refine ⟨c, .of_step ?_⟩
    rw [step, if_pos (by omega)]
    exact .refl _
  | succ room ih =>
    intro c after hc
    refine .of_step ?_
    rw [step, if_neg (by omega)]
    exact expression_inSteps_of_inside (ih (nesting + 1) (by omega)) c (.close after) hc

end Steps

/-! ## What is open, and what is waiting -/

mutual

/-- How many groups are waiting to be closed, -/
def AfterExpression.groups : AfterExpression → ℕ
  | .answer => 0
  | .close after => after.groups + 1

/-- around a term. -/
def AfterTerm.groups : AfterTerm → ℕ
  | .answer => 0
  | .start after => after.groups
  | .join _ _ _ after => after.groups

end

mutual

/-- How many calls are waiting for an expression to be read, directly or not, -/
def AfterExpression.calls : AfterExpression → ℕ
  | .answer => 0
  | .close after => after.calls + 1

/-- or for a term. -/
def AfterTerm.calls : AfterTerm → ℕ
  | .answer => 0
  | .start after => after.calls + 1
  | .join _ _ _ after => after.calls + 1

end

mutual

/-- **Each group that is waiting has one expression around it.** -/
theorem AfterExpression.calls_le : ∀ after : AfterExpression, after.calls ≤ 2 * after.groups
  | .answer => le_rfl
  | .close after => by
    have h := AfterTerm.calls_le after
    rw [AfterExpression.calls, AfterExpression.groups]
    omega

theorem AfterTerm.calls_le : ∀ after : AfterTerm, after.calls ≤ 2 * after.groups + 1
  | .answer => Nat.zero_le _
  | .start after => Nat.succ_le_succ (AfterExpression.calls_le after)
  | .join _ _ _ after => Nat.succ_le_succ (AfterExpression.calls_le after)

end

namespace Reading

/-- The cursor of the reading. -/
def cursor : Reading → Cursor
  | expression c _ | term c _ | opened c _ | chain _ _ c _ | expressionRead _ _ c _
  | termRead _ _ c _ | failed _ c => c

/-- **How many calls have begun and not ended.** A call ends when what it has read is taken from
it, and an error ends them all. -/
def calls : Reading → ℕ
  | expression _ after | chain _ _ _ after | expressionRead _ _ _ after => after.calls + 1
  | term _ after | opened _ after | termRead _ _ _ after => after.calls + 1
  | failed _ _ => 0

/-- **What the reading has come to**, if it is over. -/
def outcome? : Reading → Option (Except Error (Tree × ℕ × Cursor))
  | expressionRead t depth c .answer | termRead t depth c .answer => some (.ok (t, depth, c))
  | failed e _ => some (.error e)
  | _ => none

/-- **The parentheses that are open** are those that were open at first and those of the groups
that are waiting, of which there are as many as the limit allows. Only a parenthesis that has just
been opened may be one more. -/
def Bounded (limit entry : ℕ) : Reading → Prop
  | expression c after | chain _ _ c after | expressionRead _ _ c after =>
    c.nesting = entry + after.groups ∧ after.groups ≤ limit - entry
  | term c after | termRead _ _ c after =>
    c.nesting = entry + after.groups ∧ after.groups ≤ limit - entry
  | opened c after => c.nesting = entry + after.groups + 1 ∧ after.groups ≤ limit - entry
  | failed _ c => c.nesting ≤ max entry limit + 1

variable {limit entry : ℕ} {s : Reading}

/-- Then no more than one parenthesis too many is open, -/
theorem Bounded.nesting_le (h : s.Bounded limit entry) :
    s.cursor.nesting ≤ max entry limit + 1 := by
  cases s with
  | failed e c => exact h
  | _ =>
    obtain ⟨hnesting, hgroups⟩ := h
    rw [cursor]
    omega

/-- and no more calls have begun than there are parentheses and expressions for. -/
theorem Bounded.calls_le (h : s.Bounded limit entry) : s.calls ≤ 2 * (limit - entry) + 2 := by
  cases s with
  | failed e c => exact Nat.zero_le _
  | expression c after | chain _ _ c after | expressionRead _ _ c after =>
    have := after.calls_le
    obtain ⟨-, hgroups⟩ := h
    rw [calls]
    omega
  | term c after | opened c after | termRead _ _ c after =>
    have := after.calls_le
    obtain ⟨-, hgroups⟩ := h
    rw [calls]
    omega

end Reading

section Bounds

variable {limit entry : ℕ} {ts : List Token} {s s' : Reading}

/-- **A step keeps to the bounds.** A parenthesis is counted when it is opened, and not any more
when its group is closed; an error leaves the cursor where it is, or before the parenthesis. -/
theorem bounded_step (h : s.Bounded limit entry) : (step limit ts s).Bounded limit entry := by
  cases s with
  | expression c after => exact h
  | term c after =>
    rw [step]
    split
    · exact ⟨congrArg (· + 1) h.1, h.2⟩
    · unfold stepCondition
      split
      · exact h
      · exact h.nesting_le
  | opened c after =>
    rw [step]
    split
    · exact h.nesting_le
    · next hle =>
      obtain ⟨hnesting, hgroups⟩ := h
      show c.nesting = entry + (after.groups + 1) ∧ after.groups + 1 ≤ limit - entry
      omega
  | chain t depth c after =>
    rw [step]
    split
    · exact h
    · exact h
  | termRead t depth c after =>
    cases after with
    | answer => exact h
    | start after => exact h
    | join k left leftDepth after =>
      rw [step]
      split
      · exact h.nesting_le
      · exact h
  | expressionRead t depth c after =>
    cases after with
    | answer => exact h
    | close after =>
      rw [step]
      split
      · obtain ⟨hnesting, hgroups⟩ := h
        rw [AfterExpression.groups] at hnesting hgroups
        have hleave : c.leave.nesting = entry + after.groups := by
          show c.nesting - 1 = entry + after.groups
          omega
        exact ⟨hleave, Nat.le_of_succ_le hgroups⟩
      · exact (Nat.sub_le _ 1).trans h.nesting_le
  | failed e c => exact h

/-- **So do all steps.** -/
theorem Reaches.bounded (h : Reaches limit ts s s') (hs : s.Bounded limit entry) :
    s'.Bounded limit entry := by
  obtain ⟨n, rfl⟩ := h
  exact Function.Iterate.rec (Reading.Bounded limit entry) hs (fun _ => bounded_step) n

end Bounds

/-! ## What a call promises -/

/-- **The reading ends with this outcome.** -/
def Gives (limit : ℕ) (ts : List Token) (s : Reading)
    (x : Except Error (Tree × ℕ × Cursor)) : Prop :=
  ∃ s', Reaches limit ts s s' ∧ s'.outcome? = some x

section Contracts

variable {limit nesting bound : ℕ} {ts : List Token} {s : Reading}
  {stop : Tree → ℕ → Cursor → Reading} {x : Except Error (Parsed bound)}
  {y z : Except Error (Tree × ℕ × Cursor)}

/-- A reading that is over stays as it is. -/
theorem step_of_outcome? (h : s.outcome? = some y) : step limit ts s = s := by
  unfold Reading.outcome? at h
  split at h
  · rfl
  · rfl
  · rfl
  · cases h

/-- **It ends once**: all that can be reached of a reading is on one way. -/
theorem Gives.unique (hy : Gives limit ts s y) (hz : Gives limit ts s z) : y = z := by
  obtain ⟨_, ⟨n, rfl⟩, hy⟩ := hy
  obtain ⟨_, ⟨m, rfl⟩, hz⟩ := hz
  -- each of the two readings is over, so both are the one after n + m steps
  have hm : (step limit ts)^[m] ((step limit ts)^[n] s) = (step limit ts)^[n] s :=
    Function.iterate_fixed (step_of_outcome? hy) m
  have hn : (step limit ts)^[n] ((step limit ts)^[m] s) = (step limit ts)^[m] s :=
    Function.iterate_fixed (step_of_outcome? hz) n
  rw [← Function.iterate_add_apply] at hm hn
  rw [← hm, Nat.add_comm, hn] at hy
  exact Option.some.inj (hy.symm.trans hz)

/-- A reading that comes to an outcome ends. -/
theorem ComesTo.exists_gives (hx : ComesTo limit ts nesting stop s x)
    (hstop : ∀ t depth c, (stop t depth c).outcome? = some (.ok (t, depth, c))) :
    ∃ y, Gives limit ts s y := by
  cases x with
  | error e =>
    obtain ⟨c, hc⟩ := hx
    exact ⟨.error e, _, hc, rfl⟩
  | ok p =>
    obtain ⟨c, -, hc⟩ := hx
    exact ⟨.ok (p.tree, p.depth, c), _, hc, hstop _ _ _⟩

/-- **It ends with the tree** that the outcome is, and nowhere else than before the tokens that are
left. -/
theorem ComesTo.gives_ok_iff (hx : ComesTo limit ts nesting stop s x)
    (hstop : ∀ t depth c, (stop t depth c).outcome? = some (.ok (t, depth, c)))
    {t : Tree} {depth : ℕ} {c : Cursor} :
    Gives limit ts s (.ok (t, depth, c))
      ↔ ∃ p, x = .ok p ∧ p.tree = t ∧ p.depth = depth ∧ c.Before ts p.rest nesting := by
  cases x with
  | error e =>
    obtain ⟨c', hc'⟩ := hx
    have hgives : Gives limit ts s (.error e) := ⟨_, hc', rfl⟩
    exact ⟨fun h => (nomatch hgives.unique h), nofun⟩
  | ok p =>
    obtain ⟨c', hbefore, hc'⟩ := hx
    have hgives : Gives limit ts s (.ok (p.tree, p.depth, c')) := ⟨_, hc', hstop _ _ _⟩
    constructor
    · intro h
      obtain ⟨rfl, rfl, rfl⟩ : p.tree = t ∧ p.depth = depth ∧ c' = c := by
        simpa using hgives.unique h
      exact ⟨p, rfl, rfl, rfl, hbefore⟩
    · rintro ⟨_, ⟨⟩, rfl, rfl, hc⟩
      exact hc.unique hbefore ▸ hgives

/-- **It ends with the error** that the outcome is. -/
theorem ComesTo.gives_error_iff (hx : ComesTo limit ts nesting stop s x)
    (hstop : ∀ t depth c, (stop t depth c).outcome? = some (.ok (t, depth, c))) {e : Error} :
    Gives limit ts s (.error e) ↔ x = .error e := by
  cases x with
  | error e' =>
    obtain ⟨c, hc⟩ := hx
    have hgives : Gives limit ts s (.error e') := ⟨_, hc, rfl⟩
    constructor
    · intro h
      exact congrArg _ (Except.error.inj (hgives.unique h))
    · rintro ⟨⟩
      exact hgives
  | ok p =>
    obtain ⟨c, -, hc⟩ := hx
    have hgives : Gives limit ts s (.ok (p.tree, p.depth, c)) := ⟨_, hc, hstop _ _ _⟩
    exact ⟨fun h => (nomatch hgives.unique h), nofun⟩

/-- **What a call keeps to** that is made at the cursor `c` and begins as `s`, where a reader gives
`x` for the tokens after `c`. -/
structure KeepsContract (limit : ℕ) (ts : List Token) (c : Cursor) (s : Reading)
    (x : Except Error (Parsed (c.rest ts).length)) : Prop where
  /-- The call ends, -/
  ends : ∃ y, Gives limit ts s y
  /-- with the tree that the reader gives and the depth that it has kept along, before the tokens
  that it leaves, -/
  reads : ∀ t depth c', Gives limit ts s (.ok (t, depth, c'))
    ↔ ∃ p, x = .ok p ∧ p.tree = t ∧ p.depth = depth ∧ c'.Before ts p.rest c.nesting
  /-- or with its error. -/
  fails : ∀ e, Gives limit ts s (.error e) ↔ x = .error e
  /-- A call that succeeds has moved on, no further than the tokens go, -/
  moves_on : ∀ t depth c', Gives limit ts s (.ok (t, depth, c')) →
    c.position < c'.position ∧ c'.position ≤ ts.length
  /-- has closed all parentheses that it has opened, -/
  restores : ∀ t depth c', Gives limit ts s (.ok (t, depth, c')) → c'.nesting = c.nesting
  /-- and has measured its tree. -/
  measures : ∀ t depth c', Gives limit ts s (.ok (t, depth, c')) → depth = t.depth
  /-- At no time is more than one parenthesis open that should not be, -/
  nesting_le : ∀ s', Reaches limit ts s s' → s'.cursor.nesting ≤ max c.nesting limit + 1
  /-- and at no time are there more calls than the limit leaves room for. -/
  calls_le : ∀ s', Reaches limit ts s s' → s'.calls ≤ 2 * (limit - c.nesting) + 2

/-- **A call that comes to what a reader gives** keeps its contract, if the depth that the reader
keeps along is right. -/
theorem keepsContract_of_comesTo {c : Cursor} {x : Except Error (Parsed (c.rest ts).length)}
    (hx : ComesTo limit ts c.nesting stop s x)
    (hstop : ∀ t depth c, (stop t depth c).outcome? = some (.ok (t, depth, c)))
    (hdepth : ∀ p, x = .ok p → p.depth = p.tree.depth)
    (hs : s.Bounded limit c.nesting) : KeepsContract limit ts c s x where
  ends := hx.exists_gives hstop
  reads _ _ _ := hx.gives_ok_iff hstop
  fails _ := hx.gives_error_iff hstop
  moves_on t depth c' h := by
    obtain ⟨p, -, -, -, hbefore⟩ := (hx.gives_ok_iff hstop).mp h
    exact ⟨hbefore.position_lt p.rest_lt, hbefore.position_le⟩
  restores t depth c' h := by
    obtain ⟨p, -, -, -, hbefore⟩ := (hx.gives_ok_iff hstop).mp h
    exact hbefore.nesting_eq
  measures t depth c' h := by
    obtain ⟨p, hp, rfl, rfl, -⟩ := (hx.gives_ok_iff hstop).mp h
    exact hdepth p hp
  nesting_le s' h := (h.bounded hs).nesting_le
  calls_le s' h := (h.bounded hs).calls_le

/-- Groups are read if there is room for them. -/
theorem inside_readsExpressions (room : ℕ) : (inside limit room).ReadsExpressions limit room := by
  cases room with
  | zero => exact readsExpressions_zero
  | succ room => exact expression_readsExpressions room

/-- The depth that is kept along with what was read is the depth of the tree. -/
theorem Parsed.Took.depth_eq {p : Parsed bound} {front : List Token} {t : Tree}
    (h : p.Took ts front t) : p.depth = p.tree.depth := by
  rw [h.depth, h.tree, depth_eq_height]

/-- **To read an expression** keeps the contract. -/
theorem expression_keepsContract (limit : ℕ) (ts : List Token) (c : Cursor) :
    KeepsContract limit ts c (.expression c .answer)
      (expression limit (limit - c.nesting) (c.rest ts)) := by
  have hcomes := expression_inSteps_of_inside (inside_inSteps limit ts c.nesting) c .answer rfl
  refine keepsContract_of_comesTo hcomes (fun _ _ _ => rfl) ?_ ⟨rfl, Nat.zero_le _⟩
  intro p hp
  obtain ⟨e, htook, -⟩ := (expression_readsExpressions _ _ p).mp hp
  exact htook.depth_eq

/-- **So does to read a term.** -/
theorem readTerm_keepsContract (limit : ℕ) (ts : List Token) (c : Cursor) :
    KeepsContract limit ts c (.term c .answer)
      (readTerm (inside limit (limit - c.nesting)) (c.rest ts)) := by
  have hcomes := readTerm_inSteps (inside_inSteps limit ts c.nesting) c .answer rfl
  refine keepsContract_of_comesTo hcomes (fun _ _ _ => rfl) ?_ ⟨rfl, Nat.zero_le _⟩
  intro p hp
  obtain ⟨t, htook, -⟩ := (readTerm_readsTerms (inside_readsExpressions _) _ p).mp hp
  exact htook.depth_eq

end Contracts

/-- **Calls keep their contract**, from any cursor in any tokens, within any limit. To read an
expression or a term in steps comes to what the reader of expressions or of terms gives where there
is room for as many parentheses as the limit leaves beside those that are open. From the beginning
of the tokens no more parentheses are ever open than one beyond the limit, and the number of calls
is bound to the limit alone. -/
theorem keepsContract (limit : ℕ) (ts : List Token) (c : Cursor) :
    KeepsContract limit ts c (.expression c .answer)
      (expression limit (limit - c.nesting) (c.rest ts))
    ∧ KeepsContract limit ts c (.term c .answer)
      (readTerm (inside limit (limit - c.nesting)) (c.rest ts))
    ∧ ∀ s, Reaches limit ts (.expression ⟨0, 0⟩ .answer) s →
      s.cursor.nesting ≤ limit + 1 ∧ s.calls ≤ 2 * limit + 2 := by
  refine ⟨expression_keepsContract limit ts c, readTerm_keepsContract limit ts c, fun s hs => ?_⟩
  have hfresh := expression_keepsContract limit ts ⟨0, 0⟩
  have hnesting := hfresh.nesting_le s hs
  have hcalls := hfresh.calls_le s hs
  dsimp only at hnesting hcalls
  rw [Nat.zero_max] at hnesting
  exact ⟨hnesting, hcalls⟩

/-- The parenthesis that is one too many has been counted when it is refused. -/
example : ((step 1 [.opening, .opening])^[5] (.expression ⟨0, 0⟩ .answer)).cursor.nesting = 1 + 1 :=
  rfl

end RecordRules.Tree
