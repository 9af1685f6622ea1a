import RecordRules.Tree.Basic

/-!
# Reading the text of a rule

The tokens of a rule's text are read by the grammar

    expression  :=  term (connective term)*
    term        :=  "(" expression ")"  |  condition
    condition   :=  name comparison literal

where both connectives bind alike, to the left. The names and literals of
conditions may be any words here, connectives among them; whether they make
sense is for `Tree.check` to say.

Two things are bounded by one `limit`: how many parentheses are open at a
time, and how deep the tree gets. The first is the `room` that is left for
further parentheses, on which `Tree.expression` recurses, so the recursion is
as deep as the limit allows and no deeper, whatever the text. The second is
kept along with the tree while a chain of terms grows.
-/

namespace RecordRules.Tree

/-- **What has been read** so far of fewer than `bound` tokens: a tree, its
depth, and the tokens after it. -/
structure Parsed (bound : Nat) where
  /-- The tree that was read. -/
  tree : Tree
  /-- The depth of the tree, kept while it was put together. -/
  depth : Nat
  /-- The tokens that were not read. -/
  rest : List Token
  /-- Reading a tree takes at least one token. -/
  rest_lt : rest.length < bound

/-- A way to read a tree from the front of a list of tokens. -/
abbrev Reader := (ts : List Token) → Except Error (Parsed ts.length)

/-- **Reading a condition**: three words, the second of them a comparison. -/
def readCondition : Reader
  | [] => .error .unexpectedEnd
  | [.word name] => .error (.incompleteCondition (.afterAttribute name))
  | [.word name, .word op] =>
    .error (.incompleteCondition (.afterComparison name op))
  | .word name :: .word op :: .word literal :: rest =>
    match Comparison.ofSymbol? op with
    | some comparison =>
      .ok ⟨.leaf ⟨name, comparison, literal⟩, 1, rest, by
        simp only [List.length_cons]
        omega⟩
    | none => .error (.invalidOperator op)
  | .word _ :: .word _ :: paren :: _ => .error (.unexpectedToken paren.text)
  | .word _ :: paren :: _ => .error (.unexpectedToken paren.text)
  | paren :: _ => .error (.unexpectedToken paren.text)

/-- **Reading a term**: what `group` reads between parentheses, or a
condition. -/
def readTerm (group : Reader) : Reader
  | .opening :: ts => do
    let inner ← group ts
    match h : inner.rest with
    | .closing :: rest =>
      .ok ⟨inner.tree, inner.depth, rest, by
        have := inner.rest_lt
        simp only [h, List.length_cons] at this ⊢
        omega⟩
    | _ => .error .mismatchedParentheses
  | ts => readCondition ts

namespace Parsed

variable {bound : Nat} {t : Token} {ts : List Token}

/-- What follows the right one of two trees is shorter than what follows the
left one. -/
theorem rest_lt_rest (left : Parsed bound) (h : left.rest = t :: ts)
    (right : Parsed ts.length) : right.rest.length < left.rest.length := by
  have := right.rest_lt
  rw [h, List.length_cons]
  omega

/-- The two trees joined by the connective that stands between them. -/
def join (left : Parsed bound) (k : Connective) (h : left.rest = t :: ts)
    (right : Parsed ts.length) : Parsed bound :=
  ⟨.node k left.tree right.tree, max left.depth right.depth + 1, right.rest,
    Nat.lt_trans (left.rest_lt_rest h right) left.rest_lt⟩

end Parsed

/-- **Reading on in a chain**: as long as a connective follows, the term after
it becomes the right child of a new root. -/
def readChain (limit : Nat) (term : Reader) {bound : Nat} (left : Parsed bound) :
    Except Error (Parsed bound) :=
  match h : left.rest with
  | [] => .ok left
  | t :: ts =>
    match t.connective? with
    | none => .ok left
    | some k => do
      let right ← term ts
      let joined := left.join k h right
      if joined.depth > limit then .error (.nestingTooDeep limit)
      else readChain limit term joined
termination_by left.rest.length
decreasing_by exact left.rest_lt_rest h right

/-- A term and the chain that follows it. -/
def readTerms (limit : Nat) (term : Reader) : Reader := fun ts => do
  readChain limit term (← term ts)

/-- **Reading an expression** that may open as many parentheses, one within
the other, as there is `room` for. -/
def expression (limit : Nat) : (room : Nat) → Reader
  | 0, ts => readTerms limit (readTerm fun _ => .error (.nestingTooDeep limit)) ts
  | room + 1, ts => readTerms limit (readTerm fun inner => expression limit room inner) ts

/-- **The tree that the tokens spell.** -/
def ofTokens (limit : Nat) : List Token → Except Error Tree
  | [] => .error .emptyExpression
  | ts => do
    let parsed ← expression limit limit ts
    match parsed.rest with
    | [] => .ok parsed.tree
    | .closing :: _ => .error .mismatchedParentheses
    | extra :: _ => .error (.unexpectedToken extra.text)

/-- **The tree that the text spells**, whatever words its conditions are made
of. -/
def parse (limit : Nat) (text : String) : Except Error Tree :=
  ofTokens limit (Token.tokenize text)

end RecordRules.Tree
