import RecordRules.Tree.Basic

/-!
# Combining trees

Two or more trees are **combined** into the chain that requires them all,
`((t₁ AND t₂) AND t₃) AND …`, leaning to the left as chains do. Nothing is
flattened and nothing is dropped. How deep the chain will be follows from the
depths of its members, so a chain that is too deep is never built.
-/

namespace RecordRules.Tree

/-- The chain that requires all the trees. -/
def conjunction (first : Tree) (others : List Tree) : Tree :=
  others.foldl (node .and) first

/-- The depth of a chain whose members have these depths. -/
def chainDepth (first : Nat) (others : List Nat) : Nat :=
  others.foldl (fun depth d => max depth d + 1) first

/-- **The trees combined**, if they are at least two and the chain stays within
the limit. -/
def combine (limit : Nat) (ts : List Tree) : Except Error Tree :=
  if ts.length < 2 then .error (.invalidArgument (.tooFewRules ts.length))
  else
    match ts with
    -- two trees at least are left, so that there is always a first one
    | [] => .error .unexpectedEnd
    | first :: others =>
      if chainDepth first.depth (others.map depth) > limit then
        .error (.treeTooDeep limit)
      else .ok (conjunction first others)

end RecordRules.Tree
