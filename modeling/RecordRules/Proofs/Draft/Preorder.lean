import RecordRules.Proofs.Draft.Node
import RecordRules.Proofs.Place

/-!
# Validating a draft checks its nodes in preorder

Validating a draft goes down from the root, looks at each node before its children and at
the left child before the right one, and stops at the first node that is at fault or lies
below the levels allowed. So it can be told from the list of the nodes
(`Draft.validateWithin_eq_error_iff`): the error is that of the first node in the list that
has one. What is said of a node depends on the node alone, and its path is the one that the
list gives for it, although the paths of errors are put together only on the way back to the
root, one step for each level.

If no node stops it, the draft is valid, and its tree is the image of the draft node by node
(`Draft.Describes`).
-/

namespace RecordRules.Draft

open Text (trim)

/-! ## The nodes of a draft -/

/-- **The nodes of the draft in preorder**, each with the path that leads to it. -/
def nodes : Draft → List (List Side × Draft)
  | ⟨type, value, left, right⟩ =>
    ([], ⟨type, value, left, right⟩)
      :: ((match left with | none => [] | some l => l.nodes.map (Side.below .left))
        ++ (match right with | none => [] | some r => r.nodes.map (Side.below .right)))

/-- The nodes of a child that there may be, with their paths from the parent. -/
def nodesBelow (side : Side) (child : Option Draft) : List (List Side × Draft) :=
  child.elim [] fun d => d.nodes.map side.below

/-- The root comes first, and the left child before the right one. -/
theorem nodes_eq (d : Draft) :
    d.nodes = ([], d) :: (nodesBelow .left d.left ++ nodesBelow .right d.right) := by
  obtain ⟨type, value, left, right⟩ := d
  cases left <;> cases right <;> rw [nodes] <;> rfl

/-- The child on a side, if there is one. -/
def child? (d : Draft) : Side → Option Draft
  | .left => d.left
  | .right => d.right

/-- **The node that the path leads to**, if it leads to one. -/
def get? : Draft → List Side → Option Draft
  | d, [] => some d
  | d, side :: path => (d.child? side).bind fun child => child.get? path

/-- What is found below a child is found in the child. -/
theorem mem_nodesBelow_iff {side : Side} {child : Option Draft} {path : List Side}
    {node : Draft} :
    (path, node) ∈ nodesBelow side child
      ↔ ∃ d rest, child = some d ∧ path = side :: rest ∧ (rest, node) ∈ d.nodes := by
  cases child with
  | none => exact iff_of_false List.not_mem_nil fun ⟨_, _, h, _⟩ => nomatch h
  | some d =>
    refine Side.mem_map_below.trans ?_
    constructor
    · rintro ⟨rest, rfl, hmem⟩
      exact ⟨d, rest, rfl, rfl, hmem⟩
    · rintro ⟨_, rest, hd, rfl, hmem⟩
      obtain rfl := Option.some.inj hd
      exact ⟨rest, rfl, hmem⟩

/-- **The path of a node leads to it.** -/
theorem mem_nodes_iff {d : Draft} {path : List Side} {node : Draft} :
    (path, node) ∈ d.nodes ↔ d.get? path = some node := by
  induction path generalizing d with
  | nil =>
    rw [nodes_eq, get?, List.mem_cons, List.mem_append, mem_nodesBelow_iff, mem_nodesBelow_iff]
    constructor
    · rintro (h | ⟨_, _, -, h, -⟩ | ⟨_, _, -, h, -⟩)
      · exact congrArg some (Prod.mk.inj h).2.symm
      · cases h
      · cases h
    · intro h
      exact .inl (Prod.ext rfl (Option.some.inj h).symm)
  | cons side path ih =>
    rw [nodes_eq, get?, List.mem_cons, List.mem_append, mem_nodesBelow_iff, mem_nodesBelow_iff,
      Option.bind_eq_some_iff]
    constructor
    · rintro (h | ⟨child, rest, hchild, h, hmem⟩ | ⟨child, rest, hchild, h, hmem⟩)
      · cases h
      · obtain ⟨rfl, rfl⟩ := List.cons.inj h
        exact ⟨child, hchild, ih.mp hmem⟩
      · obtain ⟨rfl, rfl⟩ := List.cons.inj h
        exact ⟨child, hchild, ih.mp hmem⟩
    · rintro ⟨child, hchild, hget⟩
      cases side with
      | left => exact .inr (.inl ⟨child, path, hchild, rfl, ih.mpr hget⟩)
      | right => exact .inr (.inr ⟨child, path, hchild, rfl, ih.mpr hget⟩)

/-- **A draft has as many levels as its longest path has nodes.** -/
theorem height_le_iff {d : Draft} {n : ℕ} :
    d.height ≤ n ↔ ∀ p ∈ d.nodes, p.1.length < n := by
  induction n generalizing d with
  | zero =>
    rw [height_eq, nodes_eq]
    exact iff_of_false (by omega) fun h => absurd (h _ List.mem_cons_self) (Nat.not_lt_zero _)
  | succ n ih =>
    have hchild (side : Side) (child : Option Draft) :
        levels child ≤ n ↔ ∀ p ∈ nodesBelow side child, p.1.length < n + 1 := by
      cases child with
      | none => exact iff_of_true (Nat.zero_le n) (List.forall_mem_nil _)
      | some c =>
        refine ih.trans (Iff.trans ?_ List.forall_mem_map.symm)
        exact forall₂_congr fun p _ => Nat.succ_lt_succ_iff.symm
    rw [height_eq, nodes_eq, List.forall_mem_cons, List.forall_mem_append,
      ← hchild .left, ← hchild .right]
    constructor
    · intro h
      exact ⟨Nat.succ_pos n, by omega, by omega⟩
    · rintro ⟨-, hleft, hright⟩
      omega

/-! ## Where validating stops -/

/-- **The error that a node stops at**, if it does: it lies below the levels allowed, or it
is at fault. -/
def failureAt? (limit room : ℕ) (p : List Side × Draft) : Option Error :=
  if room ≤ p.1.length then some (.treeTooDeep limit)
  else match p.2.shape with
    | .error fault => some (.invalidNode (.node p.1) fault)
    | .ok _ => none

/-- A node below a child stops at the error that it stops at in the child. -/
theorem failureAt?_below (limit room : ℕ) (side : Side) (p : List Side × Draft) :
    failureAt? limit (room + 1) (side.below p)
      = (failureAt? limit room p).map (Error.within side) := by
  unfold failureAt? Side.below
  rw [List.length_cons]
  simp only [Nat.add_le_add_iff_right]
  split
  · rfl
  · cases p.2.shape with
    | error fault => rfl
    | ok s => rfl

/-- A node does not stop anything if it is on a level allowed and valid by itself. -/
theorem failureAt?_eq_none_iff {limit room : ℕ} {p : List Side × Draft} :
    failureAt? limit room p = none ↔ p.1.length < room ∧ p.2.LocallyValid := by
  rw [locallyValid_iff, failureAt?]
  split
  · next h => exact iff_of_false nofun fun hlt => Nat.not_lt_of_le h hlt.1
  · next h =>
    rw [and_iff_right (Nat.lt_of_not_le h)]
    cases p.2.shape with
    | error fault => exact iff_of_false nofun fun ⟨_, hs⟩ => nomatch hs
    | ok s => exact iff_of_true rfl ⟨s, rfl⟩

/-- A node stops with the error of its level, and on a level allowed with its fault. -/
theorem failureAt?_eq_some_iff {limit room : ℕ} {p : List Side × Draft} {e : Error} :
    failureAt? limit room p = some e
      ↔ room ≤ p.1.length ∧ e = .treeTooDeep limit
        ∨ p.1.length < room ∧ ∃ fault, p.2.HasFault fault ∧ e = .invalidNode (.node p.1) fault := by
  simp only [← shape_eq_error_iff]
  unfold failureAt?
  split
  · next h =>
    rw [and_iff_right h, or_iff_left fun hlt => Nat.not_lt_of_le h hlt.1]
    exact ⟨fun he => (Option.some.inj he).symm, fun he => congrArg some he.symm⟩
  · next h =>
    rw [or_iff_right fun hle => h hle.1, and_iff_right (Nat.lt_of_not_le h)]
    cases p.2.shape with
    | error fault =>
      constructor
      · intro he
        exact ⟨fault, rfl, (Option.some.inj he).symm⟩
      · rintro ⟨_, ⟨⟩, rfl⟩
        rfl
    | ok s => exact iff_of_false nofun fun ⟨_, hs, _⟩ => nomatch hs

/-- **Validating fails with the error of the first node in preorder that has one.** -/
theorem validateWithin_eq_error_iff {limit room : ℕ} {d : Draft} {e : Error} :
    validateWithin limit room d = .error e
      ↔ d.nodes.findSome? (failureAt? limit room) = some e := by
  induction room generalizing d e with
  | zero =>
    have hroot : failureAt? limit 0 ([], d) = some (.treeTooDeep limit) := if_pos le_rfl
    rw [validateWithin, nodes_eq, List.findSome?_cons, hroot]
    exact Except.error_eq_error_iff
  | succ room ih =>
    have hroot : failureAt? limit (room + 1) ([], d) = match d.shape with
        | .error fault => some (.invalidNode .root fault)
        | .ok _ => none := if_neg (by simp)
    rw [validateWithin, nodes_eq, List.findSome?_cons, hroot]
    cases hshape : d.shape with
    | error fault =>
      exact Except.error_eq_error_iff
    | ok s =>
      cases s with
      | leaf c =>
        have hc := shape_eq_leaf_iff.mp hshape
        rw [hc.left, hc.right]
        exact Except.ok_eq_error_iff
      | node k l r =>
        have hk := shape_eq_node_iff.mp hshape
        rw [hk.left, hk.right]
        show _ ↔ (l.nodes.map (Side.below .left) ++ r.nodes.map (Side.below .right)).findSome? _
          = some e
        rw [List.findSome?_append, Side.findSome?_map_below (failureAt?_below limit room .left),
          Side.findSome?_map_below (failureAt?_below limit room .right)]
        exact Error.bind_within_eq_error_iff (fun _ => ih) (fun _ => ih) (Tree.node k) e

/-! ## What a draft describes -/

/-- **The draft describes the tree** node by node: a leaf is the condition that a node is, and
a node joins the trees of the two children that a node joins. -/
inductive Describes : Draft → Tree → Prop where
  | leaf {d : Draft} {c : Condition} : d.IsCondition c → Describes d (.leaf c)
  | node {d l r : Draft} {k : Connective} {left right : Tree} : d.IsOperator k l r →
    Describes l left → Describes r right → Describes d (.node k left right)

/-- **Validating gives the tree that the draft describes**, where there is room for its
levels. -/
theorem validateWithin_eq_ok_iff {limit room : ℕ} {d : Draft} {t : Tree} :
    validateWithin limit room d = .ok t ↔ d.height ≤ room ∧ d.Describes t := by
  induction room generalizing d t with
  | zero =>
    rw [height_eq]
    exact iff_of_false nofun fun h => absurd h.1 (by omega)
  | succ room ih =>
    rw [validateWithin]
    constructor
    · intro h
      cases hshape : d.shape with
      | error fault =>
        rw [hshape] at h
        cases h
      | ok s =>
        rw [hshape] at h
        cases s with
        | leaf c =>
          obtain rfl := Except.ok.inj h
          have hc := shape_eq_leaf_iff.mp hshape
          rw [height_eq, hc.left, hc.right, levels_none]
          exact ⟨Nat.le_add_left 1 room, .leaf hc⟩
        | node k l r =>
          have hk := shape_eq_node_iff.mp hshape
          obtain ⟨left, hl, h⟩ := Except.bind_eq_ok_iff.mp h
          obtain ⟨right, hr, h⟩ := Except.bind_eq_ok_iff.mp h
          obtain rfl := Except.ok.inj h
          obtain ⟨hlheight, hldescribes⟩ := ih.mp (Except.mapError_eq_ok_iff.mp hl)
          obtain ⟨hrheight, hrdescribes⟩ := ih.mp (Except.mapError_eq_ok_iff.mp hr)
          rw [height_eq, hk.left, hk.right, levels_some, levels_some]
          exact ⟨by omega, .node hk hldescribes hrdescribes⟩
    · rintro ⟨hheight, hc | ⟨hk, hl, hr⟩⟩
      · rw [hc.shape_eq]
      · rw [height_eq, hk.left, hk.right, levels_some, levels_some] at hheight
        rw [hk.shape_eq]
        dsimp only
        rw [ih.mpr ⟨by omega, hl⟩, ih.mpr ⟨by omega, hr⟩]
        rfl

/-- **A node of a condition is validated to the condition that its value is read as**, if it
has no children and there is room for a level. -/
theorem validate_eq_ok_iff_of_condition {limit : ℕ} {d : Draft} {text : String} {t : Tree}
    (htype : nonBlank? d.type = some conditionType) (hvalue : d.value = some text) :
    d.validate limit = .ok t ↔ 1 ≤ limit ∧ d.left = none ∧ d.right = none
      ∧ ∃ c, Condition.ofText text = .ok c ∧ t = .leaf c := by
  refine validateWithin_eq_ok_iff.trans ⟨?_, ?_⟩
  · rintro ⟨hheight, hc | ⟨hk, -, -⟩⟩
    · obtain ⟨value, hv, hread⟩ := hc.exists_value
      rw [hvalue] at hv
      rw [height_eq, hc.left, hc.right, levels_none] at hheight
      rw [eq_trim_of_nonBlank? hv, Condition.ofText_trim_eq_ok_iff] at hread
      exact ⟨hheight, hc.left, hc.right, _, hread, rfl⟩
    · exact absurd (Option.some.inj (htype.symm.trans hk.type)) (by decide)
  · rintro ⟨hlimit, hleft, hright, c, hread, rfl⟩
    refine ⟨?_, .leaf ⟨htype, hleft, hright, trim text, ?_, ?_⟩⟩
    · rwa [height_eq, hleft, hright, levels_none]
    · rw [hvalue, nonBlank?_of_ofText? (Condition.ofText_eq_ok_iff.mp hread)]
    · exact Condition.ofText_trim_eq_ok_iff.mpr hread

/-! ## Validating -/

/-- **Validating a draft checks its nodes in preorder.** -/
structure ChecksInPreorder (limit : ℕ) (d : Draft) : Prop where
  /-- It succeeds exactly if every node is valid by itself and the draft has no more levels than
  are allowed. -/
  succeeds_iff : (∃ t, d.validate limit = .ok t)
    ↔ (∀ p ∈ d.nodes, p.2.LocallyValid) ∧ d.height ≤ limit
  /-- What it gives is the tree that the draft describes node by node. -/
  gives_iff : ∀ t, d.validate limit = .ok t ↔ d.height ≤ limit ∧ d.Describes t
  /-- It fails with the error of the first node in preorder that lies below the levels allowed
  or is at fault. On a level allowed that is the fault of the node, at the place that the path
  from the root leads to. -/
  fails_iff : ∀ e, d.validate limit = .error e
    ↔ ∃ before path node after, d.nodes = before ++ (path, node) :: after
      ∧ (∀ p ∈ before, p.1.length < limit ∧ p.2.LocallyValid)
      ∧ d.get? path = some node
      ∧ (limit ≤ path.length ∧ e = .treeTooDeep limit
        ∨ path.length < limit ∧ ∃ fault, node.HasFault fault
          ∧ e = .invalidNode (.node path) fault)
  /-- In words the path is the root with one step for each side. -/
  path_text : ∀ path : List Side, (Place.node path).text
    = "root" ++ String.join (path.map fun side => "." ++ side.name)

/-- **Validating a draft checks its nodes in preorder**, whatever the draft and the limit. -/
theorem validate_checksInPreorder (limit : ℕ) (d : Draft) : ChecksInPreorder limit d where
  succeeds_iff := by
    have hsuccess : (∃ t, d.validate limit = .ok t)
        ↔ d.nodes.findSome? (failureAt? limit limit) = none := by
      cases h : d.validate limit with
      | error e =>
        rw [validateWithin_eq_error_iff.mp h]
        exact iff_of_false (fun ⟨_, ht⟩ => nomatch ht) nofun
      | ok t =>
        refine iff_of_true ⟨t, rfl⟩ (Option.eq_none_iff_forall_ne_some.mpr fun e he => ?_)
        cases h.symm.trans (validateWithin_eq_error_iff.mpr he)
    rw [hsuccess, List.findSome?_eq_none_iff, height_le_iff, ← forall₂_and]
    exact forall₂_congr fun p _ => failureAt?_eq_none_iff.trans and_comm
  gives_iff t := validateWithin_eq_ok_iff
  fails_iff e := by
    rw [validate, validateWithin_eq_error_iff, List.findSome?_eq_some_iff]
    refine exists_congr fun before => ?_
    constructor
    · rintro ⟨⟨path, node⟩, after, hnodes, he, hbefore⟩
      have hmem : (path, node) ∈ d.nodes := hnodes ▸ List.mem_append_right _ List.mem_cons_self
      exact ⟨path, node, after, hnodes, fun p hp => failureAt?_eq_none_iff.mp (hbefore p hp),
        mem_nodes_iff.mp hmem, failureAt?_eq_some_iff.mp he⟩
    · rintro ⟨path, node, after, hnodes, hbefore, -, he⟩
      exact ⟨(path, node), after, hnodes, failureAt?_eq_some_iff.mpr he,
        fun p hp => failureAt?_eq_none_iff.mpr (hbefore p hp)⟩
  path_text := Place.text_node

-- The left child lies below the levels allowed and comes before the right one, which is at
-- fault. With a level more the left child is valid.
example : (operator "AND" (operator "OR" (condition "a > 1") (condition "b > 2"))
      (condition "c ~ 3")).validate 2 = .error (.treeTooDeep 2)
    ∧ (operator "AND" (operator "OR" (condition "a > 1") (condition "b > 2"))
      (condition "c ~ 3")).validate 3
        = .error (.invalidNode (.node [.right]) (.malformedCondition "c ~ 3")) := by
  decide +kernel

end RecordRules.Draft
