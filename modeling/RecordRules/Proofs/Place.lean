import RecordRules.Error
import RecordRules.Proofs.Outcome

/-!
# Paths from the root

A path is a list of sides, the first of them taken at the root. Things that are found at
the nodes of a tree are listed with their paths; what is found below a child has a path that
is longer by one step in front (`Side.below`), and where it is an error, the same step is put in
front of its place (`Error.within`). In words a path is `root`, and then a dot and the name of a
side for each step (`Place.text_node`).
-/

namespace RecordRules

/-- What is found below a child, with its path from the parent. -/
def Side.below {α : Type} (side : Side) (p : List Side × α) : List Side × α :=
  (side :: p.1, p.2)

/-- What is found below the child on a side has a path that begins there. -/
theorem Side.mem_map_below {α : Type} {side : Side} {l : List (List Side × α)}
    {path : List Side} {a : α} :
    (path, a) ∈ l.map side.below ↔ ∃ rest, path = side :: rest ∧ (rest, a) ∈ l := by
  rw [List.mem_map]
  constructor
  · rintro ⟨⟨rest, b⟩, hmem, h⟩
    obtain ⟨rfl, rfl⟩ := Prod.mk.inj h
    exact ⟨rest, rfl, hmem⟩
  · rintro ⟨rest, rfl, hmem⟩
    exact ⟨(rest, a), hmem, rfl⟩

/-- **The first error below a child** is the first error of the child, seen from the
parent. -/
theorem Side.findSome?_map_below {α : Type} {side : Side} {l : List (List Side × α)}
    {f g : List Side × α → Option Error}
    (h : ∀ p, f (side.below p) = (g p).map (Error.within side)) :
    (l.map side.below).findSome? f = (l.findSome? g).map (Error.within side) := by
  induction l with
  | nil => rfl
  | cons p l ih =>
    rw [List.map_cons, List.findSome?_cons, List.findSome?_cons, h, ih]
    cases g p with
    | none => rfl
    | some e => rfl

/-- **A path in words**: a dot and the name of a side for each step from the root. -/
theorem Place.text_node (path : List Side) :
    (node path).text = "root" ++ String.join (path.map fun side => "." ++ side.name) := by
  have hfoldl (start : String) : path.foldl (fun t side => t ++ "." ++ side.name) start
      = start ++ String.join (path.map fun side => "." ++ side.name) := by
    induction path generalizing start with
    | nil => rw [List.foldl_nil, List.map_nil, String.join_nil, String.append_empty]
    | cons side path ih =>
      rw [List.foldl_cons, ih, List.map_cons, String.join_cons, String.append_assoc,
        String.append_assoc, String.append_assoc]
  exact hfoldl "root"

/-- **One step after another finds the first error.** Where the outcomes of two steps are told
by the first errors among what is found below two children, both steps together are told by the
first error among all of it. -/
theorem Error.bind_within_eq_error_iff {α β : Type} {x y : Except Error α}
    {first second : Option Error} (hx : ∀ e, x = .error e ↔ first = some e)
    (hy : ∀ e, y = .error e ↔ second = some e) (f : α → α → β) (e : Error) :
    (do
      let a ← x.mapError (within .left)
      let b ← y.mapError (within .right)
      return f a b) = .error e
      ↔ (first.map (within .left)).or (second.map (within .right)) = some e := by
  cases x with
  | error e' =>
    rw [(hx e').mp rfl]
    exact Except.error_eq_error_iff
  | ok a =>
    have hfirst : first = none :=
      Option.eq_none_iff_forall_ne_some.mpr fun e' h => nomatch (hx e').mpr h
    rw [hfirst]
    cases y with
    | error e' =>
      rw [(hy e').mp rfl]
      exact Except.error_eq_error_iff
    | ok b =>
      have hsecond : second = none :=
        Option.eq_none_iff_forall_ne_some.mpr fun e' h => nomatch (hy e').mpr h
      rw [hsecond]
      exact Except.ok_eq_error_iff

end RecordRules
