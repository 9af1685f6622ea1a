import RecordRules.Proofs.Text.Blanks

/-!
# Runs of blanks collapsed

`Text.collapse` puts a single space in the place of every run of blanks. What it
leaves is single-spaced, and it leaves the single-spaced texts alone and no
others (`Text.collapse_eq_self_iff`), so it is the way to make a text
single-spaced.

A run may go on where one text is appended to another. It cannot where the first
of them ends without a blank, and then the two are collapsed on their own
(`Text.collapseFrom_append_of_trimmed`).
-/

namespace RecordRules.Text

/-- The characters with a space in the place of every run of blanks; there is
none for the blanks that belong to a run before the characters. -/
def collapseFrom : (inRun : Bool) → List Char → List Char
  | _, [] => []
  | inRun, c :: cs =>
    if isBlank c then
      if inRun then collapseFrom true cs else ' ' :: collapseFrom true cs
    else c :: collapseFrom false cs

/-- **The characters with a space in the place of every run of blanks.** -/
def collapse (cs : List Char) : List Char := collapseFrom false cs

/-- A blank goes on with the run, or it begins one. -/
theorem collapseFrom_cons_of_isBlank {c : Char} (h : isBlank c = true) (inRun : Bool)
    (cs : List Char) :
    collapseFrom inRun (c :: cs)
      = if inRun then collapseFrom true cs else ' ' :: collapseFrom true cs := by
  rw [collapseFrom, if_pos h]

/-- Any other character stays, and ends the run. -/
theorem collapseFrom_cons_of_not_isBlank {c : Char} (h : isBlank c = false)
    (inRun : Bool) (cs : List Char) :
    collapseFrom inRun (c :: cs) = c :: collapse cs := by
  rw [collapseFrom, h, if_neg Bool.false_ne_true, collapse]

/-- There is nothing left only of nothing. -/
theorem isEmpty_collapse (cs : List Char) : (collapse cs).isEmpty = cs.isEmpty := by
  cases cs with
  | nil => rfl
  | cons c cs =>
    rw [collapse, collapseFrom]
    split <;> rfl

/-- A space begins a run. -/
theorem collapse_space (cs : List Char) :
    collapse (' ' :: cs) = ' ' :: collapseFrom true cs :=
  collapseFrom_cons_of_isBlank (by decide) false cs

/-- What is collapsed is single-spaced, and does not begin with a space inside of a
run. -/
theorem singleSpaced_collapseFrom (inRun : Bool) (cs : List Char) :
    SingleSpaced (collapseFrom inRun cs)
      ∧ (inRun = true → (collapseFrom inRun cs).head? ≠ some ' ') := by
  fun_induction collapseFrom inRun cs with
  | case1 => exact ⟨⟨nofun, .nil⟩, nofun⟩
  | case2 c cs hblank ih => exact ih
  | case3 c cs inRun hblank hrun ih =>
    exact ⟨singleSpaced_cons.mpr ⟨fun _ => rfl, fun _ => ih.2 rfl, ih.1⟩,
      fun h => absurd h hrun⟩
  | case4 inRun c cs hblank ih =>
    have hspace : c ≠ ' ' := by
      rintro rfl
      exact hblank (by decide)
    exact ⟨singleSpaced_cons.mpr ⟨fun h => absurd h hblank, fun h => absurd h hspace, ih.1⟩,
      fun _ h => hspace (Option.some.inj h)⟩

/-- A text that is single-spaced is left alone, unless its first space goes on
with a run. -/
theorem collapseFrom_eq_self {cs : List Char} (h : SingleSpaced cs) {inRun : Bool}
    (hhead : inRun = true → cs.head? ≠ some ' ') : collapseFrom inRun cs = cs := by
  induction cs generalizing inRun with
  | nil => rfl
  | cons c cs ih =>
    obtain ⟨hblank, hnext, hcs⟩ := singleSpaced_cons.mp h
    cases hc : isBlank c with
    | false =>
      have hrest : collapse cs = cs := ih hcs nofun
      rw [collapseFrom_cons_of_not_isBlank hc, hrest]
    | true =>
      obtain rfl := hblank hc
      have hrun : ¬ inRun = true := fun hrun => hhead hrun rfl
      rw [collapseFrom_cons_of_isBlank hc, if_neg hrun, ih hcs fun _ => hnext rfl]

/-- **What is collapsed is single-spaced.** -/
theorem singleSpaced_collapse (cs : List Char) : SingleSpaced (collapse cs) :=
  (singleSpaced_collapseFrom false cs).1

/-- **The texts that are left alone** are the single-spaced ones. -/
theorem collapse_eq_self_iff {cs : List Char} : collapse cs = cs ↔ SingleSpaced cs := by
  constructor
  · intro h
    rw [← h]
    exact singleSpaced_collapse cs
  · intro h
    exact collapseFrom_eq_self h nofun

/-- A text without blanks is left alone. -/
theorem collapse_of_no_blank {cs : List Char} (h : ∀ c ∈ cs, isBlank c = false) :
    collapse cs = cs := by
  induction cs with
  | nil => rfl
  | cons c cs ih =>
    obtain ⟨hc, hcs⟩ := List.forall_mem_cons.mp h
    rw [collapse, collapseFrom_cons_of_not_isBlank hc, ih hcs]

/-- Where no blank comes first it does not matter whether a run came before. -/
theorem collapseFrom_of_head {cs : List Char} (h : ∀ c ∈ cs.head?, isBlank c = false)
    (inRun : Bool) : collapseFrom inRun cs = collapse cs := by
  cases cs with
  | nil => rfl
  | cons c cs =>
    have hc : isBlank c = false := h c rfl
    rw [collapse, collapseFrom_cons_of_not_isBlank hc, collapseFrom_cons_of_not_isBlank hc]

/-- Whether a run goes on after the characters. -/
def inRunAfter (inRun : Bool) (cs : List Char) : Bool := cs.foldl (fun _ c => isBlank c) inRun

/-- **Of two texts** the second is collapsed from what the first leaves. -/
theorem collapseFrom_append (inRun : Bool) (cs rest : List Char) :
    collapseFrom inRun (cs ++ rest)
      = collapseFrom inRun cs ++ collapseFrom (inRunAfter inRun cs) rest := by
  induction cs generalizing inRun with
  | nil => rfl
  | cons c cs ih =>
    have hafter : inRunAfter inRun (c :: cs) = inRunAfter (isBlank c) cs := rfl
    rw [List.cons_append, hafter]
    cases hc : isBlank c with
    | false =>
      rw [collapseFrom_cons_of_not_isBlank hc, collapseFrom_cons_of_not_isBlank hc, collapse,
        ih, List.cons_append, collapse]
    | true =>
      rw [collapseFrom_cons_of_isBlank hc, collapseFrom_cons_of_isBlank hc, ih]
      cases inRun with
      | false => rfl
      | true => rfl

/-- A text without blanks at its ends keeps none there. -/
theorem Trimmed.collapse {cs : List Char} (h : Trimmed cs) : Trimmed (collapse cs) := by
  constructor
  · cases cs with
    | nil => nofun
    | cons c cs =>
      have hc : isBlank c = false := h.head c rfl
      rw [Text.collapse, collapseFrom_cons_of_not_isBlank hc]
      exact fun d hd => Option.some.inj hd ▸ hc
  · rcases List.eq_nil_or_concat cs with rfl | ⟨front, c, rfl⟩
    · nofun
    · rw [List.concat_eq_append] at h ⊢
      have hc : isBlank c = false := h.last c List.getLast?_concat
      have hlast : (Text.collapse (front ++ [c])).getLast? = some c := by
        rw [Text.collapse, collapseFrom_append, collapseFrom_cons_of_not_isBlank hc]
        exact List.getLast?_concat
      exact fun d hd => Option.some.inj (hlast.symm.trans hd) ▸ hc

/-- **Trimmed texts are collapsed on their own**, whatever surrounds them. -/
theorem collapseFrom_append_of_trimmed {cs : List Char} (h : Trimmed cs)
    (hne : cs ≠ []) (inRun : Bool) (rest : List Char) :
    collapseFrom inRun (cs ++ rest) = collapse cs ++ collapse rest := by
  have hafter : inRunAfter inRun cs = false := by
    obtain ⟨c, hc⟩ := Option.ne_none_iff_exists'.mp (mt List.getLast?_eq_none_iff.mp hne)
    obtain ⟨front, rfl⟩ := List.getLast?_eq_some_iff.mp hc
    rw [inRunAfter, List.foldl_append]
    exact h.last c hc
  rw [collapseFrom_append, hafter, collapseFrom_of_head h.head, collapse, collapse]

/-- A trimmed text is collapsed on its own, whatever follows. -/
theorem collapse_append_of_trimmed {cs : List Char} (h : Trimmed cs) (rest : List Char) :
    collapse (cs ++ rest) = collapse cs ++ collapse rest := by
  by_cases hne : cs = []
  · rw [hne]
    rfl
  · exact collapseFrom_append_of_trimmed h hne false rest

end RecordRules.Text
