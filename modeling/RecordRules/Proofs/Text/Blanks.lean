import Mathlib.Data.List.DropRight
import RecordRules.Text.Blank

/-!
# Blanks at the ends of a text and inside of it

A text without a blank at either end is **trimmed**: stripping leaves it alone
(`Text.strip_eq_self`), and what stripping leaves is trimmed, so that stripping
twice is stripping once.

A text is **single-spaced** if the only blanks in it are spaces and no two of
them are neighbours. Blanks at the ends do not matter to that.
-/

namespace RecordRules.Text

/-- A character that belongs to a class is none that does not. -/
theorem ne_of_class {p : Char → Bool} {c d : Char} (hc : p c = true) (hd : p d = false) :
    c ≠ d := by
  rintro rfl
  exact Bool.false_ne_true (hd.symm.trans hc)

/-! ## Trimmed texts -/

/-- **No blank stands at either end.** -/
structure Trimmed (cs : List Char) : Prop where
  head : ∀ c ∈ cs.head?, isBlank c = false
  last : ∀ c ∈ cs.getLast?, isBlank c = false

/-- A character that is no blank is trimmed. -/
theorem trimmed_singleton {c : Char} (h : isBlank c = false) : Trimmed [c] :=
  ⟨fun _ hd => Option.some.inj hd ▸ h, fun _ hd => Option.some.inj hd ▸ h⟩

/-- Stripping drops the blanks in front and then those at the end. -/
theorem strip_eq_rdropWhile (cs : List Char) :
    strip cs = (cs.dropWhile isBlank).rdropWhile isBlank := rfl

/-- What is left after dropping the leading blanks begins with none. -/
theorem isBlank_of_head_dropWhile {cs : List Char} {c : Char}
    (h : c ∈ (cs.dropWhile isBlank).head?) : isBlank c = false := by
  have hhead := List.head?_dropWhile_not isBlank cs
  rw [Option.mem_def.mp h] at hhead
  exact hhead

/-- **Stripping leaves a trimmed text.** -/
theorem trimmed_strip (cs : List Char) : Trimmed (strip cs) := by
  rw [strip_eq_rdropWhile]
  constructor
  · intro c hc
    obtain ⟨blanks, hblanks⟩ := List.rdropWhile_prefix isBlank (cs.dropWhile isBlank)
    have hhead : c ∈ (cs.dropWhile isBlank).head? := by
      rw [← hblanks, List.head?_append, Option.mem_def.mp hc]
      rfl
    exact isBlank_of_head_dropWhile hhead
  · intro c hc
    rw [List.rdropWhile, List.getLast?_reverse] at hc
    exact isBlank_of_head_dropWhile hc

/-- Where no blank comes first there is none to drop. -/
theorem dropBlanks_eq_self {cs : List Char} (h : ∀ c ∈ cs.head?, isBlank c = false) :
    dropBlanks cs = cs := by
  cases cs with
  | nil => rfl
  | cons c cs => rw [dropBlanks_cons, h c rfl, if_neg Bool.false_ne_true]

/-- Blanks before a text that begins with none are the ones that are dropped. -/
theorem dropBlanks_append {before cs : List Char} (hbefore : ∀ b ∈ before, isBlank b = true)
    (h : ∀ c ∈ cs.head?, isBlank c = false) : dropBlanks (before ++ cs) = cs := by
  rw [dropBlanks, List.dropWhile_append_of_pos hbefore]
  exact dropBlanks_eq_self h

/-- Blanks are all that is dropped. -/
theorem exists_append_dropBlanks (cs : List Char) :
    ∃ before, (∀ b ∈ before, isBlank b = true) ∧ cs = before ++ dropBlanks cs :=
  ⟨cs.takeWhile isBlank, fun _ hb => List.mem_takeWhile_imp hb,
    List.takeWhile_append_dropWhile.symm⟩

/-- Blanks at the ends are all that is stripped. -/
theorem exists_append_strip (cs : List Char) :
    ∃ before after, (∀ b ∈ before, isBlank b = true) ∧ (∀ b ∈ after, isBlank b = true)
      ∧ cs = before ++ (strip cs ++ after) := by
  obtain ⟨before, hbefore, hcs⟩ := exists_append_dropBlanks cs
  obtain ⟨behind, hbehind, hreverse⟩ := exists_append_dropBlanks (dropBlanks cs).reverse
  refine ⟨before, behind.reverse, hbefore, fun b hb => hbehind b (List.mem_reverse.mp hb), ?_⟩
  have hfront : dropBlanks cs = strip cs ++ behind.reverse := by
    rw [← List.reverse_reverse (dropBlanks cs), hreverse, List.reverse_append, strip]
  exact hfront ▸ hcs

/-- **Stripping leaves a trimmed text alone.** -/
theorem strip_eq_self {cs : List Char} (h : Trimmed cs) : strip cs = cs := by
  have hfront : cs.dropWhile isBlank = cs := dropBlanks_eq_self h.head
  rw [strip_eq_rdropWhile, hfront, List.rdropWhile_eq_self_iff]
  intro hne
  rw [h.last _ (List.getLast?_eq_some_getLast hne)]
  exact Bool.false_ne_true

/-- The first character that is no blank stays the first. -/
theorem head?_strip (cs : List Char) : (strip cs).head? = (dropBlanks cs).head? := by
  have hstrip : strip cs = (dropBlanks cs).rdropWhile isBlank := rfl
  rw [hstrip]
  cases hfront : dropBlanks cs with
  | nil => rfl
  | cons c rest =>
    have hhead : (cs.dropWhile isBlank).head? = some c := congrArg List.head? hfront
    have hblank := isBlank_of_head_dropWhile hhead
    have hne : (c :: rest).rdropWhile isBlank ≠ [] := by
      rw [ne_eq, List.rdropWhile_eq_nil_iff]
      exact fun h => Bool.false_ne_true (hblank.symm.trans (h c List.mem_cons_self))
    obtain ⟨blanks, hblanks⟩ := List.rdropWhile_prefix isBlank (c :: rest)
    have hfirst : ((c :: rest).rdropWhile isBlank ++ blanks).head?
        = ((c :: rest).rdropWhile isBlank).head? := List.head?_append_of_ne_nil _ hne
    rw [← hfirst, hblanks]

@[simp] theorem strip_strip (cs : List Char) : strip (strip cs) = strip cs :=
  strip_eq_self (trimmed_strip cs)

@[simp] theorem trim_trim (text : String) : trim (trim text) = trim text := by
  rw [trim, toList_trim, strip_strip, trim]

/-- There are no blanks to drop in front of a trimmed text. -/
theorem Trimmed.eq_nil_of_leading {before cs : List Char} (h : Trimmed (before ++ cs))
    (hbefore : ∀ b ∈ before, isBlank b = true) : before = [] := by
  cases before with
  | nil => rfl
  | cons b before =>
    exact absurd (hbefore b List.mem_cons_self) (Bool.eq_false_iff.mp (h.head b rfl))

/-- There are no blanks to drop at the end of a trimmed text. -/
theorem Trimmed.eq_nil_of_trailing {cs after : List Char} (h : Trimmed (cs ++ after))
    (hafter : ∀ b ∈ after, isBlank b = true) : after = [] := by
  rcases List.eq_nil_or_concat after with rfl | ⟨init, b, rfl⟩
  · rfl
  · exact absurd (hafter b (by simp)) (Bool.eq_false_iff.mp (h.last b (by simp)))

/-- **A text that begins and ends with trimmed texts** is trimmed. -/
theorem Trimmed.of_prefix_of_suffix {cs front back : List Char}
    (hfront : Trimmed front) (hne : front ≠ []) (hbegins : front <+: cs)
    (hback : Trimmed back) (hne' : back ≠ []) (hsuffix : back <:+ cs) : Trimmed cs := by
  constructor
  · obtain ⟨tail, rfl⟩ := hbegins
    intro c hc
    rw [List.head?_append_of_ne_nil _ hne] at hc
    exact hfront.head c hc
  · obtain ⟨init, rfl⟩ := hsuffix
    intro c hc
    rw [List.getLast?_append_of_ne_nil _ hne'] at hc
    exact hback.last c hc

/-! ## Single-spaced texts -/

/-- **The only blanks are spaces, and no two of them are neighbours.** -/
def SingleSpaced (cs : List Char) : Prop :=
  (∀ c ∈ cs, isBlank c = true → c = ' ')
    ∧ cs.IsChain fun a b => ¬ (a = ' ' ∧ b = ' ')

instance (cs : List Char) : Decidable (SingleSpaced cs) :=
  have := List.decidableBAll (fun c => isBlank c = true → c = ' ') cs
  inferInstanceAs (Decidable (_ ∧ _))

/-- Single-spaced texts, one character at a time. -/
theorem singleSpaced_cons {c : Char} {cs : List Char} :
    SingleSpaced (c :: cs)
      ↔ (isBlank c = true → c = ' ') ∧ (c = ' ' → cs.head? ≠ some ' ')
        ∧ SingleSpaced cs := by
  have hchain : (c :: cs).IsChain (fun a b => ¬ (a = ' ' ∧ b = ' '))
      ↔ (c = ' ' → cs.head? ≠ some ' ') ∧ cs.IsChain fun a b => ¬ (a = ' ' ∧ b = ' ') := by
    cases cs with
    | nil => simp
    | cons d cs => simp
  rw [SingleSpaced, List.forall_mem_cons, hchain, SingleSpaced]
  tauto

end RecordRules.Text
