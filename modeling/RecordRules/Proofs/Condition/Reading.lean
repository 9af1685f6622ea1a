import RecordRules.Proofs.Condition.Spelling
import RecordRules.Proofs.Outcome

/-!
# Reading a condition from its own text

A condition whose parts are well spelled is what its own text spells
(`Condition.ofText?_text`). The name ends at the first space, for that is no word
character; the comparison is followed by a space, so that of two readings the
longer is the right one; and what is left is the literal.

What was read from any text has well spelled parts. Reading it again from its own
text therefore changes nothing, and the conditions that pass a check are those
that can be read at all (`Condition.isSpelled_iff`).
-/

namespace RecordRules

open Text

/-- Of the readings of a symbol with a space after it the whole symbol comes
first. -/
theorem Comparison.exists_readings (op : Comparison) (cs : List Char) :
    ∃ others, readings (op.symbol.toList ++ ' ' :: cs) = (op, ' ' :: cs) :: others := by
  cases op <;> exact ⟨_, rfl⟩

namespace Condition

/-! ## The ends of a condition -/

/-- The quote that closes a span is its last character. -/
theorem getLast?_of_endsAtFirst {q : Char} {cs : List Char}
    (h : endsAtFirst q cs = true) : cs.getLast? = some q := by
  induction cs with
  | nil => exact absurd h Bool.false_ne_true
  | cons c cs ih =>
    rw [endsAtFirst] at h
    split at h
    · next hclose =>
      rw [List.isEmpty_iff.mp h, List.getLast?_singleton, beq_iff_eq.mp hclose]
    · rw [List.getLast?_cons, ih h]
      rfl

/-- **A literal has no blank at its ends**, and it is not empty. -/
theorem trimmed_of_isLiteral {cs : List Char} (h : isLiteral cs = true) :
    cs ≠ [] ∧ Trimmed cs := by
  cases cs with
  | nil => exact absurd h Bool.false_ne_true
  | cons c cs =>
    refine ⟨List.cons_ne_nil _ _, ?_⟩
    rw [isLiteral] at h
    split at h
    · next hquote =>
      have hblank := Token.isBlank_eq_false_of_isQuote hquote
      have hlast : (c :: cs).getLast? = some c := by
        rw [List.getLast?_cons, getLast?_of_endsAtFirst h]
        rfl
      exact ⟨fun d hd => Option.some.inj hd ▸ hblank,
        fun d hd => Option.some.inj (hlast.symm.trans hd) ▸ hblank⟩
    · have hblank : ∀ d ∈ c :: cs, isBlank d = false :=
        fun d hd => (isBare_iff.mp (List.all_eq_true.mp h d hd)).1
      exact ⟨fun d hd => hblank d (List.mem_of_mem_head? hd),
        fun d hd => hblank d (List.mem_of_mem_getLast? hd)⟩

namespace WellSpelled

variable {c : Condition}

/-- There is no blank in a name. -/
theorem isBlank_name (h : c.WellSpelled) : ∀ ch ∈ c.name.toList, isBlank ch = false :=
  fun ch hch => (isBare_iff.mp (isBare_of_isWord (h.isWord_name ch hch))).1

/-- A name has no blank at its ends. -/
theorem trimmed_name (h : c.WellSpelled) : Trimmed c.name.toList :=
  ⟨fun d hd => h.isBlank_name d (List.mem_of_mem_head? hd),
    fun d hd => h.isBlank_name d (List.mem_of_mem_getLast? hd)⟩

/-- The text of a condition has no blank at its ends, and it is not empty. -/
theorem trimmed_text (h : c.WellSpelled) : c.text.toList ≠ [] ∧ Trimmed c.text.toList := by
  obtain ⟨hne, hliteral⟩ := trimmed_of_isLiteral h.isLiteral
  exact Condition.trimmed_text h.trimmed_name h.name_ne_nil hliteral hne

/-- **What follows a name is read** as the comparison and the literal. -/
theorem ofName?_eq (h : c.WellSpelled) :
    ofName? c.name.toList (' ' :: (c.comparison.symbol.toList ++ ' ' :: c.literal.toList))
      = some c := by
  have hspace (cs : List Char) : dropBlanks (' ' :: cs) = dropBlanks cs := by
    rw [dropBlanks_cons, if_pos (by decide)]
  -- a blank comes neither before a symbol nor before a literal
  have hsymbol : dropBlanks (c.comparison.symbol.toList ++ ' ' :: c.literal.toList)
      = c.comparison.symbol.toList ++ ' ' :: c.literal.toList := by
    cases c.comparison <;> rfl
  have hliteral : dropBlanks c.literal.toList = c.literal.toList :=
    dropBlanks_eq_self (trimmed_of_isLiteral h.isLiteral).2.head
  obtain ⟨others, hreadings⟩ := c.comparison.exists_readings c.literal.toList
  rw [ofName?, hspace, hsymbol, hreadings, List.findSome?_cons]
  dsimp only
  rw [hspace, hliteral, if_pos h.isLiteral, String.ofList_toList, String.ofList_toList]

/-- **A well spelled condition is what its own text spells.** -/
theorem ofText?_text (h : c.WellSpelled) : ofText? c.text = some c := by
  have hspace : isWord ' ' = false := by decide +kernel
  have hname : c.text.toList.takeWhile isWord = c.name.toList := by
    rw [toList_text, List.takeWhile_append_of_pos h.isWord_name, List.takeWhile_cons, hspace,
      if_neg Bool.false_ne_true, List.append_nil]
  have hrest : c.text.toList.dropWhile isWord
      = ' ' :: (c.comparison.symbol.toList ++ ' ' :: c.literal.toList) := by
    rw [toList_text, List.dropWhile_append_of_pos h.isWord_name, List.dropWhile_cons, hspace,
      if_neg Bool.false_ne_true]
  rw [ofText?, strip_eq_self h.trimmed_text.2, hname, hrest]
  split
  · next hnil => exact absurd hnil h.name_ne_nil
  · exact h.ofName?_eq

end WellSpelled

/-- **The conditions that are what their own text spells** are those with well
spelled parts. -/
theorem isSpelled_iff {c : Condition} : c.isSpelled = true ↔ c.WellSpelled :=
  ⟨wellSpelled_of_isSpelled, fun h => beq_iff_eq.mpr h.ofText?_text⟩

/-- What is read from a text is what its own text spells. -/
theorem isSpelled_of_ofText? {text : String} {c : Condition} (h : ofText? text = some c) :
    c.isSpelled = true :=
  isSpelled_iff.mpr (wellSpelled_of_ofText? h)

/-- Reading succeeds where a condition is spelled. -/
theorem read_eq_ok_iff {text : String} {c : Condition} :
    read text = .ok c ↔ ofText? text = some c := by
  unfold read
  split
  · next heq =>
    rw [heq]
    exact ⟨fun h => congrArg some (Except.ok.inj h), fun h => congrArg Except.ok (Option.some.inj h)⟩
  · next heq =>
    rw [heq]
    exact ⟨nofun, nofun⟩

/-- Reading fails where none is spelled, and names the text. -/
theorem read_eq_error_iff {text : String} {fault : NodeFault} :
    read text = .error fault ↔ ofText? text = none ∧ fault = .malformedCondition text := by
  unfold read
  split
  · next heq =>
    rw [heq]
    exact iff_of_false nofun fun h => nomatch h.1
  · next heq =>
    rw [and_iff_right heq]
    exact ⟨fun h => (Except.error.inj h).symm, fun h => congrArg Except.error h.symm⟩

/-- A text that is a condition and nothing else is read so. -/
theorem ofText_eq_ok_iff {text : String} {c : Condition} :
    ofText text = .ok c ↔ ofText? text = some c := by
  rw [ofText, Except.mapError_eq_ok_iff, read_eq_ok_iff]

/-- A text that is no condition fails so, and is named. -/
theorem ofText_eq_error_iff {text : String} {e : Error} :
    ofText text = .error e
      ↔ ofText? text = none ∧ e = .invalidNode .condition (.malformedCondition text) := by
  rw [ofText, Except.mapError_eq_error_iff]
  simp only [read_eq_error_iff]
  constructor
  · rintro ⟨fault, ⟨hnone, rfl⟩, rfl⟩
    exact ⟨hnone, rfl⟩
  · rintro ⟨hnone, rfl⟩
    exact ⟨_, ⟨hnone, rfl⟩, rfl⟩

/-- Blanks at the ends of a text do not show in the condition that is read. -/
theorem ofText_trim_eq_ok_iff {text : String} {c : Condition} :
    ofText (trim text) = .ok c ↔ ofText text = .ok c := by
  rw [ofText_eq_ok_iff, ofText_eq_ok_iff, ofText?, ofText?, toList_trim, strip_strip]

end Condition

end RecordRules
