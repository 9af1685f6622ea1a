import RecordRules.Proofs.Token.Bare
import RecordRules.Proofs.Token.Layout

/-!
# Texts that close their quotes

Where one text follows another, the tokens of the first come before those of the second, if
two things are seen to. The second text has to begin where a word ends, or else it goes on with
the last word of the first. And the first text must not leave a quote open, for that would take
in what comes after it. Whether it does is told by its last token alone (`Token.Closed`): all
tokens before it stand on their own.

Nothing more is needed (`Token.scan_append_of_closed`). In particular the first text may have
blanks at its ends, which would not be dropped there if a quote were open.
-/

namespace RecordRules

open Text

namespace Token

/-- **No quote is left open** after the tokens: if the last of them is a word, it stands on its
own. -/
def Closed (ts : List Token) : Prop :=
  ∀ w, .word w ∈ ts.getLast? → IsWhole w.toList

/-- What is left open after some of the tokens is left open after all. -/
theorem Closed.tail {t : Token} {ts : List Token} (h : Closed (t :: ts)) : Closed ts :=
  fun w hw => h w (List.mem_getLast?_cons hw)

/-- A word that ends with the first of two texts ends before the second, too. -/
theorem EndsWord.append {cs rest : List Char} (h : EndsWord cs) (hrest : EndsWord rest) :
    EndsWord (cs ++ rest) := by
  cases cs with
  | nil => exact hrest
  | cons c cs => exact h

/-- A word ends before blanks. -/
theorem endsWord_of_isBlank {blanks : List Char} (h : ∀ b ∈ blanks, isBlank b = true) :
    EndsWord blanks :=
  fun b hb => .inl (h b (List.mem_of_mem_head? hb))

/-- Where a word ends, it does so after blanks have been collapsed. -/
theorem EndsWord.collapse {cs : List Char} (h : EndsWord cs) : EndsWord (collapse cs) := by
  cases cs with
  | nil => exact h
  | cons c cs =>
    cases hc : isBlank c with
    | true =>
      rw [Text.collapse, collapseFrom_cons_of_isBlank hc, if_neg Bool.false_ne_true]
      exact endsWord_space _
    | false =>
      rw [Text.collapse, collapseFrom_cons_of_not_isBlank hc]
      exact h

/-- **A layout without an open quote is cut on its own**, if a word ends before what
follows. -/
theorem Layout.scan_append {ts : List Token} {cs : List Char} (h : Layout ts cs)
    (hclosed : Closed ts) {rest : List Char} (hrest : EndsWord rest) :
    scan none [] (cs ++ rest) = ts ++ scan none [] rest := by
  induction h with
  | nil => rfl
  | blank hblank _ ih => rw [List.cons_append, scan_cons_of_isBlank hblank, flush_nil, ih hclosed]
  | opening _ ih => rw [List.cons_append, scan_opening, ih hclosed.tail, List.cons_append]
  | closing _ ih => rw [List.cons_append, scan_closing, ih hclosed.tail, List.cons_append]
  | word hwhole hends _ ih =>
    rw [List.append_assoc, hwhole.scan_append (hends.append hrest), ih hclosed.tail,
      List.cons_append]
  | @last w hne hgathers =>
    have hwhole : IsWhole w := by
      have hw := hclosed (String.ofList w) rfl
      rwa [String.toList_ofList] at hw
    rw [hwhole.scan_append hrest, List.singleton_append]

/-- **A text without an open quote is cut into its tokens**, blanks at its ends or not, if a word
ends before what follows. -/
theorem scan_append_of_closed {text : String} (h : Closed (tokenize text)) {rest : List Char}
    (hrest : EndsWord rest) :
    scan none [] (text.toList ++ rest) = tokenize text ++ scan none [] rest := by
  obtain ⟨before, after, hbefore, hafter, htext⟩ := exists_append_strip text.toList
  have hends : EndsWord (collapse (after ++ rest)) :=
    ((endsWord_of_isBlank hafter).append hrest).collapse
  rw [htext, List.append_assoc, scan_blanks_append hbefore, List.append_assoc, ← scan_collapse,
    collapse_append_of_trimmed (trimmed_strip _), (layout_tokenize text).scan_append h hends,
    scan_collapse, scan_blanks_append hafter]

end Token

end RecordRules
