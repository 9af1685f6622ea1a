import RecordRules.Proofs.Text.Collapse
import RecordRules.Proofs.Token.Words

/-!
# Tokens do not depend on the width of blanks

Cutting a text drops every blank that follows another, inside of quotes and
outside. It therefore makes no difference whether the runs of blanks are collapsed
before the text is cut (`Token.scan_collapseFrom`).

The induction is on the characters. While a run goes on, the scanner has to be in
a state in which it drops a further blank (`Token.Absorbs`): outside of quotes no
word is being gathered, inside of them the word ends with a space.
-/

namespace RecordRules.Token

open Text

/-- **A further blank is dropped.** -/
def Absorbs : (quote : Option Char) → (pending : List Char) → Prop
  | none, pending => pending = []
  | some _, pending => pending.head? = some ' '

/-- The word ends before an opening parenthesis. -/
theorem endsWord_opening (cs : List Char) : EndsWord ('(' :: cs) := by
  intro c hc
  exact .inr (.inl (Option.some.inj hc).symm)

/-- A space inside of quotes is put to the word, unless it is dropped. -/
theorem scan_space_quoted (q : Char) (pending cs : List Char) :
    scan (some q) pending (' ' :: cs)
      = if pending.head? = some ' ' then scan (some q) pending cs
        else scan (some q) (' ' :: pending) cs := by
  rw [scan, if_pos (by decide)]
  simp only [beq_iff_eq]

/-- **Runs of blanks may be collapsed** before the characters are cut. -/
theorem scan_collapseFrom {quote : Option Char} {pending : List Char} (cs : List Char)
    (inRun : Bool) (h : inRun = true → Absorbs quote pending) :
    scan quote pending (collapseFrom inRun cs) = scan quote pending cs := by
  fun_induction scan quote pending cs generalizing inRun with
  | case1 quote pending => rw [collapseFrom, scan]
  | case2 q pending c cs hblank hlast ih =>
    have habsorbs : pending.head? = some ' ' := beq_iff_eq.mp hlast
    have hrest := ih true fun _ => habsorbs
    rw [collapseFrom_cons_of_isBlank hblank]
    split
    · exact hrest
    · rw [scan_space_quoted, if_pos habsorbs]
      exact hrest
  | case3 q pending c cs hblank hlast ih =>
    -- no run goes on here, for the word does not end with a space
    have habsorbs : ¬ pending.head? = some ' ' := mt beq_iff_eq.mpr hlast
    rw [collapseFrom_cons_of_isBlank hblank, if_neg (mt h habsorbs), scan_space_quoted,
      if_neg habsorbs]
    exact ih true fun _ => rfl
  | case4 q pending c cs hblank ih =>
    rw [collapseFrom_cons_of_not_isBlank (Bool.eq_false_iff.mpr hblank), scan, if_neg hblank]
    exact ih false (absurd · Bool.false_ne_true)
  | case5 pending c cs hc ih =>
    rw [collapseFrom_cons_of_not_isBlank (isBlank_eq_false_of_isQuote hc), scan, if_pos hc]
    exact ih false (absurd · Bool.false_ne_true)
  | case6 pending c cs hc hopening ih =>
    obtain rfl := beq_iff_eq.mp hopening
    rw [collapseFrom_cons_of_not_isBlank (by decide), scan_of_endsWord (endsWord_opening _),
      scan_opening]
    exact congrArg (fun ts => flush pending (opening :: ts)) (ih false (absurd · Bool.false_ne_true))
  | case7 pending c cs hc hopening hclosing ih =>
    obtain rfl := beq_iff_eq.mp hclosing
    rw [collapseFrom_cons_of_not_isBlank (by decide), scan_of_endsWord (endsWord_closing _),
      scan_closing]
    exact congrArg (fun ts => flush pending (closing :: ts)) (ih false (absurd · Bool.false_ne_true))
  | case8 pending c cs hc hopening hclosing hblank ih =>
    have hrest := ih true fun _ => rfl
    rw [collapseFrom_cons_of_isBlank hblank]
    split
    · next hrun =>
      obtain rfl : pending = [] := h hrun
      exact hrest
    · rw [scan_of_endsWord (endsWord_space _), scan_space, hrest]
  | case9 pending c cs hc hopening hclosing hblank ih =>
    rw [collapseFrom_cons_of_not_isBlank (Bool.eq_false_iff.mpr hblank), scan, if_neg hc,
      if_neg hopening, if_neg hclosing, if_neg hblank]
    exact ih false (absurd · Bool.false_ne_true)

/-- **Collapsing blanks changes no token**, at the start of a text. -/
theorem scan_collapse (cs : List Char) : scan none [] (collapse cs) = scan none [] cs :=
  scan_collapseFrom cs false (absurd · Bool.false_ne_true)

/-- **Trimmed texts that agree when they are collapsed** have the same tokens. -/
theorem ofChars_eq_of_collapse_eq {cs ds : List Char} (hcs : Trimmed cs) (hds : Trimmed ds)
    (h : collapse cs = collapse ds) : ofChars cs = ofChars ds := by
  rw [ofChars, ofChars, strip_eq_self hcs, strip_eq_self hds, ← scan_collapse cs, h,
    scan_collapse]

end RecordRules.Token
