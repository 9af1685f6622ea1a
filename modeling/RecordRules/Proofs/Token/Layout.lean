import Mathlib.Data.List.Chain
import RecordRules.Proofs.Token.Spacing

/-!
# The layouts of tokens

Tokens are laid out in a text one after the other, with blanks between them
(`Token.Layout`). Where blanks are needed is said by what may follow a word: a word on its
own ends before a blank, before a parenthesis or with the text, and a word with a quote left
open only with the text.

In a single-spaced text the tokens that are cut out stand as they are, for no blank is
dropped inside of a word. Collapsing the blanks of a text first changes no token, so cutting
is told by layouts alone (`Token.tokenize_eq_iff_layout`): a text has the tokens of which its
collapsed form is a layout, and what holds for all layouts holds for all texts.
-/

namespace RecordRules

open Text

/-- A stretch of a single-spaced text is single-spaced. -/
theorem Text.SingleSpaced.of_isInfix {cs ds : List Char} (h : SingleSpaced ds)
    (hcs : cs <:+: ds) : SingleSpaced cs :=
  ⟨fun c hc => h.1 c (hcs.subset hc), List.IsChain.infix h.2 hcs⟩

namespace Token

/-- **The characters are a layout of the tokens**: the tokens stand there in their order,
with blanks between them. A word stands before what ends it, and only the last token can be
a word that leaves a quote open. -/
inductive Layout : List Token → List Char → Prop where
  | nil : Layout [] []
  | blank {c : Char} {ts : List Token} {cs : List Char} :
    isBlank c = true → Layout ts cs → Layout ts (c :: cs)
  | opening {ts : List Token} {cs : List Char} :
    Layout ts cs → Layout (.opening :: ts) ('(' :: cs)
  | closing {ts : List Token} {cs : List Char} :
    Layout ts cs → Layout (.closing :: ts) (')' :: cs)
  | word {w : List Char} {ts : List Token} {cs : List Char} :
    IsWhole w → EndsWord cs → Layout ts cs → Layout (.word (String.ofList w) :: ts) (w ++ cs)
  | last {w : List Char} :
    w ≠ [] → Gathers none none w → Layout [.word (String.ofList w)] w

/-- A word at the end of the text is a token, with a quote left open or without. -/
theorem scan_of_gathers {w : List Char} (hne : w ≠ []) (h : Gathers none none w) :
    scan none [] w = [.word (String.ofList w)] := by
  have hgathers : Gathers none ([] : List Char).head? w := h
  have hscan := scan_append_of_gathers isOpen_none hgathers []
  rw [List.append_nil, List.append_nil] at hscan
  rw [hscan, scan, flush_of_ne_nil (List.reverse_ne_nil_iff.mpr hne), List.reverse_reverse]

/-- **A layout is cut into its tokens.** -/
theorem Layout.scan_eq {ts : List Token} {cs : List Char} (h : Layout ts cs) :
    scan none [] cs = ts := by
  induction h with
  | nil => rfl
  | blank hblank _ ih => rw [scan_cons_of_isBlank hblank, flush_nil, ih]
  | opening _ ih => rw [scan_opening, ih]
  | closing _ ih => rw [scan_closing, ih]
  | word hwhole hends _ ih => rw [hwhole.scan_append hends, ih]
  | last hne hgathers => exact scan_of_gathers hne hgathers

/-- **A word goes on up to where it ends**, or to the end of a single-spaced text. -/
theorem exists_gathers_append (quote last : Option Char) {cs : List Char}
    (h : SingleSpaced (last.toList ++ cs)) :
    ∃ front rest, cs = front ++ rest ∧ Gathers quote last front
      ∧ (rest = [] ∨ quoteAfter quote front = none ∧ EndsWord rest) := by
  induction cs generalizing quote last with
  | nil => exact ⟨[], [], rfl, trivial, .inl rfl⟩
  | cons c cs ih =>
    have hc : SingleSpaced (c :: cs) := h.of_isInfix (List.suffix_append _ _).isInfix
    -- outside of quotes the word may end here; inside of them a single space stays
    have hstays : (quote = none ∧ EndsWord (c :: cs)) ∨ Stays quote last c := by
      cases quote with
      | none => exact (endsWord_or_stays last c cs).imp_left fun hends => ⟨rfl, hends⟩
      | some q =>
        refine .inr fun hblank => ?_
        obtain rfl := (singleSpaced_cons.mp hc).1 hblank
        refine ⟨rfl, ?_⟩
        rintro rfl
        exact (singleSpaced_cons.mp h).2.1 rfl rfl
    rcases hstays with ⟨rfl, hends⟩ | hstays
    · exact ⟨[], c :: cs, rfl, trivial, .inr ⟨rfl, hends⟩⟩
    · obtain ⟨front, rest, rfl, hfront, hends⟩ := ih (quoteStep quote c) (some c) hc
      exact ⟨c :: front, rest, rfl, ⟨hstays, hfront⟩, hends⟩

/-- **Every single-spaced text is a layout** of some tokens. -/
theorem exists_layout {cs : List Char} (h : SingleSpaced cs) : ∃ ts, Layout ts cs := by
  match cs with
  | [] => exact ⟨[], .nil⟩
  | c :: cs =>
    have hcs : SingleSpaced cs := (singleSpaced_cons.mp h).2.2
    rcases endsWord_or_stays none c cs with hends | hstays
    · obtain ⟨ts, hts⟩ := exists_layout hcs
      rcases hends c rfl with hblank | rfl | rfl
      · exact ⟨ts, .blank hblank hts⟩
      · exact ⟨.opening :: ts, .opening hts⟩
      · exact ⟨.closing :: ts, .closing hts⟩
    · obtain ⟨front, rest, hsplit, hfront, hrest⟩ :=
        exists_gathers_append (quoteStep none c) (some c) h
      have hgathers : Gathers none none (c :: front) := ⟨hstays, hfront⟩
      have hspaced : SingleSpaced rest :=
        hcs.of_isInfix (hsplit ▸ List.suffix_append front rest).isInfix
      rcases hrest with rfl | ⟨hclosed, hends⟩
      · rw [hsplit, List.append_nil]
        exact ⟨_, .last (List.cons_ne_nil c front) hgathers⟩
      · have hwhole : IsWhole (c :: front) := ⟨⟨hgathers, hclosed⟩, List.cons_ne_nil c front⟩
        obtain ⟨ts, hts⟩ := exists_layout hspaced
        rw [hsplit]
        exact ⟨_, .word hwhole hends hts⟩
termination_by cs.length
decreasing_by
  · exact Nat.lt_succ_self _
  · rw [hsplit, List.length_cons, List.length_append]
    omega

/-- **The tokens of a text** are those of which its collapsed form is a layout. -/
theorem tokenize_eq_iff_layout {text : String} {ts : List Token} :
    tokenize text = ts ↔ Layout ts (collapse (strip text.toList)) := by
  have hscan : scan none [] (collapse (strip text.toList)) = tokenize text := scan_collapse _
  constructor
  · rintro rfl
    obtain ⟨ts, hts⟩ := exists_layout (singleSpaced_collapse (strip text.toList))
    rwa [← hscan, hts.scan_eq]
  · intro h
    rw [← hscan, h.scan_eq]

/-- The tokens of a text are laid out in its collapsed form. -/
theorem layout_tokenize (text : String) :
    Layout (tokenize text) (collapse (strip text.toList)) :=
  tokenize_eq_iff_layout.mp rfl

/-! ## The words of a layout -/

namespace Layout

variable {ts : List Token} {cs : List Char} (h : Layout ts cs)

include h

/-- **Every word is a stretch that stays**, and not an empty one. -/
theorem gathers {w : String} (hw : .word w ∈ ts) :
    w.toList ≠ [] ∧ Gathers none none w.toList := by
  induction h with
  | nil => cases hw
  | blank _ _ ih => exact ih hw
  | opening _ ih | closing _ ih => exact ih ((List.mem_cons.mp hw).resolve_left nofun)
  | word hwhole _ _ ih =>
    rcases List.mem_cons.mp hw with heq | hw
    · rw [Token.word.inj heq, String.toList_ofList]
      exact ⟨hwhole.ne_nil, hwhole.gathers⟩
    · exact ih hw
  | last hne hgathers =>
    rw [Token.word.inj (List.mem_singleton.mp hw), String.toList_ofList]
    exact ⟨hne, hgathers⟩

/-- **Every word that is not the last token** stands on its own. -/
theorem isWhole {w : String} (hw : .word w ∈ ts.dropLast) : IsWhole w.toList := by
  have htail {t : Token} {ts : List Token} (hmem : .word w ∈ (t :: ts).dropLast) :
      .word w = t ∨ .word w ∈ ts.dropLast := by
    cases ts with
    | nil => cases hmem
    | cons t' ts => exact List.mem_cons.mp hmem
  induction h with
  | nil => cases hw
  | blank _ _ ih => exact ih hw
  | opening _ ih | closing _ ih => exact ih ((htail hw).resolve_left nofun)
  | word hwhole _ _ ih =>
    rcases htail hw with heq | hw
    · rw [Token.word.inj heq, String.toList_ofList]
      exact hwhole
    · exact ih hw
  | last _ _ => cases hw

/-- **No token has a blank at its ends**, if the layout ends with none, and none is empty. -/
theorem trimmed_text (hlast : ∀ c ∈ cs.getLast?, isBlank c = false) {t : Token}
    (ht : t ∈ ts) : t.text.toList ≠ [] ∧ Trimmed t.text.toList := by
  induction h with
  | nil => cases ht
  | blank _ _ ih => exact ih (fun d hd => hlast d (List.mem_getLast?_cons hd)) ht
  | opening _ ih | closing _ ih =>
    rcases List.mem_cons.mp ht with rfl | ht
    · exact ⟨List.cons_ne_nil _ [], trimmed_singleton (by decide)⟩
    · exact ih (fun d hd => hlast d (List.mem_getLast?_cons hd)) ht
  | word hwhole _ _ ih =>
    rcases List.mem_cons.mp ht with rfl | ht
    · rw [Token.text, String.toList_ofList]
      exact ⟨hwhole.ne_nil, hwhole.trimmed⟩
    · exact ih (fun d hd => hlast d (List.mem_getLast?_append_of_mem_getLast? hd)) ht
  | last hne hgathers =>
    rw [List.mem_singleton.mp ht, Token.text, String.toList_ofList]
    exact ⟨hne, fun d hd => hgathers.isBlank_of_head hd, hlast⟩

end Layout

/-- Every word of a text is a stretch that stays, and not an empty one. -/
theorem gathers_of_mem_tokenize {text w : String} (hw : .word w ∈ tokenize text) :
    w.toList ≠ [] ∧ Gathers none none w.toList :=
  (layout_tokenize text).gathers hw

/-- Every word of a text that has another token after it stands on its own. -/
theorem isWhole_of_tokenize_eq_append {text w : String} {front back : List Token}
    (h : tokenize text = front ++ back) (hne : back ≠ []) (hw : .word w ∈ front) :
    IsWhole w.toList := by
  have hlayout := layout_tokenize text
  rw [h] at hlayout
  refine hlayout.isWhole ?_
  rw [List.dropLast_append_of_ne_nil hne]
  exact List.mem_append_left _ hw

/-- No token of a text has a blank at its ends, and none is empty. -/
theorem trimmed_of_mem_tokenize {text : String} {t : Token} (ht : t ∈ tokenize text) :
    t.text.toList ≠ [] ∧ Trimmed t.text.toList :=
  (layout_tokenize text).trimmed_text (trimmed_strip text.toList).collapse.last ht

/-- The words of a text are single-spaced. -/
theorem singleSpaced_of_mem_tokenize {text w : String} (hw : .word w ∈ tokenize text) :
    SingleSpaced w.toList :=
  (gathers_of_mem_tokenize hw).2.singleSpaced

end Token

end RecordRules
