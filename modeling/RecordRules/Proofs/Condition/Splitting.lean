import RecordRules.Proofs.Condition.Reading

/-!
# The splittings of a text into a condition

A text is a condition if it can be split into a name, a comparison and a literal, with
blanks or nothing between them (`Condition.Splits`). The splitting is what the grammar
of a condition says; nothing in it tells where to look first.

The reader looks in one place only. A name ends where its word characters end, because
neither a blank nor a comparison begins with one, and blanks end before the next character
that is none. What is left open is how many characters the comparison takes, and a text can
be split in as many ways as it begins, after the name, with a comparison that leaves a
literal (`Condition.splits_iff_ofReading`). There are at most two of these, one of them with
a comparison of two characters, and it is the one that is read
(`Condition.ofText_eq_ok_iff_splits`).
-/

namespace RecordRules

open Text

/-! ## Comparisons -/

namespace Comparison

/-- **The readings of a text** are the comparisons that it begins with. -/
theorem mem_readings_iff {op : Comparison} {rest cs : List Char} :
    (op, rest) ∈ readings cs ↔ cs = op.symbol.toList ++ rest := by
  constructor
  · intro h
    unfold readings at h
    split at h
    case h_7 => cases h
    case h_1 | h_2 =>
      rcases List.mem_cons.mp h with heq | h
      · cases heq
        rfl
      · cases List.mem_singleton.mp h
        rfl
    all_goals
      cases List.mem_singleton.mp h
      rfl
  · rintro rfl
    cases op with
    | greaterEqual => exact List.mem_cons_self
    | lessEqual => exact List.mem_cons_self
    | notEqual => exact List.mem_cons_self
    | equal => exact List.mem_cons_self
    | greater =>
      show _ ∈ readings ('>' :: rest)
      unfold readings
      split <;> simp_all
    | less =>
      show _ ∈ readings ('<' :: rest)
      unfold readings
      split <;> simp_all

/-- Of two readings of a text the longer comparison comes first. -/
theorem pairwise_readings (cs : List Char) :
    (readings cs).Pairwise fun r s => s.1.symbol.length < r.1.symbol.length := by
  unfold readings
  split
  case h_1 => exact List.pairwise_pair.mpr (show ">".length < ">=".length by decide)
  case h_2 => exact List.pairwise_pair.mpr (show "<".length < "<=".length by decide)
  case h_7 => exact .nil
  all_goals exact List.pairwise_singleton _ _

/-- The characters of a comparison are neither word characters nor blanks nor quotes. -/
theorem of_mem_symbol {op : Comparison} {c : Char} (h : c ∈ op.symbol.toList) :
    isWord c = false ∧ isBlank c = false ∧ Condition.isQuote c = false := by
  have table : (op.symbol.toList.all fun c =>
      !isWord c && !isBlank c && !Condition.isQuote c) = true := by
    cases op <;> decide +kernel
  simpa [and_assoc] using List.all_eq_true.mp table c h

/-- No comparison begins with a word character. -/
theorem isWord_eq_false_of_symbol (op : Comparison) :
    ∀ c ∈ op.symbol.toList.head?, isWord c = false :=
  fun _ hc => (of_mem_symbol (List.mem_of_mem_head? hc)).1

/-- No comparison begins with a blank. -/
theorem isBlank_eq_false_of_symbol (op : Comparison) :
    ∀ c ∈ op.symbol.toList.head?, isBlank c = false :=
  fun _ hc => (of_mem_symbol (List.mem_of_mem_head? hc)).2.1

/-- A comparison is written with one character at least. -/
theorem toList_symbol_ne_nil (op : Comparison) : op.symbol.toList ≠ [] := by
  cases op <;> exact List.cons_ne_nil _ _

end Comparison

namespace Condition

/-! ## Literals -/

/-- **The forms of a literal**: a span between two quotes of one kind, with none of that
kind inside, or one or more characters that are neither blanks nor quotes nor
parentheses. -/
inductive LiteralForm : List Char → Prop where
  | quoted {q : Char} {span : List Char} : q = '\'' ∨ q = '"' → q ∉ span →
    LiteralForm (q :: (span ++ [q]))
  | bare {cs : List Char} : cs ≠ [] →
    (∀ c ∈ cs, isBlank c = false ∧ c ≠ '\'' ∧ c ≠ '"' ∧ c ≠ '(' ∧ c ≠ ')') →
    LiteralForm cs

/-- The two quotes. -/
theorem isQuote_iff {c : Char} : isQuote c = true ↔ c = '\'' ∨ c = '"' := by
  rw [isQuote, Bool.or_eq_true, beq_iff_eq, beq_iff_eq]

/-- A bare character is neither a blank nor a quote nor a parenthesis. -/
theorem isBare_iff_ne {c : Char} :
    isBare c = true ↔ isBlank c = false ∧ c ≠ '\'' ∧ c ≠ '"' ∧ c ≠ '(' ∧ c ≠ ')' := by
  rw [isBare_iff, Bool.eq_false_iff (b := isQuote c), ne_eq, isQuote_iff, not_or, and_assoc]

/-- **The quote that closes a span** is the first of its kind, and nothing follows it. -/
theorem endsAtFirst_iff {q : Char} {cs : List Char} :
    endsAtFirst q cs = true ↔ ∃ span, q ∉ span ∧ cs = span ++ [q] := by
  induction cs with
  | nil =>
    refine iff_of_false Bool.false_ne_true ?_
    rintro ⟨span, -, h⟩
    exact List.append_ne_nil_of_right_ne_nil _ (List.cons_ne_nil q []) h.symm
  | cons c cs ih =>
    rw [endsAtFirst]
    split
    · next hclose =>
      obtain rfl := beq_iff_eq.mp hclose
      rw [List.isEmpty_iff]
      constructor
      · rintro rfl
        exact ⟨[], List.not_mem_nil, rfl⟩
      · rintro ⟨_ | ⟨d, span⟩, hspan, h⟩
        · exact (List.cons.inj h).2
        · -- the quote would stand inside of the span
          obtain ⟨rfl, -⟩ := List.cons.inj h
          exact absurd List.mem_cons_self hspan
    · next hopen =>
      have hne : q ≠ c := fun heq => hopen (beq_iff_eq.mpr heq.symm)
      rw [ih]
      constructor
      · rintro ⟨span, hspan, rfl⟩
        exact ⟨c :: span, List.not_mem_cons_of_ne_of_not_mem hne hspan, rfl⟩
      · rintro ⟨_ | ⟨d, span⟩, hspan, h⟩
        · exact absurd (List.cons.inj h).1.symm hne
        · obtain ⟨-, rfl⟩ := List.cons.inj h
          exact ⟨span, List.not_mem_of_not_mem_cons hspan, rfl⟩

/-- **The literals are the characters of one of the forms.** -/
theorem isLiteral_iff {cs : List Char} : isLiteral cs = true ↔ LiteralForm cs := by
  constructor
  · intro h
    cases cs with
    | nil => exact absurd h Bool.false_ne_true
    | cons c cs =>
      rw [isLiteral] at h
      split at h
      · next hquote =>
        obtain ⟨span, hspan, rfl⟩ := endsAtFirst_iff.mp h
        exact .quoted (isQuote_iff.mp hquote) hspan
      · exact .bare (List.cons_ne_nil c cs) fun d hd =>
          isBare_iff_ne.mp (List.all_eq_true.mp h d hd)
  · rintro (⟨hquote, hspan⟩ | ⟨hne, hbare⟩)
    · rw [isLiteral, if_pos (isQuote_iff.mpr hquote)]
      exact endsAtFirst_iff.mpr ⟨_, hspan, rfl⟩
    · have hall : cs.all isBare = true :=
        List.all_eq_true.mpr fun c hc => isBare_iff_ne.mpr (hbare c hc)
      obtain ⟨c, cs, rfl⟩ := List.exists_cons_of_ne_nil hne
      have hquote : isQuote c = false :=
        (isBare_iff.mp (List.all_eq_true.mp hall c List.mem_cons_self)).2.1
      rw [isLiteral, hquote, if_neg Bool.false_ne_true, hall]

/-! ## Splittings -/

/-- A name ends where its word characters end, and so do the blanks after it. -/
theorem span_name {name blanks cs : List Char} (hname : ∀ c ∈ name, isWord c = true)
    (hblanks : ∀ b ∈ blanks, isBlank b = true) (hword : ∀ c ∈ cs.head?, isWord c = false)
    (hblank : ∀ c ∈ cs.head?, isBlank c = false) :
    (name ++ (blanks ++ cs)).takeWhile isWord = name
      ∧ dropBlanks ((name ++ (blanks ++ cs)).dropWhile isWord) = cs := by
  have hstop : ∀ c ∈ (blanks ++ cs).head?, isWord c = false := by
    cases blanks with
    | nil => exact hword
    | cons b blanks =>
      intro c hc
      obtain rfl := Option.some.inj hc
      exact isWord_eq_false_of_isBlank (hblanks _ List.mem_cons_self)
  have hspan : (blanks ++ cs).takeWhile isWord = []
      ∧ (blanks ++ cs).dropWhile isWord = blanks ++ cs := by
    cases hrest : blanks ++ cs with
    | nil => exact ⟨rfl, rfl⟩
    | cons c rest =>
      have hc := hstop c (by rw [hrest]; rfl)
      rw [List.takeWhile_cons, List.dropWhile_cons, hc]
      exact ⟨rfl, rfl⟩
  rw [List.takeWhile_append_of_pos hname, List.dropWhile_append_of_pos hname, hspan.1, hspan.2,
    dropBlanks_append hblanks hblank]
  exact ⟨List.append_nil name, rfl⟩

/-- **The characters can be split into the condition**: its name of one or more word
characters, its comparison and its literal, with any blanks before and after the
comparison. -/
structure Splits (cs : List Char) (c : Condition) : Prop where
  name_ne_nil : c.name.toList ≠ []
  isWord_name : ∀ ch ∈ c.name.toList, isWord ch = true
  literalForm : LiteralForm c.literal.toList
  exists_blanks : ∃ before after : List Char,
    (∀ b ∈ before, isBlank b = true) ∧ (∀ b ∈ after, isBlank b = true)
      ∧ cs = c.name.toList ++ (before ++ (c.comparison.symbol.toList
        ++ (after ++ c.literal.toList)))

/-- The condition of a reading of what follows a name, if the reading leaves a literal. -/
def ofReading? (name : List Char) (r : Comparison × List Char) : Option Condition :=
  if isLiteral (dropBlanks r.2) then
    some ⟨String.ofList name, r.1, String.ofList (dropBlanks r.2)⟩
  else none

/-- A reading gives a condition with its own comparison. -/
theorem ofReading?_eq_some_iff {name : List Char} {r : Comparison × List Char}
    {c : Condition} :
    ofReading? name r = some c
      ↔ isLiteral (dropBlanks r.2) = true ∧ c.name.toList = name ∧ c.comparison = r.1
        ∧ c.literal.toList = dropBlanks r.2 := by
  unfold ofReading?
  split
  · next h =>
    rw [Option.some.injEq, and_iff_right h]
    constructor
    · rintro rfl
      exact ⟨String.toList_ofList, rfl, String.toList_ofList⟩
    · rintro ⟨hname, hcomparison, hliteral⟩
      rw [← hname, ← hliteral, ← hcomparison, String.ofList_toList, String.ofList_toList]
  · next h => exact iff_of_false nofun fun hc => h hc.1

/-- **The splittings of a text are its readings that leave a literal.** The name takes all
the word characters that the text begins with, and the blanks after it are taken too. -/
theorem splits_iff_ofReading {cs : List Char} {c : Condition} :
    Splits cs c ↔ cs.takeWhile isWord ≠ []
      ∧ ∃ r ∈ Comparison.readings (dropBlanks (cs.dropWhile isWord)),
        ofReading? (cs.takeWhile isWord) r = some c := by
  constructor
  · rintro ⟨hne, hword, hform, before, after, hbefore, hafter, rfl⟩
    have hliteral := isLiteral_iff.mpr hform
    have hhead : (c.comparison.symbol.toList ++ (after ++ c.literal.toList)).head?
        = c.comparison.symbol.toList.head? :=
      List.head?_append_of_ne_nil _ c.comparison.toList_symbol_ne_nil
    obtain ⟨htake, hdrop⟩ := span_name hword hbefore
      (hhead ▸ c.comparison.isWord_eq_false_of_symbol)
      (hhead ▸ c.comparison.isBlank_eq_false_of_symbol)
    rw [htake, hdrop]
    refine ⟨hne, _, Comparison.mem_readings_iff.mpr rfl, ofReading?_eq_some_iff.mpr ?_⟩
    rw [dropBlanks_append hafter (trimmed_of_isLiteral hliteral).2.head]
    exact ⟨hliteral, rfl, rfl, rfl⟩
  · rintro ⟨hne, ⟨op, rest⟩, hmem, hr⟩
    obtain ⟨hliteral, hname, rfl, hlit⟩ := ofReading?_eq_some_iff.mp hr
    refine ⟨hname ▸ hne, ?_, hlit ▸ isLiteral_iff.mp hliteral, ?_⟩
    · intro ch hch
      rw [hname] at hch
      exact List.mem_takeWhile_imp hch
    · obtain ⟨before, hbefore, hdrop⟩ := exists_append_dropBlanks (cs.dropWhile isWord)
      obtain ⟨after, hafter, hrest⟩ := exists_append_dropBlanks rest
      refine ⟨before, after, hbefore, hafter, ?_⟩
      rw [hname, hlit, ← hrest, ← Comparison.mem_readings_iff.mp hmem, ← hdrop,
        List.takeWhile_append_dropWhile]

/-- **The length of its comparison tells a splitting from the others.** -/
theorem Splits.eq_of_length_eq {cs : List Char} {c d : Condition} (hc : Splits cs c)
    (hd : Splits cs d) (h : c.comparison.symbol.length = d.comparison.symbol.length) :
    c = d := by
  obtain ⟨-, ⟨op, rest⟩, hmem, hr⟩ := splits_iff_ofReading.mp hc
  obtain ⟨-, ⟨op', rest'⟩, hmem', hr'⟩ := splits_iff_ofReading.mp hd
  obtain ⟨-, -, rfl, -⟩ := ofReading?_eq_some_iff.mp hr
  obtain ⟨-, -, rfl, -⟩ := ofReading?_eq_some_iff.mp hr'
  rw [← String.length_toList, ← String.length_toList] at h
  have happend := (Comparison.mem_readings_iff.mp hmem).symm.trans
    (Comparison.mem_readings_iff.mp hmem')
  obtain ⟨hsymbol, rfl⟩ := List.append_inj happend h
  have hop : some c.comparison = some d.comparison := by
    rw [← Comparison.ofSymbol?_symbol, ← Comparison.ofSymbol?_symbol, String.toList_inj.mp hsymbol]
  rw [Option.some.inj hop, hr'] at hr
  exact (Option.some.inj hr).symm

/-! ## Reading -/

/-- Of candidates in descending order the first that gives a result is the largest that
does. -/
theorem findSome?_eq_some_iff_of_pairwise {α β : Type} {f : α → Option β} {size : α → ℕ}
    {l : List α} (hl : l.Pairwise fun x y => size y < size x) {b : β} :
    l.findSome? f = some b
      ↔ ∃ x ∈ l, f x = some b ∧ ∀ y ∈ l, ∀ b', f y = some b' → size y ≤ size x := by
  induction l with
  | nil => simp
  | cons x l ih =>
    obtain ⟨hx, hl⟩ := List.pairwise_cons.mp hl
    rw [List.findSome?_cons]
    cases hfx : f x with
    | some b' =>
      constructor
      · intro h
        refine ⟨x, List.mem_cons_self, hfx.trans h, fun y hy _ _ => ?_⟩
        rcases List.mem_cons.mp hy with rfl | hy
        · exact le_rfl
        · exact (hx y hy).le
      · rintro ⟨y, hy, hfy, hmax⟩
        rcases List.mem_cons.mp hy with rfl | hy
        · exact hfx.symm.trans hfy
        · exact absurd (hmax x List.mem_cons_self b' hfx) (Nat.not_le_of_lt (hx y hy))
    | none =>
      show l.findSome? f = some b ↔ _
      rw [ih hl]
      constructor
      · rintro ⟨y, hy, hfy, hmax⟩
        refine ⟨y, List.mem_cons_of_mem x hy, hfy, fun z hz b' hfz => ?_⟩
        rcases List.mem_cons.mp hz with rfl | hz
        · rw [hfx] at hfz
          cases hfz
        · exact hmax z hz b' hfz
      · rintro ⟨y, hy, hfy, hmax⟩
        rcases List.mem_cons.mp hy with rfl | hy
        · rw [hfx] at hfy
          cases hfy
        · exact ⟨y, hy, hfy, fun z hz => hmax z (List.mem_cons_of_mem x hz)⟩

/-- Reading goes through the readings of what follows the name. -/
theorem ofText?_eq_some_iff {text : String} {c : Condition} :
    ofText? text = some c ↔ (strip text.toList).takeWhile isWord ≠ []
      ∧ (Comparison.readings (dropBlanks ((strip text.toList).dropWhile isWord))).findSome?
        (ofReading? ((strip text.toList).takeWhile isWord)) = some c := by
  unfold ofText?
  dsimp only
  split
  · next h => exact iff_of_false nofun fun hc => hc.1 h
  · next h => exact (and_iff_right h).symm

/-- **What is read is the splitting with the longer comparison.** -/
theorem ofText?_eq_some_iff_splits {text : String} {c : Condition} :
    ofText? text = some c ↔ Splits (strip text.toList) c
      ∧ ∀ d, Splits (strip text.toList) d →
        d.comparison.symbol.length ≤ c.comparison.symbol.length := by
  rw [ofText?_eq_some_iff, findSome?_eq_some_iff_of_pairwise (Comparison.pairwise_readings _)]
  simp only [splits_iff_ofReading]
  constructor
  · rintro ⟨hne, r, hr, hc, hmax⟩
    refine ⟨⟨hne, r, hr, hc⟩, ?_⟩
    rintro d ⟨-, s, hs, hd⟩
    rw [(ofReading?_eq_some_iff.mp hc).2.2.1, (ofReading?_eq_some_iff.mp hd).2.2.1]
    exact hmax s hs d hd
  · rintro ⟨⟨hne, r, hr, hc⟩, hmax⟩
    refine ⟨hne, r, hr, hc, fun s hs d hd => ?_⟩
    have hle := hmax d ⟨hne, s, hs, hd⟩
    rwa [(ofReading?_eq_some_iff.mp hc).2.2.1, (ofReading?_eq_some_iff.mp hd).2.2.1] at hle

/-- **Nothing is read where there is no splitting.** -/
theorem ofText?_eq_none_iff {text : String} :
    ofText? text = none ↔ ∀ c, ¬ Splits (strip text.toList) c := by
  constructor
  · intro h c hc
    obtain ⟨hne, r, hr, hread⟩ := splits_iff_ofReading.mp hc
    cases hfirst : (Comparison.readings
        (dropBlanks ((strip text.toList).dropWhile isWord))).findSome?
          (ofReading? ((strip text.toList).takeWhile isWord)) with
    | some d =>
      rw [ofText?_eq_some_iff.mpr ⟨hne, hfirst⟩] at h
      cases h
    | none =>
      rw [List.findSome?_eq_none_iff.mp hfirst r hr] at hread
      cases hread
  · intro h
    cases hread : ofText? text with
    | none => rfl
    | some c => exact absurd (ofText?_eq_some_iff_splits.mp hread).1 (h c)

/-- **A text is a condition exactly if it can be split into one**, the blanks at its ends
apart. The condition that is read is the splitting whose comparison is longest. Splittings
that differ have comparisons of different lengths, so there are never more than two. -/
theorem ofText_eq_ok_iff_splits (text : String) :
    ((∃ c, ofText text = .ok c) ↔ ∃ c, Splits (strip text.toList) c)
      ∧ (∀ c, ofText text = .ok c ↔ Splits (strip text.toList) c
        ∧ ∀ d, Splits (strip text.toList) d →
          d.comparison.symbol.length ≤ c.comparison.symbol.length)
      ∧ ∀ c d, Splits (strip text.toList) c → Splits (strip text.toList) d → c ≠ d →
        c.comparison.symbol.length ≠ d.comparison.symbol.length := by
  simp only [ofText_eq_ok_iff]
  refine ⟨?_, fun c => ofText?_eq_some_iff_splits, fun c d hc hd => mt (hc.eq_of_length_eq hd)⟩
  rw [← Option.isSome_iff_exists, ← Option.ne_none_iff_isSome, ne_eq, ofText?_eq_none_iff,
    not_forall_not]

-- Both comparisons leave a literal here, and the longer one is read.
example : ofText "a>==" = .ok ⟨"a", .greaterEqual, "="⟩ := by decide +kernel

end Condition

end RecordRules
