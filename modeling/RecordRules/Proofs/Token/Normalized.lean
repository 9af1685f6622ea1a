import RecordRules.Proofs.Token.Layout
import RecordRules.Tree.Check

/-!
# Tokens depend on the normal form of a text

The **normal form** of a text has no blanks at its ends and a single space in the place of
every run of blanks, inside of quotes and outside (`Text.normalize`). A text and its normal
form have the same tokens, and nothing else of a text is looked at when it is read as a rule.

Cutting is stable as well. Written out with single spaces between them, the tokens of a text
are a layout of themselves (`Token.Layout.spaced`), so they are cut into the same tokens
again – the last of them too, with a quote left open or without, for nothing follows it.
-/

namespace RecordRules

open Text

/-- **The normal form of a text**: trimmed, and with one space in the place of every run of
blanks. -/
def Text.normalize (text : String) : String := String.ofList (collapse (strip text.toList))

@[simp] theorem Text.toList_normalize (text : String) :
    (normalize text).toList = collapse (strip text.toList) :=
  String.toList_ofList

namespace Token

/-- **The tokens as a text**, with single spaces between them. -/
def join (ts : List Token) : String := " ".intercalate (ts.map text)

/-- A text and its normal form have the same tokens. -/
theorem tokenize_normalize (text : String) : tokenize (normalize text) = tokenize text := by
  have htrimmed := (trimmed_strip text.toList).collapse
  rw [tokenize, tokenize, ofChars, ofChars, toList_normalize, strip_eq_self htrimmed]
  exact scan_collapse _

/-! ## Tokens with spaces between them -/

@[simp] theorem toList_join_singleton (t : Token) : (join [t]).toList = t.text.toList := by
  rw [join, String.toList_intercalate]
  exact List.intercalate_singleton

@[simp] theorem toList_join_cons_cons (t u : Token) (ts : List Token) :
    (join (t :: u :: ts)).toList = t.text.toList ++ ' ' :: (join (u :: ts)).toList := by
  rw [join, join, String.toList_intercalate, String.toList_intercalate]
  simp only [List.map_cons, List.intercalate_cons_cons, List.append_assoc]
  rfl

/-- The characters of the tokens, with a space before each of them. -/
def spaced (ts : List Token) : List Char := ts.flatMap fun t => ' ' :: t.text.toList

/-- A space before each of the tokens is one at the front and one between any two. -/
theorem spaced_cons (t : Token) (ts : List Token) :
    spaced (t :: ts) = ' ' :: (join (t :: ts)).toList := by
  induction ts generalizing t with
  | nil => rw [spaced, List.flatMap_singleton, toList_join_singleton]
  | cons u ts ih =>
    rw [toList_join_cons_cons, ← ih]
    rfl

/-- A word before spaced tokens ends there. -/
theorem endsWord_spaced (ts : List Token) : EndsWord (spaced ts) := by
  cases ts with
  | nil => exact endsWord_nil
  | cons t ts => exact endsWord_space _

/-- The word comes first, then the tokens after it. -/
theorem spaced_word (w : List Char) (ts : List Token) :
    spaced (.word (String.ofList w) :: ts) = ' ' :: (w ++ spaced ts) := by
  rw [spaced, List.flatMap_cons, text, String.toList_ofList]
  rfl

/-- **The tokens of a layout, with spaces between them,** are a layout of the same tokens. -/
theorem Layout.spaced {ts : List Token} {cs : List Char} (h : Layout ts cs) :
    Layout ts (spaced ts) := by
  have hspace : isBlank ' ' = true := by decide
  induction h with
  | nil => exact .nil
  | blank _ _ ih => exact ih
  | opening _ ih => exact .blank hspace (.opening ih)
  | closing _ ih => exact .blank hspace (.closing ih)
  | word hwhole _ _ ih =>
    rw [spaced_word]
    exact .blank hspace (.word hwhole (endsWord_spaced _) ih)
  | @last w hne hgathers =>
    have hw : w ++ Token.spaced [] = w := List.append_nil w
    rw [spaced_word, hw]
    exact .blank hspace (.last hne hgathers)

/-- Tokens without blanks at their ends make a text without blanks at its ends. -/
theorem trimmed_join {t : Token} {ts : List Token}
    (h : ∀ u ∈ t :: ts, u.text.toList ≠ [] ∧ Trimmed u.text.toList) :
    (join (t :: ts)).toList ≠ [] ∧ Trimmed (join (t :: ts)).toList := by
  induction ts generalizing t with
  | nil =>
    rw [toList_join_singleton]
    exact h t List.mem_cons_self
  | cons u ts ih =>
    obtain ⟨⟨hne, ht⟩, hts⟩ := List.forall_mem_cons.mp h
    obtain ⟨hjoin, htrimmed⟩ := ih hts
    rw [toList_join_cons_cons]
    exact ⟨List.append_ne_nil_of_left_ne_nil hne _,
      .of_prefix_of_suffix ht hne (List.prefix_append _ _) htrimmed hjoin
        (List.suffix_append_of_suffix (List.suffix_cons ' ' _))⟩

/-- **The tokens of a text are cut into themselves**, when they are written with single
spaces between them. -/
theorem tokenize_join_tokenize (text : String) :
    tokenize (join (tokenize text)) = tokenize text := by
  have hspaced : Layout (tokenize text) (spaced (tokenize text)) := (layout_tokenize text).spaced
  have hmem : ∀ t ∈ tokenize text, t.text.toList ≠ [] ∧ Trimmed t.text.toList :=
    fun _ ht => trimmed_of_mem_tokenize ht
  cases htokens : tokenize text with
  | nil => rfl
  | cons t ts =>
    rw [htokens] at hspaced hmem
    rw [tokenize, ofChars, strip_eq_self (trimmed_join hmem).2, ← scan_space, ← spaced_cons,
      hspaced.scan_eq]

end Token

/-- **Reading depends on the normal form of a text and on nothing else.** A text and its
normal form have the same tokens, and so have the text and its tokens with single spaces
between them. Texts with one normal form have the same outcome, whether it is a tree or an
error, also where the conditions of the tree are checked. -/
theorem tokenize_normalize_stable (text : String) :
    Token.tokenize (normalize text) = Token.tokenize text
      ∧ Token.tokenize (Token.join (Token.tokenize text)) = Token.tokenize text
      ∧ ∀ other, normalize other = normalize text → ∀ limit,
        Tree.parse limit other = Tree.parse limit text
          ∧ Tree.ofText limit other = Tree.ofText limit text := by
  refine ⟨Token.tokenize_normalize text, Token.tokenize_join_tokenize text, ?_⟩
  intro other h limit
  have htokens : Token.tokenize other = Token.tokenize text := by
    rw [← Token.tokenize_normalize other, h, Token.tokenize_normalize]
  have hparse : Tree.parse limit other = Tree.parse limit text := by
    rw [Tree.parse, htokens, Tree.parse]
  refine ⟨hparse, ?_⟩
  rw [Tree.ofText, hparse, Tree.ofText]

/-- The blanks here are tabs and a no-break space, and the quote is not closed. -/
theorem tokenize_normalize_stable_open_quote :
    normalize "a\t=\t'x \u00a0 (y \n" = normalize "a = 'x (y"
      ∧ ∀ limit, Tree.parse limit "a\t=\t'x \u00a0 (y \n" = Tree.parse limit "a = 'x (y"
        ∧ Tree.ofText limit "a\t=\t'x \u00a0 (y \n" = Tree.ofText limit "a = 'x (y" := by
  have h : normalize "a\t=\t'x \u00a0 (y \n" = normalize "a = 'x (y" := by decide +kernel
  exact ⟨h, (tokenize_normalize_stable _).2.2 _ h⟩

end RecordRules
