import RecordRules.Proofs.Grammar.Parsing
import RecordRules.Proofs.Grammar.Rendering
import RecordRules.Proofs.Token.Layout
import RecordRules.Proofs.Tree.Checking

/-!
# Reading the text of a tree back

The text of a tree is read back as that tree under two conditions that do not
depend on how the tree came about: the tree passes its check, and its literals
are single-spaced. Neither can be spared. What is read from a text has passed
the check, and its literals have been cut out of a text, which leaves single
spaces only.

The limit plays no part of its own. A tree that is not too deep has a text whose
parentheses are not nested too deep either, for the derivation behind the text
has fewer groups one within the other than the tree has levels.
-/

namespace RecordRules

open Grammar Text Token

namespace Tree

/-- The literals of a tree that was read are words of the text. -/
theorem singleSpaced_of_parse {limit : ℕ} {text : String} {t : Tree}
    (h : parse limit text = .ok t) {c : Condition} (hc : c ∈ t.conditions) :
    SingleSpaced c.literal.toList := by
  obtain ⟨e, htokens, rfl, -, -⟩ := ofTokens_eq_ok_iff.mp h
  have hmem : Token.word c.literal ∈ c.tokens := by simp [Condition.tokens]
  exact singleSpaced_of_mem_tokenize (htokens ▸ e.tokens_subset hc hmem)

/-- A tree is parsed from its text if that is cut into the tokens of its derivation, within any
limit that the tree itself is within. -/
theorem parse_render_of_tokenize {limit : ℕ} {t : Tree} (hheight : t.height ≤ max 1 limit)
    (htokens : tokenize t.render = (Expression.ofTree t).tokens) :
    parse limit t.render = .ok t := by
  refine ofTokens_eq_ok_iff.mpr ⟨Expression.ofTree t, htokens.symm, (tree_ofTree t).1, ?_, hheight⟩
  have hnesting := (nesting_ofTree t).1
  omega

/-- The text of a tree with whole words is parsed as the tree. -/
theorem parse_render {limit : ℕ} {t : Tree} (hdepth : t.depth ≤ limit)
    (h : ∀ c ∈ t.conditions, c.WholeWords) : parse limit t.render = .ok t := by
  rw [depth_eq_height] at hdepth
  exact parse_render_of_tokenize (hdepth.trans (le_max_right 1 limit)) (tokenize_render t h)

/-- **Rendering and reading again is exact** on the trees that pass their check
and have single-spaced literals, and on no others. -/
theorem ofText_render_eq_ok_iff (limit : ℕ) (t : Tree) :
    ofText limit t.render = .ok t
      ↔ t.check limit = .ok () ∧ ∀ c ∈ t.conditions, SingleSpaced c.literal.toList := by
  rw [ofText_eq_ok_iff]
  constructor
  · rintro ⟨hparse, hcheck⟩
    exact ⟨hcheck, fun c hc => singleSpaced_of_parse hparse hc⟩
  · rintro ⟨hcheck, hspaced⟩
    obtain ⟨hdepth, hspelled⟩ := check_eq_ok_iff.mp hcheck
    refine ⟨parse_render hdepth fun c hc => ?_, hcheck⟩
    exact (Condition.wellSpelled_of_isSpelled (hspelled c hc)).wholeWords (hspaced c hc)

end Tree

end RecordRules
