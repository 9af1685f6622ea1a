import RecordRules.Proofs.Draft.Preorder
import RecordRules.Proofs.Token.Bare
import RecordRules.Proofs.Token.Layout

/-!
# Conditions without a value

A name and a comparison are not a condition, for the literal is missing. Where they stand in
the text of a rule, the tokens show that: there are two of them, and reading stops after the
second.

A text that is read as a condition and nothing else has no tokens. What is missing there is
characters after the comparison, and two of the comparisons begin with another one, so that
their last character is left over when the shorter one is taken. The character `=` is a
literal like any other, and `a >=` is read as `a > =`. The same goes for the value of a node
in a draft. The other four comparisons leave nothing over, and their texts are refused
(`Condition.unfinished_of_tokenize`).
-/

namespace RecordRules

open Text

namespace Comparison

/-- **The comparison that a longer one begins with**, if it does. -/
def shorter? : Comparison → Option Comparison
  | greaterEqual => some greater
  | lessEqual => some less
  | greater | less | equal | notEqual => none

/-- What is left over of the longer comparison is the character `=`. -/
theorem shorter?_eq_some_iff {op op' : Comparison} :
    op.shorter? = some op' ↔ op'.symbol ++ "=" = op.symbol := by
  cases op <;> cases op' <;> decide

/-- Two of the comparisons begin with another one. -/
theorem shorter?_eq_none_iff {op : Comparison} :
    op.shorter? = none ↔ op ≠ greaterEqual ∧ op ≠ lessEqual := by
  cases op <;> decide

/-- **What is left over of a comparison is read as a literal**, after the shorter one. -/
theorem findSome?_readings_symbol (op : Comparison) (name : String) :
    (readings op.symbol.toList).findSome? (Condition.ofReading? name.toList)
      = op.shorter?.map fun op' => ⟨name, op', "="⟩ := by
  have hname (op' : Comparison) : some (⟨String.ofList name.toList, op', "="⟩ : Condition)
      = some ⟨name, op', "="⟩ := by rw [String.ofList_toList]
  cases op with
  | greaterEqual => exact hname .greater
  | lessEqual => exact hname .less
  | greater | less | equal | notEqual => rfl

end Comparison

/-- Two words are not a condition, whatever they are. -/
theorem Tree.ofTokens_two_words (limit : ℕ) (name op : String) :
    ofTokens limit [.word name, .word op]
      = .error (.incompleteCondition (.afterComparison name op)) := by
  cases limit <;> rfl

namespace Condition

/-- **A name and a comparison with nothing after it** are read by what is left over of the
comparison. -/
theorem ofText?_of_unfinished {text name : String} {op : Comparison} {between : List Char}
    (hname : ∀ ch ∈ name.toList, isWord ch = true) (hne : name.toList ≠ [])
    (hbetween : ∀ b ∈ between, isBlank b = true)
    (htext : strip text.toList = name.toList ++ (between ++ op.symbol.toList)) :
    ofText? text = op.shorter?.map fun op' => ⟨name, op', "="⟩ := by
  obtain ⟨htake, hdrop⟩ := span_name hname hbetween op.isWord_eq_false_of_symbol
    op.isBlank_eq_false_of_symbol
  refine Option.ext fun c => ?_
  rw [ofText?_eq_some_iff, htext, htake, hdrop, op.findSome?_readings_symbol,
    and_iff_right hne]

/-- **A text of two tokens, a name and a comparison**, is read by what is left over of the
comparison. -/
theorem ofText?_of_tokenize {text name : String} {op : Comparison}
    (hname : ∀ ch ∈ name.toList, isWord ch = true)
    (htokens : Token.tokenize text = [.word name, .word op.symbol]) :
    ofText? text = op.shorter?.map fun op' => ⟨name, op', "="⟩ := by
  have hquote : ∀ ch ∈ name.toList, isQuote ch = false := fun ch hch =>
    (isBare_iff.mp (isBare_of_isWord (hname ch hch))).2.1
  have hmem : .word name ∈ Token.tokenize text := htokens ▸ List.mem_cons_self
  obtain ⟨hne, -⟩ := Token.gathers_of_mem_tokenize hmem
  obtain ⟨between, hbetween, htext⟩ :=
    Token.exists_of_tokenize_eq_two hquote (fun _ hch => (Comparison.of_mem_symbol hch).2.2) htokens
  exact ofText?_of_unfinished hname hne hbetween htext

/-- **A name and a comparison without a value.** As the text of a rule they are an incomplete
condition, whatever the comparison. As a condition and nothing else they are malformed if the
comparison begins with no other one, and so is the node of a draft that has them as its value.
Otherwise the character that is left over is read as the value. -/
theorem unfinished_of_tokenize {text name : String} {op : Comparison}
    (hname : ∀ ch ∈ name.toList, isWord ch = true)
    (htokens : Token.tokenize text = [.word name, .word op.symbol]) :
    (∀ limit, Tree.parse limit text
        = .error (.incompleteCondition (.afterComparison name op.symbol)))
      ∧ (∀ e, ofText text = .error e ↔ (op ≠ .greaterEqual ∧ op ≠ .lessEqual)
        ∧ e = .invalidNode .condition (.malformedCondition text))
      ∧ (∀ c, ofText text = .ok c
        ↔ ∃ op' : Comparison, op'.symbol ++ "=" = op.symbol ∧ c = ⟨name, op', "="⟩)
      ∧ ∀ (limit : ℕ) (d : Draft), Draft.nonBlank? d.type = some Draft.conditionType →
        d.value = some text → ∀ t, d.validate limit = .ok t ↔
          1 ≤ limit ∧ d.left = none ∧ d.right = none ∧ ∃ c, ofText text = .ok c ∧ t = .leaf c := by
  have hread := ofText?_of_tokenize hname htokens
  refine ⟨fun limit => ?_, fun e => ?_, fun c => ?_, fun limit d htype hvalue t => ?_⟩
  · rw [Tree.parse, htokens, Tree.ofTokens_two_words]
  · rw [ofText_eq_error_iff, hread, Option.map_eq_none_iff, Comparison.shorter?_eq_none_iff]
  · rw [ofText_eq_ok_iff, hread, Option.map_eq_some_iff]
    exact exists_congr fun op' => and_congr Comparison.shorter?_eq_some_iff eq_comm
  · exact Draft.validate_eq_ok_iff_of_condition htype hvalue

/-- Nothing is left over of `!=`, and the text is refused by every reader. -/
theorem unfinished_of_not_equal :
    Token.tokenize " score\t!= " = [.word "score", .word Comparison.notEqual.symbol]
      ∧ Tree.parse 256 " score\t!= "
        = .error (.incompleteCondition (.afterComparison "score" "!="))
      ∧ ofText " score\t!= "
        = .error (.invalidNode .condition (.malformedCondition " score\t!= "))
      ∧ ∀ t, (Draft.condition " score\t!= ").validate 256 ≠ .ok t := by
  have htokens : Token.tokenize " score\t!= "
      = [.word "score", .word Comparison.notEqual.symbol] := by decide +kernel
  obtain ⟨hparse, herror, -, hvalidate⟩ :=
    unfinished_of_tokenize (List.all_eq_true.mp (by decide +kernel)) htokens
  have hfails := (herror _).mpr ⟨⟨nofun, nofun⟩, rfl⟩
  refine ⟨htokens, hparse 256, hfails, fun t ht => ?_⟩
  obtain ⟨-, -, -, c, hc, -⟩ := (hvalidate 256 (.condition _) (by decide +kernel) rfl t).mp ht
  exact nomatch hfails.symm.trans hc

/-- Of `>=` the second character is left over. The text is an incomplete condition where it is
the text of a rule, and the condition `a > =` where it is read as a condition. -/
theorem tail_read_as_value :
    "a".toList.all isWord = true
      ∧ Token.tokenize "a >=" = [.word "a", .word Comparison.greaterEqual.symbol]
      ∧ Tree.parse 256 "a >=" = .error (.incompleteCondition (.afterComparison "a" ">="))
      ∧ ofText "a >=" = .ok ⟨"a", .greater, "="⟩
      ∧ (Draft.condition "a >=").validate 256 = .ok (.leaf ⟨"a", .greater, "="⟩) := by
  decide +kernel

end Condition

end RecordRules
