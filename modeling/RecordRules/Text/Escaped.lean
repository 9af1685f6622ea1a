import RecordRules.Text.Visible

/-!
# Escaped texts

A text is shown to a reader **escaped**: between double quotes, with the
double quote, the backslash and the common control characters after a
backslash, and what else is not visible – other control characters, blanks that
are no spaces, combining marks, unassigned characters – by its code. So all that
is shown is visible (`isVisible_of_mem_escaped`).
-/

namespace RecordRules.Text

/-- The digits of a number, of lower case. -/
def hexDigits (n : Nat) : List Char := Nat.toDigits 16 n

theorem isVisible_of_mem_hexDigits {n : Nat} {c : Char} (h : c ∈ hexDigits n) :
    isVisible c = true := by
  have digit : ∀ d < 16, isVisible d.digitChar = true := by decide +kernel
  induction n using Nat.strongRecOn with
  | ind n ih =>
    rw [hexDigits, Nat.toDigits_eq_if (by decide)] at h
    split at h
    case isTrue hn =>
      rw [List.mem_singleton.1 h]
      exact digit n hn
    case isFalse hn =>
      rcases List.mem_append.1 h with hinit | hlast
      · exact ih (n / 16) (by omega) hinit
      · rw [List.mem_singleton.1 hlast]
        exact digit (n % 16) (Nat.mod_lt n (by decide))

/-- The character as it is shown. -/
def escapeChar (c : Char) : List Char :=
  match c with
  | '"' => ['\\', '"']
  | '\\' => ['\\', '\\']
  | '\t' => ['\\', 't']
  | '\n' => ['\\', 'n']
  | '\r' => ['\\', 'r']
  | '\u0000' => ['\\', '0']
  | c =>
    if isVisible c then [c]
    else ['\\', 'u', '\x7b'] ++ hexDigits c.toNat ++ ['\x7d']

theorem isVisible_of_mem_escapeChar {c d : Char} (h : d ∈ escapeChar c) :
    isVisible d = true := by
  have marks : (['"', '\\', 't', 'n', 'r', '0', 'u', '\x7b', '\x7d'].all isVisible) = true := by
    decide +kernel
  simp only [List.all_cons, List.all_nil, Bool.and_eq_true] at marks
  unfold escapeChar at h
  split at h
  -- The characters without an escape of their own.
  case h_7 =>
    split at h
    case isTrue hvisible => rwa [List.mem_singleton.1 h]
    case isFalse =>
      simp only [List.mem_append, List.mem_cons, List.not_mem_nil, or_false] at h
      rcases h with ((rfl | rfl | rfl) | hdigit) | rfl
      case inl.inr => exact isVisible_of_mem_hexDigits hdigit
      all_goals simp only [marks]
  all_goals
    simp only [List.mem_cons, List.not_mem_nil, or_false] at h
    rcases h with rfl | rfl <;> simp only [marks]

/-- **The text as it is shown.** -/
def escaped (text : String) : String :=
  String.ofList ('"' :: (text.toList.flatMap escapeChar ++ ['"']))

/-- **Whatever the text is, what is shown of it is visible.** -/
theorem isVisible_of_mem_escaped {text : String} {c : Char}
    (h : c ∈ (escaped text).toList) : isVisible c = true := by
  have quote : isVisible '"' = true := by decide +kernel
  simp only [escaped, String.toList_ofList, List.mem_cons, List.mem_append, List.mem_flatMap,
    List.not_mem_nil, or_false] at h
  rcases h with rfl | ⟨source, -, hshown⟩ | rfl
  · exact quote
  · exact isVisible_of_mem_escapeChar hshown
  · exact quote

example : escaped "e\u0301 \u200bé" = "\"e\\u\x7b301\x7d \\u\x7b200b\x7dé\"" := by
  decide +kernel

end RecordRules.Text
