/-!
# Blanks

A **blank** is a character of the Unicode property `White_Space`: twenty-five
characters, the ASCII blanks among them. Blanks separate the words of a rule,
and a text is *trimmed* by dropping the blanks at both of its ends.

All functions work on lists of characters; `Text.trim` and `Text.IsBlank` are
their readings on strings.
-/

namespace RecordRules.Text

/-- The characters of the property `White_Space`, in ascending order. -/
def blanks : List Char :=
  ['\u0009', '\u000a', '\u000b', '\u000c', '\u000d', '\u0020', '\u0085',
   '\u00a0', '\u1680', '\u2000', '\u2001', '\u2002', '\u2003', '\u2004',
   '\u2005', '\u2006', '\u2007', '\u2008', '\u2009', '\u200a', '\u2028',
   '\u2029', '\u202f', '\u205f', '\u3000']

/-- Whether the character is a blank. -/
def isBlank (c : Char) : Bool := blanks.contains c

/-- The characters without the leading blanks. -/
def dropBlanks (cs : List Char) : List Char := cs.dropWhile isBlank

/-- The characters without the leading and the trailing blanks. -/
def strip (cs : List Char) : List Char :=
  (dropBlanks (dropBlanks cs).reverse).reverse

/-- **The text without the blanks at its ends.** -/
def trim (text : String) : String := String.ofList (strip text.toList)

/-- Whether the text holds nothing but blanks; the empty text does not hold
even those. -/
def isBlankText (text : String) : Bool := text.toList.all isBlank

@[simp] theorem toList_trim (text : String) :
    (trim text).toList = strip text.toList := by
  simp [trim]

@[simp] theorem dropBlanks_nil : dropBlanks [] = [] := rfl

theorem dropBlanks_cons (c : Char) (cs : List Char) :
    dropBlanks (c :: cs) = if isBlank c then dropBlanks cs else c :: cs := by
  simp only [dropBlanks, List.dropWhile_cons]

end RecordRules.Text
