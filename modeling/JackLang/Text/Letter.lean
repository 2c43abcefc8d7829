import JackLang.Text.Alphabetic

/-!
# Letters and digits

Three classes of characters decide how Jack text is cut into pieces.  A *letter*
is a character with the Unicode property Alphabetic.  A *digit* is one of the ten
ASCII digits, and no other decimal digit of Unicode counts.  A *name character*
is a letter or a digit.

`isLetter_of_ascii` says that among ASCII characters the letters are the 52 Latin
ones, so that no blank, quote, bracket or operator is a name character.
-/

namespace JackLang.Text

/-- Whether a character is a letter. -/
def isLetter (c : Char) : Bool :=
  if c.toNat < 0x80 then c.isAlpha else Alphabetic.beyondAscii c.toNat

/-- Whether a character is an ASCII digit. -/
def isDigit (c : Char) : Bool := c.isDigit

/-- Whether a character may stand in a name after the first. -/
def isNameChar (c : Char) : Bool := isLetter c || isDigit c

/-- Among ASCII characters the letters are the Latin ones. -/
theorem isLetter_of_ascii {c : Char} (h : c.toNat < 0x80) : isLetter c = c.isAlpha := by
  simp [isLetter, h]

/-- A letter may stand anywhere in a name. -/
theorem isNameChar_of_isLetter {c : Char} (h : isLetter c = true) : isNameChar c = true := by
  simp [isNameChar, h]

end JackLang.Text
