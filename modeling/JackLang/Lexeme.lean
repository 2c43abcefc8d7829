import JackLang.Text.Letter
import JackLang.Text.CommentFree

/-!
# Lexemes

A *lexeme* is a piece of comment-free text before any name has been looked up in a
keyword set.  There are five kinds.

* A number is a run of digits.
* A name is a letter followed by letters and digits.
* A string constant stands between two double quotes and is kept without them.  It
  may hold any other character, a newline too.
* An operator is one of `+ - * / = ==`.
* A bracket is `(` or `)`.

Numbers, names and `==` are taken as long as possible.  A double quote with no
other double quote after it is skipped alone, and the text behind it is scanned as
usual.  Every other character that starts no lexeme is skipped.

`step` reads one character and what belongs to it, and `scan` repeats it.  The rest
that `step` leaves is never longer than the text behind the character
(`step_length_le`), which is why the scan ends.
-/

namespace JackLang

/-- The kinds of lexemes. -/
inductive Lexeme.Kind where
  /-- A run of digits. -/
  | number
  /-- A quoted text. -/
  | string
  /-- A letter, then letters and digits. -/
  | name
  /-- One of `+ - * / = ==`. -/
  | operator
  /-- One of `( )`. -/
  | bracket
deriving DecidableEq, Repr

/-- A piece of comment-free text. -/
structure Lexeme where
  /-- What it is. -/
  kind : Lexeme.Kind
  /-- Its characters, for a string constant those between the quotes. -/
  text : String
deriving DecidableEq, Repr

namespace Lexeme

open Text (isLetter isDigit isNameChar)

/-- The operators of one character that no longer operator starts with. -/
def isOperator (c : Char) : Bool := c = '+' || c = '-' || c = '*' || c = '/'

/-- The brackets. -/
def isBracket (c : Char) : Bool := c = '(' || c = ')'

/-- Whether a character does not end a string constant. -/
def isQuotable (c : Char) : Bool := c ≠ '"'

/-- Reading one character: the lexeme that starts with it, if one does, and what is
left of the text `rest` behind it. -/
def step (c : Char) (rest : List Char) : Option Lexeme × List Char :=
  if c = '"' then
    match rest.dropWhile isQuotable with
    | [] => (none, rest)
    | _ :: behind => (some ⟨.string, .ofList (rest.takeWhile isQuotable)⟩, behind)
  else if c = '=' then
    match rest with
    | '=' :: behind => (some ⟨.operator, "=="⟩, behind)
    | _ => (some ⟨.operator, "="⟩, rest)
  else if isOperator c then (some ⟨.operator, .singleton c⟩, rest)
  else if isBracket c then (some ⟨.bracket, .singleton c⟩, rest)
  else if isDigit c then
    (some ⟨.number, .ofList (c :: rest.takeWhile isDigit)⟩, rest.dropWhile isDigit)
  else if isLetter c then
    (some ⟨.name, .ofList (c :: rest.takeWhile isNameChar)⟩, rest.dropWhile isNameChar)
  else (none, rest)

/-- A step leaves at most the text behind the character. -/
theorem step_length_le (c : Char) (rest : List Char) :
    (step c rest).2.length ≤ rest.length := by
  have drop (p : Char → Bool) : (rest.dropWhile p).length ≤ rest.length :=
    (List.dropWhile_suffix p).length_le
  unfold step
  split
  · split
    · exact Nat.le_refl _
    · next h => have := drop isQuotable; simp [h] at this; simp; omega
  · split
    · split <;> simp
    · repeat' split
      all_goals first | exact Nat.le_refl _ | exact drop _

/-- The lexemes of a comment-free text. -/
def scan : List Char → List Lexeme
  | [] => []
  | c :: rest => (step c rest).1.toList ++ scan (step c rest).2
termination_by cs => cs.length
decreasing_by have := step_length_le c rest; simp; omega

@[simp] theorem scan_nil : scan [] = [] := by simp [scan]

theorem scan_cons (c : Char) (rest : List Char) :
    scan (c :: rest) = (step c rest).1.toList ++ scan (step c rest).2 := by
  rw [scan]

/-- The lexemes of a source text, whose comments are removed first. -/
def ofSource (source : String) : List Lexeme := scan (Text.stripComments source).toList

end Lexeme

end JackLang
