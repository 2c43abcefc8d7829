/-!
# Lines of a text

A newline ends a line.  Text after the last newline is a line of its own, unless
it is empty: `"a\nb"` and `"a\nb\n"` both have two lines, and the empty text has
none.  No other character separates lines.
-/

namespace JackLang.Text

/-- The number of lines of a list of characters. -/
def lineCountChars (cs : List Char) : Nat :=
  cs.count '\n' + match cs.getLast? with
    | none | some '\n' => 0
    | some _ => 1

/-- The number of lines of a text. -/
def lineCount (text : String) : Nat := lineCountChars text.toList

end JackLang.Text
