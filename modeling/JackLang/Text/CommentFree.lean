/-!
# Comment-free text

A line comment starts at `//` and goes up to the end of the line; the newline is
not part of it.  A block comment starts at `/*` and goes up to the next `*/`,
which is searched for only after the two opening characters, so `/*/` opens a
comment and does not close it.  Block comments do not nest, and one that is never
closed takes the rest of the text.  Quotes mean nothing here: an opener inside a
string constant opens a comment all the same.

The text is read from left to right in one of three modes.  `strip` keeps what is
read in mode `code`, and the newline that ends a line comment.  `modeAfter` is the
mode the reading ends in.
-/

namespace JackLang.Text

namespace CommentFree

/-- Where a reader of the text stands. -/
inductive Mode where
  /-- Outside of comments. -/
  | code
  /-- Between `//` and the end of the line. -/
  | line
  /-- Between `/*` and `*/`. -/
  | block
deriving DecidableEq, Repr

/-- The characters that remain when a text is read from a mode on. -/
def strip : Mode → List Char → List Char
  | _, [] => []
  | .code, '/' :: '/' :: rest => strip .line rest
  | .code, '/' :: '*' :: rest => strip .block rest
  | .code, c :: rest => c :: strip .code rest
  | .line, '\n' :: rest => '\n' :: strip .code rest
  | .line, _ :: rest => strip .line rest
  | .block, '*' :: '/' :: rest => strip .code rest
  | .block, _ :: rest => strip .block rest

/-- The mode in which a text that is read from a mode on ends. -/
def modeAfter : Mode → List Char → Mode
  | mode, [] => mode
  | .code, '/' :: '/' :: rest => modeAfter .line rest
  | .code, '/' :: '*' :: rest => modeAfter .block rest
  | .code, _ :: rest => modeAfter .code rest
  | .line, '\n' :: rest => modeAfter .code rest
  | .line, _ :: rest => modeAfter .line rest
  | .block, '*' :: '/' :: rest => modeAfter .code rest
  | .block, _ :: rest => modeAfter .block rest

end CommentFree

/-- A text without its comments. -/
def stripComments (source : String) : String :=
  .ofList (CommentFree.strip .code source.toList)

@[simp] theorem toList_stripComments (source : String) :
    (stripComments source).toList = CommentFree.strip .code source.toList :=
  String.toList_ofList

end JackLang.Text
