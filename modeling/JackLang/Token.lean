import JackLang.Keywords
import JackLang.Lexeme

/-!
# Tokens

A *token* is a lexeme whose name, if it is one, has been looked up in a keyword
set: a name of the set is a keyword, any other an identifier.  The remaining kinds
and all texts stay as they are.

`Token.tokenize` gives the tokens of a source text.  `Token.render` goes the other
way and writes tokens with one blank between them, string constants in quotes.
-/

namespace JackLang

/-- The kinds of tokens. -/
inductive Token.Kind where
  /-- A run of digits. -/
  | number
  /-- A quoted text. -/
  | string
  /-- A name of the keyword set. -/
  | keyword
  /-- A name outside of the keyword set. -/
  | identifier
  /-- One of `+ - * / = ==`. -/
  | operator
  /-- One of `( )`. -/
  | bracket
deriving DecidableEq, Repr

/-- A classified piece of source text. -/
structure Token where
  /-- What it is. -/
  kind : Token.Kind
  /-- Its characters, for a string constant those between the quotes. -/
  text : String
deriving DecidableEq, Repr

namespace Token

/-- The name of a kind in messages. -/
def Kind.label : Kind → String
  | .number => "Number"
  | .string => "StringConstant"
  | .keyword => "Keyword"
  | .identifier => "Identifier"
  | .operator => "Operator"
  | .bracket => "Bracket"

/-- The kind a lexeme has under a keyword set. -/
def Kind.ofLexeme (keywords : Keywords) (lexeme : Lexeme) : Kind :=
  match lexeme.kind with
  | .number => .number
  | .string => .string
  | .name => if lexeme.text ∈ keywords then .keyword else .identifier
  | .operator => .operator
  | .bracket => .bracket

/-- A lexeme as a token. -/
def ofLexeme (keywords : Keywords) (lexeme : Lexeme) : Token :=
  ⟨.ofLexeme keywords lexeme, lexeme.text⟩

/-- The tokens of a source text. -/
def tokenize (keywords : Keywords) (source : String) : List Token :=
  (Lexeme.ofSource source).map (ofLexeme keywords)

/-- A token as it is written in a program. -/
def display (token : Token) : String :=
  match token.kind with
  | .string => "\"" ++ token.text ++ "\""
  | _ => token.text

/-- Tokens written with one blank between two of them. -/
def render : List Token → String
  | [] => ""
  | [token] => token.display
  | token :: rest => token.display ++ " " ++ render rest

end Token

end JackLang
