import JackLang.Expr.Chain
import JackLang.Token

/-!
# Reading expressions from tokens

An expression is read from left to right by recursive descent.  A term is a
number, an identifier, a string constant, or a chain between parentheses.  A chain
is a term, and as long as an operator follows, that operator and the next term.
Unary terms and keyword constants have no spelling here.

A chain is first read as a flat list (`readElements`) and then built from it
(`readChain`).  Each reader returns what it read and the tokens behind it, which
are fewer than it was given.  That is the type `Rest`, and it is why reading ends.
The first token that does not fit decides the error.
-/

namespace JackLang

/-- Why tokens do not spell an expression. -/
inductive ReadError where
  /-- The tokens end where a term belongs. -/
  | missingTerm
  /-- A token stands where a term belongs and starts none. -/
  | unexpected (token : Token)
  /-- A number has no text. -/
  | noDigits
  /-- A number does not fit into 16 bits. -/
  | tooLarge
  /-- The text of a number is not made of digits. -/
  | notDecimal
  /-- The text of an operator is not a binary operator. -/
  | notBinary (symbol : String)
  /-- The terms and operators that were read make no chain. -/
  | notChain (cause : ChainError)
  /-- A chain in parentheses is not followed by a closing one. -/
  | unclosed
  /-- Tokens follow a complete expression. -/
  | leftOver
deriving DecidableEq, Repr

/-- The wording of an error, where `count` is the number of tokens. -/
def ReadError.message (count : Nat) : ReadError → String
  | .missingTerm =>
      "index out of bounds: the len is " ++ count.repr ++ " but the index is " ++ count.repr
  | .unexpected token => "unexpected token " ++ token.kind.label ++ "(\"" ++ token.text ++ "\")"
  | .noDigits => "16-bit constant: ParseIntError \x7b kind: Empty \x7d"
  | .tooLarge => "16-bit constant: ParseIntError \x7b kind: PosOverflow \x7d"
  | .notDecimal => "16-bit constant: ParseIntError \x7b kind: InvalidDigit \x7d"
  | .notBinary symbol => "not a binary operator: " ++ symbol
  | .notChain cause => "well-formed chain: " ++ cause.label
  | .unclosed | .leftOver => "assertion failed"

namespace Expr

/-- The constant that digits spell behind others with the given value.  The first
character that is no digit or makes the value too large decides the error. -/
def readDigits (value : Nat) : List Char → Except ReadError UInt16
  | [] => .ok (.ofNat value)
  | c :: rest =>
      let next := 10 * value + (c.toNat - '0'.toNat)
      if !Text.isDigit c then .error .notDecimal
      else if next ≤ 65535 then readDigits next rest
      else .error .tooLarge

/-- The constant a number spells.  Leading zeros are allowed, and so is one plus
sign before the digits. -/
def readInt (text : String) : Except ReadError UInt16 :=
  match text.toList with
  | [] => .error .noDigits
  | ['+'] => .error .notDecimal
  | '+' :: digits => readDigits 0 digits
  | digits => readDigits 0 digits

/-- The operator a symbol spells. -/
def readOp (symbol : String) : Except ReadError BinOp :=
  match BinOp.ofSymbol? symbol with
  | some op => .ok op
  | none => .error (.notBinary symbol)

/-- Tokens that remain behind a part of `tokens`. -/
abbrev Rest (tokens : List Token) := { rest : List Token // rest.length < tokens.length }

mutual

/-- Reads one term. -/
def readTerm (tokens : List Token) : Except ReadError (Term × Rest tokens) :=
  match tokens with
  | [] => .error .missingTerm
  | ⟨.number, text⟩ :: rest =>
      match readInt text with
      | .ok value => .ok (.int value, ⟨rest, by simp⟩)
      | .error e => .error e
  | ⟨.identifier, name⟩ :: rest => .ok (.var name, ⟨rest, by simp⟩)
  | ⟨.string, text⟩ :: rest => .ok (.string text, ⟨rest, by simp⟩)
  | ⟨.bracket, text⟩ :: inside =>
      if text = "(" then
        match readChain inside with
        | .ok (inner, ⟨⟨.bracket, close⟩ :: rest, h⟩) =>
            if close = ")" then .ok (.paren inner, ⟨rest, by simp at h ⊢; omega⟩)
            else .error .unclosed
        | .ok _ => .error .unclosed
        | .error e => .error e
      else .error (.unexpected ⟨.bracket, text⟩)
  | token :: _ => .error (.unexpected token)
termination_by (tokens.length, 0)

/-- Reads the terms and operators of one chain. -/
def readElements (tokens : List Token) : Except ReadError (List Element × Rest tokens) :=
  match readTerm tokens with
  | .ok (term, ⟨⟨.operator, symbol⟩ :: behind, h⟩) =>
      match readOp symbol with
      | .ok op =>
          match readElements behind with
          | .ok (elements, ⟨rest, h'⟩) =>
              .ok (.term term :: .op op :: elements, ⟨rest, by simp at h; omega⟩)
          | .error e => .error e
      | .error e => .error e
  | .ok (term, rest) => .ok ([.term term], rest)
  | .error e => .error e
termination_by (tokens.length, 1)
decreasing_by
  · exact Prod.Lex.right _ (by omega)
  · simp at h; exact Prod.Lex.left _ _ (by omega)

/-- Reads one chain. -/
def readChain (tokens : List Token) : Except ReadError (Expr × Rest tokens) :=
  match readElements tokens with
  | .ok (elements, rest) =>
      match ofElements elements with
      | .ok chain => .ok (chain, rest)
      | .error cause => .error (.notChain cause)
  | .error e => .error e
termination_by (tokens.length, 2)

end

/-- The expression that a whole list of tokens spells. -/
def ofTokens (tokens : List Token) : Except ReadError Expr :=
  match readChain tokens with
  | .ok (chain, ⟨[], _⟩) => .ok chain
  | .ok _ => .error .leftOver
  | .error e => .error e

end Expr

end JackLang
