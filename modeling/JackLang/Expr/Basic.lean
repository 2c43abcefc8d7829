import JackLang.Operator

/-!
# Expressions

Jack has no operator precedence.  An expression is a *chain* of terms with
operators between them, and the chain nests to the right: `a - b - c` is the term
`a`, the operator `-` and the remaining chain `b - c`.  A term is a constant, a
variable, an expression in parentheses, or a unary operator with its term.

Terms and expressions are one mutual family, so definitions over them come in
pairs and recurse structurally.  `Term.text` and `Expr.text` print them: one blank
on each side of a binary operator, none after a unary one or inside parentheses,
and string constants in double quotes.
-/

namespace JackLang

mutual

/-- A single operand. -/
inductive Term where
  /-- An integer constant of 16 bits. -/
  | int (value : UInt16)
  /-- A string constant, without its quotes. -/
  | string (text : String)
  /-- A keyword that stands for a value. -/
  | keyword (constant : KeywordConst)
  /-- A variable. -/
  | var (name : String)
  /-- An expression in parentheses. -/
  | paren (inner : Expr)
  /-- A unary operator and its operand. -/
  | unary (op : UnOp) (operand : Term)

/-- A chain of terms. -/
inductive Expr where
  /-- The last term of a chain. -/
  | single (term : Term)
  /-- A term, an operator and the remaining chain. -/
  | binary (term : Term) (op : BinOp) (rest : Expr)

end

deriving instance DecidableEq, Repr for Term, Expr

instance : Inhabited Term := ⟨.int 0⟩

instance : Inhabited Expr := ⟨.single default⟩

mutual

/-- A term as it is written. -/
def Term.text : Term → String
  | .int value => value.toNat.repr
  | .string text => "\"" ++ text ++ "\""
  | .keyword constant => constant.word
  | .var name => name
  | .paren inner => "(" ++ inner.text ++ ")"
  | .unary op operand => op.symbol ++ operand.text

/-- An expression as it is written. -/
def Expr.text : Expr → String
  | .single term => term.text
  | .binary term op rest => term.text ++ " " ++ op.symbol ++ " " ++ rest.text

end

/-- The term of an expression without operators. -/
def Expr.singleTerm? : Expr → Option Term
  | .single term => some term
  | .binary .. => none

end JackLang
