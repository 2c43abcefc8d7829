/-!
# Operators and keyword constants

The nine binary operators of Jack, its two unary operators, and the four keywords
that stand for a value.  Each has one symbol.  Equality has a second spelling,
`==`, which reads as the same operator and is never printed.
-/

namespace JackLang

/-- The binary operators. -/
inductive BinOp where
  | add | sub | mul | div | and | or | less | greater | equal
deriving DecidableEq, Repr

namespace BinOp

/-- The symbol of an operator. -/
def symbol : BinOp → String
  | .add => "+"
  | .sub => "-"
  | .mul => "*"
  | .div => "/"
  | .and => "&"
  | .or => "|"
  | .less => "<"
  | .greater => ">"
  | .equal => "="

/-- The operator a symbol spells. -/
def ofSymbol? : String → Option BinOp
  | "+" => some .add
  | "-" => some .sub
  | "*" => some .mul
  | "/" => some .div
  | "&" => some .and
  | "|" => some .or
  | "<" => some .less
  | ">" => some .greater
  | "=" | "==" => some .equal
  | _ => none

/-- An operator is spelled by its symbol. -/
@[simp] theorem ofSymbol?_symbol (op : BinOp) : ofSymbol? op.symbol = some op := by
  cases op <;> rfl

end BinOp

/-- The unary operators. -/
inductive UnOp where
  | neg | not
deriving DecidableEq, Repr

namespace UnOp

/-- The symbol of an operator. -/
def symbol : UnOp → String
  | .neg => "-"
  | .not => "~"

/-- The operator a symbol spells. -/
def ofSymbol? : String → Option UnOp
  | "-" => some .neg
  | "~" => some .not
  | _ => none

/-- An operator is spelled by its symbol. -/
@[simp] theorem ofSymbol?_symbol (op : UnOp) : ofSymbol? op.symbol = some op := by
  cases op <;> rfl

end UnOp

/-- The keywords that stand for a value. -/
inductive KeywordConst where
  | true | false | null | this
deriving DecidableEq, Repr

namespace KeywordConst

/-- The keyword. -/
def word : KeywordConst → String
  | .true => "true"
  | .false => "false"
  | .null => "null"
  | .this => "this"

/-- The constant a keyword stands for. -/
def ofWord? : String → Option KeywordConst
  | "true" => some .true
  | "false" => some .false
  | "null" => some .null
  | "this" => some .this
  | _ => none

/-- A constant is spelled by its keyword. -/
@[simp] theorem ofWord?_word (k : KeywordConst) : ofWord? k.word = some k := by
  cases k <;> rfl

end KeywordConst

end JackLang
