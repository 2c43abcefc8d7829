import JackLang.Compile.Emit
import JackLang.Expr.Basic
import JackLang.Symbol

/-!
# Code of expressions

The code of an expression leaves its value on the stack: the code of the first
term, the code of the remaining chain, and then the operator between them.  So the
last operator of a flat chain is written first.

A construct without code is a *gap*.  The policy decides what happens at a gap:
`skip` notes it and goes on, `reject` stops the compilation.  Whatever is below a
gap (the text of a string, the operand of a unary operator) is not looked at.
-/

namespace JackLang

/-- What to do about constructs without code. -/
inductive Policy where
  /-- Note them and write nothing for them. -/
  | skip
  /-- Refuse them. -/
  | reject
deriving DecidableEq, Repr

/-- What the code of a body depends on. -/
structure Env where
  /-- What to do at a gap. -/
  policy : Policy
  /-- The subroutine being compiled. -/
  place : SubroutineName
  /-- The symbols of its variables. -/
  lookup : String → Option Symbol

namespace Env

/-- The symbol of a name that must be declared. -/
def resolve (env : Env) (name : String) : Emit Symbol :=
  match env.lookup name with
  | some symbol => pure symbol
  | none => .fail (.unresolved name env.place)

/-- Meets a construct without code. -/
def gap (env : Env) (construct : Construct) : Emit Unit :=
  match env.policy with
  | .skip => .note (.noCode env.place construct)
  | .reject => .fail (.unsupported construct env.place)

end Env

/-- The code of an operator behind its two operands. -/
def BinOp.compile (env : Env) : BinOp → Emit Unit
  | .add => .instr (.command .add)
  | .sub => .instr (.command .sub)
  | .mul => .instr (.call "Math.multiply" 2)
  | .div => .instr (.call "Math.divide" 2)
  | .and | .or | .less | .greater | .equal => env.gap .operator

/-- The code of a variable's value. -/
def Symbol.compileLoad (env : Env) (symbol : Symbol) : Emit Unit :=
  if symbol.storage = .static then env.gap .staticReference
  else .instr (.push symbol.segment symbol.index)

mutual

/-- The code of a term. -/
def Term.compile (env : Env) : Term → Emit Unit
  | .int value => .instr (.push .constant value.toNat)
  | .string _ => env.gap .stringConstant
  | .keyword _ => env.gap .keywordConstant
  | .var name => do
      let symbol ← env.resolve name
      symbol.compileLoad env
  | .paren inner => inner.compile env
  | .unary _ _ => env.gap .unaryTerm

/-- The code of an expression. -/
def Expr.compile (env : Env) : Expr → Emit Unit
  | .single term => term.compile env
  | .binary term op rest => do
      term.compile env
      rest.compile env
      op.compile env

end

/-- The code of several expressions in order. -/
def Expr.compileAll (env : Env) : List Expr → Emit Unit
  | [] => pure ()
  | e :: rest => do
      e.compile env
      Expr.compileAll env rest

end JackLang
