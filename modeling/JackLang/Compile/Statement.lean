import JackLang.Class
import JackLang.Compile.Expr

/-!
# Code of statements

A `do` pushes its arguments, calls a subroutine of the same class whatever its
receiver is, and drops the result.  A `let` computes its value and stores it.  A
`return` pushes 0, or the object for `return this`, and returns.

The target of a `let` is looked up before anything else.  An indexed target and a
static one are gaps.  When they are skipped the value is computed and not stored.
A returned value other than `this` is a gap as well, and it is not computed.
-/

namespace JackLang

/-- Whether an expression is `this`. -/
def Expr.isThis (e : Expr) : Bool := e.singleTerm? = some (.keyword .this)

/-- The gap, if there is one, in storing to a variable at an optional index. -/
def Symbol.storeGap? (symbol : Symbol) (index : Option Expr) : Option Construct :=
  if index.isSome then some .indexedAssignment
  else if symbol.storage = .static then some .staticAssignment
  else none

namespace Statement

/-- The code of a statement. -/
def compile (env : Env) : Statement → Emit Unit
  | .call _ name args => do
      Expr.compileAll env args
      .instr (.call (SubroutineName.mk env.place.className name).text args.length)
      .instr (.pop .temp 0)
  | .assign target index value => do
      let symbol ← env.resolve target
      match symbol.storeGap? index with
      | some construct =>
          env.gap construct
          value.compile env
      | none =>
          value.compile env
          .instr (.pop symbol.segment symbol.index)
  | .ret none => do
      .instr (.push .constant 0)
      .instr .ret
  | .ret (some value) => do
      if value.isThis then .instr (.push .pointer 0) else env.gap .returnExpression
      .instr .ret

/-- The code of several statements in order. -/
def compileAll (env : Env) : List Statement → Emit Unit
  | [] => pure ()
  | s :: rest => do
      s.compile env
      compileAll env rest

end Statement

end JackLang
