import JackLang.Compile.Class
import JackLang.Expr.Reader
import JackLang.Vm.Machine

/-!
# A calculator

An expression text can be run by making it the body of a program: a class `Main`
with one function `run`, which assigns the value of the expression to its first
local variable `result` and returns.  More local variables can be declared for the
expression to use.
-/

namespace JackLang.Calculator

/-- Why a text is not an expression. -/
structure Refusal where
  /-- The number of its tokens. -/
  tokenCount : Nat
  /-- Why the tokens spell no expression. -/
  cause : ReadError
deriving DecidableEq, Repr

/-- The wording of a refusal. -/
def Refusal.message (r : Refusal) : String := r.cause.message r.tokenCount

/-- The expression that a text spells. -/
def read (text : String) : Except Refusal Expr :=
  let tokens := Token.tokenize .jack text
  match Expr.ofTokens tokens with
  | .ok e => .ok e
  | .error cause => .error ⟨tokens.length, cause⟩

/-- The function that computes an expression. -/
def function (locals : List String) (e : Expr) : Subroutine where
  kind := .function
  name := "run"
  returns := none
  params := []
  locals := [⟨.int, "result" :: locals⟩]
  body := [.assign "result" none e, .ret none]

/-- The class of that function. -/
def program (locals : List String) (e : Expr) : Class where
  name := "Main"
  vars := []
  subroutines := [function locals e]

end JackLang.Calculator
