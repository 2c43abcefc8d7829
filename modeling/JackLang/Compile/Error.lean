import JackLang.SubroutineName

/-!
# What compilation can refuse

Three things stop a compilation: a name that is not declared, a name that is
declared twice in one scope, and, under the strict policy, a construct that has no
code.  The eight constructs without code are listed by `Construct`.

A scope is named by its class, or by its class and subroutine.  The second form
always has the dot, also for a class without a name, where the name of the
subroutine itself would be written without one.
-/

namespace JackLang

/-- The constructs for which no code is generated. -/
inductive Construct where
  /-- An assignment to an element of an array. -/
  | indexedAssignment
  /-- An assignment to a static variable. -/
  | staticAssignment
  /-- The value of a static variable. -/
  | staticReference
  /-- A returned value other than `this`. -/
  | returnExpression
  /-- A string constant. -/
  | stringConstant
  /-- A keyword constant. -/
  | keywordConstant
  /-- A unary operator with its operand. -/
  | unaryTerm
  /-- A binary operator other than the four of arithmetic. -/
  | operator
deriving DecidableEq, Repr

/-- The words for a construct in messages. -/
def Construct.text : Construct → String
  | .indexedAssignment => "indexed assignment"
  | .staticAssignment => "static assignment"
  | .staticReference => "static reference"
  | .returnExpression => "return expression"
  | .stringConstant => "string constant"
  | .keywordConstant => "keyword constant"
  | .unaryTerm => "unary term"
  | .operator => "comparison or logical operator"

/-- The name of a scope. -/
inductive ScopeName where
  /-- The scope of a class. -/
  | ofClass (className : String)
  /-- The scope of a subroutine of a class. -/
  | ofSubroutine (className subroutine : String)
deriving DecidableEq, Repr

/-- The name of a scope as it is written. -/
def ScopeName.text : ScopeName → String
  | .ofClass className => className
  | .ofSubroutine className subroutine => className ++ "." ++ subroutine

/-- Why a class does not compile. -/
inductive CompileError where
  /-- A name that is not declared is used in a subroutine. -/
  | unresolved (name : String) (place : SubroutineName)
  /-- A name is declared a second time in a scope. -/
  | redeclared (name : String) (scope : ScopeName)
  /-- A construct without code is used in a subroutine. -/
  | unsupported (construct : Construct) (place : SubroutineName)
deriving DecidableEq, Repr

/-- The wording of an error. -/
def CompileError.message : CompileError → String
  | .unresolved name place => "unresolved symbol '" ++ name ++ "' in " ++ place.text
  | .redeclared name scope => "'" ++ name ++ "' is already declared in " ++ scope.text
  | .unsupported construct place => "unsupported " ++ construct.text ++ " in " ++ place.text

end JackLang
