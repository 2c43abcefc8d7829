import JackLang.Expr.Basic

/-!
# Flat chains

The flat form of an expression is the list of its terms and operators from left to
right.  `Expr.elements` reads it off an expression, and `Expr.ofElements` builds
the expression from it.

Not every list is a chain.  It must have an odd number of elements, terms at the
even positions and operators at the odd ones.  The causes of a refusal are checked
in a fixed order: first that there is an element at all, then the parity of the
length, then the elements from left to right, so that of several misplaced ones
the first is reported.
-/

namespace JackLang

/-- A term or an operator of a flat chain. -/
inductive Element where
  /-- A term. -/
  | term (term : Term)
  /-- An operator. -/
  | op (op : BinOp)
deriving DecidableEq, Repr

/-- Why a list of elements is not a chain. -/
inductive ChainError where
  /-- There are no elements. -/
  | empty
  /-- The number of elements is even. -/
  | evenLength (length : Nat)
  /-- An operator stands where a term belongs. -/
  | expectedTerm (position : Nat)
  /-- A term stands where an operator belongs. -/
  | expectedOperator (position : Nat)
deriving DecidableEq, Repr

/-- The wording of a refusal. -/
def ChainError.message : ChainError → String
  | .empty => "expression has no elements"
  | .evenLength length =>
      "expression has an even number of elements (" ++ length.repr ++ ")"
  | .expectedTerm position => "expected a term at element " ++ position.repr
  | .expectedOperator position => "expected an operator at element " ++ position.repr

/-- The cause of a refusal as a failed assumption names it. -/
def ChainError.label : ChainError → String
  | .empty => "EmptyExpression"
  | .evenLength length => "EvenLength \x7b len: " ++ length.repr ++ " \x7d"
  | .expectedTerm position => "ExpectedTerm \x7b position: " ++ position.repr ++ " \x7d"
  | .expectedOperator position => "ExpectedOperator \x7b position: " ++ position.repr ++ " \x7d"

namespace Expr

/-- The terms and operators of an expression from left to right. -/
def elements : Expr → List Element
  | .single term => [.term term]
  | .binary term op rest => .term term :: .op op :: rest.elements

/-- The chain of a list whose first element has the given position.  The list is
meant to have odd length; the last case only serves lists that end behind an
operator. -/
def chainFrom (position : Nat) : List Element → Except ChainError Expr
  | [.term term] => .ok (.single term)
  | .term term :: .op op :: rest =>
      match chainFrom (position + 2) rest with
      | .ok chain => .ok (.binary term op chain)
      | .error e => .error e
  | .term _ :: .term _ :: _ => .error (.expectedOperator (position + 1))
  | .op _ :: _ => .error (.expectedTerm position)
  | [] => .error .empty

/-- The expression of a flat chain. -/
def ofElements (elements : List Element) : Except ChainError Expr :=
  if elements.isEmpty then .error .empty
  else if elements.length % 2 = 0 then .error (.evenLength elements.length)
  else chainFrom 0 elements

end Expr

end JackLang
