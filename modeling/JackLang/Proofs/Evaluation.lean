import JackLang.Expr.Basic
import JackLang.Vm.Machine

/-!
# Values of expressions

The value of an expression is a word of 16 bits.  It is computed from the left: the
first term, then the whole remaining chain, then the operator between them.  The
four operators of arithmetic are those of the integers, and the result is cut to 16
bits.  The quotient goes toward zero.

An evaluation may have a *fault*, which is that of the machine: a variable outside
of its segment, a division by zero, or the one quotient that is no word.  The first
fault in the order of evaluation is the one that counts.  Constructs outside of
arithmetic have no value at all (`EvalError.noValue`), and neither have names that
stand for nothing.  What a name stands for is a parameter of the evaluation, so that
the same rules serve memory segments and named variables.
-/

namespace JackLang

/-- Why an expression has no value. -/
inductive EvalError where
  /-- Computing the value has a fault. -/
  | fault (f : Vm.Fault)
  /-- There is nothing to compute. -/
  | noValue
deriving DecidableEq, Repr

/-- What names stand for. -/
abbrev Reading := String → Except EvalError Int16

namespace BinOp

/-- Whether an operator is one of arithmetic. -/
def isArithmetic : BinOp → Bool
  | .add | .sub | .mul | .div => true
  | .and | .or | .less | .greater | .equal => false

/-- The value of an operator on two words. -/
def apply (op : BinOp) (a b : Int16) : Except EvalError Int16 :=
  match op with
  | .add => .ok (.ofInt (a.toInt + b.toInt))
  | .sub => .ok (.ofInt (a.toInt - b.toInt))
  | .mul => .ok (.ofInt (a.toInt * b.toInt))
  | .div =>
      if b.toInt = 0 then .error (.fault .divisionByZero)
      else if a.toInt = -32768 ∧ b.toInt = -1 then .error (.fault .divisionOverflow)
      else .ok (.ofInt (a.toInt.tdiv b.toInt))
  | .and | .or | .less | .greater | .equal => .error .noValue

end BinOp

/-! ## Evaluation -/

mutual

/-- The value of a term.  A constant beyond the largest word wraps around. -/
def Term.eval (read : Reading) : Term → Except EvalError Int16
  | .int value => .ok (.ofInt value.toNat)
  | .var name => read name
  | .paren inner => inner.eval read
  | .string _ | .keyword _ | .unary _ _ => .error .noValue

/-- The value of an expression. -/
def Expr.eval (read : Reading) : Expr → Except EvalError Int16
  | .single term => term.eval read
  | .binary term op rest => do
      let a ← term.eval read
      let b ← rest.eval read
      op.apply a b

end

/-! ## What an expression is made of -/

mutual

/-- Whether a term is made of constants, variables, parentheses and arithmetic. -/
def Term.isArithmetic : Term → Bool
  | .int _ | .var _ => true
  | .paren inner => inner.isArithmetic
  | .string _ | .keyword _ | .unary _ _ => false

/-- Whether an expression is made of constants, variables, parentheses and
arithmetic. -/
def Expr.isArithmetic : Expr → Bool
  | .single term => term.isArithmetic
  | .binary term op rest => term.isArithmetic && rest.isArithmetic && op.isArithmetic

end

mutual

/-- The variables of a term from left to right, less those below a unary operator. -/
def Term.vars : Term → List String
  | .var name => [name]
  | .paren inner => inner.vars
  | .int _ | .string _ | .keyword _ | .unary _ _ => []

/-- The variables of an expression from left to right, less those below a unary
operator. -/
def Expr.vars : Expr → List String
  | .single term => term.vars
  | .binary term _ rest => term.vars ++ rest.vars

end

mutual

/-- The value of a term depends on its own variables only. -/
theorem Term.eval_congr {read read' : Reading} :
    ∀ {t : Term}, (∀ x ∈ t.vars, read x = read' x) → t.eval read = t.eval read'
  | .int _, _ => by rw [Term.eval, Term.eval]
  | .string _, _ => by rw [Term.eval, Term.eval]
  | .keyword _, _ => by rw [Term.eval, Term.eval]
  | .var name, h => by
      rw [Term.eval, Term.eval]
      exact h name (by simp [Term.vars])
  | .paren inner, h => by
      rw [Term.eval, Term.eval]
      exact Expr.eval_congr (by simpa [Term.vars] using h)
  | .unary _ _, _ => by rw [Term.eval, Term.eval]

/-- The value of an expression depends on its own variables only. -/
theorem Expr.eval_congr {read read' : Reading} :
    ∀ {e : Expr}, (∀ x ∈ e.vars, read x = read' x) → e.eval read = e.eval read'
  | .single term, h => by
      rw [Expr.eval, Expr.eval]
      exact Term.eval_congr (by simpa [Expr.vars] using h)
  | .binary term op rest, h => by
      rw [Expr.vars] at h
      have hterm : term.eval read = term.eval read' :=
        Term.eval_congr fun x hx => h x (List.mem_append_left _ hx)
      have hrest : rest.eval read = rest.eval read' :=
        Expr.eval_congr fun x hx => h x (List.mem_append_right _ hx)
      rw [Expr.eval, Expr.eval, hterm, hrest]

end

/-! ## The machine's arithmetic -/

/-- The machine's quotient is that of the integers. -/
theorem BinOp.apply_div (a b : Int16) :
    BinOp.div.apply a b = (Vm.Machine.divide a b).mapError EvalError.fault := by
  have hzero : b.toInt = 0 ↔ b = 0 := by rw [← Int16.toInt_zero, Int16.toInt_inj]
  have hleast : a.toInt = -32768 ↔ a = Int16.minValue := by
    rw [← Int16.toInt_inj, Int16.toInt_minValue]; rfl
  have hminus : b.toInt = -1 ↔ b = -1 := by
    rw [← Int16.toInt_inj]; rfl
  simp only [BinOp.apply, Vm.Machine.divide, hzero, hleast, hminus]
  split
  · rfl
  · next hb =>
      split
      · rfl
      · next hover =>
          have hdiv : Int16.ofInt (a.toInt.tdiv b.toInt) = a / b := by
            rw [← Int16.toInt_inj, Int16.toInt_ofInt, Int16.toInt_div]
          rw [hdiv]
          rfl

end JackLang
