import JackLang.Compile.Statement
import JackLang.Proofs.Evaluation
import JackLang.Proofs.Numbering
import Mathlib.Logic.Function.Basic

/-!
# Interpreting subroutines

A subroutine can be run without any code.  Its *store* has one value for each variable
by name: the parameters and local variables of the subroutine, and the fields of the
object.  A name that the subroutine declares hides a field of the same name.

Statements are executed in order.  A `let` evaluates its value in the current store and
changes the one variable it names.  The first `return` ends the execution, with 0 or
with the object, and an execution may also fall off the end of the body.  It is stopped
by the first evaluation that fails.  Statements other than `let` and `return` are not
interpreted.

`Names.initial` is the store that a machine starts with, and `Names.onto` writes a store
back to the segments of a machine.  Cells that belong to no variable keep their values.
-/

namespace JackLang

/-! ## Stores -/

/-- A variable of a running subroutine. -/
inductive Variable where
  /-- A parameter or local variable. -/
  | own (name : String)
  /-- A field of the object. -/
  | field (name : String)
deriving DecidableEq, Repr

/-- The values of the variables. -/
abbrev Store := Variable → Int16

/-- The names that a subroutine can use. -/
structure Names where
  /-- Its parameters in order. -/
  params : List String
  /-- Its local variables in order. -/
  locals : List String
  /-- The fields of its class in order. -/
  fields : List String
deriving DecidableEq, Repr

/-- The names that a subroutine of a class can use. -/
def Names.ofSubroutine (c : Class) (r : Subroutine) : Names :=
  ⟨r.paramNames, r.localNames, c.fieldNames⟩

namespace Names

/-- The variable of a name. -/
def resolve (names : Names) (name : String) : Option Variable :=
  if name ∈ names.params ∨ name ∈ names.locals then some (.own name)
  else if name ∈ names.fields then some (.field name)
  else none

/-- What names stand for in a store. -/
def reading (names : Names) (store : Store) : Reading := fun name =>
  match names.resolve name with
  | some v => .ok (store v)
  | none => .error .noValue

/-! ## Execution -/

/-- How the execution of statements ends. -/
inductive Ending where
  /-- Behind the last statement. -/
  | fellOff
  /-- With a `return` of a value. -/
  | returned (value : Int16)
  /-- With an evaluation that fails. -/
  | stopped (e : EvalError)
deriving DecidableEq, Repr

/-- Executes statements, where `object` is what `this` stands for. -/
def exec (names : Names) (object : Int16) (store : Store) : List Statement → Store × Ending
  | [] => (store, .fellOff)
  | .assign target none value :: rest =>
      match names.resolve target with
      | some v =>
          match value.eval (names.reading store) with
          | .ok result => exec names object (Function.update store v result) rest
          | .error e => (store, .stopped e)
      | none => (store, .stopped .noValue)
  | .ret none :: _ => (store, .returned 0)
  | .ret (some value) :: _ =>
      if value.isThis then (store, .returned object) else (store, .stopped .noValue)
  | .assign _ (some _) _ :: _ | .call .. :: _ => (store, .stopped .noValue)

/-! ## Stores and segments -/

/-- Cells with other values from a position on.  The cells are made more where there are
more values. -/
def overlay (cells : Array Int16) (start : Nat) (values : List Int16) : Array Int16 :=
  (cells.toList.take start ++ (values ++ cells.toList.drop (start + values.length))).toArray

/-- A machine with the values of a store in its segments, the parameters behind a number
of receivers. -/
def onto (names : Names) (receivers : Nat) (store : Store) (m : Vm.Machine) : Vm.Machine :=
  { m with
    locals := overlay m.locals 0 (names.locals.map fun x => store (.own x))
    arguments := overlay m.arguments receivers (names.params.map fun x => store (.own x))
    this := overlay m.this 0 (names.fields.map fun x => store (.field x)) }

/-- The store that a machine starts with.  Local variables that the machine does not have
are zero. -/
def initial (names : Names) (receivers : Nat) (m : Vm.Machine) : Store
  | .own x =>
      if x ∈ names.params then m.arguments.getD (receivers + names.params.idxOf x) 0
      else m.locals.getD (names.locals.idxOf x) 0
  | .field x => m.this.getD (names.fields.idxOf x) 0

end Names

end JackLang
