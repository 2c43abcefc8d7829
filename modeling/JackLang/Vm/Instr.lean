/-!
# Instructions of the stack machine

The machine has eight memory segments and nine commands on the stack.  An
instruction enters a function, moves a value between the stack and a segment,
calls a function, runs a command, or returns.  Names are plain texts, and indices
and counts are natural numbers.
-/

namespace JackLang.Vm

/-- The memory segments. -/
inductive Segment where
  | constant | argument | «local» | static | this | that | pointer | temp
deriving DecidableEq, Repr

namespace Segment

/-- The name of a segment. -/
def name : Segment → String
  | .constant => "constant"
  | .argument => "argument"
  | .local => "local"
  | .static => "static"
  | .this => "this"
  | .that => "that"
  | .pointer => "pointer"
  | .temp => "temp"

/-- The segment of a name. -/
def ofName? : String → Option Segment
  | "constant" => some .constant
  | "argument" => some .argument
  | "local" => some .local
  | "static" => some .static
  | "this" => some .this
  | "that" => some .that
  | "pointer" => some .pointer
  | "temp" => some .temp
  | _ => none

/-- A segment is found by its name. -/
@[simp] theorem ofName?_name (s : Segment) : ofName? s.name = some s := by
  cases s <;> rfl

end Segment

/-- The commands on the stack. -/
inductive Command where
  | add | sub | neg | eq | gt | lt | and | or | not
deriving DecidableEq, Repr

namespace Command

/-- The name of a command. -/
def name : Command → String
  | .add => "add"
  | .sub => "sub"
  | .neg => "neg"
  | .eq => "eq"
  | .gt => "gt"
  | .lt => "lt"
  | .and => "and"
  | .or => "or"
  | .not => "not"

/-- The command of a name. -/
def ofName? : String → Option Command
  | "add" => some .add
  | "sub" => some .sub
  | "neg" => some .neg
  | "eq" => some .eq
  | "gt" => some .gt
  | "lt" => some .lt
  | "and" => some .and
  | "or" => some .or
  | "not" => some .not
  | _ => none

/-- A command is found by its name. -/
@[simp] theorem ofName?_name (c : Command) : ofName? c.name = some c := by
  cases c <;> rfl

end Command

/-- One instruction. -/
inductive Instr where
  /-- The entry of a function with a number of local variables. -/
  | function (name : String) (locals : Nat)
  /-- Puts the value of a slot on the stack. -/
  | push (segment : Segment) (index : Nat)
  /-- Moves the top of the stack to a slot. -/
  | pop (segment : Segment) (index : Nat)
  /-- Calls a function on a number of arguments on the stack. -/
  | call (name : String) (args : Nat)
  /-- Runs a command. -/
  | command (command : Command)
  /-- Leaves the function. -/
  | ret
deriving DecidableEq, Repr

/-- An instruction as it is written. -/
def Instr.text : Instr → String
  | .function name locals => "function " ++ name ++ " " ++ locals.repr
  | .push segment index => "push " ++ segment.name ++ " " ++ index.repr
  | .pop segment index => "pop " ++ segment.name ++ " " ++ index.repr
  | .call name args => "call " ++ name ++ " " ++ args.repr
  | .command c => c.name
  | .ret => "return"

end JackLang.Vm
