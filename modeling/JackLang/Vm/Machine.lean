import JackLang.Vm.Instr

/-!
# The stack machine

The machine runs straight-line code of one function.  Its values are signed words
of 16 bits, and addition, subtraction, multiplication and negation wrap around.  It
has a stack and five segments: local variables, arguments, the fields of the
object, eight temporaries and two pointers.  The constant segment can be read only.
It gives its index as a word, modulo 2 to the 16.

Of the commands it knows `add`, `sub` and `neg`, and of the functions
`Math.multiply` and `Math.divide` on two arguments.  Division goes toward zero.
Entering a function makes room for its local variables and keeps those there are.
`return` ends the run, and so does the end of the code.  The result is the top of
the stack, which stays there.

Anything else is a *fault*.  A fault ends the run, and the machine keeps what it
had at that moment: operands that an instruction has taken from the stack before
its fault are gone.
-/

namespace JackLang.Vm

/-- Why a run stops early. -/
inductive Fault where
  /-- An operand is missing on the stack. -/
  | underflow
  /-- The divisor is zero. -/
  | divisionByZero
  /-- The quotient of the least word and -1. -/
  | divisionOverflow
  /-- A command the machine does not have. -/
  | noCommand (command : Command)
  /-- A function the machine does not have. -/
  | noRoutine (name : String)
  /-- A segment the machine does not have, or that cannot be written. -/
  | noSegment (segment : Segment)
  /-- An index beyond the size of its segment. -/
  | outOfBounds (size index : Nat)
deriving DecidableEq, Repr

/-- The wording of a fault. -/
def Fault.message : Fault → String
  | .underflow => "stack underflow"
  | .divisionByZero => "attempt to divide by zero"
  | .divisionOverflow => "attempt to divide with overflow"
  | .noCommand command => "unsupported command " ++ command.name
  | .noRoutine name => "no such routine " ++ name
  | .noSegment segment => "segment " ++ segment.name ++ " not modelled"
  | .outOfBounds size index =>
      "index out of bounds: the len is " ++ size.repr ++ " but the index is " ++ index.repr

/-- The state of the machine. -/
structure Machine where
  /-- The stack, top first. -/
  stack : List Int16 := []
  /-- The local variables. -/
  locals : Array Int16 := #[]
  /-- The arguments. -/
  arguments : Array Int16 := #[]
  /-- The fields of the object. -/
  this : Array Int16 := #[]
  /-- The temporaries. -/
  temp : Vector Int16 8 := .replicate 8 0
  /-- The pointers. -/
  pointer : Vector Int16 2 := .replicate 2 0
deriving DecidableEq, Repr

namespace Machine

/-! ## Segments -/

/-- The cells of a segment that can be written. -/
def cells? (m : Machine) : Segment → Option (Array Int16)
  | .local => some m.locals
  | .argument => some m.arguments
  | .this => some m.this
  | .temp => some m.temp.toArray
  | .pointer => some m.pointer.toArray
  | .constant | .static | .that => none

/-- The value of a slot. -/
def load (m : Machine) (segment : Segment) (index : Nat) : Except Fault Int16 :=
  match m.cells? segment with
  | none => .error (.noSegment segment)
  | some cells =>
      match cells[index]? with
      | some value => .ok value
      | none => .error (.outOfBounds cells.size index)

/-- The machine with another value in a slot.  Slots that do not exist stay so. -/
def set (m : Machine) (segment : Segment) (index : Nat) (value : Int16) : Machine :=
  match segment with
  | .local => { m with locals := m.locals.setIfInBounds index value }
  | .argument => { m with arguments := m.arguments.setIfInBounds index value }
  | .this => { m with this := m.this.setIfInBounds index value }
  | .temp => { m with temp := m.temp.setIfInBounds index value }
  | .pointer => { m with pointer := m.pointer.setIfInBounds index value }
  | .constant | .static | .that => m

/-- The value that a push puts on the stack. -/
def pushed (m : Machine) : Segment → Nat → Except Fault Int16
  | .constant, index => .ok (.ofNat index)
  | segment, index => m.load segment index

/-- The machine with at least so many local variables, the new ones zero. -/
def reserve (m : Machine) (count : Nat) : Machine :=
  { m with locals := m.locals ++ Array.replicate (count - m.locals.size) 0 }

/-! ## Arithmetic -/

/-- The quotient toward zero, where there is one. -/
def divide (a b : Int16) : Except Fault Int16 :=
  if b = 0 then .error .divisionByZero
  else if a = Int16.minValue ∧ b = -1 then .error .divisionOverflow
  else .ok (a / b)

/-- The functions on two words that the machine has. -/
def routine? (name : String) (args : Nat) : Option (Int16 → Int16 → Except Fault Int16) :=
  if args = 2 then
    match name with
    | "Math.multiply" => some fun a b => .ok (a * b)
    | "Math.divide" => some divide
    | _ => none
  else none

/-! ## Running -/

/-- What an instruction does: the machine after it, and the fault if it has one. -/
structure Step where
  /-- The machine after the instruction. -/
  machine : Machine
  /-- Why the run stops here. -/
  fault : Option Fault := none
deriving DecidableEq, Repr

/-- Puts a value on the stack, unless computing it has failed. -/
def give (m : Machine) : Except Fault Int16 → Step
  | .ok value => ⟨{ m with stack := value :: m.stack }, none⟩
  | .error f => ⟨m, some f⟩

/-- Takes one operand and gives the result of a function. -/
def unary (m : Machine) (f : Int16 → Except Fault Int16) : Step :=
  match m.stack with
  | a :: rest => give { m with stack := rest } (f a)
  | [] => ⟨m, some .underflow⟩

/-- Takes two operands, the second from the top, and gives the result of a
function.  A single operand is taken before the other is found missing. -/
def binary (m : Machine) (f : Int16 → Int16 → Except Fault Int16) : Step :=
  match m.stack with
  | b :: a :: rest => give { m with stack := rest } (f a b)
  | _ => ⟨{ m with stack := [] }, some .underflow⟩

/-- Takes the top of the stack and stores it.  It is taken before the slot is found
missing. -/
def store (m : Machine) (segment : Segment) (index : Nat) : Step :=
  match m.stack with
  | value :: rest =>
      let m' := { m with stack := rest }
      match m'.load segment index with
      | .ok _ => ⟨m'.set segment index value, none⟩
      | .error f => ⟨m', some f⟩
  | [] => ⟨m, some .underflow⟩

/-- Runs one instruction.  `return` changes nothing; `run` ends there. -/
def step (m : Machine) : Instr → Step
  | .function _ locals => ⟨m.reserve locals, none⟩
  | .push segment index => m.give (m.pushed segment index)
  | .pop segment index => m.store segment index
  | .command .add => m.binary fun a b => .ok (a + b)
  | .command .sub => m.binary fun a b => .ok (a - b)
  | .command .neg => m.unary fun a => .ok (-a)
  | .command command => ⟨m, some (.noCommand command)⟩
  | .call name args =>
      match routine? name args with
      | some f => m.binary f
      | none => ⟨m, some (.noRoutine name)⟩
  | .ret => ⟨m, none⟩

/-- What a run ends with: the machine, and its result or its fault. -/
structure Halt where
  /-- The machine at the end. -/
  machine : Machine
  /-- The top of the stack, if there is one, or the fault. -/
  result : Except Fault (Option Int16)

/-- Runs code up to the first `return`, the first fault or the end. -/
def run (m : Machine) : List Instr → Halt
  | [] | .ret :: _ => ⟨m, .ok m.stack.head?⟩
  | i :: rest =>
      match m.step i with
      | ⟨m', none⟩ => m'.run rest
      | ⟨m', some f⟩ => ⟨m', .error f⟩

/-! ## Equations of a store -/

section Store

variable {m : Machine} {segment : Segment} {index : Nat} (value : Int16)

theorem store_of_load_ok {old : Int16} (h : m.load segment index = .ok old) :
    { m with stack := value :: m.stack }.store segment index
      = ⟨m.set segment index value, none⟩ := by
  simp only [store, h]

theorem store_of_load_error {f : Fault} (h : m.load segment index = .error f) :
    { m with stack := value :: m.stack }.store segment index = ⟨m, some f⟩ := by
  simp only [store, h]

end Store

/-! ## Equations of a run -/

@[simp] theorem run_nil (m : Machine) : m.run [] = ⟨m, .ok m.stack.head?⟩ := rfl

@[simp] theorem run_ret (m : Machine) (rest : List Instr) :
    m.run (.ret :: rest) = ⟨m, .ok m.stack.head?⟩ := rfl

/-- A run goes on behind an instruction without fault. -/
theorem run_cons_of_fault_none {m : Machine} {i : Instr} (rest : List Instr) (hi : i ≠ .ret)
    (h : (m.step i).fault = none) : m.run (i :: rest) = (m.step i).machine.run rest := by
  cases i with
  | ret => exact absurd rfl hi
  | _ => rw [run.eq_def]; simp only; split <;> simp_all

/-- A run ends at an instruction with a fault. -/
theorem run_cons_of_fault_some {m : Machine} {i : Instr} (rest : List Instr) {f : Fault}
    (h : (m.step i).fault = some f) : m.run (i :: rest) = ⟨(m.step i).machine, .error f⟩ := by
  cases i with
  | ret => simp [step] at h
  | _ => rw [run.eq_def]; simp only; split <;> simp_all

end Machine

end JackLang.Vm
