import JackLang.Class
import JackLang.Vm.Instr

/-!
# Symbols

A *symbol* says where a variable lives: its storage class and its number among the
variables of that class.  Each storage class has its own memory segment.
-/

namespace JackLang

/-- The storage classes of variables. -/
inductive Storage where
  /-- A static variable of the class. -/
  | static
  /-- A field of the object. -/
  | field
  /-- A parameter of the subroutine. -/
  | argument
  /-- A local variable of the subroutine. -/
  | «local»
deriving DecidableEq, Repr

namespace Storage

/-- The segment that holds the variables of a storage class. -/
def segment : Storage → Vm.Segment
  | .static => .static
  | .field => .this
  | .argument => .argument
  | .local => .local

/-- The storage class of a kind of class variable. -/
def ofClassVar : ClassVar.Kind → Storage
  | .static => .static
  | .field => .field

/-- Whether the variables of a storage class belong to the class, and not to the
subroutine. -/
def ofClass : Storage → Bool
  | .static | .field => true
  | .argument | .local => false

end Storage

/-- Where a variable lives. -/
structure Symbol where
  /-- Its storage class. -/
  storage : Storage
  /-- Its number among the variables of the storage class. -/
  index : Nat
deriving DecidableEq, Repr

/-- The segment of a variable. -/
def Symbol.segment (s : Symbol) : Vm.Segment := s.storage.segment

end JackLang
