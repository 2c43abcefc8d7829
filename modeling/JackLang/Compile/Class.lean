import JackLang.Compile.Statement
import JackLang.Symbol.Table
import JackLang.Text.Lines
import JackLang.Vm.Listing

/-!
# Code of classes

The code of a class is that of its subroutines in order.  A subroutine is noted,
its scope is entered, and its code is written: the entry of the function, for a
constructor the allocation of the object, and the statements.  An object without
fields is not allocated.  The first error ends the class.

The table of variables goes from subroutine to subroutine.  `Class.compile` also
gives the table that is left at the end, after an error too.  `Class.toListing`
compiles a class with its own table and gives the listing of the code.
-/

namespace JackLang

variable {σ : Type} [SymbolTable σ]

namespace Subroutine

/-- The code that allocates the object of a constructor. -/
def compileAllocation (kind : Subroutine.Kind) (fields : Nat) : Emit Unit :=
  if kind = .constructor ∧ 0 < fields then do
    .instr (.push .constant fields)
    .instr (.call "Memory.alloc" 1)
    .instr (.pop .pointer 0)
  else pure ()

/-- The code of a subroutine whose scope the table has entered. -/
def compileEntered (policy : Policy) (place : SubroutineName) (table : σ) (s : Subroutine) :
    Emit Unit := do
  .instr (.function place.text (SymbolTable.localCount table))
  compileAllocation s.kind (SymbolTable.fieldCount table)
  Statement.compileAll ⟨policy, place, SymbolTable.lookup table⟩ s.body

/-- The code of a subroutine at a place, and the table after it. -/
def compileAt (policy : Policy) (place : SubroutineName) (table : σ) (s : Subroutine) :
    Emit Unit × σ :=
  let entered := SymbolTable.enter table s
  let emission := do
    Emit.note (.compiling place)
    Emit.ofExcept entered.2
    compileEntered policy place entered.1 s
  (emission, entered.1)

/-- The code of a subroutine of a class, and the table after it. -/
def compile (policy : Policy) (className : String) (table : σ) (s : Subroutine) :
    Emit Unit × σ :=
  s.compileAt policy ⟨className, s.name⟩ table

/-- The code of several subroutines of a class in order, and the table after the
last one compiled. -/
def compileAll (policy : Policy) (className : String) :
    σ → List Subroutine → Emit Unit × σ
  | table, [] => (pure (), table)
  | table, s :: rest =>
      let first := s.compile policy className table
      match first.1.outcome with
      | .ok () =>
          let others := compileAll policy className first.2 rest
          (first.1 >>= fun _ => others.1, others.2)
      | .error _ => first

end Subroutine

namespace Class

/-- The code of a class, and the table after it. -/
def compile (policy : Policy) (table : σ) (c : Class) : Emit Unit × σ :=
  Subroutine.compileAll policy c.name table c.subroutines

/-- The listing of a class that is compiled with its own table.  A last note gives
the number of static variables and of lines. -/
def toListing (policy : Policy) (c : Class) : Emit String := do
  let table ← Emit.ofExcept (Scopes.ofClass c)
  let compiled := c.compile policy table
  compiled.1
  let listing := Vm.Listing.write "" compiled.1.code
  Emit.note (.summary c.name compiled.2.staticCount (Text.lineCount listing))
  return listing

end Class

end JackLang
