import JackLang.Symbol.Scopes

/-!
# Symbol tables

The code generator asks four things of its table of variables: to enter a
subroutine, to look up a name, and how many local variables and fields there are.
`SymbolTable` is the class of types that answer them.  `Scopes` is one, and numbers
what a class declares.  `FixedTable` is another, whose answers never change.
-/

namespace JackLang

/-- What the code generator asks of a table of variables. -/
class SymbolTable (σ : Type) where
  /-- The table after entering a subroutine, and whether that was refused. -/
  enter : σ → Subroutine → σ × Except CompileError Unit
  /-- The symbol of a name. -/
  lookup : σ → String → Option Symbol
  /-- The number of local variables. -/
  localCount : σ → Nat
  /-- The number of fields. -/
  fieldCount : σ → Nat

instance : SymbolTable Scopes where
  enter := Scopes.enter
  lookup := Scopes.lookup
  localCount := Scopes.localCount
  fieldCount := Scopes.fieldCount

/-- A table that is given once and for all. -/
structure FixedTable where
  /-- The symbols, of which the last one of a name counts. -/
  symbols : List (String × Symbol) := []
  /-- The number of local variables. -/
  locals : Nat := 0
  /-- The number of fields. -/
  fields : Nat := 0
deriving DecidableEq, Repr

/-- The symbol of a name. -/
def FixedTable.lookup (t : FixedTable) (name : String) : Option Symbol :=
  t.symbols.reverse.lookup name

instance : SymbolTable FixedTable where
  enter t _ := (t, .ok ())
  lookup := FixedTable.lookup
  localCount := FixedTable.locals
  fieldCount := FixedTable.fields

end JackLang
