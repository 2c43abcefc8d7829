import JackLang.Compile.Class

/-!
# Compilers

A *compiler* is given one class after another.  It keeps the table of variables,
the place it is at, and everything it has written.  Each class starts at its own
name, and each subroutine moves the place on and enters its scope.

An error ends a class, and the next one is compiled all the same.  It finds the
compiler as the error left it: in the middle of a class, with the scope of the
refused subroutine, and with what was written before.
-/

namespace JackLang

variable {σ : Type} [SymbolTable σ]

/-- What is kept from one class to the next. -/
structure Compiler (σ : Type) where
  /-- What to do about constructs without code. -/
  policy : Policy
  /-- The table of variables. -/
  table : σ
  /-- The subroutine being compiled. -/
  place : SubroutineName := ⟨"", ""⟩
  /-- Everything written so far. -/
  written : List Event := []

namespace Compiler

/-- Moves the place on to a subroutine of the class that it names, and compiles the
subroutine there. -/
def compileSubroutine (k : Compiler σ) (r : Subroutine) :
    Compiler σ × Except CompileError Unit :=
  let moved : Compiler σ := { k with place := { k.place with subroutine := r.name } }
  let compiled := r.compileAt moved.policy moved.place moved.table
  ({ moved with
      table := compiled.2
      written := moved.written ++ compiled.1.events }, compiled.1.outcome)

/-- Compiles several subroutines in order, up to the first that fails. -/
def compileSubroutines (k : Compiler σ) :
    List Subroutine → Compiler σ × Except CompileError Unit
  | [] => (k, .ok ())
  | r :: rest =>
      match k.compileSubroutine r with
      | (k', .ok ()) => k'.compileSubroutines rest
      | (k', .error e) => (k', .error e)

/-- Compiles a class. -/
def compileClass (k : Compiler σ) (c : Class) : Compiler σ × Except CompileError Unit :=
  { k with place := ⟨c.name, ""⟩ }.compileSubroutines c.subroutines

/-- What a class adds to what was written before, and how it ends. -/
def added (k : Compiler σ) (c : Class) : Emit Unit :=
  let compiled := k.compileClass c
  ⟨compiled.1.written.drop k.written.length, compiled.2⟩

/-- Compiles several classes in order, also behind an error.  Gives what each of
them adds. -/
def compileClasses (k : Compiler σ) : List Class → Compiler σ × List (Emit Unit)
  | [] => (k, [])
  | c :: rest =>
      let later := (k.compileClass c).1.compileClasses rest
      (later.1, k.added c :: later.2)

end Compiler

end JackLang
