import JackLang.Compile.Error
import JackLang.Vm.Instr

/-!
# Emissions

A compilation writes instructions and notes, and it ends well or with an error.
What was written before an error stays written.  An *emission* is the whole of
this: the list of events in order, and the outcome.

Emissions are a monad.  Sequencing appends the events of the second to those of the
first, unless the first has failed.  Instructions and notes are in one list, so
that it is known which instructions were written before a note.
-/

namespace JackLang

/-- A line of the log of a compilation. -/
inductive Note where
  /-- A subroutine is about to be compiled. -/
  | compiling (place : SubroutineName)
  /-- A construct was left out. -/
  | noCode (place : SubroutineName) (construct : Construct)
  /-- A class is done: its static variables and the lines of its listing. -/
  | summary (className : String) (statics lines : Nat)
deriving DecidableEq, Repr

namespace Note

/-- How much a note matters. -/
inductive Level where
  | trace | debug
deriving DecidableEq, Repr

/-- The level of a note. -/
def level : Note → Level
  | .compiling _ => .trace
  | .noCode .. | .summary .. => .debug

/-- The wording of a note. -/
def text : Note → String
  | .compiling place => "compiling " ++ place.text
  | .noCode place construct => place.text ++ ": no code for " ++ construct.text
  | .summary className statics lines =>
      className ++ ": " ++ statics.repr ++ " statics, " ++ lines.repr ++ " VM instructions"

end Note

/-- Something a compilation writes. -/
inductive Event where
  /-- An instruction. -/
  | instr (i : Vm.Instr)
  /-- A note. -/
  | note (n : Note)
deriving DecidableEq, Repr

/-- The instruction of an event. -/
def Event.instr? : Event → Option Vm.Instr
  | .instr i => some i
  | .note _ => none

/-- The note of an event. -/
def Event.note? : Event → Option Note
  | .instr _ => none
  | .note n => some n

/-- What a compilation writes and how it ends. -/
structure Emit (α : Type) where
  /-- What is written, in order. -/
  events : List Event
  /-- How it ends. -/
  outcome : Except CompileError α

namespace Emit

variable {α β : Type}

/-- The instructions written. -/
def code (x : Emit α) : List Vm.Instr := x.events.filterMap Event.instr?

/-- The notes written. -/
def notes (x : Emit α) : List Note := x.events.filterMap Event.note?

/-- Writes nothing and ends well. -/
def pure (a : α) : Emit α := ⟨[], .ok a⟩

/-- The second emission after the first, unless that has failed. -/
def bind (x : Emit α) (f : α → Emit β) : Emit β :=
  match x.outcome with
  | .ok a =>
      let y := f a
      ⟨x.events ++ y.events, y.outcome⟩
  | .error e => ⟨x.events, .error e⟩

instance : Monad Emit where
  pure := Emit.pure
  bind := Emit.bind

/-- Fails. -/
def fail (e : CompileError) : Emit α := ⟨[], .error e⟩

/-- Ends as a result says. -/
def ofExcept (r : Except CompileError α) : Emit α := ⟨[], r⟩

/-- Writes an instruction. -/
def instr (i : Vm.Instr) : Emit Unit := ⟨[.instr i], .ok ()⟩

/-- Writes a note. -/
def note (n : Note) : Emit Unit := ⟨[.note n], .ok ()⟩

/-! ## Laws -/

theorem pure_def (a : α) : (Pure.pure a : Emit α) = ⟨[], .ok a⟩ := rfl

theorem bind_ok (events : List Event) (a : α) (f : α → Emit β) :
    ((⟨events, .ok a⟩ : Emit α) >>= f) = ⟨events ++ (f a).events, (f a).outcome⟩ := rfl

theorem bind_error (events : List Event) (e : CompileError) (f : α → Emit β) :
    ((⟨events, .error e⟩ : Emit α) >>= f) = ⟨events, .error e⟩ := rfl

instance : LawfulMonad Emit := LawfulMonad.mk' Emit
  (by rintro α ⟨events, _ | a⟩ <;> simp [Functor.map, Emit.bind, Emit.pure])
  (by intro α β a f; simp [Bind.bind, Pure.pure, Emit.bind, Emit.pure])
  (by
    rintro α β γ ⟨events, _ | a⟩ f g
    · rfl
    · simp only [Bind.bind, Emit.bind]
      cases (f a).outcome <;> simp)

@[simp] theorem code_mk (events : List Event) (r : Except CompileError α) :
    (⟨events, r⟩ : Emit α).code = events.filterMap Event.instr? := rfl

@[simp] theorem notes_mk (events : List Event) (r : Except CompileError α) :
    (⟨events, r⟩ : Emit α).notes = events.filterMap Event.note? := rfl

end Emit

end JackLang
