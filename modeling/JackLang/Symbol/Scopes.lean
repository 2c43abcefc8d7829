import JackLang.Symbol
import JackLang.Compile.Error

/-!
# The two scopes of a subroutine

A name in a subroutine is looked up in the subroutine's own scope and then in the
scope of its class.  The class scope holds static variables and fields, and it is
filled once.  The subroutine scope holds arguments and local variables, and it is
emptied whenever a subroutine is entered.

Each storage class has a counter, which is the number of its next variable and
moves on with every variable that is declared.  The counters of arguments and local
variables are set back when a subroutine is entered.  A method receives its object
as argument 0, so its arguments are counted from 1.

A name may be declared once per scope; `define` refuses the second time and then
leaves the scopes alone.  Entering a subroutine defines its names one after another,
and what was defined before a refusal stays.

Scopes are changed by requests only.  `handle` answers one of them, and whether or
not it was refused the next one finds the scopes as it left them (`handleAll`).
-/

namespace JackLang

/-- The class scope, the scope of the subroutine entered last, and the counters. -/
structure Scopes where
  /-- The class. -/
  className : String
  /-- The subroutine entered last, or the empty text before the first. -/
  subroutine : String := ""
  /-- The variables of the class, newest first. -/
  classVars : List (String × Symbol) := []
  /-- The variables of the subroutine, newest first. -/
  subroutineVars : List (String × Symbol) := []
  /-- The number of the next static variable. -/
  statics : Nat := 0
  /-- The number of the next field. -/
  fields : Nat := 0
  /-- The number of the next argument. -/
  arguments : Nat := 0
  /-- The number of the next local variable. -/
  locals : Nat := 0
deriving DecidableEq, Repr

namespace Scopes

/-! ## Looking up -/

/-- The symbol of a name, that of the subroutine before that of the class. -/
def lookup (s : Scopes) (name : String) : Option Symbol :=
  (s.subroutineVars.lookup name).or (s.classVars.lookup name)

/-- The variables of the class scope or of the subroutine scope. -/
def vars (s : Scopes) (ofClass : Bool) : List (String × Symbol) :=
  if ofClass then s.classVars else s.subroutineVars

/-- The number of static variables. -/
def staticCount (s : Scopes) : Nat := s.statics

/-- The number of fields. -/
def fieldCount (s : Scopes) : Nat := s.fields

/-- The number of local variables. -/
def localCount (s : Scopes) : Nat := s.locals

/-! ## Defining -/

/-- The counter of a storage class. -/
def counter (s : Scopes) : Storage → Nat
  | .static => s.statics
  | .field => s.fields
  | .argument => s.arguments
  | .local => s.locals

/-- The name of the scope to which a storage class belongs. -/
def scopeName (s : Scopes) (storage : Storage) : ScopeName :=
  if storage.ofClass then .ofClass s.className else .ofSubroutine s.className s.subroutine

/-- The scopes with one more variable, in the scope of its storage class, and with
the counter of the storage class moved on. -/
def add (s : Scopes) (name : String) (symbol : Symbol) : Scopes :=
  match symbol.storage with
  | .static =>
      { s with classVars := (name, symbol) :: s.classVars, statics := s.statics + 1 }
  | .field =>
      { s with classVars := (name, symbol) :: s.classVars, fields := s.fields + 1 }
  | .argument =>
      { s with
        subroutineVars := (name, symbol) :: s.subroutineVars
        arguments := s.arguments + 1 }
  | .local =>
      { s with subroutineVars := (name, symbol) :: s.subroutineVars, locals := s.locals + 1 }

/-- Declares a name.  Gives the scopes after it, and its symbol or the refusal. -/
def define (s : Scopes) (name : String) (storage : Storage) :
    Scopes × Except CompileError Symbol :=
  if ((s.vars storage.ofClass).lookup name).isSome then
    (s, .error (.redeclared name (s.scopeName storage)))
  else
    let symbol : Symbol := ⟨storage, s.counter storage⟩
    (s.add name symbol, .ok symbol)

/-- Declares names one after another, up to the first that is refused. -/
def defineAll (s : Scopes) : List (String × Storage) → Scopes × Except CompileError Unit
  | [] => (s, .ok ())
  | (name, storage) :: rest =>
      match s.define name storage with
      | (s', .ok _) => s'.defineAll rest
      | (s', .error e) => (s', .error e)

/-! ## Classes and subroutines -/

/-- The class variables as declarations. -/
def classDecls (c : Class) : List (String × Storage) :=
  c.variables.map fun v => (v.1, .ofClassVar v.2)

/-- The scopes of a class before any subroutine is entered. -/
def ofClass (c : Class) : Except CompileError Scopes :=
  match ({ className := c.name } : Scopes).defineAll (classDecls c) with
  | (s, .ok ()) => .ok s
  | (_, .error e) => .error e

/-- The class scope with an empty scope for a subroutine. -/
def openScope (s : Scopes) (r : Subroutine) : Scopes :=
  { s with subroutine := r.name, subroutineVars := [], arguments := r.receivers, locals := 0 }

/-- The names a subroutine declares, its parameters first. -/
def declared (r : Subroutine) : List (String × Storage) :=
  r.paramNames.map (·, .argument) ++ r.localNames.map (·, .local)

/-- Enters a subroutine: its scope replaces that of the subroutine before. -/
def enter (s : Scopes) (r : Subroutine) : Scopes × Except CompileError Unit :=
  (s.openScope r).defineAll (declared r)

/-! ## Requests -/

/-- A change that is asked of the scopes. -/
inductive Request where
  /-- To declare a name. -/
  | define (name : String) (storage : Storage)
  /-- To enter a subroutine. -/
  | enter (r : Subroutine)
deriving DecidableEq, Repr

/-- The scopes after a request, and the symbol of a declared name or the refusal. -/
def handle (s : Scopes) : Request → Scopes × Except CompileError (Option Symbol)
  | .define name storage =>
      let defined := s.define name storage
      (defined.1, defined.2.map some)
  | .enter r =>
      let entered := s.enter r
      (entered.1, entered.2.map fun _ => none)

/-- The scopes after several requests, refused ones among them. -/
def handleAll (s : Scopes) : List Request → Scopes
  | [] => s
  | request :: rest => (s.handle request).1.handleAll rest

end Scopes

end JackLang
