import JackLang.Expr.Basic

/-!
# Classes

A class declares variables and subroutines.  Variables of the class are static
(one for the class) or fields (one per object).  A subroutine is a constructor, a
function or a method, with parameters, local variables and a body of statements.

Declarations group several names under one type.  The names are flattened in
declaration order by `Class.variables` and `Subroutine.localNames`, and that is the
order in which they are numbered.
-/

namespace JackLang

/-- The type of a variable. -/
inductive VarType where
  | int | char | boolean
  /-- An object of a class. -/
  | object (className : String)
deriving DecidableEq, Repr

/-- The statements of a body. -/
inductive Statement where
  /-- `do receiver.name(args);` with an optional receiver. -/
  | call (receiver : Option String) (name : String) (args : List Expr)
  /-- `let target[index] = value;` with an optional index. -/
  | assign (target : String) (index : Option Expr) (value : Expr)
  /-- `return value;` with an optional value. -/
  | ret (value : Option Expr)
deriving DecidableEq, Repr

/-- What kind of subroutine a declaration is. -/
inductive Subroutine.Kind where
  /-- Makes an object. -/
  | constructor
  /-- Belongs to the class. -/
  | function
  /-- Belongs to an object, which it receives as argument 0. -/
  | method
deriving DecidableEq, Repr

/-- A parameter. -/
structure Param where
  /-- Its type. -/
  type : VarType
  /-- Its name. -/
  name : String
deriving DecidableEq, Repr

/-- A declaration of local variables of one type. -/
structure LocalDecl where
  /-- Their type. -/
  type : VarType
  /-- Their names. -/
  names : List String
deriving DecidableEq, Repr

/-- A subroutine of a class. -/
structure Subroutine where
  /-- What it is. -/
  kind : Subroutine.Kind
  /-- Its name within the class. -/
  name : String
  /-- The type it returns, or nothing for `void`. -/
  returns : Option VarType
  /-- Its parameters in order. -/
  params : List Param
  /-- Its local variables. -/
  locals : List LocalDecl
  /-- Its statements. -/
  body : List Statement
deriving DecidableEq, Repr

/-- The parameter names in order. -/
def Subroutine.paramNames (s : Subroutine) : List String := s.params.map Param.name

/-- The names of the local variables in order. -/
def Subroutine.localNames (s : Subroutine) : List String := s.locals.flatMap LocalDecl.names

/-- The number of declared local names. -/
def Subroutine.localCount (s : Subroutine) : Nat := s.localNames.length

/-- The number of arguments that a subroutine receives before its parameters. -/
def Subroutine.receivers (s : Subroutine) : Nat := if s.kind = .method then 1 else 0

/-- The kinds of variables of a class. -/
inductive ClassVar.Kind where
  /-- One variable for the class. -/
  | static
  /-- One variable per object. -/
  | field
deriving DecidableEq, Repr

/-- A declaration of class variables of one kind and type. -/
structure ClassVar where
  /-- Their kind. -/
  kind : ClassVar.Kind
  /-- Their type. -/
  type : VarType
  /-- Their names. -/
  names : List String
deriving DecidableEq, Repr

/-- A class. -/
structure Class where
  /-- Its name. -/
  name : String
  /-- Its variables. -/
  vars : List ClassVar
  /-- Its subroutines in order. -/
  subroutines : List Subroutine
deriving DecidableEq, Repr

/-- The variables of a class in declaration order, each with its kind. -/
def Class.variables (c : Class) : List (String × ClassVar.Kind) :=
  c.vars.flatMap fun decl => decl.names.map fun name => (name, decl.kind)

end JackLang
