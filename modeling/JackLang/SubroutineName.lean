/-!
# Names of subroutines

A subroutine is known by its class and its own name.  Both are plain texts, and
either may be empty.
-/

namespace JackLang

/-- The name of a subroutine of a class. -/
structure SubroutineName where
  /-- The class. -/
  className : String
  /-- The subroutine within the class. -/
  subroutine : String
deriving DecidableEq, Repr

/-- The name as code and messages write it: the two parts with a dot between them,
or the subroutine alone when the class has no name. -/
def SubroutineName.text (name : SubroutineName) : String :=
  if name.className = "" then name.subroutine
  else name.className ++ "." ++ name.subroutine

end JackLang
