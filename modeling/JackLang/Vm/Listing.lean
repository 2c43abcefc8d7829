import JackLang.Vm.Instr

/-!
# Listings

The *listing* of code is its text, one instruction a line, with a newline behind
every instruction.  There are two ways to it.  `Listing.ofCode` writes all lines of
finished code.  `Listing.append` adds the line of one instruction to a listing that
is growing, and `Listing.write` adds those of a list.  Both give the same text
(`Listing.write_eq_append`).
-/

namespace JackLang.Vm

/-- The line of an instruction. -/
def Instr.line (i : Instr) : String := i.text ++ "\n"

namespace Listing

/-- The listing of code. -/
def ofCode : List Instr → String
  | [] => ""
  | i :: rest => i.line ++ ofCode rest

/-- A listing with the line of one more instruction. -/
def append (listing : String) (i : Instr) : String := listing ++ i.line

/-- A listing with the lines of more code. -/
def write (listing : String) (code : List Instr) : String := code.foldl append listing

@[simp] theorem write_nil (listing : String) : write listing [] = listing := rfl

@[simp] theorem write_cons (listing : String) (i : Instr) (code : List Instr) :
    write listing (i :: code) = write (append listing i) code := rfl

/-- Writing line by line adds the listing of the code. -/
theorem write_eq_append (listing : String) (code : List Instr) :
    write listing code = listing ++ ofCode code := by
  induction code generalizing listing with
  | nil => simp [ofCode]
  | cons i code ih => rw [write_cons, ih, append, ofCode, String.append_assoc]

end Listing

end JackLang.Vm
