/-!
# Keyword sets

The lexer knows names, and a keyword set decides which names are keywords.  A set
is given by a list of its words.  Order and repetition in the list do not matter:
`Keywords.size` counts different words, and `Keywords.same` compares two sets by
their words.

`Keywords.jack` holds the reserved words of the Jack language.
-/

namespace JackLang

/-- A set of reserved words. -/
structure Keywords where
  /-- The words, in any order and with any repetitions. -/
  words : List String
deriving Repr

namespace Keywords

instance : Membership String Keywords := ⟨fun k w => w ∈ k.words⟩

instance (w : String) (k : Keywords) : Decidable (w ∈ k) :=
  inferInstanceAs (Decidable (w ∈ k.words))

theorem mem_def {w : String} {k : Keywords} : w ∈ k ↔ w ∈ k.words := Iff.rfl

/-- The number of different words. -/
def size (k : Keywords) : Nat := k.words.eraseDups.length

/-- Whether the set has no word. -/
def isEmpty (k : Keywords) : Bool := k.words.isEmpty

/-- Whether two sets have the same words. -/
def same (a b : Keywords) : Bool := a.words.all (· ∈ b) && b.words.all (· ∈ a)

/-- Sets are the same when they have the same members. -/
theorem same_iff {a b : Keywords} : a.same b = true ↔ ∀ w, w ∈ a ↔ w ∈ b := by
  simp only [same, Bool.and_eq_true, List.all_eq_true, decide_eq_true_eq, mem_def]
  exact ⟨fun ⟨h, h'⟩ w => ⟨h w, h' w⟩, fun h => ⟨fun w => (h w).1, fun w => (h w).2⟩⟩

/-- The reserved words of Jack. -/
def jack : Keywords where
  words := ["class", "constructor", "function", "method", "field", "static", "var", "int",
    "char", "boolean", "void", "true", "false", "null", "this", "let", "do", "if", "else",
    "while", "return"]

end Keywords

end JackLang
