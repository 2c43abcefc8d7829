import JackLang.Compile.Compiler
import JackLang.Proofs.Blocks

/-!
# Isolation

A compiler carries a table, a place and its output from class to class and from subroutine
to subroutine, and an error can leave them in any state.  None of it matters later.  What a
class adds is what a new compiler with the table of the start adds for it, and the class in
turn is the succession of its subroutines, each compiled as if it were the only one, up to
the first that fails.

The place is overwritten by every class, and the output is only appended to
(`Compiler.compileSubroutines_eq`).  That leaves the table.  Two tables are *alike* when
every subroutine is entered in the same way in both.  Compiling keeps a table alike
(`Scopes.Alike.compile`), and tables that are alike give the same code
(`Scopes.Alike.compile_eq`).  Neither asks how the compiling ended.
-/

namespace JackLang

/-! ## Emissions up to the first failure -/

namespace Emit

/-- An emission is made of others in order, up to and including the first that fails. -/
inductive Joined : List (Emit Unit) → Emit Unit → Prop where
  /-- No part fails. -/
  | all (parts : List (Emit Unit)) (hok : ∀ x ∈ parts, x.outcome = .ok ()) :
      Joined parts ⟨parts.flatMap events, .ok ()⟩
  /-- The first part that fails ends the whole, and its error is that of the whole. -/
  | upTo (before : List (Emit Unit)) (x : Emit Unit) (after : List (Emit Unit))
      {e : CompileError} (hok : ∀ y ∈ before, y.outcome = .ok ()) (hx : x.outcome = .error e) :
      Joined (before ++ x :: after) ⟨(before ++ [x]).flatMap events, .error e⟩

theorem joined_forM {ι : Type} (f : ι → Emit Unit) (xs : List ι) :
    Joined (xs.map f) (forM xs f) := by
  cases houtcome : (forM xs f).outcome with
  | ok u =>
      have hall := Joined.all (xs.map f)
        (List.forall_mem_map.2 (outcome_forM_eq_ok_iff.1 houtcome))
      rw [List.flatMap_map, ← events_forM houtcome, ← houtcome] at hall
      exact hall
  | error e =>
      obtain ⟨before, x, after, rfl, hbefore, hx, hevents⟩ := exists_first_failure houtcome
      have hfailed := Joined.upTo (before.map f) (f x) (after.map f)
        (List.forall_mem_map.2 hbefore) hx
      rw [List.flatMap_append, List.flatMap_map, List.flatMap_singleton, ← hevents,
        ← houtcome] at hfailed
      rw [List.map_append, List.map_cons]
      exact hfailed

end Emit

/-! ## Tables that are alike -/

namespace Scopes

/-- Every subroutine is entered in the same way in two tables. -/
def Alike (s t : Scopes) : Prop := ∀ r, s.enter r = t.enter r

namespace Alike

theorem refl (s : Scopes) : s.Alike s := fun _ => rfl

theorem trans {s t u : Scopes} (h : s.Alike t) (h' : t.Alike u) : s.Alike u :=
  fun r => (h r).trans (h' r)

theorem enter (s : Scopes) (r : Subroutine) : (s.enter r).1.Alike s := s.enter_enter r

theorem compileAll (policy : Policy) (className : String) (s : Scopes) (rs : List Subroutine) :
    (Subroutine.compileAll policy className s rs).2.Alike s := by
  induction rs generalizing s with
  | nil => exact refl s
  | cons r rs ih =>
      rw [Subroutine.compileAll]
      split
      · exact (ih (s.enter r).1).trans (enter s r)
      · exact enter s r

/-- Compiling a class leaves a table that is alike, also where it fails. -/
theorem compile (policy : Policy) (s : Scopes) (c : Class) : (c.compile policy s).2.Alike s :=
  compileAll policy c.name s c.subroutines

/-- A class is compiled in the same way with tables that are alike. -/
theorem compile_eq {s t : Scopes} (h : s.Alike t) (policy : Policy) (c : Class) :
    (c.compile policy s).1 = (c.compile policy t).1 := by
  have hsubroutine (r : Subroutine) :
      r.compile policy c.name s = r.compile policy c.name t :=
    Subroutine.compile_eq_of_enter (h r)
  rw [Class.compile, Class.compile, Subroutine.compileAll_eq_forM, Subroutine.compileAll_eq_forM]
  simp only [hsubroutine]

end Alike

end Scopes

/-! ## Compilers -/

/-- The class with one of its subroutines alone. -/
def Class.only (c : Class) (r : Subroutine) : Class := { c with subroutines := [r] }

namespace Compiler

section Tables

variable {σ : Type} [SymbolTable σ]

/-- Subroutines are compiled for the class that the place names, whatever else it holds, and
what was written before stays. -/
theorem compileSubroutines_eq (k : Compiler σ) (rs : List Subroutine) :
    let compiled := Subroutine.compileAll k.policy k.place.className k.table rs
    ∃ place, k.compileSubroutines rs = ({ k with
      table := compiled.2
      place := place
      written := k.written ++ compiled.1.events }, compiled.1.outcome) := by
  induction rs generalizing k with
  | nil => exact ⟨k.place, by simp [compileSubroutines, Subroutine.compileAll, Emit.pure_def]⟩
  | cons r rs ih =>
      rw [compileSubroutines, compileSubroutine, Subroutine.compileAll, Subroutine.compile]
      cases hr : (r.compileAt k.policy ⟨k.place.className, r.name⟩ k.table).1 with
      | mk events outcome =>
          cases outcome with
          | error e => exact ⟨{ k.place with subroutine := r.name }, by simp [hr]⟩
          | ok u =>
              obtain ⟨place, hrest⟩ := ih { k with
                table := (r.compileAt k.policy ⟨k.place.className, r.name⟩ k.table).2
                place := { k.place with subroutine := r.name }
                written := k.written ++ events }
              refine ⟨place, ?_⟩
              simp only [Emit.bind_ok]
              rw [hrest, List.append_assoc]

/-- A class is compiled with the policy and the table that the compiler has. -/
theorem compileClass_eq (k : Compiler σ) (c : Class) :
    ∃ place, k.compileClass c = ({ k with
      table := (c.compile k.policy k.table).2
      place := place
      written := k.written ++ (c.compile k.policy k.table).1.events },
      (c.compile k.policy k.table).1.outcome) :=
  compileSubroutines_eq { k with place := ⟨c.name, ""⟩ } c.subroutines

theorem added_eq (k : Compiler σ) (c : Class) : k.added c = (c.compile k.policy k.table).1 := by
  obtain ⟨place, hclass⟩ := k.compileClass_eq c
  rw [added, hclass]
  simp

/-- What is written in the end is what the classes added one after another. -/
theorem written_compileClasses (k : Compiler σ) (classes : List Class) :
    (k.compileClasses classes).1.written
      = k.written ++ (k.compileClasses classes).2.flatMap Emit.events := by
  induction classes generalizing k with
  | nil => simp [compileClasses]
  | cons c classes ih =>
      obtain ⟨place, hclass⟩ := k.compileClass_eq c
      rw [compileClasses, ih, hclass, added_eq, List.flatMap_cons, List.append_assoc]

end Tables

/-- With a table that is alike each class adds what it adds with the other one. -/
theorem compileClasses_of_alike {k : Compiler Scopes} {table : Scopes}
    (h : k.table.Alike table) (classes : List Class) :
    (k.compileClasses classes).2 = classes.map fun c => (c.compile k.policy table).1 := by
  induction classes generalizing k with
  | nil => rfl
  | cons c classes ih =>
      obtain ⟨place, hclass⟩ := k.compileClass_eq c
      rw [compileClasses, added_eq, h.compile_eq, hclass, List.map_cons]
      -- The class may have failed anywhere, and its table is alike all the same.
      exact congrArg _ (ih ((Scopes.Alike.compile k.policy k.table c).trans h))

/-- A compiler adds for each of several classes what a new one adds, and for a class what
new ones add for its subroutines alone, up to the first that fails. -/
theorem compileClasses_eq_alone (d : Class) (hdistinct : (d.variables.map Prod.fst).Nodup)
    (policy : Policy) (classes : List Class) :
    ∃ table, Scopes.ofClass d = .ok table ∧
      let new : Compiler Scopes := { policy, table }
      (new.compileClasses classes).2 = classes.map new.added ∧
        (new.compileClasses classes).1.written = (classes.map new.added).flatMap Emit.events ∧
        ∀ c : Class,
          Emit.Joined (c.subroutines.map fun r => new.added (c.only r)) (new.added c) := by
  obtain ⟨table, htable⟩ := Scopes.exists_ofClass_iff.2 hdistinct
  refine ⟨table, htable, ?_⟩
  intro new
  have heach : (new.compileClasses classes).2 = classes.map new.added := by
    rw [compileClasses_of_alike (.refl table)]
    exact List.map_congr_left fun c _ => (new.added_eq c).symm
  refine ⟨heach, ?_, ?_⟩
  · rw [written_compileClasses, heach]
    rfl
  · intro c
    have halone (r : Subroutine) :
        new.added (c.only r) = (r.compile policy c.name table).1 := by
      rw [added_eq]
      exact Subroutine.compileAll_singleton policy c.name table r
    rw [added_eq, Class.compile, Subroutine.compileAll_eq_forM]
    simp only [halone]
    exact Emit.joined_forM _ c.subroutines

/-- The first class is refused in the middle of its parameters.  The name that it had
already declared is not there for the second class, which stops at its second statement. -/
theorem compileClasses_behind_refusal :
    let pair : Class := ⟨"Pair", [⟨.static, .int, ["made"]⟩, ⟨.field, .int, ["x", "y"]⟩], []⟩
    let first : Class := ⟨"First", [],
      [⟨.method, "put", none, [⟨.int, "a"⟩, ⟨.int, "a"⟩], [], [.ret none]⟩]⟩
    let second : Class := ⟨"Second", [],
      [⟨.function, "get", none, [], [⟨.int, ["b"]⟩],
        [.assign "b" none (.single (.var "x")), .assign "b" none (.single (.var "a"))]⟩]⟩
    (pair.variables.map Prod.fst).Nodup ∧
      ∃ table, Scopes.ofClass pair = .ok table ∧
        (({ policy := .reject, table } : Compiler Scopes).compileClasses [first, second]).2.map
            (fun part => (part.code, part.outcome))
          = [([], .error (.redeclared "a" (.ofSubroutine "Pair" "put"))),
            ([.function "Second.get" 1, .push .this 0, .pop .local 0],
              .error (.unresolved "a" ⟨"Second", "get"⟩))] := by
  intro pair first second
  have hdistinct : (pair.variables.map Prod.fst).Nodup := by decide
  obtain ⟨table, htable, heach, -, -⟩ :=
    compileClasses_eq_alone pair hdistinct .reject [first, second]
  refine ⟨hdistinct, table, htable, ?_⟩
  rw [heach]
  cases htable
  rfl

end Compiler

end JackLang
