import JackLang.Proofs.Accounting
import JackLang.Proofs.Entering

/-!
# Where errors point

An error names a place, and so does the note that announces a subroutine.  There are two
sources of places.  What goes wrong in a statement is placed by the compiler, which knows the
subroutine it has announced (`Emit.Accounts`).  A repeated name is placed by the table of
variables, which has names of its own for the class and the subroutine.

A class that does not compile stops at the first subroutine to fail, and that is the last one
announced (`Class.exists_failed_subroutine`).  Both sources then speak of the same subroutine
of the same class.  They write it differently only when the class has no name: the table keeps
the dot (`ScopeName.text_ofSubroutine_eq_iff`).
-/

namespace JackLang

/-! ## Places in words -/

namespace CompileError

/-- The place that an error names, as it is written. -/
def placeText : CompileError → String
  | .unresolved _ place | .unsupported _ place => place.text
  | .redeclared _ scope => scope.text

/-- Whether an error is about a name that is declared twice. -/
def isRedeclared : CompileError → Bool
  | .redeclared .. => true
  | .unresolved .. | .unsupported .. => false

end CompileError

/-- The name of a scope and that of its subroutine are written alike exactly when the class
has a name. -/
theorem ScopeName.text_ofSubroutine_eq_iff (className subroutine : String) :
    (SubroutineName.mk className subroutine).text
      = (ScopeName.ofSubroutine className subroutine).text ↔ className ≠ "" := by
  rw [SubroutineName.text, ScopeName.text]
  split
  · next hclass =>
      subst hclass
      refine iff_of_false (fun h => ?_) (fun h => h rfl)
      have hlength := congrArg String.length h
      simp at hlength
  · next hclass => exact iff_of_true rfl hclass

/-! ## Subroutines -/

/-- A subroutine is refused for a repeated name, and the error has the names that the table
has. -/
theorem Scopes.error_of_enter {s : Scopes} {r : Subroutine} {e : CompileError}
    (h : (s.enter r).2 = .error e) :
    ∃ name, e = .redeclared name (.ofSubroutine s.className r.name) := by
  have hnames : ¬ (r.paramNames ++ r.localNames).Nodup := by
    rw [← enter_eq_ok_iff (s := s), h]
    exact fun hok => by cases hok
  obtain ⟨kept, name, rest, hsplit, hkept, hname⟩ := exists_first_repeat hnames
  obtain ⟨s', -, hrefused⟩ := enter_of_repeat (s := s) hsplit hkept hname
  rw [hrefused] at h
  exact ⟨name, (Except.error.inj h).symm⟩

namespace Subroutine

variable {policy : Policy} {className : String} {table : Scopes} {r : Subroutine}

/-- However it ends, a subroutine is announced once. -/
theorem traces_compile :
    Note.traces (r.compile policy className table).1.notes = [.compiling ⟨className, r.name⟩] := by
  cases hentered : (table.enter r).2 with
  | error e =>
      rw [compile_of_refused hentered]
      rfl
  | ok u =>
      rw [compile_of_entered hentered, Emit.notes_bind rfl, Emit.notes_bind (Emit.outcome_ofCode _),
        Emit.notes_ofCode]
      have hbody := Emit.accounts_forM
        (Statement.accounts_compile (r.env policy className table)) r.body
      exact Note.traces_announced hbody.onlyGaps

/-- An error in a subroutine is placed there by the compiler, or it is a repeated name that
the table has placed. -/
theorem error_of_compile {e : CompileError}
    (h : (r.compile policy className table).1.outcome = .error e) :
    e.IsAt ⟨className, r.name⟩ ∨
      ∃ name, e = .redeclared name (.ofSubroutine table.className r.name) := by
  cases hentered : (table.enter r).2 with
  | error e' =>
      rw [compile_of_refused hentered] at h
      cases h
      exact .inr (Scopes.error_of_enter hentered)
  | ok u =>
      have hbody := Emit.accounts_forM
        (Statement.accounts_compile (r.env policy className table)) r.body
      rw [compile_of_entered hentered, Emit.outcome_bind rfl,
        Emit.outcome_bind (Emit.outcome_ofCode _)] at h
      exact .inl (hbody.isAt e h)

end Subroutine

/-! ## Classes -/

namespace Class

variable {c : Class} {policy : Policy} {e : CompileError}

/-- A class whose variables are refused is refused at the first that repeats an earlier one. -/
theorem error_of_ofClass (h : Scopes.ofClass c = .error e) :
    ∃ kept name rest, c.variables.map Prod.fst = kept ++ name :: rest ∧ kept.Nodup ∧
      name ∈ kept ∧ e = .redeclared name (.ofClass c.name) := by
  have hnames : ¬ (c.variables.map Prod.fst).Nodup := by
    rw [← Scopes.exists_ofClass_iff, h]
    rintro ⟨table, htable⟩
    cases htable
  obtain ⟨kept, name, rest, hsplit, hkept, hname⟩ := exists_first_repeat hnames
  rw [Scopes.ofClass_of_repeat hsplit hkept hname] at h
  exact ⟨kept, name, rest, hsplit, hkept, hname, (Except.error.inj h).symm⟩

/-- A class that has a table and does not compile has a subroutine that does not.  It is the
last to be announced, and its error is that of the class. -/
theorem exists_failed_subroutine {table : Scopes} (htable : Scopes.ofClass c = .ok table)
    (h : (c.toListing policy).outcome = .error e) :
    ∃ r ∈ c.subroutines, (r.compile policy c.name table).1.outcome = .error e ∧
      (Note.traces (c.toListing policy).notes).getLast? = some (.compiling ⟨c.name, r.name⟩) := by
  rw [toListing_of_table htable] at h ⊢
  cases hcompiled : (c.compile policy table).1.outcome with
  | ok u =>
      rw [Emit.outcome_bind hcompiled] at h
      cases h
  | error e' =>
      rw [Emit.bind_of_error hcompiled] at h ⊢
      cases h
      rw [compile, Subroutine.compileAll_eq_forM] at hcompiled ⊢
      obtain ⟨before, r, after, hsplit, -, hr, hevents⟩ := Emit.exists_first_failure hcompiled
      have htraces : Note.traces
          ((r.compile policy c.name table).1.events.filterMap Event.note?)
            = [.compiling ⟨c.name, r.name⟩] := Subroutine.traces_compile
      refine ⟨r, ?_, hr, ?_⟩
      · rw [hsplit]
        exact List.mem_append_right before List.mem_cons_self
      · rw [Emit.notes_mk, hevents, List.filterMap_append, Note.traces_append, htraces,
          List.getLast?_append]
        rfl

/-- An error of a subroutine names the subroutine as its note does, unless it is a repeated
name in a class without a name. -/
theorem placeText_eq_iff {table : Scopes} {r : Subroutine} (hname : table.className = c.name)
    (h : (r.compile policy c.name table).1.outcome = .error e) :
    e.placeText = (SubroutineName.mk c.name r.name).text ↔
      ¬ (c.name = "" ∧ e.isRedeclared = true) := by
  rcases Subroutine.error_of_compile h with hplaced | ⟨name, rfl⟩
  · cases hplaced with
    | unresolved name => exact iff_of_true rfl fun hcase => by cases hcase.2
    | unsupported construct => exact iff_of_true rfl fun hcase => by cases hcase.2
  · rw [hname]
    exact eq_comm.trans ((ScopeName.text_ofSubroutine_eq_iff c.name r.name).trans
      (not_congr (and_iff_left rfl).symm))

/-- Where an error points, for every class that does not compile.  If a subroutine has been
announced, the error names the one announced last, except for a repeated name in a class
without a name, where the two texts differ.  If none has, the error is the first variable of
the class that repeats an earlier one, and names the class. -/
theorem error_place_exact (c : Class) (policy : Policy) (e : CompileError)
    (h : (c.toListing policy).outcome = .error e) :
    match (Note.traces (c.toListing policy).notes).getLast? with
    | some note => ∃ place, note = .compiling place ∧
        (e.placeText = place.text ↔ ¬ (c.name = "" ∧ e.isRedeclared = true))
    | none => ∃ kept name rest, c.variables.map Prod.fst = kept ++ name :: rest ∧
        kept.Nodup ∧ name ∈ kept ∧ e = .redeclared name (.ofClass c.name) := by
  cases htable : Scopes.ofClass c with
  | error e' =>
      rw [toListing_of_refused htable] at h ⊢
      cases h
      exact error_of_ofClass htable
  | ok table =>
      obtain ⟨r, -, hr, hlast⟩ := exists_failed_subroutine htable h
      have hname : table.className = c.name :=
        Scopes.ofClass_keeps Scopes.className Scopes.className_add htable
      rw [hlast]
      exact ⟨⟨c.name, r.name⟩, rfl, placeText_eq_iff hname hr⟩

/-- A class whose second subroutine repeats a name. -/
def gate : Class where
  name := "Gate"
  vars := [⟨.field, .int, ["width", "shut"]⟩]
  subroutines := [
    ⟨.method, "open", none, [], [], [.assign "shut" none (.single (.int 0)), .ret none]⟩,
    ⟨.method, "shut", none, [⟨.int, "a"⟩], [⟨.int, ["b", "a"]⟩], [.ret none]⟩,
    ⟨.function, "new", none, [], [], [.assign "ghost" none (.single (.int 0))]⟩]

/-- The gate stops at its second subroutine, which both texts name.  With the variables of the
class repeated, it stops before the first. -/
theorem error_place_gate :
    (gate.toListing .reject).outcome = .error (.redeclared "a" (.ofSubroutine "Gate" "shut")) ∧
      (Note.traces (gate.toListing .reject).notes).getLast? = some (.compiling ⟨"Gate", "shut"⟩) ∧
      (ScopeName.ofSubroutine "Gate" "shut").text = (SubroutineName.mk "Gate" "shut").text ∧
      let twice : Class :=
        { gate with vars := gate.vars ++ [⟨.static, .int, ["made", "shut", "width"]⟩] }
      (twice.toListing .skip).outcome = .error (.redeclared "shut" (.ofClass "Gate")) ∧
        (twice.toListing .skip).notes = [] ∧
        ∃ kept name rest, ["width", "shut", "made", "shut", "width"] = kept ++ name :: rest ∧
          kept.Nodup ∧ name ∈ kept ∧
          CompileError.redeclared "shut" (.ofClass "Gate")
            = .redeclared name (.ofClass "Gate") := by
  have hlast : (Note.traces (gate.toListing .reject).notes).getLast?
      = some (.compiling ⟨"Gate", "shut"⟩) := rfl
  have hgate := error_place_exact gate .reject _ rfl
  rw [hlast] at hgate
  obtain ⟨place, hplace, hiff⟩ := hgate
  cases hplace
  refine ⟨rfl, hlast, hiff.2 (by decide), ?_⟩
  intro twice
  exact ⟨rfl, rfl, error_place_exact twice .skip _ rfl⟩

/-- A class without a name, whose subroutine repeats a name. -/
def nameless : Class where
  name := ""
  vars := []
  subroutines := [⟨.function, "run", none, [⟨.int, "a"⟩], [⟨.int, ["a"]⟩], []⟩]

/-- In a class without a name, a repeated name is placed in `.run` when `run` has been
announced. -/
theorem error_place_nameless : ∃ e place,
    (nameless.toListing .skip).outcome = .error e ∧
      (Note.traces (nameless.toListing .skip).notes).getLast? = some (.compiling place) ∧
      place.text = "run" ∧ e.placeText = ".run" ∧ e.placeText ≠ place.text :=
  ⟨.redeclared "a" (.ofSubroutine "" "run"), ⟨"", "run"⟩, rfl, rfl, rfl, rfl, by decide⟩

end Class

end JackLang
