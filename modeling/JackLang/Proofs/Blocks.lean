import JackLang.Compile.Class
import JackLang.Proofs.Emission
import JackLang.Proofs.Numbering

/-!
# The blocks of a class

The code of a class is one block for each subroutine.  A block has an opening, which is the
entry of the function and the allocation of a constructor, and then the code of the
statements (`Subroutine.code_compile`).  A subroutine whose names are refused has no block
at all (`Subroutine.compile_of_refused`).

The table of variables goes from subroutine to subroutine, but nothing comes along with it.
Entering replaces the scope of the subroutine before and keeps the scope of the class, so
what is entered second does not depend on what was entered first (`Scopes.enter_enter`).
Each subroutine is thus compiled with the table that the class started with
(`Subroutine.compileAll_eq_forM`).
-/

namespace JackLang

open Vm (Instr)

/-! ## Lists of expressions and statements -/

theorem Expr.compileAll_eq_forM (env : Env) (es : List Expr) :
    Expr.compileAll env es = forM es (Expr.compile env) := by
  induction es with
  | nil => rfl
  | cons e es ih => rw [Expr.compileAll, ih, List.forM_cons]

theorem Statement.compileAll_eq_forM (env : Env) (body : List Statement) :
    Statement.compileAll env body = forM body (Statement.compile env) := by
  induction body with
  | nil => rfl
  | cons s body ih => rw [Statement.compileAll, ih, List.forM_cons]

/-! ## Entering one subroutine after another -/

namespace Scopes

theorem defineAll_frame (s : Scopes) {decls : List (String × Storage)}
    (hscope : ∀ decl ∈ decls, decl.2.ofClass = false) :
    ∃ vars arguments locals, (s.defineAll decls).1 =
      { s with subroutineVars := vars, arguments := arguments, locals := locals } := by
  refine defineAll_invariant (P := fun t => ∃ vars arguments locals,
    t = { s with subroutineVars := vars, arguments := arguments, locals := locals }) ?_
    ⟨_, _, _, rfl⟩
  rintro t ⟨name, storage⟩ hdecl ⟨vars, arguments, locals, rfl⟩
  have hstorage : storage.ofClass = false := hscope _ hdecl
  rw [define]
  split
  · exact ⟨_, _, _, rfl⟩
  · cases storage with
    | static | field => cases hstorage
    | argument | «local» => exact ⟨_, _, _, rfl⟩

/-- Entering a subroutine changes the scope of the subroutine and its counters only, also
where a name is refused. -/
theorem enter_frame (s : Scopes) (r : Subroutine) :
    ∃ vars arguments locals, (s.enter r).1 =
      { s.openScope r with subroutineVars := vars, arguments := arguments, locals := locals } :=
  (s.openScope r).defineAll_frame fun _ => ofClass_of_mem_declared

/-- Nothing of a subroutine that was entered before is left. -/
theorem enter_enter (s : Scopes) (r r' : Subroutine) : (s.enter r).1.enter r' = s.enter r' := by
  obtain ⟨vars, arguments, locals, hentered⟩ := s.enter_frame r
  rw [hentered]
  rfl

theorem staticCount_enter (s : Scopes) (r : Subroutine) :
    (s.enter r).1.staticCount = s.staticCount := by
  obtain ⟨vars, arguments, locals, hentered⟩ := s.enter_frame r
  rw [hentered]
  rfl

theorem fieldCount_enter (s : Scopes) (r : Subroutine) :
    (s.enter r).1.fieldCount = s.fieldCount := by
  obtain ⟨vars, arguments, locals, hentered⟩ := s.enter_frame r
  rw [hentered]
  rfl

end Scopes

/-! ## Subroutines -/

namespace Subroutine

section Tables

variable {σ : Type} [SymbolTable σ]

/-- A table matters only as far as a subroutine is entered in it. -/
theorem compile_eq_of_enter {policy : Policy} {className : String} {s t : σ} {r : Subroutine}
    (h : SymbolTable.enter s r = SymbolTable.enter t r) :
    r.compile policy className s = r.compile policy className t := by
  rw [compile, compile, compileAt, compileAt, h]

/-- With any table, the subroutines behind the first are compiled with the table that the
first one leaves. -/
theorem compileAll_cons (policy : Policy) (className : String) (table : σ) (r : Subroutine)
    (rest : List Subroutine) :
    (compileAll policy className table (r :: rest)).1
      = (r.compile policy className table).1 >>= fun _ =>
          (compileAll policy className (SymbolTable.enter table r).1 rest).1 := by
  rw [compileAll]
  split
  · rfl
  · next herror => rw [Emit.bind_eq_self herror]

end Tables

/-- The instructions that allocate the object of a constructor. -/
def allocation (kind : Subroutine.Kind) (fields : Nat) : List Instr :=
  if kind = .constructor ∧ 0 < fields then
    [.push .constant fields, .call "Memory.alloc" 1, .pop .pointer 0]
  else []

/-- What is written before the statements of a subroutine. -/
def opening (className : String) (table : Scopes) (r : Subroutine) : List Instr :=
  .function (SubroutineName.mk className r.name).text (table.enter r).1.localCount ::
    allocation r.kind table.fieldCount

/-- What the statements of a subroutine are compiled with. -/
def env (policy : Policy) (className : String) (table : Scopes) (r : Subroutine) : Env :=
  ⟨policy, ⟨className, r.name⟩, (table.enter r).1.lookup⟩

theorem mem_allocation {kind : Subroutine.Kind} {fields : Nat} {i : Instr}
    (h : i ∈ allocation kind fields) :
    i = .push .constant fields ∨ i = .call "Memory.alloc" 1 ∨ i = .pop .pointer 0 := by
  rw [allocation] at h
  split at h
  · simpa using h
  · cases h

theorem compileAllocation_eq_ofCode (kind : Subroutine.Kind) (fields : Nat) :
    compileAllocation kind fields = .ofCode (allocation kind fields) := by
  rw [compileAllocation, allocation]
  split
  · rfl
  · rfl

variable {policy : Policy} {className : String} {table : Scopes} {r : Subroutine}

theorem compile_of_refused {e : CompileError} (h : (table.enter r).2 = .error e) :
    (r.compile policy className table).1
      = ⟨[.note (.compiling ⟨className, r.name⟩)], .error e⟩ := by
  show (Emit.note _ >>= fun _ => Emit.ofExcept (table.enter r).2 >>= fun _ => _) = _
  rw [h]
  rfl

/-- A subroutine that is entered is noted, opened and compiled statement by statement. -/
theorem compile_of_entered (h : (table.enter r).2 = .ok ()) :
    (r.compile policy className table).1 = (do
      Emit.note (.compiling ⟨className, r.name⟩)
      Emit.ofCode (r.opening className table)
      forM r.body (Statement.compile (r.env policy className table))) := by
  have hopening : Emit.ofCode (r.opening className table)
      = Emit.instr (.function (SubroutineName.mk className r.name).text
          (table.enter r).1.localCount) >>= fun _ =>
        compileAllocation r.kind (table.enter r).1.fieldCount := by
    rw [compileAllocation_eq_ofCode, Emit.instr_eq_ofCode, Emit.ofCode_bind, opening,
      table.fieldCount_enter r]
    rfl
  rw [hopening, ← Statement.compileAll_eq_forM, bind_assoc]
  show (Emit.note _ >>= fun _ => Emit.ofExcept (table.enter r).2 >>= fun _ => _) = _
  rw [h]
  rfl

theorem code_compile (h : (table.enter r).2 = .ok ()) :
    (r.compile policy className table).1.code
      = r.opening className table
        ++ (forM r.body (Statement.compile (r.env policy className table))).code := by
  rw [compile_of_entered h, Emit.code_bind rfl, Emit.code_bind (Emit.outcome_ofCode _),
    Emit.code_ofCode]
  rfl

theorem outcome_compile_eq_ok_iff :
    (r.compile policy className table).1.outcome = .ok () ↔
      (table.enter r).2 = .ok () ∧
        ∀ s ∈ r.body, (s.compile (r.env policy className table)).outcome = .ok () := by
  cases h : (table.enter r).2 with
  | error e => simp [compile_of_refused h]
  | ok u =>
      rw [compile_of_entered h, Emit.outcome_seq_eq_ok_iff, Emit.outcome_seq_eq_ok_iff,
        Emit.outcome_forM_eq_ok_iff]
      simp [Emit.note]

/-- The statements of a subroutine that compiles are written one after another behind its
opening. -/
theorem code_compile_eq_flatMap (h : (r.compile policy className table).1.outcome = .ok ()) :
    (r.compile policy className table).1.code = r.opening className table ++
      r.body.flatMap fun s => (s.compile (r.env policy className table)).code := by
  obtain ⟨henter, hbody⟩ := outcome_compile_eq_ok_iff.1 h
  rw [code_compile henter, Emit.code_forM (Emit.outcome_forM_eq_ok_iff.2 hbody)]

/-- Each subroutine is compiled with the table of the start. -/
theorem compileAll_eq_forM (policy : Policy) (className : String) (table : Scopes)
    (rs : List Subroutine) :
    (compileAll policy className table rs).1
      = forM rs fun r => (r.compile policy className table).1 := by
  induction rs with
  | nil => rfl
  | cons r rs ih =>
      have hrest : (compileAll policy className (table.enter r).1 rs).1
          = (compileAll policy className table rs).1 := by
        cases rs with
        | nil => rfl
        | cons r' rs =>
            have henter : SymbolTable.enter (table.enter r).1 r' = SymbolTable.enter table r' :=
              table.enter_enter r r'
            rw [compileAll_cons, compileAll_cons, compile_eq_of_enter henter, henter]
      rw [compileAll_cons, List.forM_cons, ← ih, ← hrest]
      rfl

/-- A single subroutine of a class is compiled as by itself. -/
theorem compileAll_singleton (policy : Policy) (className : String) (table : Scopes)
    (r : Subroutine) :
    (compileAll policy className table [r]).1 = (r.compile policy className table).1 := by
  rw [compileAll_eq_forM, List.forM_cons, List.forM_nil]
  exact bind_pure _

end Subroutine

/-! ## Classes -/

namespace Class

variable {policy : Policy} {table : Scopes} {c : Class}

theorem outcome_compile_eq_ok_iff :
    (c.compile policy table).1.outcome = .ok () ↔
      ∀ r ∈ c.subroutines, (r.compile policy c.name table).1.outcome = .ok () := by
  rw [compile, Subroutine.compileAll_eq_forM, Emit.outcome_forM_eq_ok_iff]

theorem code_compile_eq_flatMap (h : (c.compile policy table).1.outcome = .ok ()) :
    (c.compile policy table).1.code
      = c.subroutines.flatMap fun r => (r.compile policy c.name table).1.code := by
  rw [compile, Subroutine.compileAll_eq_forM] at h ⊢
  exact Emit.code_forM h

/-- A class whose own variables are refused has no code at all. -/
theorem toListing_of_refused {e : CompileError} (h : Scopes.ofClass c = .error e) :
    c.toListing policy = ⟨[], .error e⟩ := by
  rw [toListing, h]
  rfl

theorem toListing_of_table (h : Scopes.ofClass c = .ok table) :
    c.toListing policy = (do
      (c.compile policy table).1
      Emit.note (.summary c.name (c.compile policy table).2.staticCount
        (Text.lineCount (Vm.Listing.write "" (c.compile policy table).1.code)))
      pure (Vm.Listing.write "" (c.compile policy table).1.code)) := by
  rw [toListing, h]
  rfl

end Class

end JackLang
