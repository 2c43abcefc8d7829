import JackLang.Proofs.Acceptance

/-!
# The depth of the stack

An instruction takes operands from the stack and gives at most one value back.  How deep the
stack is behind straight-line code can be told from this alone (`Vm.depth?`).

What the strict policy accepts keeps a discipline.  An expression adds one value, whatever
is below it.  A statement leaves the stack as deep as it was.  Functions are entered with
nothing on the stack, and they return with exactly the returned value there.
`Vm.Disciplined` says this of code from one depth to another.  Pieces of disciplined code
compose, so the proof follows the constructs of the language up to classes.

Under `skip` this fails, since a gap leaves out a value, an operator or a store.
-/

namespace JackLang

open Vm (Instr)

namespace Vm

/-! ## Depths -/

/-- The number of operands of a command. -/
def Command.operands : Command → Nat
  | .neg | .not => 1
  | .add | .sub | .eq | .gt | .lt | .and | .or => 2

/-- The number of values that an instruction takes from the stack. -/
def Instr.takes : Instr → Nat
  | .function .. | .push .. => 0
  | .pop .. | .ret => 1
  | .call _ args => args
  | .command c => c.operands

/-- The number of values that an instruction puts on the stack. -/
def Instr.gives : Instr → Nat
  | .function .. | .pop .. | .ret => 0
  | .push .. | .call .. | .command _ => 1

/-- The depth of the stack behind code, unless an instruction misses an operand. -/
def depth? (d : Nat) : List Instr → Option Nat
  | [] => some d
  | i :: rest => if i.takes ≤ d then depth? (d - i.takes + i.gives) rest else none

/-- Whether an instruction may stand at a depth. -/
def Instr.Stands (d : Nat) : Instr → Prop
  | .function .. => d = 0
  | .ret => d = 1
  | .push .. => True
  | .pop .. => 1 ≤ d
  | .call _ args => args ≤ d
  | .command c => c.operands ≤ d

theorem Instr.Stands.takes_le {d : Nat} {i : Instr} (h : i.Stands d) : i.takes ≤ d := by
  cases i with
  | function name locals => exact Nat.zero_le d
  | push segment index => exact Nat.zero_le d
  | pop segment index => exact h
  | call name args => exact h
  | command c => exact h
  | ret => exact Nat.le_of_eq h.symm

/-! ## Disciplined code -/

/-- Code that goes from one depth to another, where every instruction may stand. -/
inductive Disciplined : Nat → List Instr → Nat → Prop where
  | nil {d : Nat} : Disciplined d [] d
  | cons {d d' : Nat} {i : Instr} {rest : List Instr} :
      i.Stands d → Disciplined (d - i.takes + i.gives) rest d' → Disciplined d (i :: rest) d'

namespace Disciplined

variable {d d' d'' : Nat} {code code' : List Instr}

theorem append (h : Disciplined d code d') (h' : Disciplined d' code' d'') :
    Disciplined d (code ++ code') d'' := by
  induction h with
  | nil => exact h'
  | cons hi _ ih => exact .cons hi (ih h')

theorem singleton {i : Instr} (h : i.Stands d) (hd : d - i.takes + i.gives = d') :
    Disciplined d [i] d' := by
  subst hd
  exact .cons h .nil

theorem flatMap {α : Type} {xs : List α} {f : α → List Instr}
    (h : ∀ x ∈ xs, Disciplined d (f x) d) : Disciplined d (xs.flatMap f) d := by
  induction xs with
  | nil => exact .nil
  | cons x xs ih =>
      obtain ⟨hx, hxs⟩ := List.forall_mem_cons.1 h
      rw [List.flatMap_cons]
      exact hx.append (ih hxs)

theorem depth?_eq (h : Disciplined d code d') : depth? d code = some d' := by
  induction h with
  | nil => rfl
  | cons hi _ ih => rw [depth?, if_pos hi.takes_le, ih]

/-- An instruction of disciplined code stands at the depth behind what is before it. -/
theorem stands {before after : List Instr} {i : Instr}
    (h : Disciplined d (before ++ i :: after) d') :
    ∃ n, depth? d before = some n ∧ i.Stands n := by
  induction before generalizing d with
  | nil =>
      cases h with
      | cons hi _ => exact ⟨d, rfl, hi⟩
  | cons first before ih =>
      cases h with
      | cons hfirst hrest =>
          obtain ⟨n, hdepth, hi⟩ := ih hrest
          exact ⟨n, by rw [depth?, if_pos hfirst.takes_le, hdepth], hi⟩

end Disciplined

end Vm

open Vm (Disciplined)

/-! ## Expressions -/

variable {env : Env}

/-- An operator turns its two operands into one value. -/
theorem BinOp.disciplined_compile (hpolicy : env.policy = .reject) {op : BinOp}
    (h : (op.compile env).outcome = .ok ()) (d : Nat) :
    Disciplined (d + 2) (op.compile env).code (d + 1) := by
  have harith := BinOp.outcome_compile_eq_ok_iff.1 h hpolicy
  cases op with
  | add | sub | mul | div => exact .singleton (Nat.le_add_left 2 d) rfl
  | and | or | less | greater | equal => cases harith

mutual

theorem Term.disciplined_compile (hpolicy : env.policy = .reject) :
    ∀ {t : Term}, (t.compile env).outcome = .ok () →
      ∀ d, Disciplined d (t.compile env).code (d + 1)
  | .int value, _, d => by
      rw [Term.compile]
      exact .singleton trivial rfl
  | .string _, h, _ => by
      rw [Term.compile, Env.outcome_gap_eq_ok_iff] at h
      exact absurd hpolicy h
  | .keyword _, h, _ => by
      rw [Term.compile, Env.outcome_gap_eq_ok_iff] at h
      exact absurd hpolicy h
  | .var name, h, d => by
      rw [Term.compile] at h ⊢
      obtain ⟨symbol, hlookup, hload⟩ := Env.outcome_resolve_bind_eq_ok_iff.1 h
      have hstatic := Symbol.outcome_compileLoad_eq_ok_iff.1 hload hpolicy
      rw [Env.resolve_eq_pure hlookup, pure_bind, Symbol.compileLoad, if_neg hstatic]
      exact .singleton trivial rfl
  | .paren inner, h, d => by
      rw [Term.compile] at h ⊢
      exact Expr.disciplined_compile hpolicy h d
  | .unary _ _, h, _ => by
      rw [Term.compile, Env.outcome_gap_eq_ok_iff] at h
      exact absurd hpolicy h

/-- The code of an expression adds one value. -/
theorem Expr.disciplined_compile (hpolicy : env.policy = .reject) :
    ∀ {e : Expr}, (e.compile env).outcome = .ok () →
      ∀ d, Disciplined d (e.compile env).code (d + 1)
  | .single term, h, d => by
      rw [Expr.compile] at h ⊢
      exact Term.disciplined_compile hpolicy h d
  | .binary term op rest, h, d => by
      rw [Expr.compile] at h ⊢
      obtain ⟨hterm, h'⟩ := Emit.outcome_seq_eq_ok_iff.1 h
      obtain ⟨hrest, hop⟩ := Emit.outcome_seq_eq_ok_iff.1 h'
      rw [Emit.code_bind hterm, Emit.code_bind hrest]
      have hoperands := Expr.disciplined_compile hpolicy hrest (d + 1)
      exact (Term.disciplined_compile hpolicy hterm d).append
        (hoperands.append (BinOp.disciplined_compile hpolicy hop d))

end

/-- The code of arguments adds one value for each. -/
theorem Expr.disciplined_compileAll (hpolicy : env.policy = .reject) {es : List Expr}
    (h : (Expr.compileAll env es).outcome = .ok ()) (d : Nat) :
    Disciplined d (Expr.compileAll env es).code (d + es.length) := by
  induction es generalizing d with
  | nil => exact .nil
  | cons e es ih =>
      rw [Expr.compileAll] at h ⊢
      obtain ⟨he, hes⟩ := Emit.outcome_seq_eq_ok_iff.1 h
      have hlength : d + (e :: es).length = d + 1 + es.length := by
        rw [List.length_cons]
        omega
      rw [Emit.code_bind he, hlength]
      exact (Expr.disciplined_compile hpolicy he d).append (ih hes (d + 1))

/-! ## Statements and subroutines -/

/-- The code of a statement starts and ends with nothing on the stack. -/
theorem Statement.disciplined_compile (hpolicy : env.policy = .reject) {s : Statement}
    (h : (s.compile env).outcome = .ok ()) : Disciplined 0 (s.compile env).code 0 := by
  cases s with
  | call receiver name args =>
      rw [Statement.compile] at h ⊢
      obtain ⟨hargs, -⟩ := Emit.outcome_seq_eq_ok_iff.1 h
      have hdepth := Expr.disciplined_compileAll hpolicy hargs 0
      rw [Nat.zero_add] at hdepth
      rw [Emit.code_bind hargs]
      refine hdepth.append (.cons (Nat.le_refl _) (.singleton ?_ ?_))
      · exact Nat.le_add_left 1 _
      · show args.length - args.length + 1 - 1 + 0 = 0
        omega
  | assign target index value =>
      obtain ⟨rfl, hvalue, symbol, hlookup, hstatic⟩ := Statement.assign_of_compile hpolicy h
      have hgap : symbol.storeGap? none = none := by simp [Symbol.storeGap?, hstatic]
      rw [Statement.compile, Env.resolve_eq_pure hlookup]
      simp only [pure_bind, hgap]
      rw [Emit.code_bind hvalue]
      exact (Expr.disciplined_compile hpolicy hvalue 0).append (.singleton (Nat.le_refl 1) rfl)
  | ret value =>
      cases value with
      | none => exact .cons trivial (.singleton rfl rfl)
      | some value =>
          rw [Statement.compile, if_pos (Statement.isThis_of_compile hpolicy h)]
          exact .cons trivial (.singleton rfl rfl)

theorem Subroutine.disciplined_opening (className : String) (table : Scopes) (r : Subroutine) :
    Disciplined 0 (r.opening className table) 0 := by
  refine .cons rfl ?_
  rw [Subroutine.allocation]
  split
  · exact .cons trivial (.cons (Nat.le_refl 1) (.singleton (Nat.le_refl 1) rfl))
  · exact .nil

theorem Subroutine.disciplined_statements {className : String} {table : Scopes} {r : Subroutine}
    (h : (r.compile .reject className table).1.outcome = .ok ()) {body : List Statement}
    (hbody : body ⊆ r.body) :
    Disciplined 0 (body.flatMap fun s => (s.compile (r.env .reject className table)).code) 0 :=
  .flatMap fun s hs => Statement.disciplined_compile rfl
    ((Subroutine.outcome_compile_eq_ok_iff.1 h).2 s (hbody hs))

theorem Subroutine.disciplined_compile {className : String} {table : Scopes} {r : Subroutine}
    (h : (r.compile .reject className table).1.outcome = .ok ()) :
    Disciplined 0 (r.compile .reject className table).1.code 0 := by
  rw [Subroutine.code_compile_eq_flatMap h]
  exact (r.disciplined_opening className table).append
    (Subroutine.disciplined_statements h (List.Subset.refl _))

/-! ## Classes -/

namespace Class

/-- The code of a class up to a place in the body of one of its subroutines: the blocks of
the subroutines before it, its opening, and the code of the statements before the place. -/
def codeBefore (c : Class) (table : Scopes) (earlier : List Subroutine) (r : Subroutine)
    (done : List Statement) : List Instr :=
  (earlier.flatMap fun r => (r.compile .reject c.name table).1.code) ++
    (r.opening c.name table ++
      done.flatMap fun s => (s.compile (r.env .reject c.name table)).code)

section Places

variable {c : Class} {table : Scopes} {earlier later : List Subroutine} {r : Subroutine}
  {done rest : List Statement}

/-- Behind a place comes the code of the remaining statements and of the subroutines that
follow. -/
theorem code_compile_eq_codeBefore (hok : (c.compile .reject table).1.outcome = .ok ())
    (hsubroutines : c.subroutines = earlier ++ r :: later) (hbody : r.body = done ++ rest) :
    (c.compile .reject table).1.code = c.codeBefore table earlier r done ++
      ((rest.flatMap fun s => (s.compile (r.env .reject c.name table)).code) ++
        later.flatMap fun r => (r.compile .reject c.name table).1.code) := by
  have hr : (r.compile .reject c.name table).1.outcome = .ok () :=
    outcome_compile_eq_ok_iff.1 hok r (by simp [hsubroutines])
  rw [code_compile_eq_flatMap hok, hsubroutines, List.flatMap_append, List.flatMap_cons,
    Subroutine.code_compile_eq_flatMap hr, hbody, List.flatMap_append, codeBefore]
  simp only [List.append_assoc]

theorem disciplined_codeBefore (hok : (c.compile .reject table).1.outcome = .ok ())
    (hsubroutines : c.subroutines = earlier ++ r :: later) (hbody : r.body = done ++ rest) :
    Disciplined 0 (c.codeBefore table earlier r done) 0 := by
  have heach := outcome_compile_eq_ok_iff.1 hok
  have hearlier : Disciplined 0
      (earlier.flatMap fun r => (r.compile .reject c.name table).1.code) 0 :=
    .flatMap fun r' hr' => Subroutine.disciplined_compile (heach r' (by simp [hsubroutines, hr']))
  have hdone : done ⊆ r.body := by
    rw [hbody]
    exact List.subset_append_left done rest
  have hstatements := Subroutine.disciplined_statements (heach r (by simp [hsubroutines])) hdone
  exact hearlier.append ((r.disciplined_opening c.name table).append hstatements)

end Places

/-- The stack discipline of accepted code.  Every instruction finds its operands.  Functions
are entered at depth 0 and return at depth 1.  At the end of every opening and of every
statement the depth is 0. -/
theorem depth?_compile (c : Class) (table : Scopes)
    (hok : (c.compile .reject table).1.outcome = .ok ()) :
    Vm.depth? 0 (c.compile .reject table).1.code = some 0 ∧
    (∀ before name locals after,
      (c.compile .reject table).1.code = before ++ .function name locals :: after →
        Vm.depth? 0 before = some 0) ∧
    (∀ before after, (c.compile .reject table).1.code = before ++ .ret :: after →
      Vm.depth? 0 before = some 1) ∧
    (∀ earlier r later done rest,
      c.subroutines = earlier ++ r :: later → r.body = done ++ rest →
        (c.compile .reject table).1.code = c.codeBefore table earlier r done ++
          ((rest.flatMap fun s => (s.compile (r.env .reject c.name table)).code) ++
            later.flatMap fun r => (r.compile .reject c.name table).1.code) ∧
        Vm.depth? 0 (c.codeBefore table earlier r done) = some 0) := by
  have hcode : Disciplined 0 (c.compile .reject table).1.code 0 := by
    rw [code_compile_eq_flatMap hok]
    exact .flatMap fun r hr =>
      Subroutine.disciplined_compile (outcome_compile_eq_ok_iff.1 hok r hr)
  refine ⟨hcode.depth?_eq, ?_, ?_, ?_⟩
  · intro before name locals after hsplit
    rw [hsplit] at hcode
    obtain ⟨d, hdepth, rfl⟩ := hcode.stands
    exact hdepth
  · intro before after hsplit
    rw [hsplit] at hcode
    obtain ⟨d, hdepth, rfl⟩ := hcode.stands
    exact hdepth
  · intro earlier r later done rest hsubroutines hbody
    exact ⟨code_compile_eq_codeBefore hok hsubroutines hbody,
      (disciplined_codeBefore hok hsubroutines hbody).depth?_eq⟩

/-- A class with a constructor that calls with a chain as argument, and with a method whose
local variable hides a static variable. -/
def rectangle : Class where
  name := "Rectangle"
  vars := [⟨.static, .int, ["made"]⟩, ⟨.field, .int, ["width", "height"]⟩]
  subroutines := [
    { kind := .constructor
      name := "new"
      returns := some (.object "Rectangle")
      params := [⟨.int, "w"⟩, ⟨.int, "h"⟩]
      locals := []
      body := [
        .assign "width" none (.single (.var "w")),
        .assign "height" none (.binary (.paren (.binary (.var "h") .sub (.single (.int 1)))) .mul
          (.single (.var "w"))),
        .call (some "Screen") "draw"
          [.single (.var "w"),
            .binary (.var "h") .add (.binary (.int 2) .div (.single (.var "w")))],
        .ret (some (.single (.keyword .this)))] },
    { kind := .method
      name := "widen"
      returns := none
      params := []
      locals := [⟨.int, ["made"]⟩]
      body := [.assign "made" none (.single (.var "width")), .ret none] }]

/-- The class compiles.  The depth is 1 where its constructor returns, and 0 behind the call
of the constructor. -/
theorem depth?_compile_rectangle : ∃ table, Scopes.ofClass rectangle = .ok table ∧
    (rectangle.compile .reject table).1.outcome = .ok () ∧
    (rectangle.compile .reject table).1.code
      = [.function "Rectangle.new" 0, .push .constant 2, .call "Memory.alloc" 1, .pop .pointer 0,
          .push .argument 0, .pop .this 0,
          .push .argument 1, .push .constant 1, .command .sub, .push .argument 0,
          .call "Math.multiply" 2, .pop .this 1,
          .push .argument 0, .push .argument 1, .push .constant 2, .push .argument 0,
          .call "Math.divide" 2, .command .add, .call "Rectangle.draw" 2, .pop .temp 0,
          .push .pointer 0, .ret,
        .function "Rectangle.widen" 1, .push .this 0, .pop .local 0, .push .constant 0, .ret] ∧
    Vm.depth? 0 (rectangle.compile .reject table).1.code = some 0 ∧
    Vm.depth? 0 ((rectangle.compile .reject table).1.code.take 21) = some 1 ∧
    ∀ new widen, rectangle.subroutines = [new, widen] →
      Vm.depth? 0 (rectangle.codeBefore table [] new (new.body.take 3)) = some 0 := by
  obtain ⟨table, htable⟩ : ∃ table, Scopes.ofClass rectangle = .ok table := ⟨_, rfl⟩
  have hok : (rectangle.compile .reject table).1.outcome = .ok () := by
    cases htable
    rfl
  obtain ⟨hdepth, -, hreturns, hplaces⟩ := depth?_compile rectangle table hok
  refine ⟨table, htable, hok, ?_, hdepth, ?_, ?_⟩
  · cases htable
    rfl
  · refine hreturns _ ((rectangle.compile .reject table).1.code.drop 22) ?_
    cases htable
    rfl
  · intro new widen hsubroutines
    exact (hplaces [] new [widen] _ _ hsubroutines (List.take_append_drop 3 new.body).symm).2

end Class

end JackLang
