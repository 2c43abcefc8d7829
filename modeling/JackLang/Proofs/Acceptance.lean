import JackLang.Compile.Statement
import JackLang.Proofs.Blocks
import JackLang.Proofs.ExprRun

/-!
# What the two policies accept

A construct compiles when its names are declared and, under `reject`, when it has no gap.
Both conditions can be said without compiling.  The names of a statement are its target and
the variables of the values it computes (`Statement.names`).  It is free of gaps when the
values are arithmetic, no target has an index, a returned value is the object
(`Statement.hasCode`), and no name is that of a static variable (`Env.Covers`).

Positions that are never compiled have no part in this: indices, the operands of unary
operators and returned values.
-/

namespace JackLang

variable {env : Env}

/-! ## Names and gaps -/

/-- Every name of a list has a symbol. -/
def Env.Declares (env : Env) (names : List String) : Prop :=
  ∀ x ∈ names, ∃ symbol, env.lookup x = some symbol

theorem Env.Declares.append {names names' : List String} :
    env.Declares (names ++ names') ↔ env.Declares names ∧ env.Declares names' := by
  simp only [Env.Declares, List.forall_mem_append]

theorem Env.outcome_gap_eq_ok_iff (construct : Construct) :
    (env.gap construct).outcome = .ok () ↔ env.policy ≠ .reject := by
  rw [Env.gap]
  cases env.policy with
  | skip => simp [Emit.note]
  | reject => simp [Emit.fail]

theorem Env.resolve_eq_pure {name : String} {symbol : Symbol}
    (h : env.lookup name = some symbol) : env.resolve name = pure symbol := by
  rw [Env.resolve, h]

theorem Env.outcome_resolve_bind_eq_ok_iff {α : Type} {name : String} {f : Symbol → Emit α}
    {a : α} :
    (env.resolve name >>= f).outcome = .ok a ↔
      ∃ symbol, env.lookup name = some symbol ∧ (f symbol).outcome = .ok a := by
  rw [Env.resolve]
  cases env.lookup name with
  | none => simp [Emit.fail, Emit.bind_error]
  | some symbol => simp

/-! ## Expressions -/

theorem BinOp.outcome_compile_eq_ok_iff {op : BinOp} :
    (op.compile env).outcome = .ok () ↔ (env.policy = .reject → op.isArithmetic = true) := by
  cases op with
  | add | sub | mul | div => simp [BinOp.compile, Emit.instr, BinOp.isArithmetic]
  | and | or | less | greater | equal =>
      simp [BinOp.compile, Env.outcome_gap_eq_ok_iff, BinOp.isArithmetic]

theorem Symbol.outcome_compileLoad_eq_ok_iff {symbol : Symbol} :
    (symbol.compileLoad env).outcome = .ok () ↔
      (env.policy = .reject → symbol.storage ≠ .static) := by
  rw [Symbol.compileLoad]
  split
  · next hstatic => simp [Env.outcome_gap_eq_ok_iff, hstatic]
  · next hstatic => simp [Emit.instr, hstatic]

mutual

theorem Term.outcome_compile_eq_ok_iff :
    ∀ {t : Term}, (t.compile env).outcome = .ok () ↔ env.Declares t.vars ∧
      (env.policy = .reject → t.isArithmetic = true ∧ env.Covers t.vars)
  | .int _ => by
      simp [Term.compile, Term.vars, Term.isArithmetic, Emit.instr, Env.Declares, Env.Covers]
  | .string _ => by
      simp [Term.compile, Term.vars, Term.isArithmetic, Env.outcome_gap_eq_ok_iff, Env.Declares]
  | .keyword _ => by
      simp [Term.compile, Term.vars, Term.isArithmetic, Env.outcome_gap_eq_ok_iff, Env.Declares]
  | .var name => by
      rw [Term.compile, Env.outcome_resolve_bind_eq_ok_iff]
      simp only [Symbol.outcome_compileLoad_eq_ok_iff, Term.vars, Term.isArithmetic, Env.Declares,
        Env.Covers, List.forall_mem_singleton, Option.mem_def, true_and]
      constructor
      · rintro ⟨symbol, hlookup, hload⟩
        exact ⟨⟨symbol, hlookup⟩, fun hpolicy => ⟨symbol, hlookup, hload hpolicy⟩⟩
      · rintro ⟨⟨symbol, hlookup⟩, hcovers⟩
        refine ⟨symbol, hlookup, fun hpolicy => ?_⟩
        obtain ⟨other, hother, hstatic⟩ := hcovers hpolicy
        obtain rfl : other = symbol := Option.some.inj (hother.symm.trans hlookup)
        exact hstatic
  | .paren inner => by
      rw [Term.compile, Term.vars, Term.isArithmetic]
      exact Expr.outcome_compile_eq_ok_iff
  | .unary _ _ => by
      simp [Term.compile, Term.vars, Term.isArithmetic, Env.outcome_gap_eq_ok_iff, Env.Declares]

theorem Expr.outcome_compile_eq_ok_iff :
    ∀ {e : Expr}, (e.compile env).outcome = .ok () ↔ env.Declares e.vars ∧
      (env.policy = .reject → e.isArithmetic = true ∧ env.Covers e.vars)
  | .single term => by
      rw [Expr.compile, Expr.vars, Expr.isArithmetic]
      exact Term.outcome_compile_eq_ok_iff
  | .binary term op rest => by
      simp only [Expr.compile, Emit.outcome_seq_eq_ok_iff, BinOp.outcome_compile_eq_ok_iff,
        Term.outcome_compile_eq_ok_iff, Expr.outcome_compile_eq_ok_iff (e := rest), Expr.vars,
        Expr.isArithmetic, Env.Declares.append, Env.Covers.append, Bool.and_eq_true]
      tauto

end

/-- The strict policy compiles arithmetic expressions only. -/
theorem Expr.arithmetic_of_compile (hpolicy : env.policy = .reject) {e : Expr}
    (h : (e.compile env).outcome = .ok ()) : e.isArithmetic = true ∧ env.Covers e.vars :=
  (Expr.outcome_compile_eq_ok_iff.1 h).2 hpolicy

theorem Expr.outcome_compileAll_eq_ok_iff {es : List Expr} :
    (Expr.compileAll env es).outcome = .ok () ↔ env.Declares (es.flatMap Expr.vars) ∧
      (env.policy = .reject →
        es.all Expr.isArithmetic = true ∧ env.Covers (es.flatMap Expr.vars)) := by
  induction es with
  | nil => simp [Expr.compileAll, Emit.pure_def, Env.Declares, Env.Covers]
  | cons e es ih =>
      simp only [Expr.compileAll, Emit.outcome_seq_eq_ok_iff, ih, Expr.outcome_compile_eq_ok_iff,
        List.flatMap_cons, List.all_cons, Env.Declares.append, Env.Covers.append,
        Bool.and_eq_true]
      tauto

/-! ## Statements -/

namespace Statement

/-- The names that a statement needs. -/
def names : Statement → List String
  | .call _ _ args => args.flatMap Expr.vars
  | .assign target _ value => target :: value.vars
  | .ret _ => []

/-- Whether a statement is free of gaps as far as its shape tells. -/
def hasCode : Statement → Bool
  | .call _ _ args => args.all Expr.isArithmetic
  | .assign _ index value => index.isNone && value.isArithmetic
  | .ret none => true
  | .ret (some value) => value.isThis

theorem outcome_assign_eq_ok_iff {target : String} {index : Option Expr} {value : Expr} :
    ((Statement.assign target index value).compile env).outcome = .ok () ↔
      ∃ symbol, env.lookup target = some symbol ∧
        (env.policy = .reject → symbol.storeGap? index = none) ∧
        (value.compile env).outcome = .ok () := by
  rw [compile, Env.outcome_resolve_bind_eq_ok_iff]
  refine exists_congr fun symbol => and_congr_right fun _ => ?_
  cases symbol.storeGap? index with
  | some construct => simp [Emit.outcome_seq_eq_ok_iff, Env.outcome_gap_eq_ok_iff]
  | none => simp [Emit.outcome_seq_eq_ok_iff, Emit.instr]

theorem storeGap?_eq_none_iff {symbol : Symbol} {index : Option Expr} :
    symbol.storeGap? index = none ↔ index.isNone = true ∧ symbol.storage ≠ .static := by
  cases index with
  | some _ => simp [Symbol.storeGap?]
  | none => simp [Symbol.storeGap?]

/-- A statement compiles when its names are declared and, under the strict policy, when it
is free of gaps. -/
theorem outcome_compile_eq_ok_iff {s : Statement} :
    (s.compile env).outcome = .ok () ↔ env.Declares s.names ∧
      (env.policy = .reject → s.hasCode = true ∧ env.Covers s.names) := by
  cases s with
  | call receiver name args =>
      simp only [compile, Emit.outcome_seq_eq_ok_iff, Expr.outcome_compileAll_eq_ok_iff, names,
        hasCode]
      simp [Emit.instr]
  | assign target index value =>
      simp only [outcome_assign_eq_ok_iff, storeGap?_eq_none_iff, Expr.outcome_compile_eq_ok_iff,
        names, hasCode, Env.Declares, Env.Covers, List.forall_mem_cons, Option.mem_def,
        Bool.and_eq_true]
      constructor
      · rintro ⟨symbol, hlookup, hgap, hvars, hvalue⟩
        refine ⟨⟨⟨symbol, hlookup⟩, hvars⟩, fun hpolicy => ?_⟩
        obtain ⟨hindex, hstatic⟩ := hgap hpolicy
        obtain ⟨harith, hcovers⟩ := hvalue hpolicy
        exact ⟨⟨hindex, harith⟩, ⟨symbol, hlookup, hstatic⟩, hcovers⟩
      · rintro ⟨⟨⟨symbol, hlookup⟩, hvars⟩, hstrict⟩
        refine ⟨symbol, hlookup, fun hpolicy => ?_, hvars, fun hpolicy => ?_⟩
        · obtain ⟨⟨hindex, -⟩, ⟨other, hother, hstatic⟩, -⟩ := hstrict hpolicy
          obtain rfl : other = symbol := Option.some.inj (hother.symm.trans hlookup)
          exact ⟨hindex, hstatic⟩
        · obtain ⟨⟨-, harith⟩, -, hcovers⟩ := hstrict hpolicy
          exact ⟨harith, hcovers⟩
  | ret value =>
      cases value with
      | none => simp [compile, Emit.outcome_seq_eq_ok_iff, Emit.instr, names, hasCode,
          Env.Declares, Env.Covers]
      | some value =>
          simp only [compile, names, hasCode]
          split
          · next hthis =>
              simp [Emit.outcome_seq_eq_ok_iff, hthis, Emit.instr, Env.Declares, Env.Covers]
          · next hthis =>
              simp [Emit.outcome_seq_eq_ok_iff, Env.outcome_gap_eq_ok_iff, hthis, Emit.instr,
                Env.Declares]

/-- A `let` that the strict policy compiles has no index, a target with a segment and a
value that compiles. -/
theorem assign_of_compile (hpolicy : env.policy = .reject) {target : String}
    {index : Option Expr} {value : Expr}
    (h : ((Statement.assign target index value).compile env).outcome = .ok ()) :
    index = none ∧ (value.compile env).outcome = .ok () ∧
      ∃ symbol, env.lookup target = some symbol ∧ symbol.storage ≠ .static := by
  obtain ⟨symbol, hlookup, hgap, hvalue⟩ := outcome_assign_eq_ok_iff.1 h
  obtain ⟨hindex, hstatic⟩ := storeGap?_eq_none_iff.1 (hgap hpolicy)
  exact ⟨Option.isNone_iff_eq_none.1 hindex, hvalue, symbol, hlookup, hstatic⟩

/-- A `return` with a value that the strict policy compiles returns the object. -/
theorem isThis_of_compile (hpolicy : env.policy = .reject) {value : Expr}
    (h : ((Statement.ret (some value)).compile env).outcome = .ok ()) :
    value.isThis = true :=
  ((outcome_compile_eq_ok_iff.1 h).2 hpolicy).1

end Statement

end JackLang
