import JackLang.Compile.Expr
import JackLang.Proofs.Emission
import JackLang.Proofs.Evaluation
import JackLang.Symbol.Table

/-!
# Running the code of expressions

The code of an expression computes its value.  `Machine.Leaves` says what that means
for a piece of code: whatever code follows, the run gets there with one more value on
the stack and nothing else changed, or it ends in a fault and has changed nothing but
the stack.  Both parts speak of every continuation, so pieces of code compose
(`Machine.Leaves.bind`), and the proof is an induction over terms and chains.

`Machine.reading` is what the names of a program stand for on a machine: the cell of
the segment at the index that the table of symbols gives.
-/

namespace JackLang

open Vm (Fault Instr Machine)

namespace Vm.Machine

/-! ## What names stand for -/

/-- The value of a cell. -/
def cell (cells : Array Int16) (index : Nat) : Except EvalError Int16 :=
  match cells[index]? with
  | some value => .ok value
  | none => .error (.fault (.outOfBounds cells.size index))

/-- The value of a cell is what the machine loads from it. -/
theorem cell_eq_load {m : Machine} {segment : Segment} {cells : Array Int16}
    (h : m.cells? segment = some cells) (index : Nat) :
    cell cells index = (m.load segment index).mapError EvalError.fault := by
  simp only [load, h, cell]
  cases cells[index]? with
  | none => rfl
  | some value => rfl

/-- What names stand for on a machine under a table of symbols. -/
def reading (m : Machine) (lookup : String → Option Symbol) : Reading := fun name =>
  match lookup name with
  | some ⟨.argument, index⟩ => cell m.arguments index
  | some ⟨.local, index⟩ => cell m.locals index
  | some ⟨.field, index⟩ => cell m.this index
  | some ⟨.static, _⟩ | none => .error .noValue

/-- A name stands for what the machine loads from its symbol. -/
theorem reading_eq_load (m : Machine) {lookup : String → Option Symbol} {name : String}
    {symbol : Symbol} (hlookup : lookup name = some symbol) (hstatic : symbol.storage ≠ .static) :
    m.reading lookup name = (m.load symbol.segment symbol.index).mapError EvalError.fault := by
  obtain ⟨storage, index⟩ := symbol
  rw [reading, hlookup]
  cases storage with
  | static => exact absurd rfl hstatic
  | field | argument | «local» => exact cell_eq_load rfl index

/-! ## Pieces of code that compute -/

/-- From this machine the code leaves the result of an evaluation on top of the given
stack, or ends in its fault above that stack.  No other part of the machine changes,
whatever code follows. -/
def Leaves (m : Machine) (code : List Instr) (stack : List Int16) :
    Except EvalError Int16 → Prop
  | .ok value => ∀ rest, m.run (code ++ rest) = { m with stack := value :: stack }.run rest
  | .error (.fault f) => ∃ above, ∀ rest,
      m.run (code ++ rest) = ⟨{ m with stack := above ++ stack }, .error f⟩
  | .error .noValue => False

/-- Code that computes may be followed by code that computes with its value. -/
theorem Leaves.bind {m : Machine} {code code' : List Instr} {stack stack' : List Int16}
    {r : Except EvalError Int16} {f : Int16 → Except EvalError Int16}
    (hstack : stack' <:+ stack) (h : m.Leaves code stack r)
    (h' : ∀ a, r = .ok a → { m with stack := a :: stack }.Leaves code' stack' (f a)) :
    m.Leaves (code ++ code') stack' (r >>= f) := by
  match r with
  | .ok a =>
      have h'' := h' a rfl
      show m.Leaves (code ++ code') stack' (f a)
      match hf : f a with
      | .ok value =>
          rw [hf] at h''
          intro rest
          rw [List.append_assoc, h, h'']
      | .error (.fault fault) =>
          rw [hf] at h''
          obtain ⟨above, h''⟩ := h''
          refine ⟨above, fun rest => ?_⟩
          rw [List.append_assoc, h, h'']
      | .error .noValue =>
          rw [hf] at h''
          exact h''
  | .error (.fault fault) =>
      obtain ⟨above, h⟩ := h
      obtain ⟨between, rfl⟩ := hstack
      refine ⟨above ++ between, fun rest => ?_⟩
      rw [List.append_assoc, h, List.append_assoc]
  | .error .noValue => exact h

/-- An instruction that gives a value leaves it. -/
theorem leaves_of_step {m : Machine} {i : Instr} {stack : List Int16}
    {r : Except Fault Int16} (hi : i ≠ .ret)
    (h : m.step i = { m with stack := stack }.give r) :
    m.Leaves [i] stack (r.mapError EvalError.fault) := by
  cases r with
  | ok value =>
      intro rest
      have hfault : (m.step i).fault = none := by rw [h]; rfl
      rw [List.singleton_append, run_cons_of_fault_none rest hi hfault, h]
      rfl
  | error f =>
      refine ⟨[], fun rest => ?_⟩
      have hfault : (m.step i).fault = some f := by rw [h]; rfl
      rw [List.singleton_append, run_cons_of_fault_some rest hfault, h]
      rfl

/-- Pushing a constant leaves it as a word. -/
theorem leaves_push_constant (m : Machine) (n : Nat) :
    m.Leaves [.push .constant n] m.stack (.ok (.ofInt n)) := by
  rw [Int16.ofInt_eq_ofNat]
  exact leaves_of_step (r := .ok (.ofNat n)) (by simp) rfl

/-- Pushing the first pointer leaves it. -/
theorem leaves_push_pointer (m : Machine) :
    m.Leaves [.push .pointer 0] m.stack (.ok m.pointer[0]) := by
  have hpushed : m.pushed .pointer 0 = .ok m.pointer[0] := by
    simp [pushed, load, cells?]
  refine leaves_of_step (r := .ok m.pointer[0]) (by simp) ?_
  rw [step, hpushed]

/-- Pushing the cell of a symbol leaves what its name stands for. -/
theorem leaves_push_symbol (m : Machine) {lookup : String → Option Symbol} {name : String}
    {symbol : Symbol} (hlookup : lookup name = some symbol) (hstatic : symbol.storage ≠ .static) :
    m.Leaves [.push symbol.segment symbol.index] m.stack (m.reading lookup name) := by
  rw [m.reading_eq_load hlookup hstatic]
  refine leaves_of_step (by simp) ?_
  obtain ⟨storage, index⟩ := symbol
  cases storage with
  | static => exact absurd rfl hstatic
  | field | argument | «local» => rfl

/-- The instruction of an operator leaves its value in the place of its operands. -/
theorem leaves_operator (env : Env) {op : BinOp} (hop : op.isArithmetic = true) :
    ∃ i, op.compile env = .ofCode [i] ∧ ∀ (m : Machine) (a b : Int16) (stack : List Int16),
      { m with stack := b :: a :: stack }.Leaves [i] stack (op.apply a b) := by
  cases op with
  | add =>
      refine ⟨_, rfl, fun m a b stack => ?_⟩
      rw [BinOp.apply, Int16.ofInt_add, Int16.ofInt_toInt, Int16.ofInt_toInt]
      exact leaves_of_step (r := .ok (a + b)) (by simp) rfl
  | sub =>
      refine ⟨_, rfl, fun m a b stack => ?_⟩
      rw [BinOp.apply, Int16.ofInt_sub, Int16.ofInt_toInt, Int16.ofInt_toInt]
      exact leaves_of_step (r := .ok (a - b)) (by simp) rfl
  | mul =>
      refine ⟨_, rfl, fun m a b stack => ?_⟩
      rw [BinOp.apply, Int16.ofInt_mul, Int16.ofInt_toInt, Int16.ofInt_toInt]
      exact leaves_of_step (r := .ok (a * b)) (by simp) rfl
  | div =>
      refine ⟨_, rfl, fun m a b stack => ?_⟩
      rw [BinOp.apply_div]
      exact leaves_of_step (by simp) rfl
  | and | or | less | greater | equal => exact absurd hop (by simp [BinOp.isArithmetic])

end Vm.Machine

/-! ## Code of terms and chains -/

/-- Every name of a list has a symbol that is not static. -/
def Env.Covers (env : Env) (names : List String) : Prop :=
  ∀ x ∈ names, ∃ symbol ∈ env.lookup x, symbol.storage ≠ .static

instance (env : Env) (names : List String) : Decidable (env.Covers names) :=
  inferInstanceAs (Decidable (∀ x ∈ names, ∃ symbol ∈ env.lookup x, symbol.storage ≠ .static))

theorem Env.Covers.append {env : Env} {names names' : List String} :
    env.Covers (names ++ names') ↔ env.Covers names ∧ env.Covers names' := by
  simp only [Env.Covers, List.forall_mem_append]

mutual

/-- The code of an arithmetic term computes its value. -/
theorem Term.compile_leaves {env : Env} :
    ∀ {t : Term}, t.isArithmetic = true → env.Covers t.vars →
      ∃ code, t.compile env = .ofCode code ∧
        ∀ m : Machine, m.Leaves code m.stack (t.eval (m.reading env.lookup))
  | .int value, _, _ => by
      refine ⟨[.push .constant value.toNat], by rw [Term.compile]; rfl, fun m => ?_⟩
      rw [Term.eval]
      exact m.leaves_push_constant value.toNat
  | .string _, h, _ => by simp [Term.isArithmetic] at h
  | .keyword _, h, _ => by simp [Term.isArithmetic] at h
  | .var name, _, hvars => by
      obtain ⟨symbol, hlookup, hstatic⟩ := hvars name (by simp [Term.vars])
      refine ⟨[.push symbol.segment symbol.index], ?_, fun m => ?_⟩
      · rw [Term.compile, Env.resolve, Option.mem_def.1 hlookup]
        simp only [pure_bind, Symbol.compileLoad, if_neg hstatic]
        rfl
      · rw [Term.eval]
        exact m.leaves_push_symbol hlookup hstatic
  | .paren inner, h, hvars => by
      rw [Term.isArithmetic] at h
      rw [Term.vars] at hvars
      obtain ⟨code, hcode, hrun⟩ := Expr.compile_leaves h hvars
      refine ⟨code, by rw [Term.compile, hcode], fun m => ?_⟩
      rw [Term.eval]
      exact hrun m
  | .unary _ _, h, _ => by simp [Term.isArithmetic] at h

/-- The code of an arithmetic expression computes its value. -/
theorem Expr.compile_leaves {env : Env} :
    ∀ {e : Expr}, e.isArithmetic = true → env.Covers e.vars →
      ∃ code, e.compile env = .ofCode code ∧
        ∀ m : Machine, m.Leaves code m.stack (e.eval (m.reading env.lookup))
  | .single term, h, hvars => by
      rw [Expr.isArithmetic] at h
      rw [Expr.vars] at hvars
      obtain ⟨code, hcode, hrun⟩ := Term.compile_leaves h hvars
      refine ⟨code, by rw [Expr.compile, hcode], fun m => ?_⟩
      rw [Expr.eval]
      exact hrun m
  | .binary term op rest, h, hvars => by
      simp only [Expr.isArithmetic, Bool.and_eq_true] at h
      obtain ⟨⟨hterm, hrest⟩, hop⟩ := h
      rw [Expr.vars, Env.Covers.append] at hvars
      obtain ⟨code, hcode, hrun⟩ := Term.compile_leaves hterm hvars.1
      obtain ⟨code', hcode', hrun'⟩ := Expr.compile_leaves hrest hvars.2
      obtain ⟨i, hi, hop⟩ := Machine.leaves_operator env hop
      refine ⟨code ++ (code' ++ [i]), ?_, fun m => ?_⟩
      · rw [Expr.compile, hcode, hcode', hi, Emit.ofCode_bind, Emit.ofCode_bind]
      · rw [Expr.eval]
        -- The remaining chain runs above the value of the term, and the operator
        -- takes both away again.
        refine (hrun m).bind (List.suffix_refl _) fun a _ => ?_
        exact (hrun' { m with stack := a :: m.stack }).bind (List.suffix_cons a m.stack)
          fun b _ => hop m a b m.stack

end

/-- Compiler correctness for expressions.  An arithmetic expression whose variables
have segments compiles without a note under either policy.  Its code puts the value
of the expression on the stack, or ends in the first fault of the evaluation, and in
both cases it changes nothing below and no segment. -/
theorem Expr.run_compile_eq_eval (env : Env) (e : Expr) (m : Machine)
    (harith : e.isArithmetic = true) (hvars : env.Covers e.vars) :
    (e.compile env).outcome = .ok () ∧ (e.compile env).notes = [] ∧
      match e.eval (m.reading env.lookup) with
      | .ok value =>
          m.run (e.compile env).code = ⟨{ m with stack := value :: m.stack }, .ok (some value)⟩
      | .error (.fault f) => ∃ above,
          m.run (e.compile env).code = ⟨{ m with stack := above ++ m.stack }, .error f⟩
      | .error .noValue => False := by
  obtain ⟨code, hcode, hrun⟩ := Expr.compile_leaves harith hvars
  have hrun := hrun m
  rw [hcode, Emit.outcome_ofCode, Emit.notes_ofCode, Emit.code_ofCode]
  refine ⟨rfl, rfl, ?_⟩
  match heval : e.eval (m.reading env.lookup) with
  | .ok value =>
      rw [heval] at hrun
      simpa using hrun []
  | .error (.fault f) =>
      rw [heval] at hrun
      obtain ⟨above, hrun⟩ := hrun
      exact ⟨above, by simpa using hrun []⟩
  | .error .noValue =>
      rw [heval] at hrun
      exact hrun

/-- In `x / (y - y) - z` the division comes last, and the missing cell of `z` is the
first fault. -/
theorem Expr.run_compile_first_fault : ∃ above,
    ({ locals := #[7, 5] } : Machine).run
      ((Expr.binary (.var "x") .div (.binary (.paren (.binary (.var "y") .sub
        (.single (.var "y")))) .sub (.single (.var "z")))).compile
          ⟨.reject, ⟨"Main", "run"⟩, FixedTable.lookup
            { symbols := [("x", ⟨.local, 0⟩), ("y", ⟨.local, 1⟩), ("z", ⟨.field, 3⟩)] }⟩).code
      = ⟨{ locals := #[7, 5], stack := above }, .error (.outOfBounds 0 3)⟩ := by
  have h := Expr.run_compile_eq_eval ⟨.reject, ⟨"Main", "run"⟩, FixedTable.lookup
      { symbols := [("x", ⟨.local, 0⟩), ("y", ⟨.local, 1⟩), ("z", ⟨.field, 3⟩)] }⟩
    (.binary (.var "x") .div (.binary (.paren (.binary (.var "y") .sub
        (.single (.var "y")))) .sub (.single (.var "z"))))
    { locals := #[7, 5] } (by decide) (by decide)
  obtain ⟨above, h⟩ := h.2.2
  exact ⟨above, by simpa using h⟩

end JackLang
