import JackLang.Proofs.Acceptance

/-!
# The slots of emitted code

`Env.MayWrite` lists what the statements of a subroutine can write: constants, loads and
stores of declared variables that are not static, addition and subtraction, calls of the two
other operations and of the callees that are named, the drop of a result, the object, and
returns.  Nothing else is ever written, under either policy and also in front of an error
(`Statement.mayWrite_of_mem`).

A variable of a subroutine has a number below the count of its storage class.  So every slot
in a block is one that the subroutine has (`Class.HasSlot`), whatever was entered before it.
-/

namespace JackLang

open Vm (Instr)

/-! ## What statements write -/

/-- The subroutines that a statement names for a call. -/
def Statement.callees : Statement → List String
  | .call _ name _ => [name]
  | .assign .. | .ret _ => []

/-- The instructions that statements with given callees can write.  A callee is taken for a
subroutine of the same class. -/
inductive Env.MayWrite (env : Env) (callees : List String) : Instr → Prop where
  | constant (n : Nat) : MayWrite env callees (.push .constant n)
  | load {name : String} {symbol : Symbol} (declared : env.lookup name = some symbol)
      (hasCode : symbol.storage ≠ .static) :
      MayWrite env callees (.push symbol.segment symbol.index)
  | store {name : String} {symbol : Symbol} (declared : env.lookup name = some symbol)
      (hasCode : symbol.storage ≠ .static) :
      MayWrite env callees (.pop symbol.segment symbol.index)
  | call {callee : String} (named : callee ∈ callees) (args : Nat) :
      MayWrite env callees (.call (SubroutineName.mk env.place.className callee).text args)
  | add : MayWrite env callees (.command .add)
  | sub : MayWrite env callees (.command .sub)
  | multiply : MayWrite env callees (.call "Math.multiply" 2)
  | divide : MayWrite env callees (.call "Math.divide" 2)
  | drop : MayWrite env callees (.pop .temp 0)
  | object : MayWrite env callees (.push .pointer 0)
  | ret : MayWrite env callees .ret

variable {env : Env} {callees : List String} {i : Instr}

theorem Env.not_mem_code_gap {construct : Construct} : i ∉ (env.gap construct).code := by
  rw [Env.gap]
  cases env.policy with
  | skip => exact List.not_mem_nil
  | reject => exact List.not_mem_nil

/-- Looking up a name writes nothing, and nothing follows an unknown name. -/
theorem Env.mem_code_resolve_bind {α : Type} {name : String} {f : Symbol → Emit α}
    (h : i ∈ (env.resolve name >>= f).code) :
    ∃ symbol, env.lookup name = some symbol ∧ i ∈ (f symbol).code := by
  rw [Env.resolve] at h
  cases hlookup : env.lookup name with
  | some symbol =>
      rw [hlookup] at h
      simp only [pure_bind] at h
      exact ⟨symbol, rfl, h⟩
  | none =>
      rw [hlookup] at h
      cases h

theorem Emit.eq_of_mem_code_instr {j : Instr} (h : i ∈ (Emit.instr j).code) : i = j :=
  List.mem_singleton.1 h

theorem BinOp.mayWrite_of_mem {op : BinOp} (h : i ∈ (op.compile env).code) :
    env.MayWrite callees i := by
  cases op with
  | add =>
      obtain rfl := Emit.eq_of_mem_code_instr h
      exact .add
  | sub =>
      obtain rfl := Emit.eq_of_mem_code_instr h
      exact .sub
  | mul =>
      obtain rfl := Emit.eq_of_mem_code_instr h
      exact .multiply
  | div =>
      obtain rfl := Emit.eq_of_mem_code_instr h
      exact .divide
  | and | or | less | greater | equal => exact absurd h Env.not_mem_code_gap

mutual

theorem Term.mayWrite_of_mem :
    ∀ {t : Term}, i ∈ (t.compile env).code → env.MayWrite callees i
  | .int value, h => by
      rw [Term.compile] at h
      obtain rfl := Emit.eq_of_mem_code_instr h
      exact .constant _
  | .string _, h => by
      rw [Term.compile] at h
      exact absurd h Env.not_mem_code_gap
  | .keyword _, h => by
      rw [Term.compile] at h
      exact absurd h Env.not_mem_code_gap
  | .var name, h => by
      rw [Term.compile] at h
      obtain ⟨symbol, hlookup, hload⟩ := Env.mem_code_resolve_bind h
      rw [Symbol.compileLoad] at hload
      split at hload
      · exact absurd hload Env.not_mem_code_gap
      · next hstatic =>
          obtain rfl := Emit.eq_of_mem_code_instr hload
          exact .load hlookup hstatic
  | .paren inner, h => by
      rw [Term.compile] at h
      exact Expr.mayWrite_of_mem h
  | .unary _ _, h => by
      rw [Term.compile] at h
      exact absurd h Env.not_mem_code_gap

theorem Expr.mayWrite_of_mem :
    ∀ {e : Expr}, i ∈ (e.compile env).code → env.MayWrite callees i
  | .single term, h => by
      rw [Expr.compile] at h
      exact Term.mayWrite_of_mem h
  | .binary term op rest, h => by
      rw [Expr.compile] at h
      rcases Emit.mem_code_bind h with hterm | ⟨⟨⟩, -, h'⟩
      · exact Term.mayWrite_of_mem hterm
      rcases Emit.mem_code_bind h' with hrest | ⟨⟨⟩, -, hop⟩
      · exact Expr.mayWrite_of_mem hrest
      · exact BinOp.mayWrite_of_mem hop

end

/-- A statement writes nothing but what is listed, also where it ends in an error. -/
theorem Statement.mayWrite_of_mem {s : Statement} (h : i ∈ (s.compile env).code) :
    env.MayWrite s.callees i := by
  cases s with
  | call receiver name args =>
      rw [Statement.compile] at h
      rcases Emit.mem_code_bind h with hargs | ⟨⟨⟩, -, h'⟩
      · rw [Expr.compileAll_eq_forM] at hargs
        obtain ⟨e, -, he⟩ := Emit.mem_code_forM hargs
        exact Expr.mayWrite_of_mem he
      rcases Emit.mem_code_bind h' with hcall | ⟨⟨⟩, -, hdrop⟩
      · obtain rfl := Emit.eq_of_mem_code_instr hcall
        exact .call List.mem_cons_self _
      · obtain rfl := Emit.eq_of_mem_code_instr hdrop
        exact .drop
  | assign target index value =>
      rw [Statement.compile] at h
      obtain ⟨symbol, hlookup, h'⟩ := Env.mem_code_resolve_bind h
      cases hgap : symbol.storeGap? index with
      | some construct =>
          simp only [hgap] at h'
          rcases Emit.mem_code_bind h' with hnone | ⟨⟨⟩, -, hvalue⟩
          · exact absurd hnone Env.not_mem_code_gap
          · exact Expr.mayWrite_of_mem hvalue
      | none =>
          simp only [hgap] at h'
          rcases Emit.mem_code_bind h' with hvalue | ⟨⟨⟩, -, hstore⟩
          · exact Expr.mayWrite_of_mem hvalue
          · obtain rfl := Emit.eq_of_mem_code_instr hstore
            exact .store hlookup (Statement.storeGap?_eq_none_iff.1 hgap).2
  | ret value =>
      cases value with
      | none =>
          rw [Statement.compile] at h
          rcases Emit.mem_code_bind h with hzero | ⟨⟨⟩, -, hret⟩
          · obtain rfl := Emit.eq_of_mem_code_instr hzero
            exact .constant _
          · obtain rfl := Emit.eq_of_mem_code_instr hret
            exact .ret
      | some value =>
          rw [Statement.compile] at h
          split at h
          · rcases Emit.mem_code_bind h with hthis | ⟨⟨⟩, -, hret⟩
            · obtain rfl := Emit.eq_of_mem_code_instr hthis
              exact .object
            · obtain rfl := Emit.eq_of_mem_code_instr hret
              exact .ret
          · rcases Emit.mem_code_bind h with hnone | ⟨⟨⟩, -, hret⟩
            · exact absurd hnone Env.not_mem_code_gap
            · obtain rfl := Emit.eq_of_mem_code_instr hret
              exact .ret

/-! ## Slots of a subroutine -/

namespace Class

/-- Whether a subroutine of a class has a slot.  Argument 0 of a method is the object and
stands for no variable. -/
def HasSlot (c : Class) (r : Subroutine) : Vm.Segment → Nat → Prop
  | .constant, _ => True
  | .local, index => index < r.localCount
  | .argument, index => r.receivers ≤ index ∧ index < r.receivers + r.params.length
  | .this, index => index < c.fieldNames.length
  | .pointer, index | .temp, index => index = 0
  | .static, _ | .that, _ => False

/-- Whether an instruction can be behind the entry of a subroutine. -/
def InRange (c : Class) (r : Subroutine) : Instr → Prop
  | .push segment index => c.HasSlot r segment index
  | .pop segment index => segment ≠ .constant ∧ c.HasSlot r segment index
  | .command command => command = .add ∨ command = .sub
  | .call .. | .ret => True
  | .function .. => False

variable {policy : Policy} {c : Class} {table : Scopes} {r : Subroutine}

/-- The symbol of a variable is a slot that the subroutine has. -/
theorem hasSlot_of_lookup (htable : Scopes.ofClass c = .ok table)
    (henter : (table.enter r).2 = .ok ()) {name : String} {symbol : Symbol}
    (hlookup : (table.enter r).1.lookup name = some symbol)
    (hstatic : symbol.storage ≠ .static) :
    symbol.segment ≠ .constant ∧ c.HasSlot r symbol.segment symbol.index := by
  rcases (Scopes.lookup_eq_some_iff htable (Prod.ext rfl henter)).1 hlookup with
    ⟨hparam, rfl⟩ | ⟨hlocal, rfl⟩ | ⟨-, -, kind, hclass, rfl⟩
  · have hindex := List.idxOf_lt_length_of_mem hparam
    rw [Subroutine.paramNames, List.length_map] at hindex
    refine ⟨by simp [Symbol.segment, Storage.segment], Nat.le_add_right _ _, ?_⟩
    exact Nat.add_lt_add_left hindex _
  · exact ⟨by simp [Symbol.segment, Storage.segment], List.idxOf_lt_length_of_mem hlocal⟩
  · cases kind with
    | static => exact absurd rfl hstatic
    | field =>
        exact ⟨by simp [Symbol.segment, Storage.segment, Storage.ofClassVar],
          List.idxOf_lt_length_of_mem hclass⟩

theorem inRange_of_mayWrite (htable : Scopes.ofClass c = .ok table)
    (henter : (table.enter r).2 = .ok ()) (h : (r.env policy c.name table).MayWrite callees i) :
    c.InRange r i := by
  cases h with
  | constant n => trivial
  | load hlookup hstatic => exact (hasSlot_of_lookup htable henter hlookup hstatic).2
  | store hlookup hstatic => exact hasSlot_of_lookup htable henter hlookup hstatic
  | call | multiply | divide => trivial
  | add => exact .inl rfl
  | sub => exact .inr rfl
  | drop => exact ⟨by simp, rfl⟩
  | object => rfl
  | ret => trivial

theorem inRange_of_mem_allocation {kind : Subroutine.Kind} {fields : Nat}
    (h : i ∈ Subroutine.allocation kind fields) : c.InRange r i := by
  rcases Subroutine.mem_allocation h with rfl | rfl | rfl
  · trivial
  · trivial
  · exact ⟨by simp, rfl⟩

end Class

/-! ## Blocks -/

namespace Subroutine

/-- The code of subroutines is made of blocks, up to the one where the compilation stops.
A subroutine whose names are refused has none. -/
theorem exists_blocks (policy : Policy) (className : String) (table : Scopes)
    (rs : List Subroutine) :
    ∃ opened, opened <+: rs ∧ (∀ r ∈ opened, (table.enter r).2 = .ok ()) ∧
      (compileAll policy className table rs).1.code
        = opened.flatMap fun r => (r.compile policy className table).1.code := by
  rw [compileAll_eq_forM]
  induction rs with
  | nil => exact ⟨[], List.prefix_refl _, List.forall_mem_nil _, rfl⟩
  | cons r rs ih =>
      rw [List.forM_cons]
      cases henter : (table.enter r).2 with
      | error e =>
          refine ⟨[], List.nil_prefix, List.forall_mem_nil _, ?_⟩
          rw [compile_of_refused henter]
          rfl
      | ok u =>
          cases hr : (r.compile policy className table).1.outcome with
          | error e =>
              refine ⟨[r], ⟨rs, rfl⟩, List.forall_mem_singleton.2 henter, ?_⟩
              rw [Emit.bind_eq_self hr, List.flatMap_singleton]
          | ok v =>
              obtain ⟨opened, hbegin, hopened, hcode⟩ := ih
              refine ⟨r :: opened, List.cons_prefix_cons.2 ⟨rfl, hbegin⟩,
                List.forall_mem_cons.2 ⟨henter, hopened⟩, ?_⟩
              rw [Emit.code_bind hr, hcode, List.flatMap_cons]

end Subroutine

/-- Every slot in the code of a class is in range, under either policy and however the
compilation ends.  The code is made of blocks, one for each subroutine up to where the
compilation stops.  A block is the entry of its function with the number of local variables,
the allocation of an object for its fields if the subroutine is a constructor and there are
fields, and the code of the statements.  Behind the entry every instruction is in range. -/
theorem Class.compile_in_range (policy : Policy) (c : Class) (table : Scopes)
    (htable : Scopes.ofClass c = .ok table) :
    ∃ opened, opened <+: c.subroutines ∧
      (c.compile policy table).1.code
        = opened.flatMap (fun r => (r.compile policy c.name table).1.code) ∧
      ∀ r ∈ opened, ∃ behind,
        (r.compile policy c.name table).1.code
          = .function (SubroutineName.mk c.name r.name).text r.localCount :: behind ∧
        behind = (if r.kind = .constructor ∧ 0 < c.fieldNames.length then
            [.push .constant c.fieldNames.length, .call "Memory.alloc" 1, .pop .pointer 0]
          else []) ++ (Statement.compileAll (r.env policy c.name table) r.body).code ∧
        ∀ i ∈ behind, c.InRange r i := by
  obtain ⟨opened, hbegin, hopened, hcode⟩ :=
    Subroutine.exists_blocks policy c.name table c.subroutines
  refine ⟨opened, hbegin, hcode, fun r hr => ?_⟩
  have henter := hopened r hr
  have hlocals : (table.enter r).1.localCount = r.localCount :=
    Scopes.localCount_of_enter (Prod.ext rfl henter)
  refine ⟨Subroutine.allocation r.kind c.fieldNames.length
    ++ (Statement.compileAll (r.env policy c.name table) r.body).code, ?_, rfl, ?_⟩
  · rw [Subroutine.code_compile henter, Subroutine.opening, hlocals,
      Scopes.fieldCount_ofClass htable, Statement.compileAll_eq_forM]
    rfl
  · intro i hi
    rcases List.mem_append.1 hi with halloc | hbody
    · exact Class.inRange_of_mem_allocation halloc
    · rw [Statement.compileAll_eq_forM] at hbody
      obtain ⟨s, -, hs⟩ := Emit.mem_code_forM hbody
      exact Class.inRange_of_mayWrite htable henter (Statement.mayWrite_of_mem hs)

/-- A class whose constructor has a parameter with the name of the field, and whose method
ends in an error. -/
def Class.counter : Class where
  name := "Counter"
  vars := [⟨.field, .int, ["count"]⟩]
  subroutines := [
    { kind := .constructor
      name := "new"
      returns := some (.object "Counter")
      params := [⟨.int, "count"⟩]
      locals := []
      body := [.assign "count" none (.single (.var "count")),
        .ret (some (.single (.keyword .this)))] },
    { kind := .method
      name := "add"
      returns := none
      params := [⟨.int, "by"⟩]
      locals := [⟨.int, ["sum"]⟩]
      body := [.assign "sum" none (.single (.var "by")),
        .assign "count" none (.binary (.var "sum") .add (.binary (.var "count") .add
          (.single (.var "ghost"))))] }]

/-- What the class writes before the error is in range. -/
theorem Class.compile_in_range_counter : ∃ table, Scopes.ofClass Class.counter = .ok table ∧
    (Class.counter.compile .skip table).1.outcome
      = .error (.unresolved "ghost" ⟨"Counter", "add"⟩) ∧
    (Class.counter.compile .skip table).1.code
      = [.function "Counter.new" 0, .push .constant 1, .call "Memory.alloc" 1, .pop .pointer 0,
          .push .argument 0, .pop .argument 0, .push .pointer 0, .ret,
        .function "Counter.add" 1, .push .argument 1, .pop .local 0, .push .local 0,
          .push .this 0] ∧
    ∀ i ∈ (Class.counter.compile .skip table).1.code,
      (∃ name locals, i = .function name locals) ∨
        ∃ r ∈ Class.counter.subroutines, Class.counter.InRange r i := by
  refine ⟨_, rfl, rfl, rfl, fun i hi => ?_⟩
  obtain ⟨opened, hbegin, hcode, hblocks⟩ := Class.compile_in_range .skip Class.counter _ rfl
  rw [hcode] at hi
  obtain ⟨r, hr, hi⟩ := List.mem_flatMap.1 hi
  obtain ⟨behind, hblock, -, hbehind⟩ := hblocks r hr
  rw [hblock] at hi
  rcases List.mem_cons.1 hi with rfl | hi
  · exact .inl ⟨_, _, rfl⟩
  · exact .inr ⟨r, hbegin.subset hr, hbehind i hi⟩

end JackLang
