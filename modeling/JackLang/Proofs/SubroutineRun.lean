import JackLang.Compile.Class
import JackLang.Proofs.Acceptance
import JackLang.Proofs.Interpreter
import Mathlib.Data.List.GetD

/-!
# Running the code of subroutines

The code of a function or method with a body of `let` and `return` does what the
interpreter does with the same body.  The proof goes by the segments of the machine:
before and after every statement they hold the store of the interpreter (`Names.onto`).

A variable has one slot, the cell of its segment at its number (`Names.slot`).  Reading a
slot gives the value of the variable (`Names.reading_onto`), and setting it changes this
one variable (`Names.set_onto`), because no two variables share a slot.
-/

namespace JackLang

open Vm (Fault Instr Machine)

/-- Whether a statement is a `let` or a `return`. -/
def Statement.isStraight : Statement → Bool
  | .assign .. | .ret _ => true
  | .call .. => false

/-- Popping to a cell that is there sets it. -/
theorem Vm.Machine.step_pop {m below : Machine} {value old : Int16} {segment : Vm.Segment}
    {index : Nat} (hm : m = { below with stack := value :: below.stack })
    (hload : below.load segment index = .ok old) :
    m.step (.pop segment index) = ⟨below.set segment index value, none⟩ := by
  subst hm
  exact store_of_load_ok value hload

namespace Names

/-! ## Cells under names -/

/-- The cell at a name's position has the name's value. -/
theorem getElem?_overlay {cells : Array Int16} {start : Nat} (hstart : start ≤ cells.size)
    {xs : List String} {x : String} (hx : x ∈ xs) (f : String → Int16) :
    (overlay cells start (xs.map f))[start + xs.idxOf x]? = some (f x) := by
  have hindex : xs.idxOf x < xs.length := List.idxOf_lt_length_of_mem hx
  have htake : (cells.toList.take start).length = start := List.length_take_of_le hstart
  rw [overlay, List.getElem?_toArray, List.getElem?_append_right (by omega), htake,
    Nat.add_sub_cancel_left, List.getElem?_append_left (by simpa using hindex), List.getElem?_map,
    List.getElem?_eq_getElem hindex, List.getElem_idxOf]
  rfl

/-- Names other than the one that is set keep their values. -/
theorem map_update_of_not_mem {xs : List String} {x : String} (hx : x ∉ xs)
    (f : String → Int16) (value : Int16) :
    xs.map (Function.update f x value) = xs.map f :=
  List.map_congr_left fun _ hy => Function.update_of_ne (ne_of_mem_of_not_mem hy hx) _ _

/-- Setting the value of one name among different ones. -/
theorem set_map {xs : List String} (hnodup : xs.Nodup) {x : String} (hx : x ∈ xs)
    (f : String → Int16) (value : Int16) :
    (xs.map f).set (xs.idxOf x) value = xs.map (Function.update f x value) := by
  induction xs with
  | nil => cases hx
  | cons y ys ih =>
      rw [List.nodup_cons] at hnodup
      by_cases hxy : x = y
      · subst hxy
        simp [map_update_of_not_mem hnodup.1]
      · have hx : x ∈ ys := by simpa [hxy] using hx
        have hne : (y == x) = false := beq_false_of_ne (Ne.symm hxy)
        rw [List.idxOf_cons, hne]
        simp [ih hnodup.2 hx, Function.update_of_ne (Ne.symm hxy)]

/-- Setting the cell at a name's position sets the name's value. -/
theorem set_overlay {cells : Array Int16} {start : Nat} (hstart : start ≤ cells.size)
    {xs : List String} (hnodup : xs.Nodup) {x : String} (hx : x ∈ xs) (f : String → Int16)
    (value : Int16) :
    (overlay cells start (xs.map f)).setIfInBounds (start + xs.idxOf x) value
      = overlay cells start (xs.map (Function.update f x value)) := by
  have hindex : xs.idxOf x < xs.length := List.idxOf_lt_length_of_mem hx
  have htake : (cells.toList.take start).length = start := List.length_take_of_le hstart
  rw [overlay, overlay, List.setIfInBounds_toArray, List.set_append_right _ _ (by omega), htake,
    Nat.add_sub_cancel_left, List.set_append_left _ _ (by simpa using hindex),
    set_map hnodup hx]
  simp

/-- The values at the positions of different names are the first values, and zeros where
there are too few. -/
theorem map_getD_idxOf {xs : List String} (hnodup : xs.Nodup) (values : List Int16) :
    (xs.map fun x => values.getD (xs.idxOf x) 0)
      = values.take xs.length ++ List.replicate (xs.length - values.length) 0 := by
  apply List.ext_getElem
  · simp; omega
  · intro i hi hi'
    have hi : i < xs.length := by simpa using hi
    rw [List.getElem_map, hnodup.idxOf_getElem, List.getElem_append]
    split
    · next h =>
        rw [List.getElem_take]
        exact List.getD_eq_getElem values 0 (by simp at h; omega)
    · next h =>
        rw [List.getElem_replicate]
        exact List.getD_eq_default values 0 (by simp at h; omega)

/-- Writing back the values of cells fills up with zeros and changes nothing else. -/
theorem overlay_self {cells : Array Int16} {start : Nat} (hstart : start ≤ cells.size)
    {xs : List String} (hnodup : xs.Nodup) :
    overlay cells start (xs.map fun x => cells.getD (start + xs.idxOf x) 0)
      = cells ++ Array.replicate (start + xs.length - cells.size) 0 := by
  have hvalues : (xs.map fun x => cells.getD (start + xs.idxOf x) 0)
      = xs.map fun x => (cells.toList.drop start).getD (xs.idxOf x) 0 := by
    simp [List.getD_eq_getElem?_getD, Array.getD_eq_getD_getElem?]
  have hlength : (cells.toList.drop start).length = cells.size - start := by simp
  apply Array.toList_inj.1
  rw [hvalues, overlay, List.length_map, map_getD_idxOf hnodup, ← List.drop_drop, hlength,
    Array.toList_append, Array.toList_replicate, List.toList_toArray]
  by_cases hsize : start + xs.length ≤ cells.size
  · have hnone : xs.length - (cells.size - start) = 0 := by omega
    rw [hnone, Nat.sub_eq_zero_of_le hsize, List.replicate_zero, List.append_nil, List.append_nil,
      List.take_append_drop, List.take_append_drop]
  · have hall : (cells.toList.drop start).length ≤ xs.length := by omega
    have hzeros : xs.length - (cells.size - start) = start + xs.length - cells.size := by omega
    rw [List.take_of_length_le hall, List.drop_of_length_le hall, List.append_nil, hzeros,
      ← List.append_assoc, List.take_append_drop]

/-! ## Slots -/

/-- The symbol of a variable. -/
def slot (names : Names) (receivers : Nat) : Variable → Symbol
  | .own x =>
      if x ∈ names.params then ⟨.argument, receivers + names.params.idxOf x⟩
      else ⟨.local, names.locals.idxOf x⟩
  | .field x => ⟨.field, names.fields.idxOf x⟩

/-- No name is declared twice in one scope. -/
structure Distinct (names : Names) : Prop where
  /-- Parameters and local variables have different names. -/
  own : (names.params ++ names.locals).Nodup
  /-- Fields have different names. -/
  fields : names.fields.Nodup

theorem Distinct.disjoint {names : Names} (h : names.Distinct) :
    names.params.Disjoint names.locals :=
  List.disjoint_of_nodup_append h.own

/-- The variable of a name is a parameter, a local variable or a field. -/
theorem resolve_eq_some {names : Names} {name : String} {v : Variable}
    (h : names.resolve name = some v) :
    (v = .own name ∧ name ∈ names.params) ∨
      (v = .own name ∧ name ∉ names.params ∧ name ∈ names.locals) ∨
      (v = .field name ∧ name ∈ names.fields) := by
  rw [resolve] at h
  split at h
  · next hown =>
      cases h
      by_cases hparam : name ∈ names.params
      · exact .inl ⟨rfl, hparam⟩
      · exact .inr (.inl ⟨rfl, hparam, hown.resolve_left hparam⟩)
  · split at h
    · next hfield =>
        cases h
        exact .inr (.inr ⟨rfl, hfield⟩)
    · cases h

variable {names : Names} {receivers : Nat} {m : Machine} {name : String} {v : Variable}

/-- Loading the slot of a variable gives its value. -/
theorem load_onto (hsize : receivers ≤ m.arguments.size) (h : names.resolve name = some v)
    (store : Store) :
    (names.onto receivers store m).load (names.slot receivers v).segment
      (names.slot receivers v).index = .ok (store v) := by
  rcases resolve_eq_some h with ⟨rfl, hmem⟩ | ⟨rfl, hparam, hmem⟩ | ⟨rfl, hmem⟩
  · have hcell := getElem?_overlay hsize hmem fun x => store (.own x)
    simp only [slot, if_pos hmem]
    simp only [Machine.load, Machine.cells?, onto, Symbol.segment, Storage.segment, hcell]
  · have hcell := getElem?_overlay (Nat.zero_le m.locals.size) hmem fun x => store (.own x)
    rw [Nat.zero_add] at hcell
    simp only [slot, if_neg hparam]
    simp only [Machine.load, Machine.cells?, onto, Symbol.segment, Storage.segment, hcell]
  · have hcell := getElem?_overlay (Nat.zero_le m.this.size) hmem fun x => store (.field x)
    rw [Nat.zero_add] at hcell
    simp only [slot, Machine.load, Machine.cells?, onto, Symbol.segment, Storage.segment, hcell]

/-- Setting the slot of a variable changes this variable. -/
theorem set_onto (hsize : receivers ≤ m.arguments.size) (hdistinct : names.Distinct)
    (h : names.resolve name = some v) (store : Store) (value : Int16) :
    (names.onto receivers store m).set (names.slot receivers v).segment
      (names.slot receivers v).index value
        = names.onto receivers (Function.update store v value) m := by
  have hown (x : String) : (fun y => Function.update store (.own x) value (.own y))
      = Function.update (fun y => store (.own y)) x value :=
    Function.update_comp_eq_of_injective store (fun _ _ h => Variable.own.inj h) x value
  have hfield (x : String) : (fun y => Function.update store (.field x) value (.field y))
      = Function.update (fun y => store (.field y)) x value :=
    Function.update_comp_eq_of_injective store (fun _ _ h => Variable.field.inj h) x value
  have hother (x y : String) : Function.update store (.own x) value (.field y)
      = store (.field y) := Function.update_of_ne (by simp) _ _
  have hother' (x y : String) : Function.update store (.field x) value (.own y)
      = store (.own y) := Function.update_of_ne (by simp) _ _
  rcases resolve_eq_some h with ⟨rfl, hmem⟩ | ⟨rfl, hparam, hmem⟩ | ⟨rfl, hmem⟩
  · have hlocal : name ∉ names.locals := fun hlocal => hdistinct.disjoint hmem hlocal
    have hset := set_overlay hsize hdistinct.own.of_append_left hmem (fun x => store (.own x)) value
    simp only [slot, if_pos hmem]
    simp only [Machine.set, onto, Symbol.segment, Storage.segment, hset, hown, hother,
      map_update_of_not_mem hlocal]
  · have hset := set_overlay (Nat.zero_le m.locals.size) hdistinct.own.of_append_right hmem
      (fun x => store (.own x)) value
    rw [Nat.zero_add] at hset
    simp only [slot, if_neg hparam]
    simp only [Machine.set, onto, Symbol.segment, Storage.segment, hset, hown, hother,
      map_update_of_not_mem hparam]
  · have hset := set_overlay (Nat.zero_le m.this.size) hdistinct.fields hmem
      (fun x => store (.field x)) value
    rw [Nat.zero_add] at hset
    simp only [slot, Machine.set, onto, Symbol.segment, Storage.segment, hset, hfield, hother']

/-- The initial store is what the segments hold once there is room for the local
variables. -/
theorem onto_initial (hdistinct : names.Distinct)
    (hargs : receivers + names.params.length ≤ m.arguments.size)
    (hthis : names.fields.length ≤ m.this.size) :
    names.onto receivers (names.initial receivers m) m = m.reserve names.locals.length := by
  have hparams : (names.params.map fun x => names.initial receivers m (.own x))
      = names.params.map fun x => m.arguments.getD (receivers + names.params.idxOf x) 0 :=
    List.map_congr_left fun x hx => if_pos hx
  have hlocals : (names.locals.map fun x => names.initial receivers m (.own x))
      = names.locals.map fun x => m.locals.getD (0 + names.locals.idxOf x) 0 := by
    refine List.map_congr_left fun x hx => ?_
    have hparam : x ∉ names.params := fun hparam => hdistinct.disjoint hparam hx
    rw [Nat.zero_add]
    exact if_neg hparam
  have hfields : (names.fields.map fun x => names.initial receivers m (.field x))
      = names.fields.map fun x => m.this.getD (0 + names.fields.idxOf x) 0 := by
    simp only [Nat.zero_add, initial]
  rw [onto, hparams, hlocals, hfields, overlay_self (by omega) hdistinct.own.of_append_left,
    overlay_self (Nat.zero_le _) hdistinct.own.of_append_right,
    overlay_self (Nat.zero_le _) hdistinct.fields, Nat.sub_eq_zero_of_le hargs, Nat.zero_add,
    Nat.zero_add, Nat.sub_eq_zero_of_le hthis]
  simp [Machine.reserve]

/-! ## Statements -/

/-- The symbols of a table are the slots of the variables. -/
def Fits (names : Names) (receivers : Nat) (env : Env) : Prop :=
  ∀ name symbol, env.lookup name = some symbol → symbol.storage ≠ .static →
    ∃ v, names.resolve name = some v ∧ symbol = names.slot receivers v

variable {env : Env}

/-- Names stand for the same on the machine and in the store. -/
theorem reading_onto (hsize : receivers ≤ m.arguments.size) (hfits : names.Fits receivers env)
    (store : Store) {xs : List String} (hxs : env.Covers xs) :
    ∀ x ∈ xs, (names.onto receivers store m).reading env.lookup x = names.reading store x := by
  intro x hx
  obtain ⟨symbol, hlookup, hstatic⟩ := hxs x hx
  obtain ⟨v, hresolve, rfl⟩ := hfits _ _ hlookup hstatic
  rw [Machine.reading_eq_load _ hlookup hstatic, load_onto hsize hresolve, reading, hresolve]
  rfl

/-- Popping to the slot of a variable assigns to the variable. -/
theorem run_pop (hsize : receivers ≤ m.arguments.size) (hdistinct : names.Distinct)
    (h : names.resolve name = some v) (store : Store) (value : Int16) (rest : List Instr) :
    (names.onto receivers store { m with stack := value :: m.stack }).run
      (.pop (names.slot receivers v).segment (names.slot receivers v).index :: rest)
        = (names.onto receivers (Function.update store v value) m).run rest := by
  have hstep : (names.onto receivers store { m with stack := value :: m.stack }).step
      (.pop (names.slot receivers v).segment (names.slot receivers v).index)
        = ⟨names.onto receivers (Function.update store v value) m, none⟩ := by
    rw [← set_onto hsize hdistinct h]
    exact Machine.step_pop rfl (load_onto hsize h store)
  rw [Machine.run_cons_of_fault_none rest (by simp) (by rw [hstep]), hstep]

/-- A `let` that compiles computes its value and pops it to the slot of its target. -/
theorem compile_assign (hpolicy : env.policy = .reject) (hsize : receivers ≤ m.arguments.size)
    (hfits : names.Fits receivers env) {target : String} {index : Option Expr} {value : Expr}
    (h : ((Statement.assign target index value).compile env).outcome = .ok ()) :
    ∃ v code, index = none ∧ names.resolve target = some v ∧
      (Statement.assign target index value).compile env = .ofCode (code ++
        [.pop (names.slot receivers v).segment (names.slot receivers v).index]) ∧
      ∀ store, (names.onto receivers store m).Leaves code m.stack
        (value.eval (names.reading store)) := by
  obtain ⟨rfl, hvalue, symbol, hlookup, hstatic⟩ := Statement.assign_of_compile hpolicy h
  obtain ⟨v, hresolve, rfl⟩ := hfits _ _ hlookup hstatic
  obtain ⟨harith, hvars⟩ := Expr.arithmetic_of_compile hpolicy hvalue
  obtain ⟨code, hcode, hrun⟩ := Expr.compile_leaves harith hvars
  refine ⟨v, code, rfl, hresolve, ?_, fun store => ?_⟩
  · have hgap : (names.slot receivers v).storeGap? none = none := by
      simp [Symbol.storeGap?, hstatic]
    rw [Statement.compile, Env.resolve, hlookup]
    simp only [pure_bind, hgap, hcode, Emit.instr_eq_ofCode, Emit.ofCode_bind]
  · rw [← Expr.eval_congr (reading_onto hsize hfits store hvars)]
    exact hrun (names.onto receivers store m)

/-- How a run ends that does what an execution does.  The stack is that of the start, with
the returned value or the operands at a fault on top. -/
def Ends (names : Names) (receivers : Nat) (m : Machine) (halt : Machine.Halt) :
    Store × Ending → Prop
  | (store, .fellOff) => halt = ⟨names.onto receivers store m, .ok m.stack.head?⟩
  | (store, .returned value) => halt =
      ⟨names.onto receivers store { m with stack := value :: m.stack }, .ok (some value)⟩
  | (store, .stopped (.fault f)) => ∃ above, halt =
      ⟨names.onto receivers store { m with stack := above ++ m.stack }, .error f⟩
  | (_, .stopped .noValue) => False

/-- The code of a `let` goes on with the changed store, or ends in the fault of its
value. -/
theorem ends_assign (hsize : receivers ≤ m.arguments.size) (hdistinct : names.Distinct)
    {target : String} {v : Variable} (hresolve : names.resolve target = some v) {value : Expr}
    {code rest : List Instr} {body : List Statement} {store : Store}
    (hvalue : (names.onto receivers store m).Leaves code m.stack
      (value.eval (names.reading store)))
    (hrest : ∀ store, names.Ends receivers m ((names.onto receivers store m).run rest)
      (names.exec m.pointer[0] store body)) :
    names.Ends receivers m
      ((names.onto receivers store m).run (code ++
        [.pop (names.slot receivers v).segment (names.slot receivers v).index] ++ rest))
      (names.exec m.pointer[0] store (.assign target none value :: body)) := by
  rw [exec, hresolve, List.append_assoc]
  match heval : value.eval (names.reading store) with
  | .ok result =>
      rw [heval] at hvalue
      have hrun := run_pop hsize hdistinct hresolve store result rest
      rw [hvalue]
      show names.Ends receivers m ((names.onto receivers store
        { m with stack := result :: m.stack }).run _) _
      rw [List.singleton_append, hrun]
      exact hrest _
  | .error (.fault f) =>
      rw [heval] at hvalue
      obtain ⟨above, hvalue⟩ := hvalue
      exact ⟨above, hvalue _⟩
  | .error .noValue =>
      rw [heval] at hvalue
      exact hvalue

/-- A value that is left before a return is returned, whatever code follows. -/
theorem ends_return {i : Instr} {value : Int16} {store : Store}
    (h : (names.onto receivers store m).Leaves [i] m.stack (.ok value)) (rest : List Instr) :
    names.Ends receivers m ((names.onto receivers store m).run ([i, .ret] ++ rest))
      (store, .returned value) :=
  h (.ret :: rest)

/-- The code of a body of `let` and `return` does what the interpreter does. -/
theorem run_compileAll (hpolicy : env.policy = .reject) (hsize : receivers ≤ m.arguments.size)
    (hdistinct : names.Distinct) (hfits : names.Fits receivers env) {body : List Statement}
    (hbody : ∀ s ∈ body, s.isStraight = true)
    (h : (Statement.compileAll env body).outcome = .ok ()) :
    ∃ code, Statement.compileAll env body = .ofCode code ∧
      ∀ store, names.Ends receivers m ((names.onto receivers store m).run code)
        (names.exec m.pointer[0] store body) := by
  induction body with
  | nil => exact ⟨[], rfl, fun store => rfl⟩
  | cons s rest ih =>
      rw [Statement.compileAll] at h
      obtain ⟨⟨⟩, hs, hrest⟩ := Emit.outcome_bind_eq_ok h
      obtain ⟨code', hcode', hrun'⟩ := ih (fun s hs => hbody s (List.mem_cons_of_mem _ hs)) hrest
      cases s with
      | call receiver name args =>
          have hcall := hbody _ List.mem_cons_self
          simp [Statement.isStraight] at hcall
      | assign target index value =>
          obtain ⟨v, code, rfl, hresolve, hcode, hrun⟩ := compile_assign hpolicy hsize hfits hs
          refine ⟨_, by rw [Statement.compileAll, hcode, hcode', Emit.ofCode_bind], fun store => ?_⟩
          exact ends_assign hsize hdistinct hresolve (hrun store) hrun'
      | ret value =>
          -- The code of the statements behind a return is there, but it does not run.
          cases value with
          | none =>
              have hcode : (Statement.ret none).compile env
                  = .ofCode [.push .constant 0, .ret] := by
                rw [Statement.compile]
                rfl
              refine ⟨_, by rw [Statement.compileAll, hcode, hcode', Emit.ofCode_bind],
                fun store => ?_⟩
              rw [exec]
              exact ends_return ((names.onto receivers store m).leaves_push_constant 0) code'
          | some value =>
              have hthis := Statement.isThis_of_compile hpolicy hs
              have hcode : (Statement.ret (some value)).compile env
                  = .ofCode [.push .pointer 0, .ret] := by
                rw [Statement.compile, if_pos hthis]
                rfl
              refine ⟨_, by rw [Statement.compileAll, hcode, hcode', Emit.ofCode_bind],
                fun store => ?_⟩
              rw [exec, if_pos hthis]
              exact ends_return ((names.onto receivers store m).leaves_push_pointer) code'

/-! ## Subroutines -/

variable {c : Class} {r : Subroutine} {table entered : Scopes}

/-- A subroutine that has been entered in the table of its class has different names. -/
theorem distinct_of_enter (htable : Scopes.ofClass c = .ok table)
    (henter : table.enter r = (entered, .ok ())) : (Names.ofSubroutine c r).Distinct := by
  refine ⟨(Scopes.enter_eq_ok henter).1, ?_⟩
  have hnodup := Scopes.exists_ofClass_iff.1 ⟨table, htable⟩
  exact hnodup.sublist (List.filter_sublist.map Prod.fst)

/-- After entering a subroutine the table has the slots of its variables. -/
theorem fits_of_enter (htable : Scopes.ofClass c = .ok table)
    (henter : table.enter r = (entered, .ok ())) (policy : Policy) (place : SubroutineName) :
    (Names.ofSubroutine c r).Fits r.receivers ⟨policy, place, entered.lookup⟩ := by
  intro name symbol hlookup hstatic
  have hdistinct := distinct_of_enter htable henter
  rcases (Scopes.lookup_eq_some_iff htable henter).1 hlookup with
    ⟨hparam, rfl⟩ | ⟨hlocal, rfl⟩ | ⟨hparam, hlocal, kind, hkind, rfl⟩
  · exact ⟨.own name, if_pos (.inl hparam), (if_pos hparam).symm⟩
  · have hparam : name ∉ r.paramNames := fun hparam => hdistinct.disjoint hparam hlocal
    exact ⟨.own name, if_pos (.inr hlocal), (if_neg hparam).symm⟩
  · cases kind with
    | static => exact absurd rfl hstatic
    | field =>
        exact ⟨.field name, (if_neg (not_or.2 ⟨hparam, hlocal⟩)).trans (if_pos hkind), rfl⟩

end Names

namespace Subroutine

/-- A subroutine that compiles has been entered, and its body compiles. -/
theorem compile_eq_ok {policy : Policy} {className : String} {table : Scopes} {r : Subroutine}
    (hkind : r.kind ≠ .constructor)
    (h : (r.compile policy className table).1.outcome = .ok ()) :
    ∃ entered, table.enter r = (entered, .ok ()) ∧
      (Statement.compileAll ⟨policy, ⟨className, r.name⟩, entered.lookup⟩ r.body).outcome
        = .ok () ∧
      (r.compile policy className table).1.code
        = .function (SubroutineName.mk className r.name).text entered.localCount ::
          (Statement.compileAll ⟨policy, ⟨className, r.name⟩, entered.lookup⟩ r.body).code := by
  obtain ⟨henter, hbody⟩ := outcome_compile_eq_ok_iff.1 h
  have hopening : r.opening className table
      = [.function (SubroutineName.mk className r.name).text (table.enter r).1.localCount] := by
    rw [opening, allocation, if_neg fun h => hkind h.1]
  refine ⟨(table.enter r).1, Prod.ext rfl henter, ?_, ?_⟩
  · rw [Statement.compileAll_eq_forM, Emit.outcome_forM_eq_ok_iff]
    exact hbody
  · rw [code_compile henter, hopening, Statement.compileAll_eq_forM]
    rfl

end Subroutine

/-- Compiler correctness for subroutines.  Where a class with one function or method of
`let` and `return` compiles under the strict policy, the run of its code and the execution
of its body by name have the same end, on every machine that has the arguments and the
fields. -/
theorem Class.run_compile_eq_exec (c : Class) (r : Subroutine) (table : Scopes) (m : Machine)
    (hone : c.subroutines = [r]) (hkind : r.kind ≠ .constructor)
    (hbody : ∀ s ∈ r.body, s.isStraight = true) (htable : Scopes.ofClass c = .ok table)
    (hok : (c.compile .reject table).1.outcome = .ok ())
    (hargs : r.receivers + r.params.length ≤ m.arguments.size)
    (hthis : c.fieldNames.length ≤ m.this.size) :
    (Names.ofSubroutine c r).Ends r.receivers m (m.run (c.compile .reject table).1.code)
      ((Names.ofSubroutine c r).exec m.pointer[0]
        ((Names.ofSubroutine c r).initial r.receivers m) r.body) := by
  rw [Class.compile, hone, Subroutine.compileAll_singleton] at hok ⊢
  obtain ⟨entered, henter, hcompiled, hcode⟩ := Subroutine.compile_eq_ok hkind hok
  have hdistinct := Names.distinct_of_enter htable henter
  have hfits := Names.fits_of_enter htable henter .reject ⟨c.name, r.name⟩
  have hargs : r.receivers + (Names.ofSubroutine c r).params.length ≤ m.arguments.size := by
    simpa [Names.ofSubroutine, Subroutine.paramNames] using hargs
  obtain ⟨code, hbodyCode, hrun⟩ :=
    Names.run_compileAll rfl (Nat.le_of_add_right_le hargs) hdistinct hfits hbody hcompiled
  have hentry : m.run (.function (SubroutineName.mk c.name r.name).text entered.localCount :: code)
      = (m.reserve r.localCount).run code := by
    rw [Machine.run_cons_of_fault_none code (by simp) rfl, Scopes.localCount_of_enter henter]
    rfl
  have hstart : (Names.ofSubroutine c r).onto r.receivers _ m = m.reserve r.localCount :=
    Names.onto_initial hdistinct hargs hthis
  rw [hcode, hbodyCode, Emit.code_ofCode, hentry, ← hstart]
  exact hrun _

/-- A class whose method has a local variable with the name of a field and goes on behind
its return. -/
def Class.hiding : Class where
  name := "Point"
  vars := [⟨.static, .int, ["count"]⟩, ⟨.field, .int, ["x", "y"]⟩]
  subroutines := [{
    kind := .method
    name := "move"
    returns := some (.object "Point")
    params := [⟨.int, "by"⟩]
    locals := [⟨.int, ["y"]⟩]
    body := [
      .assign "y" none (.binary (.var "x") .sub (.binary (.var "by") .sub (.single (.int 1)))),
      .assign "x" none (.binary (.var "y") .mul (.single (.int 40000))),
      .ret (some (.single (.keyword .this))),
      .assign "x" none (.single (.int 0))] }]

/-- The method stores to the field `x` and to its own `y`, and the field `y` stays. -/
theorem Class.run_compile_hiding : ∃ table, Scopes.ofClass Class.hiding = .ok table ∧
    ({ stack := [3], arguments := #[9, 5], this := #[100, 7],
       pointer := #v[9, 0] } : Machine).run (Class.hiding.compile .reject table).1.code
      = ⟨{ stack := [9, 3], locals := #[96], arguments := #[9, 5], this := #[-26624, 7],
           pointer := #v[9, 0] }, .ok (some 9)⟩ := by
  refine ⟨_, rfl, ?_⟩
  exact Class.run_compile_eq_exec Class.hiding _ _ _ rfl (by decide) (by decide) rfl rfl (by decide)
    (by decide)

end JackLang
