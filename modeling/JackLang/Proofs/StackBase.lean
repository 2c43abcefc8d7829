import JackLang.Vm.Machine

/-!
# What lies below the stack

A run works on top of its stack.  Values put below it change nothing in what the run does, and
the run changes none of them, unless it would run out of operands: then it takes them for its
own.  So a run that does not end in an underflow is the same run on every *base*
(`Machine.run_above`).  All that a base can add is the result, where the run leaves nothing on
the stack.

Whatever a run does and however it ends, the segments keep their sizes.  Only entering a
function makes room, and only for local variables (`Machine.KeepsSizes`).

Both facts are proved of one instruction and carried along the run.
-/

namespace JackLang.Vm.Machine

/-! ## Bases -/

/-- The machine with more values below its stack. -/
def above (m : Machine) (base : List Int16) : Machine := { m with stack := m.stack ++ base }

/-- The same step with more values below the stack. -/
def Step.above (s : Step) (base : List Int16) : Step := { s with machine := s.machine.above base }

/-- The same end with more values below the stack.  The top of them is the result where there
was none. -/
def Halt.above (halt : Halt) (base : List Int16) : Halt :=
  ⟨halt.machine.above base, halt.result.map fun value => value.or base.head?⟩

section Parts

variable (m : Machine) (base : List Int16)

theorem load_above (segment : Segment) (index : Nat) :
    (m.above base).load segment index = m.load segment index := rfl

theorem set_above (segment : Segment) (index : Nat) (value : Int16) :
    (m.above base).set segment index value = (m.set segment index value).above base := by
  cases segment <;> rfl

theorem give_above (r : Except Fault Int16) : (m.above base).give r = (m.give r).above base := by
  cases r <;> rfl

/-- The top of the stack with a base. -/
theorem head?_above : (m.above base).stack.head? = m.stack.head?.or base.head? :=
  List.head?_append

end Parts

/-! ## One instruction on a base -/

variable {m : Machine} (base : List Int16)

theorem unary_above {f : Int16 → Except Fault Int16} (h : (m.unary f).fault ≠ some .underflow) :
    (m.above base).unary f = (m.unary f).above base := by
  obtain ⟨stack, locals, arguments, this, temp, pointer⟩ := m
  cases stack with
  | nil => exact absurd rfl h
  | cons a rest => exact give_above ⟨rest, locals, arguments, this, temp, pointer⟩ base (f a)

theorem binary_above {f : Int16 → Int16 → Except Fault Int16}
    (h : (m.binary f).fault ≠ some .underflow) :
    (m.above base).binary f = (m.binary f).above base := by
  obtain ⟨stack, locals, arguments, this, temp, pointer⟩ := m
  match stack with
  | [] | [_] => exact absurd rfl h
  | b :: a :: rest =>
      exact give_above ⟨rest, locals, arguments, this, temp, pointer⟩ base (f a b)

theorem store_above {segment : Segment} {index : Nat}
    (h : (m.store segment index).fault ≠ some .underflow) :
    (m.above base).store segment index = (m.store segment index).above base := by
  obtain ⟨stack, locals, arguments, this, temp, pointer⟩ := m
  cases stack with
  | nil => exact absurd rfl h
  | cons value rest =>
      let m' : Machine := ⟨rest, locals, arguments, this, temp, pointer⟩
      -- The value is taken first, and the slot is looked for without the stack.
      have habove := m'.load_above base segment index
      cases hload : m'.load segment index with
      | ok old =>
          have hstore := store_of_load_ok value hload
          have hbased := store_of_load_ok value (habove.trans hload)
          rw [set_above] at hbased
          exact hbased.trans (congrArg (Step.above · base) hstore).symm
      | error f =>
          have hstore := store_of_load_error value hload
          have hbased := store_of_load_error value (habove.trans hload)
          exact hbased.trans (congrArg (Step.above · base) hstore).symm

/-- An instruction that finds its operands does the same on every base, and has the same
fault. -/
theorem step_above {i : Instr} (h : (m.step i).fault ≠ some .underflow) :
    (m.above base).step i = (m.step i).above base := by
  cases i with
  | function name locals => rfl
  | push segment index => exact m.give_above base (m.pushed segment index)
  | pop segment index => exact store_above base h
  | call name args =>
      rw [step] at h ⊢
      rw [step]
      cases hroutine : routine? name args with
      | none => rfl
      | some f =>
          rw [hroutine] at h
          exact binary_above base h
  | command command =>
      cases command with
      | add | sub => exact binary_above base h
      | neg => exact unary_above base h
      | eq | gt | lt | and | or | not => rfl
  | ret => rfl

/-! ## Runs on a base -/

/-- A run that finds all its operands is the same run on every base. -/
theorem run_above {code : List Instr} (h : (m.run code).result ≠ .error .underflow) :
    (m.above base).run code = (m.run code).above base := by
  fun_induction run m code with
  | case1 m => rw [run_nil, head?_above]; rfl
  | case2 m rest => rw [run_ret, head?_above]; rfl
  | case3 m i rest hret m' hstep ih =>
      have habove : (m.above base).step i = ⟨m'.above base, none⟩ := by
        rw [step_above base (by rw [hstep]; simp), hstep]
        rfl
      rw [run_cons_of_fault_none rest hret (by rw [habove]), habove]
      exact ih h
  | case4 m i rest hret m' f hstep =>
      have hfault : f ≠ .underflow := fun hf => h (congrArg Except.error hf)
      have habove : (m.above base).step i = ⟨m'.above base, some f⟩ := by
        rw [step_above base (by rw [hstep]; simpa using hfault), hstep]
        rfl
      rw [run_cons_of_fault_some rest (by rw [habove]), habove]
      rfl

/-- A run without a fault gives the top of its stack. -/
theorem eq_head?_of_run {code : List Instr} {value : Option Int16}
    (h : (m.run code).result = .ok value) : value = (m.run code).machine.stack.head? := by
  fun_induction run m code with
  | case1 m | case2 m rest => exact (Except.ok.inj h).symm
  | case3 m i rest hret m' hstep ih => exact ih h
  | case4 m i rest hret m' f hstep => cases h

/-! ## Sizes of segments -/

/-- All segments have the sizes they had, but there may be more local variables. -/
structure KeepsSizes (m m' : Machine) : Prop where
  locals : m.locals.size ≤ m'.locals.size
  arguments : m'.arguments.size = m.arguments.size
  this : m'.this.size = m.this.size
  temp : m'.temp.toArray.size = m.temp.toArray.size
  pointer : m'.pointer.toArray.size = m.pointer.toArray.size

theorem KeepsSizes.trans {m m' m'' : Machine} (h : m.KeepsSizes m') (h' : m'.KeepsSizes m'') :
    m.KeepsSizes m'' :=
  ⟨Nat.le_trans h.locals h'.locals, h'.arguments.trans h.arguments, h'.this.trans h.this,
    h'.temp.trans h.temp, h'.pointer.trans h.pointer⟩

/-- The stack has no part in it. -/
theorem keepsSizes_stack (m : Machine) (stack : List Int16) :
    m.KeepsSizes { m with stack := stack } :=
  ⟨Nat.le_refl _, rfl, rfl, rfl, rfl⟩

theorem keepsSizes_reserve (m : Machine) (count : Nat) : m.KeepsSizes (m.reserve count) := by
  refine ⟨?_, rfl, rfl, rfl, rfl⟩
  rw [reserve, Array.size_append]
  exact Nat.le_add_right ..

theorem keepsSizes_set (m : Machine) (segment : Segment) (index : Nat) (value : Int16) :
    m.KeepsSizes (m.set segment index value) := by
  cases segment with
  | «local» => exact ⟨Nat.le_of_eq Array.size_setIfInBounds.symm, rfl, rfl, rfl, rfl⟩
  | argument => exact ⟨Nat.le_refl _, Array.size_setIfInBounds, rfl, rfl, rfl⟩
  | this => exact ⟨Nat.le_refl _, rfl, Array.size_setIfInBounds, rfl, rfl⟩
  | temp => exact ⟨Nat.le_refl _, rfl, rfl, by simp, rfl⟩
  | pointer => exact ⟨Nat.le_refl _, rfl, rfl, rfl, by simp⟩
  | constant | static | that => exact m.keepsSizes_stack m.stack

theorem keepsSizes_give (m : Machine) (r : Except Fault Int16) :
    m.KeepsSizes (m.give r).machine := by
  cases r with
  | ok value => exact m.keepsSizes_stack (value :: m.stack)
  | error f => exact m.keepsSizes_stack m.stack

theorem keepsSizes_unary (m : Machine) (f : Int16 → Except Fault Int16) :
    m.KeepsSizes (m.unary f).machine := by
  rw [unary]
  split
  · next a rest hstack => exact (m.keepsSizes_stack rest).trans (keepsSizes_give _ (f a))
  · exact m.keepsSizes_stack m.stack

theorem keepsSizes_binary (m : Machine) (f : Int16 → Int16 → Except Fault Int16) :
    m.KeepsSizes (m.binary f).machine := by
  rw [binary]
  split
  · next b a rest hstack => exact (m.keepsSizes_stack rest).trans (keepsSizes_give _ (f a b))
  · exact m.keepsSizes_stack []

theorem keepsSizes_store (m : Machine) (segment : Segment) (index : Nat) :
    m.KeepsSizes (m.store segment index).machine := by
  rw [store]
  split
  · next value rest hstack =>
      dsimp only
      split
      · exact (m.keepsSizes_stack rest).trans (keepsSizes_set _ segment index value)
      · exact m.keepsSizes_stack rest
  · exact m.keepsSizes_stack m.stack

theorem keepsSizes_step (m : Machine) (i : Instr) : m.KeepsSizes (m.step i).machine := by
  cases i with
  | function name locals => exact m.keepsSizes_reserve locals
  | push segment index => exact m.keepsSizes_give (m.pushed segment index)
  | pop segment index => exact m.keepsSizes_store segment index
  | call name args =>
      rw [step]
      cases routine? name args with
      | none => exact m.keepsSizes_stack m.stack
      | some f => exact m.keepsSizes_binary f
  | command command =>
      cases command with
      | add | sub => exact m.keepsSizes_binary _
      | neg => exact m.keepsSizes_unary _
      | eq | gt | lt | and | or | not => exact m.keepsSizes_stack m.stack
  | ret => exact m.keepsSizes_stack m.stack

theorem keepsSizes_run (m : Machine) (code : List Instr) :
    m.KeepsSizes (m.run code).machine := by
  fun_induction run m code with
  | case1 m | case2 m rest => exact m.keepsSizes_stack m.stack
  | case3 m i rest hret m' hstep ih =>
      have hkeeps := m.keepsSizes_step i
      rw [hstep] at hkeeps
      exact hkeeps.trans ih
  | case4 m i rest hret m' f hstep =>
      have hkeeps := m.keepsSizes_step i
      rw [hstep] at hkeeps
      exact hkeeps

/-! ## The stack below its operands -/

/-- Code never looks below its operands.  A run that ends without a fault does the same on
every base, and so does one with any fault but an underflow: it leaves the base below what it
leaves alone, and changes the segments in the same way.  Its result is the same too, unless it
leaves nothing on the stack; then it is the top of the base.  In every run the segments keep
their sizes, or there are more local variables. -/
theorem run_keeps_base (m : Machine) (base : List Int16) (code : List Instr) :
    let alone := m.run code
    let based := { m with stack := m.stack ++ base }.run code
    (∀ value, alone.result = .ok value →
      based.machine = { alone.machine with stack := alone.machine.stack ++ base } ∧
        (alone.machine.stack ≠ [] → based.result = .ok value) ∧
        (alone.machine.stack = [] → based.result = .ok base.head?)) ∧
      (∀ f, alone.result = .error f → f ≠ .underflow →
        based.machine = { alone.machine with stack := alone.machine.stack ++ base } ∧
          based.result = .error f) ∧
      m.KeepsSizes alone.machine := by
  intro alone based
  refine ⟨?_, ?_, m.keepsSizes_run code⟩
  · intro value hvalue
    have hbased : based = alone.above base := run_above base (by rw [hvalue]; simp)
    have htop : value = alone.machine.stack.head? := eq_head?_of_run hvalue
    have hresult : based.result = .ok (value.or base.head?) := by
      rw [hbased, Halt.above, hvalue]
      rfl
    refine ⟨by rw [hbased]; rfl, ?_, ?_⟩
    · intro hstack
      rw [hresult, htop, List.head?_eq_some_head hstack, Option.some_or]
    · intro hstack
      rw [hresult, htop, hstack, List.head?_nil, Option.none_or]
  · intro f hf hunderflow
    have hbased : based = alone.above base := run_above base (by rw [hf]; simpa using hunderflow)
    refine ⟨by rw [hbased]; rfl, ?_⟩
    rw [hbased, Halt.above, hf]
    rfl

/-- A failed division has taken its two operands and nothing below them.  After a store that
takes the last value, the result is the top of the base. -/
theorem run_above_nine :
    let m : Machine := { stack := [1] ++ [9] }
    let division : List Instr := [.push .constant 7, .push .constant 0, .call "Math.divide" 2]
    let store : List Instr := [.pop .temp 3, .ret]
    (m.run division).result = .error .divisionByZero ∧ (m.run division).machine.stack = [1, 9] ∧
      (m.run store).result = .ok (some 9) ∧ (m.run store).machine.stack = [9] := by
  intro m division store
  obtain ⟨-, hfault, -⟩ := run_keeps_base { stack := [1] } [9] division
  obtain ⟨hok, -, -⟩ := run_keeps_base { stack := [1] } [9] store
  obtain ⟨hdivided, hdivision⟩ := hfault .divisionByZero rfl (by decide)
  obtain ⟨hstored, -, htop⟩ := hok none rfl
  exact ⟨hdivision, by rw [hdivided]; rfl, htop rfl, by rw [hstored]; rfl⟩

end JackLang.Vm.Machine
