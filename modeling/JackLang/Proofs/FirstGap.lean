import JackLang.Proofs.Blocks

/-!
# The two policies up to the first gap

Under `skip` a gap leaves a note and the compilation goes on, and under `reject` it is the
end.  Up to there the two do the same.  So the strict compilation can be read off the
lenient one: write its events again, refuse the first note of a gap, and end as it ended if
there is none (`Emit.strict`).

Reading off respects sequences (`Emit.strict_bind`), and at a gap, an instruction and an
unknown name it gives what the strict policy does.  Hence it does so for every construct up
to classes (`Class.compile_reject`), for every table of variables.
-/

namespace JackLang

/-! ## Events -/

/-- Whether an event is the note of a construct that was left out. -/
def Event.isGap : Event → Bool
  | .note (.noCode ..) => true
  | .note (.compiling _) | .note (.summary ..) | .instr _ => false

/-- Nothing was left out. -/
def GapFree (events : List Event) : Prop := ∀ event ∈ events, event.isGap = false

instance (events : List Event) : Decidable (GapFree events) :=
  inferInstanceAs (Decidable (∀ event ∈ events, event.isGap = false))

/-- Writes an event again, or refuses it. -/
def Event.strict : Event → Emit Unit
  | .note (.noCode place construct) => .fail (.unsupported construct place)
  | .note (.compiling place) => .note (.compiling place)
  | .note (.summary className statics lines) => .note (.summary className statics lines)
  | .instr i => .instr i

theorem Event.strict_of_not_isGap {event : Event} (h : event.isGap = false) :
    event.strict = ⟨[event], .ok ()⟩ := by
  cases event with
  | instr i => rfl
  | note n =>
      cases n with
      | noCode place construct => cases h
      | compiling place => rfl
      | summary className statics lines => rfl

theorem forM_strict_of_gapFree {events : List Event} (h : GapFree events) :
    forM events Event.strict = (⟨events, .ok ()⟩ : Emit Unit) := by
  induction events with
  | nil => rfl
  | cons event rest ih =>
      obtain ⟨hevent, hrest⟩ := List.forall_mem_cons.1 h
      rw [List.forM_cons, Event.strict_of_not_isGap hevent, ih hrest]
      rfl

/-- Where something was left out there is a first such note. -/
theorem exists_first_gap {events : List Event} (h : ¬ GapFree events) :
    ∃ before place construct after,
      events = before ++ .note (.noCode place construct) :: after ∧ GapFree before := by
  induction events with
  | nil => exact absurd (List.forall_mem_nil _) h
  | cons event rest ih =>
      cases hevent : event.isGap with
      | true =>
          match event, hevent with
          | .note (.noCode place construct), _ =>
              exact ⟨[], place, construct, rest, rfl, List.forall_mem_nil _⟩
      | false =>
          have hrest : ¬ GapFree rest := fun hrest => h (List.forall_mem_cons.2 ⟨hevent, hrest⟩)
          obtain ⟨before, place, construct, after, rfl, hbefore⟩ := ih hrest
          exact ⟨event :: before, place, construct, after, rfl,
            List.forall_mem_cons.2 ⟨hevent, hbefore⟩⟩

/-! ## Emissions -/

namespace Emit

variable {α β : Type}

/-- What the strict policy makes of an emission. -/
def strict (x : Emit α) : Emit α := do
  forM x.events Event.strict
  Emit.ofExcept x.outcome

theorem strict_bind (x : Emit α) (f : α → Emit β) :
    (x >>= f).strict = x.strict >>= fun a => (f a).strict := by
  obtain ⟨events, r⟩ := x
  cases r with
  | ok a =>
      rw [bind_ok]
      simp only [strict, List.forM_append, bind_assoc]
      rfl
  | error e =>
      rw [bind_error]
      simp only [strict, bind_assoc]
      rfl

theorem strict_forM {ι : Type} (xs : List ι) (f : ι → Emit Unit) :
    (forM xs f).strict = forM xs fun x => (f x).strict := by
  induction xs with
  | nil => rfl
  | cons x xs ih => rw [List.forM_cons, List.forM_cons, strict_bind, ih]

theorem strict_of_gapFree {x : Emit α} (h : GapFree x.events) : x.strict = x := by
  obtain ⟨events, r⟩ := x
  rw [strict, forM_strict_of_gapFree h, bind_ok]
  simp [ofExcept]

theorem strict_of_first_gap {x : Emit α} {before after : List Event} {place : SubroutineName}
    {construct : Construct} (h : x.events = before ++ .note (.noCode place construct) :: after)
    (hbefore : GapFree before) :
    x.strict = ⟨before, .error (.unsupported construct place)⟩ := by
  rw [strict, h, List.forM_append, forM_strict_of_gapFree hbefore, List.forM_cons, bind_assoc,
    bind_ok, Event.strict, fail, bind_assoc, bind_error, List.append_nil]

end Emit

/-! ## Constructs -/

section Constructs

variable (place : SubroutineName) (lookup : String → Option Symbol)

theorem Env.resolve_reject (name : String) :
    Env.resolve ⟨.reject, place, lookup⟩ name
      = (Env.resolve ⟨.skip, place, lookup⟩ name).strict := by
  simp only [Env.resolve]
  cases lookup name with
  | some symbol => rfl
  | none => rfl

/-- The one place where the policies differ. -/
theorem Env.gap_reject (construct : Construct) :
    Env.gap ⟨.reject, place, lookup⟩ construct
      = (Env.gap ⟨.skip, place, lookup⟩ construct).strict := rfl

theorem BinOp.compile_reject (op : BinOp) :
    op.compile ⟨.reject, place, lookup⟩ = (op.compile ⟨.skip, place, lookup⟩).strict := by
  cases op with
  | add | sub | mul | div => rfl
  | and | or | less | greater | equal => rfl

theorem Symbol.compileLoad_reject (symbol : Symbol) :
    symbol.compileLoad ⟨.reject, place, lookup⟩
      = (symbol.compileLoad ⟨.skip, place, lookup⟩).strict := by
  simp only [Symbol.compileLoad]
  split
  · rfl
  · rfl

mutual

theorem Term.compile_reject :
    ∀ t : Term, t.compile ⟨.reject, place, lookup⟩ = (t.compile ⟨.skip, place, lookup⟩).strict
  | .int _ => by rw [Term.compile, Term.compile]; rfl
  | .string _ => by rw [Term.compile, Term.compile]; rfl
  | .keyword _ => by rw [Term.compile, Term.compile]; rfl
  | .var name => by
      simp only [Term.compile, Emit.strict_bind, Env.resolve_reject, Symbol.compileLoad_reject]
  | .paren inner => by
      rw [Term.compile, Term.compile]
      exact Expr.compile_reject inner
  | .unary _ _ => by rw [Term.compile, Term.compile]; rfl

theorem Expr.compile_reject :
    ∀ e : Expr, e.compile ⟨.reject, place, lookup⟩ = (e.compile ⟨.skip, place, lookup⟩).strict
  | .single term => by
      rw [Expr.compile, Expr.compile]
      exact Term.compile_reject term
  | .binary term op rest => by
      simp only [Expr.compile, Emit.strict_bind, Term.compile_reject term,
        Expr.compile_reject rest, BinOp.compile_reject]

end

theorem Expr.compileAll_reject (es : List Expr) :
    Expr.compileAll ⟨.reject, place, lookup⟩ es
      = (Expr.compileAll ⟨.skip, place, lookup⟩ es).strict := by
  rw [Expr.compileAll_eq_forM, Expr.compileAll_eq_forM, Emit.strict_forM]
  exact congrArg (forM es) (funext (Expr.compile_reject place lookup))

theorem Statement.compile_reject (s : Statement) :
    s.compile ⟨.reject, place, lookup⟩ = (s.compile ⟨.skip, place, lookup⟩).strict := by
  cases s with
  | call receiver name args =>
      simp only [Statement.compile, Emit.strict_bind, Expr.compileAll_reject]
      rfl
  | assign target index value =>
      simp only [Statement.compile, Emit.strict_bind, Env.resolve_reject]
      congr 1
      funext symbol
      cases symbol.storeGap? index with
      | some construct =>
          -- The gap comes first, so nothing of the value is written.
          simp only [Emit.strict_bind, Env.gap_reject, Expr.compile_reject]
      | none =>
          simp only [Emit.strict_bind, Expr.compile_reject]
          rfl
  | ret value =>
      cases value with
      | none => rfl
      | some value =>
          simp only [Statement.compile]
          split
          · rfl
          · rfl

theorem Statement.compileAll_reject (body : List Statement) :
    Statement.compileAll ⟨.reject, place, lookup⟩ body
      = (Statement.compileAll ⟨.skip, place, lookup⟩ body).strict := by
  rw [Statement.compileAll_eq_forM, Statement.compileAll_eq_forM, Emit.strict_forM]
  exact congrArg (forM body) (funext (Statement.compile_reject place lookup))

end Constructs

/-! ## Classes -/

variable {σ : Type} [SymbolTable σ]

theorem Subroutine.compile_reject (className : String) (table : σ) (r : Subroutine) :
    (r.compile .reject className table).1 = (r.compile .skip className table).1.strict := by
  have hallocation (kind : Subroutine.Kind) (fields : Nat) :
      (Subroutine.compileAllocation kind fields).strict
        = Subroutine.compileAllocation kind fields := by
    refine Emit.strict_of_gapFree fun event hevent => ?_
    rw [Subroutine.compileAllocation_eq_ofCode] at hevent
    obtain ⟨i, -, rfl⟩ := List.mem_map.1 hevent
    rfl
  simp only [Subroutine.compile, Subroutine.compileAt, Subroutine.compileEntered, Emit.strict_bind,
    Statement.compileAll_reject, hallocation]
  rfl

theorem Subroutine.compileAll_reject (className : String) (table : σ) (rs : List Subroutine) :
    (Subroutine.compileAll .reject className table rs).1
      = (Subroutine.compileAll .skip className table rs).1.strict := by
  induction rs generalizing table with
  | nil => rfl
  | cons r rs ih =>
      simp only [Subroutine.compileAll_cons, Emit.strict_bind, Subroutine.compile_reject, ih]

namespace Class

theorem compile_reject (table : σ) (c : Class) :
    (c.compile .reject table).1 = (c.compile .skip table).1.strict :=
  Subroutine.compileAll_reject c.name table c.subroutines

/-- The two policies on one class, with any table.  If the lenient compilation leaves
nothing out, the strict one is the same.  If it does, the strict one ends at the first
construct that is left out, with what was written and noted before it and with the error
that names it.  So the strict policy accepts what the lenient policy accepts without leaving
anything out, and the code is then the same. -/
theorem reject_iff_skip_without_gap (table : σ) (c : Class) :
    (GapFree (c.compile .skip table).1.events →
      (c.compile .reject table).1 = (c.compile .skip table).1) ∧
    (∀ before place construct after,
      (c.compile .skip table).1.events = before ++ .note (.noCode place construct) :: after →
      GapFree before →
        (c.compile .reject table).1 = ⟨before, .error (.unsupported construct place)⟩ ∧
        (c.compile .reject table).1.code <+: (c.compile .skip table).1.code) ∧
    ((c.compile .reject table).1.outcome = .ok () ↔
      (c.compile .skip table).1.outcome = .ok () ∧ GapFree (c.compile .skip table).1.events) ∧
    ((c.compile .reject table).1.outcome = .ok () →
      (c.compile .reject table).1.code = (c.compile .skip table).1.code) := by
  rw [compile_reject]
  generalize (c.compile .skip table).1 = skipped
  have hok : skipped.strict.outcome = .ok () → GapFree skipped.events := by
    intro hstrict
    by_contra hgap
    obtain ⟨before, place, construct, after, hevents, hbefore⟩ := exists_first_gap hgap
    rw [Emit.strict_of_first_gap hevents hbefore] at hstrict
    cases hstrict
  refine ⟨Emit.strict_of_gapFree, ?_, ?_, ?_⟩
  · intro before place construct after hevents hbefore
    have hstrict := Emit.strict_of_first_gap hevents hbefore
    refine ⟨hstrict, ?_⟩
    rw [hstrict, Emit.code, Emit.code, hevents, List.filterMap_append]
    exact List.prefix_append _ _
  · constructor
    · intro hstrict
      have hfree := hok hstrict
      rw [Emit.strict_of_gapFree hfree] at hstrict
      exact ⟨hstrict, hfree⟩
    · rintro ⟨houtcome, hfree⟩
      rw [Emit.strict_of_gapFree hfree]
      exact houtcome
  · intro hstrict
    rw [Emit.strict_of_gapFree (hok hstrict)]

/-- A class that passes a string to a call before a name that stands for nothing. -/
def greeting : Class where
  name := "Main"
  vars := []
  subroutines := [{
    kind := .function
    name := "greet"
    returns := none
    params := []
    locals := [⟨.int, ["times"]⟩]
    body := [.call none "print"
      [.single (.var "times"), .single (.string "hello"), .single (.var "ghost")]] }]

/-- The lenient compilation fails at the name, and the strict one before it at the string. -/
theorem reject_greeting :
    (greeting.compile .skip
      ({ symbols := [("times", ⟨.local, 0⟩)], locals := 1 } : FixedTable)).1.outcome
        = .error (.unresolved "ghost" ⟨"Main", "greet"⟩) ∧
    (greeting.compile .reject
      ({ symbols := [("times", ⟨.local, 0⟩)], locals := 1 } : FixedTable)).1
        = ⟨[.note (.compiling ⟨"Main", "greet"⟩), .instr (.function "Main.greet" 1),
            .instr (.push .local 0)],
          .error (.unsupported .stringConstant ⟨"Main", "greet"⟩)⟩ := by
  refine ⟨rfl, ?_⟩
  exact ((reject_iff_skip_without_gap _ greeting).2.1 _ _ _ [] rfl (by decide)).1

end Class

end JackLang
