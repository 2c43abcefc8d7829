import JackLang.Proofs.Acceptance
import Mathlib.Tactic.MkIffOfInductiveProp

/-!
# Which classes compile

Whether a class has a listing can be told from its declarations and the names it uses.

* `Class.WellScoped`: no scope has a name twice, and every name that a statement needs is
  declared in the subroutine or in the class.  This is all that `skip` asks for.
* `Class.Supported`: no statement has a gap, neither by its shape nor by a name that stands
  for a static variable.  A parameter or local variable hides a static variable of its name.
  `reject` asks for this as well.

The compilation stops at the first error and takes its table from subroutine to subroutine.
Neither is to be seen in the conditions, which are about every statement of every subroutine
by itself.
-/

namespace JackLang

/-! ## Declared names -/

theorem Class.exists_mem_namesOf_iff {c : Class} {name : String} :
    (∃ kind, name ∈ c.namesOf kind) ↔ name ∈ c.variables.map Prod.fst := by
  simp [Class.namesOf]

namespace Scopes

variable {c : Class} {table entered : Scopes} {r : Subroutine}

theorem exists_lookup_iff (htable : ofClass c = .ok table)
    (henter : table.enter r = (entered, .ok ())) {name : String} :
    (∃ symbol, entered.lookup name = some symbol) ↔
      name ∈ r.paramNames ∨ name ∈ r.localNames ∨ name ∈ c.variables.map Prod.fst := by
  simp only [lookup_eq_some_iff htable henter, ← Class.exists_mem_namesOf_iff]
  constructor
  · rintro ⟨symbol, ⟨hparam, -⟩ | ⟨hlocal, -⟩ | ⟨-, -, kind, hclass, -⟩⟩
    · exact .inl hparam
    · exact .inr (.inl hlocal)
    · exact .inr (.inr ⟨kind, hclass⟩)
  · intro hname
    by_cases hparam : name ∈ r.paramNames
    · exact ⟨_, .inl ⟨hparam, rfl⟩⟩
    by_cases hlocal : name ∈ r.localNames
    · exact ⟨_, .inr (.inl ⟨hlocal, rfl⟩)⟩
    obtain ⟨kind, hclass⟩ := (hname.resolve_left hparam).resolve_left hlocal
    exact ⟨_, .inr (.inr ⟨hparam, hlocal, kind, hclass, rfl⟩)⟩

/-- No name is that of a static variable and of a field. -/
theorem not_mem_namesOf_static (htable : ofClass c = .ok table) {name : String}
    (hfield : name ∈ c.namesOf .field) : name ∉ c.namesOf .static := by
  intro hstatic
  have h := (lookup_classVars htable).2 ⟨.field, hfield, rfl⟩
  have h' := (lookup_classVars htable).2 ⟨.static, hstatic, rfl⟩
  cases h.symm.trans h'

/-- A declared name stands for a static variable unless the subroutine hides it or it is
that of a field. -/
theorem exists_lookup_not_static_iff (htable : ofClass c = .ok table)
    (henter : table.enter r = (entered, .ok ())) {name : String}
    (hname : ∃ symbol, entered.lookup name = some symbol) :
    (∃ symbol, entered.lookup name = some symbol ∧ symbol.storage ≠ .static) ↔
      name ∈ r.paramNames ∨ name ∈ r.localNames ∨ name ∉ c.namesOf .static := by
  constructor
  · rintro ⟨symbol, hlookup, hstatic⟩
    rcases (lookup_eq_some_iff htable henter).1 hlookup with
      ⟨hparam, -⟩ | ⟨hlocal, -⟩ | ⟨-, -, kind, hclass, rfl⟩
    · exact .inl hparam
    · exact .inr (.inl hlocal)
    · cases kind with
      | static => exact absurd rfl hstatic
      | field => exact .inr (.inr (not_mem_namesOf_static htable hclass))
  · intro hnot
    obtain ⟨symbol, hlookup⟩ := hname
    refine ⟨symbol, hlookup, ?_⟩
    rcases (lookup_eq_some_iff htable henter).1 hlookup with
      ⟨-, rfl⟩ | ⟨-, rfl⟩ | ⟨hparam, hlocal, kind, hclass, rfl⟩
    · simp
    · simp
    · cases kind with
      | static => exact absurd hclass ((hnot.resolve_left hparam).resolve_left hlocal)
      | field => simp [Storage.ofClassVar]

end Scopes

/-! ## Subroutines and classes -/

/-- A subroutine compiles with the table of its class when its own names differ, the names
it needs are declared and, under the strict policy, its statements have no gap. -/
theorem Subroutine.outcome_compile_iff_declared {policy : Policy} {c : Class} {table : Scopes}
    {r : Subroutine} (htable : Scopes.ofClass c = .ok table) :
    (r.compile policy c.name table).1.outcome = .ok () ↔
      (r.paramNames ++ r.localNames).Nodup ∧
      (∀ s ∈ r.body, ∀ x ∈ s.names,
        x ∈ r.paramNames ∨ x ∈ r.localNames ∨ x ∈ c.variables.map Prod.fst) ∧
      (policy = .reject → ∀ s ∈ r.body, s.hasCode = true ∧ ∀ x ∈ s.names,
        x ∈ r.paramNames ∨ x ∈ r.localNames ∨ x ∉ c.namesOf .static) := by
  rw [Subroutine.outcome_compile_eq_ok_iff, Scopes.enter_eq_ok_iff]
  refine and_congr_right fun hnodup => ?_
  have henter : table.enter r = ((table.enter r).1, .ok ()) :=
    Prod.ext rfl (Scopes.enter_eq_ok_iff.2 hnodup)
  have hdeclares (s : Statement) : (r.env policy c.name table).Declares s.names ↔
      ∀ x ∈ s.names, x ∈ r.paramNames ∨ x ∈ r.localNames ∨ x ∈ c.variables.map Prod.fst :=
    forall₂_congr fun x _ => Scopes.exists_lookup_iff htable henter
  have hcovers (s : Statement) (hs : (r.env policy c.name table).Declares s.names) :
      (r.env policy c.name table).Covers s.names ↔
        ∀ x ∈ s.names, x ∈ r.paramNames ∨ x ∈ r.localNames ∨ x ∉ c.namesOf .static :=
    forall₂_congr fun x hx => Scopes.exists_lookup_not_static_iff htable henter (hs x hx)
  constructor
  · intro h
    refine ⟨fun s hs => (hdeclares s).1 ?_, fun hpolicy s hs => ?_⟩
    · exact (Statement.outcome_compile_eq_ok_iff.1 (h s hs)).1
    · obtain ⟨hdeclared, hstrict⟩ := Statement.outcome_compile_eq_ok_iff.1 (h s hs)
      obtain ⟨hcode, hnames⟩ := hstrict hpolicy
      exact ⟨hcode, (hcovers s hdeclared).1 hnames⟩
  · rintro ⟨hnames, hstrict⟩ s hs
    have hdeclared := (hdeclares s).2 (hnames s hs)
    refine Statement.outcome_compile_eq_ok_iff.2 ⟨hdeclared, fun hpolicy => ?_⟩
    obtain ⟨hcode, hhidden⟩ := hstrict hpolicy s hs
    exact ⟨hcode, (hcovers s hdeclared).2 hhidden⟩

namespace Class

/-- No scope has a name twice, and every name that is needed is declared. -/
@[mk_iff]
structure WellScoped (c : Class) : Prop where
  /-- The variables of the class have different names. -/
  classNames : (c.variables.map Prod.fst).Nodup
  /-- The parameters and local variables of a subroutine have different names. -/
  ownNames : ∀ r ∈ c.subroutines, (r.paramNames ++ r.localNames).Nodup
  /-- A name in a subroutine is declared there or in the class. -/
  declared : ∀ r ∈ c.subroutines, ∀ s ∈ r.body, ∀ x ∈ s.names,
    x ∈ r.paramNames ∨ x ∈ r.localNames ∨ x ∈ c.variables.map Prod.fst

/-- No statement has a gap. -/
@[mk_iff]
structure Supported (c : Class) : Prop where
  /-- Values are arithmetic, targets have no index, and returned values are the object. -/
  shapes : ∀ r ∈ c.subroutines, ∀ s ∈ r.body, s.hasCode = true
  /-- A name of a static variable is hidden by the subroutine. -/
  hidden : ∀ r ∈ c.subroutines, ∀ s ∈ r.body, ∀ x ∈ s.names,
    x ∈ r.paramNames ∨ x ∈ r.localNames ∨ x ∉ c.namesOf .static

instance (c : Class) : Decidable c.WellScoped := decidable_of_iff _ (wellScoped_iff c).symm

instance (c : Class) : Decidable c.Supported := decidable_of_iff _ (supported_iff c).symm

theorem exists_listing_iff {policy : Policy} {c : Class} :
    (∃ listing, (c.toListing policy).outcome = .ok listing) ↔
      ∃ table, Scopes.ofClass c = .ok table ∧ (c.compile policy table).1.outcome = .ok () := by
  rw [toListing]
  cases Scopes.ofClass c with
  | error e => simp [Emit.ofExcept, Emit.bind_error]
  | ok table =>
      have hbind : ∀ f : Scopes → Emit String, (Emit.ofExcept (.ok table) >>= f) = f table :=
        fun f => rfl
      simp only [hbind, Emit.outcome_seq_eq_ok_iff, exists_and_left]
      simp [Emit.note, Emit.pure_def]

theorem exists_listing_iff_of_policy {policy : Policy} {c : Class} :
    (∃ listing, (c.toListing policy).outcome = .ok listing) ↔
      c.WellScoped ∧ (policy = .reject → c.Supported) := by
  rw [exists_listing_iff]
  constructor
  · rintro ⟨table, htable, hok⟩
    have hr := fun r hr => (Subroutine.outcome_compile_iff_declared htable).1
      (outcome_compile_eq_ok_iff.1 hok r hr)
    refine ⟨⟨Scopes.exists_ofClass_iff.1 ⟨table, htable⟩, fun r h => (hr r h).1,
      fun r h => (hr r h).2.1⟩, fun hpolicy => ⟨?_, ?_⟩⟩
    · exact fun r h s hs => ((hr r h).2.2 hpolicy s hs).1
    · exact fun r h s hs => ((hr r h).2.2 hpolicy s hs).2
  · rintro ⟨hscoped, hsupported⟩
    obtain ⟨table, htable⟩ := Scopes.exists_ofClass_iff.2 hscoped.classNames
    refine ⟨table, htable, outcome_compile_eq_ok_iff.2 fun r hr => ?_⟩
    refine (Subroutine.outcome_compile_iff_declared htable).2
      ⟨hscoped.ownNames r hr, hscoped.declared r hr, fun hpolicy s hs => ?_⟩
    exact ⟨(hsupported hpolicy).shapes r hr s hs, (hsupported hpolicy).hidden r hr s hs⟩

/-- The lenient policy accepts the classes that are well scoped, and the strict policy
accepts those of them that have no gap. -/
theorem exists_listing_iff_wellScoped (c : Class) :
    ((∃ listing, (c.toListing .skip).outcome = .ok listing) ↔ c.WellScoped) ∧
    ((∃ listing, (c.toListing .reject).outcome = .ok listing) ↔
      c.WellScoped ∧ c.Supported) := by
  constructor
  · rw [exists_listing_iff_of_policy]
    simp
  · rw [exists_listing_iff_of_policy]
    simp

/-- A class with a static variable and a function that assigns to the name of it. -/
def tally (locals : List LocalDecl) : Class where
  name := "Tally"
  vars := [⟨.static, .int, ["total"]⟩]
  subroutines := [{
    kind := .function
    name := "reset"
    returns := none
    params := []
    locals := locals
    body := [.assign "total" none (.single (.int 0)), .ret none] }]

example : (tally []).WellScoped ∧ ¬ (tally []).Supported := by decide

example : (tally [⟨.int, ["total"]⟩]).Supported := by decide

end Class

end JackLang
