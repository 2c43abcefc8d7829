import JackLang.Proofs.Blocks
import JackLang.Proofs.Evaluation
import Mathlib.Data.List.Forall2
import Mathlib.Logic.Function.Basic

/-!
# Classes with the same code

Much of a class is never looked at when it is compiled: types, receivers, what is below a
gap.  And a variable counts by where it is declared, not by its name.  `Class.Similar ρ`
relates two classes that differ in such parts only, where the variables of the second are
those of the first renamed by `ρ`.  With `id` for `ρ` the names are the same as well.

Similar classes are compiled in step.  They write the same instructions and notes, and both
end well or both fail, with errors that differ at most in the name of a variable
(`Class.Similar.toListing`).  The table of the second class is at every moment the renamed
table of the first (`Scopes.rename`), also where a declaration was refused.  That needs a
renaming that keeps different names apart; all the rest holds for any.
-/

namespace JackLang

variable {ρ : String → String}

/-! ## Errors under new names -/

/-- An error with its variable renamed. -/
def CompileError.rename (ρ : String → String) : CompileError → CompileError
  | .unresolved name place => .unresolved (ρ name) place
  | .redeclared name scope => .redeclared (ρ name) scope
  | .unsupported construct place => .unsupported construct place

theorem CompileError.rename_id (e : CompileError) : e.rename id = e := by
  cases e with
  | unresolved name place => rfl
  | redeclared name scope => rfl
  | unsupported construct place => rfl

namespace Emit

variable {α β : Type}

/-- The same events, and if it fails another error. -/
def mapError (f : CompileError → CompileError) (x : Emit α) : Emit α :=
  ⟨x.events, x.outcome.mapError f⟩

theorem mapError_bind (f : CompileError → CompileError) (x : Emit α) (g : α → Emit β) :
    (x >>= g).mapError f = x.mapError f >>= fun a => (g a).mapError f := by
  obtain ⟨events, r⟩ := x
  cases r with
  | ok a => rfl
  | error e => rfl

theorem mapError_rename_id (x : Emit α) : x.mapError (CompileError.rename id) = x := by
  obtain ⟨events, r⟩ := x
  cases r with
  | ok a => rfl
  | error e =>
      show (⟨events, .error (e.rename id)⟩ : Emit α) = ⟨events, .error e⟩
      rw [CompileError.rename_id]

/-- Emissions for two lists that agree member by member agree as a whole. -/
theorem mapError_forM {ι : Type} {f : CompileError → CompileError} {g g' : ι → Emit Unit}
    {xs ys : List ι} (h : List.Forall₂ (fun x y => g' y = (g x).mapError f) xs ys) :
    forM ys g' = (forM xs g).mapError f := by
  induction h with
  | nil => rfl
  | cons hhead _ ih => rw [List.forM_cons, List.forM_cons, mapError_bind, hhead, ih]

end Emit

/-! ## What may differ -/

/-- The operators are equal, or neither is one of arithmetic. -/
inductive BinOp.Similar : BinOp → BinOp → Prop where
  | refl (op : BinOp) : BinOp.Similar op op
  | gap {op op' : BinOp} (h : op.isArithmetic = false) (h' : op'.isArithmetic = false) :
      BinOp.Similar op op'

mutual

/-- The terms differ in the names of variables and in what is inside of a gap. -/
inductive Term.Similar (ρ : String → String) : Term → Term → Prop where
  | int (value : UInt16) : Term.Similar ρ (.int value) (.int value)
  | string (text text' : String) : Term.Similar ρ (.string text) (.string text')
  | keyword (constant constant' : KeywordConst) :
      Term.Similar ρ (.keyword constant) (.keyword constant')
  | var (name : String) : Term.Similar ρ (.var name) (.var (ρ name))
  | paren {inner inner' : Expr} (h : Expr.Similar ρ inner inner') :
      Term.Similar ρ (.paren inner) (.paren inner')
  | unary (op op' : UnOp) (operand operand' : Term) :
      Term.Similar ρ (.unary op operand) (.unary op' operand')

/-- The expressions differ in the names of variables, in the operators that have no code and
in what is inside of a gap. -/
inductive Expr.Similar (ρ : String → String) : Expr → Expr → Prop where
  | single {term term' : Term} (h : Term.Similar ρ term term') :
      Expr.Similar ρ (.single term) (.single term')
  | binary {term term' : Term} {op op' : BinOp} {rest rest' : Expr}
      (hterm : Term.Similar ρ term term') (hop : BinOp.Similar op op')
      (hrest : Expr.Similar ρ rest rest') :
      Expr.Similar ρ (.binary term op rest) (.binary term' op' rest')

end

/-- The statements differ in receivers, in the index expression of an indexed target, in
returned values other than `this`, and as their expressions may differ. -/
inductive Statement.Similar (ρ : String → String) : Statement → Statement → Prop where
  | call (receiver receiver' : Option String) (name : String) {args args' : List Expr}
      (h : List.Forall₂ (Expr.Similar ρ) args args') :
      Statement.Similar ρ (.call receiver name args) (.call receiver' name args')
  | assign (target : String) {value value' : Expr} (h : value.Similar ρ value') :
      Statement.Similar ρ (.assign target none value) (.assign (ρ target) none value')
  | assignAt (target : String) (index index' : Expr) {value value' : Expr}
      (h : value.Similar ρ value') :
      Statement.Similar ρ (.assign target (some index) value)
        (.assign (ρ target) (some index') value')
  | retNothing : Statement.Similar ρ (.ret none) (.ret none)
  | retThis : Statement.Similar ρ (.ret (some (.single (.keyword .this))))
      (.ret (some (.single (.keyword .this))))
  | retOther {value value' : Expr} (h : value.isThis = false) (h' : value'.isThis = false) :
      Statement.Similar ρ (.ret (some value)) (.ret (some value'))

/-- The subroutines differ in types, in the names of variables and as their statements may
differ. -/
structure Subroutine.Similar (ρ : String → String) (r r' : Subroutine) : Prop where
  kind : r'.kind = r.kind
  name : r'.name = r.name
  params : List.Forall₂ (fun p p' : Param => p'.name = ρ p.name) r.params r'.params
  locals : List.Forall₂ (fun d d' : LocalDecl => d'.names = d.names.map ρ) r.locals r'.locals
  body : List.Forall₂ (Statement.Similar ρ) r.body r'.body

/-- The classes differ in types, in the names of variables and as their subroutines may
differ. -/
structure Class.Similar (ρ : String → String) (c c' : Class) : Prop where
  name : c'.name = c.name
  vars : List.Forall₂ (fun v v' : ClassVar => v'.kind = v.kind ∧ v'.names = v.names.map ρ)
    c.vars c'.vars
  subroutines : List.Forall₂ (Subroutine.Similar ρ) c.subroutines c'.subroutines

/-! ## Expressions and statements -/

section Bodies

variable {policy : Policy} {place : SubroutineName} {lookup lookup' : String → Option Symbol}

/-- A gap does not depend on the variables. -/
theorem Env.gap_rename (construct : Construct) :
    Env.gap ⟨policy, place, lookup'⟩ construct
      = (Env.gap ⟨policy, place, lookup⟩ construct).mapError (CompileError.rename ρ) := by
  cases policy with
  | skip => rfl
  | reject => rfl

theorem Symbol.compileLoad_rename (symbol : Symbol) :
    symbol.compileLoad ⟨policy, place, lookup'⟩
      = (symbol.compileLoad ⟨policy, place, lookup⟩).mapError (CompileError.rename ρ) := by
  simp only [Symbol.compileLoad]
  split
  · exact Env.gap_rename .staticReference
  · rfl

theorem BinOp.compile_of_not_isArithmetic {op : BinOp} (h : op.isArithmetic = false) (env : Env) :
    op.compile env = env.gap .operator := by
  cases op with
  | add | sub | mul | div => cases h
  | and | or | less | greater | equal => rfl

theorem BinOp.Similar.compile {op op' : BinOp} (h : op.Similar op') :
    op'.compile ⟨policy, place, lookup'⟩
      = (op.compile ⟨policy, place, lookup⟩).mapError (CompileError.rename ρ) := by
  cases h with
  | refl =>
      cases op with
      | add | sub | mul | div => rfl
      | and | or | less | greater | equal => exact Env.gap_rename .operator
  | gap hop hop' =>
      rw [BinOp.compile_of_not_isArithmetic hop, BinOp.compile_of_not_isArithmetic hop']
      exact Env.gap_rename .operator

/-- A new name stands for what the old one stood for. -/
theorem Env.resolve_rename (hlookup : ∀ name, lookup' (ρ name) = lookup name) (name : String) :
    Env.resolve ⟨policy, place, lookup'⟩ (ρ name)
      = (Env.resolve ⟨policy, place, lookup⟩ name).mapError (CompileError.rename ρ) := by
  simp only [Env.resolve, hlookup]
  cases lookup name with
  | some symbol => rfl
  | none => rfl

mutual

theorem Term.Similar.compile (hlookup : ∀ name, lookup' (ρ name) = lookup name) :
    ∀ {t t' : Term}, t.Similar ρ t' →
    t'.compile ⟨policy, place, lookup'⟩
      = (t.compile ⟨policy, place, lookup⟩).mapError (CompileError.rename ρ)
  | _, _, .int _ => by rw [Term.compile, Term.compile]; rfl
  | _, _, .string _ _ => by
      rw [Term.compile, Term.compile]
      exact Env.gap_rename .stringConstant
  | _, _, .keyword _ _ => by
      rw [Term.compile, Term.compile]
      exact Env.gap_rename .keywordConstant
  | _, _, .var name => by
      rw [Term.compile, Term.compile, Emit.mapError_bind, Env.resolve_rename hlookup]
      exact bind_congr fun symbol => symbol.compileLoad_rename
  | _, _, .paren h => by
      rw [Term.compile, Term.compile]
      exact h.compile hlookup
  | _, _, .unary _ _ _ _ => by
      rw [Term.compile, Term.compile]
      exact Env.gap_rename .unaryTerm

theorem Expr.Similar.compile (hlookup : ∀ name, lookup' (ρ name) = lookup name) :
    ∀ {e e' : Expr}, e.Similar ρ e' →
    e'.compile ⟨policy, place, lookup'⟩
      = (e.compile ⟨policy, place, lookup⟩).mapError (CompileError.rename ρ)
  | _, _, .single h => by
      rw [Expr.compile, Expr.compile]
      exact h.compile hlookup
  | _, _, .binary hterm hop hrest => by
      simp only [Expr.compile, Emit.mapError_bind]
      rw [hterm.compile hlookup, hrest.compile hlookup, hop.compile]

end

theorem Expr.compileAll_rename (hlookup : ∀ name, lookup' (ρ name) = lookup name)
    {es es' : List Expr} (h : List.Forall₂ (Expr.Similar ρ) es es') :
    Expr.compileAll ⟨policy, place, lookup'⟩ es'
      = (Expr.compileAll ⟨policy, place, lookup⟩ es).mapError (CompileError.rename ρ) := by
  rw [Expr.compileAll_eq_forM, Expr.compileAll_eq_forM]
  exact Emit.mapError_forM (h.imp fun _ _ he => he.compile hlookup)

/-- Whether a target has an index decides what is written, and not which index it is. -/
theorem Statement.compile_assign_rename (hlookup : ∀ name, lookup' (ρ name) = lookup name)
    (target : String) {index index' : Option Expr} (hindex : index'.isSome = index.isSome)
    {value value' : Expr} (h : value.Similar ρ value') :
    Statement.compile ⟨policy, place, lookup'⟩ (.assign (ρ target) index' value')
      = (Statement.compile ⟨policy, place, lookup⟩ (.assign target index value)).mapError
          (CompileError.rename ρ) := by
  simp only [Statement.compile, Emit.mapError_bind, Env.resolve_rename hlookup,
    Symbol.storeGap?, hindex]
  refine bind_congr fun symbol => ?_
  split
  · rw [Emit.mapError_bind, Env.gap_rename, h.compile hlookup]
  · rw [Emit.mapError_bind, h.compile hlookup]
    rfl

theorem Statement.Similar.compile (hlookup : ∀ name, lookup' (ρ name) = lookup name)
    {s s' : Statement} (h : s.Similar ρ s') :
    s'.compile ⟨policy, place, lookup'⟩
      = (s.compile ⟨policy, place, lookup⟩).mapError (CompileError.rename ρ) := by
  cases h with
  | call receiver receiver' name hargs =>
      simp only [Statement.compile, Emit.mapError_bind, Expr.compileAll_rename hlookup hargs,
        hargs.length_eq]
      rfl
  | assign target hvalue => exact Statement.compile_assign_rename hlookup target rfl hvalue
  | assignAt target index index' hvalue =>
      exact Statement.compile_assign_rename hlookup target rfl hvalue
  | retNothing => rfl
  | retThis => rfl
  | retOther hvalue hvalue' =>
      simp only [Statement.compile, hvalue, hvalue']
      cases policy with
      | skip => rfl
      | reject => rfl

theorem Statement.compileAll_rename (hlookup : ∀ name, lookup' (ρ name) = lookup name)
    {body body' : List Statement} (h : List.Forall₂ (Statement.Similar ρ) body body') :
    Statement.compileAll ⟨policy, place, lookup'⟩ body'
      = (Statement.compileAll ⟨policy, place, lookup⟩ body).mapError (CompileError.rename ρ) := by
  rw [Statement.compileAll_eq_forM, Statement.compileAll_eq_forM]
  exact Emit.mapError_forM (h.imp fun _ _ hs => hs.compile hlookup)

end Bodies

/-! ## Declared names -/

theorem Subroutine.Similar.paramNames {r r' : Subroutine} (h : r.Similar ρ r') :
    r'.paramNames = r.paramNames.map ρ := by
  have hnames : List.Forall₂ (fun p p' : Param => ρ p.name = p'.name) r.params r'.params :=
    h.params.imp fun _ _ hname => hname.symm
  rw [Subroutine.paramNames, Subroutine.paramNames, List.map_map, eq_comm, ← List.forall₂_eq_eq_eq,
    List.forall₂_map_left_iff, List.forall₂_map_right_iff]
  exact hnames

/-- Declarations that agree one by one declare the same names in the same order. -/
theorem flatMap_eq_of_forall₂ {α β γ : Type} {f : α → List γ} {g : β → List γ} {xs : List α}
    {ys : List β} (h : List.Forall₂ (fun x y => g y = f x) xs ys) :
    ys.flatMap g = xs.flatMap f := by
  induction h with
  | nil => rfl
  | cons hhead _ ih => rw [List.flatMap_cons, List.flatMap_cons, hhead, ih]

theorem Subroutine.Similar.localNames {r r' : Subroutine} (h : r.Similar ρ r') :
    r'.localNames = r.localNames.map ρ := by
  rw [Subroutine.localNames, Subroutine.localNames, List.map_flatMap]
  exact flatMap_eq_of_forall₂ h.locals

theorem Class.Similar.variables {c c' : Class} (h : c.Similar ρ c') :
    c'.variables = c.variables.map fun v => (ρ v.1, v.2) := by
  rw [Class.variables, Class.variables, List.map_flatMap]
  refine flatMap_eq_of_forall₂ (h.vars.imp fun v v' hv => ?_)
  rw [hv.1, hv.2, List.map_map, List.map_map]
  rfl

/-! ## Tables -/

namespace Scopes

/-- A scope with its names renamed. -/
def renameVars (ρ : String → String) (vars : List (String × Symbol)) : List (String × Symbol) :=
  vars.map fun v => (ρ v.1, v.2)

/-- The scopes with all their names renamed. -/
def rename (ρ : String → String) (s : Scopes) : Scopes :=
  { s with
    classVars := renameVars ρ s.classVars
    subroutineVars := renameVars ρ s.subroutineVars }

theorem rename_id (s : Scopes) : s.rename id = s := by
  show { s with
    classVars := s.classVars.map id
    subroutineVars := s.subroutineVars.map id } = s
  rw [List.map_id, List.map_id]

theorem vars_rename (s : Scopes) (ofClass : Bool) :
    (s.rename ρ).vars ofClass = renameVars ρ (s.vars ofClass) := by
  cases ofClass <;> rfl

theorem counter_rename (s : Scopes) (storage : Storage) :
    (s.rename ρ).counter storage = s.counter storage := by
  cases storage <;> rfl

theorem add_rename (s : Scopes) (name : String) (symbol : Symbol) :
    (s.rename ρ).add (ρ name) symbol = (s.add name symbol).rename ρ := by
  obtain ⟨storage, index⟩ := symbol
  cases storage <;> rfl

section Injective

variable (hρ : Function.Injective ρ)

include hρ

/-- A name is hit by no other name, so it finds its own entry. -/
theorem lookup_renameVars (vars : List (String × Symbol)) (name : String) :
    (renameVars ρ vars).lookup (ρ name) = vars.lookup name := by
  induction vars with
  | nil => rfl
  | cons v rest ih =>
      obtain ⟨first, symbol⟩ := v
      show ((ρ first, symbol) :: renameVars ρ rest).lookup (ρ name) = _
      rw [List.lookup_cons, List.lookup_cons, ih]
      by_cases hname : name = first
      · rw [hname, beq_self_eq_true, beq_self_eq_true]
      · rw [beq_false_of_ne hname, beq_false_of_ne (hρ.ne hname)]

theorem lookup_rename (s : Scopes) (name : String) :
    (s.rename ρ).lookup (ρ name) = s.lookup name := by
  show ((renameVars ρ s.subroutineVars).lookup (ρ name)).or
    ((renameVars ρ s.classVars).lookup (ρ name)) = _
  rw [lookup_renameVars hρ, lookup_renameVars hρ]
  rfl

/-- A declaration is refused under the new name exactly when it was refused under the old
one, and otherwise it has the same symbol. -/
theorem define_rename (s : Scopes) (name : String) (storage : Storage) :
    (s.rename ρ).define (ρ name) storage
      = ((s.define name storage).1.rename ρ,
          (s.define name storage).2.mapError (CompileError.rename ρ)) := by
  simp only [define, vars_rename, lookup_renameVars hρ, counter_rename, add_rename]
  split
  · rfl
  · rfl

theorem defineAll_rename (s : Scopes) (decls : List (String × Storage)) :
    (s.rename ρ).defineAll (decls.map fun d => (ρ d.1, d.2))
      = ((s.defineAll decls).1.rename ρ,
          (s.defineAll decls).2.mapError (CompileError.rename ρ)) := by
  induction decls generalizing s with
  | nil => rfl
  | cons decl rest ih =>
      obtain ⟨name, storage⟩ := decl
      rw [List.map_cons, defineAll, defineAll, define_rename hρ]
      obtain ⟨s', answer⟩ := s.define name storage
      cases answer with
      | ok symbol => exact ih s'
      | error e => rfl

theorem enter_rename (s : Scopes) {r r' : Subroutine} (h : r.Similar ρ r') :
    (s.rename ρ).enter r'
      = ((s.enter r).1.rename ρ, (s.enter r).2.mapError (CompileError.rename ρ)) := by
  have hopen : (s.rename ρ).openScope r' = (s.openScope r).rename ρ := by
    rw [openScope, openScope, Subroutine.receivers, Subroutine.receivers, h.name, h.kind]
    rfl
  have hdeclared : declared r' = (declared r).map fun d => (ρ d.1, d.2) := by
    rw [declared, declared, h.paramNames, h.localNames, List.map_append]
    simp only [List.map_map]
    rfl
  rw [enter, enter, hopen, hdeclared, defineAll_rename hρ]

theorem ofClass_rename {c c' : Class} (h : c.Similar ρ c') :
    ofClass c' = ((ofClass c).map (rename ρ)).mapError (CompileError.rename ρ) := by
  have hdecls : classDecls c' = (classDecls c).map fun d => (ρ d.1, d.2) := by
    rw [classDecls, classDecls, h.variables, List.map_map, List.map_map]
    rfl
  have hempty : ({ className := c'.name } : Scopes)
      = ({ className := c.name } : Scopes).rename ρ := by
    rw [h.name]
    rfl
  rw [ofClass, ofClass, hdecls, hempty, defineAll_rename hρ]
  generalize ({ className := c.name } : Scopes).defineAll _ = defined
  obtain ⟨s, r⟩ := defined
  cases r with
  | ok u => rfl
  | error e => rfl

end Injective

end Scopes

/-! ## Subroutines and classes -/

section Injective

variable (hρ : Function.Injective ρ)

include hρ

theorem Subroutine.Similar.compileEntered {r r' : Subroutine} (h : r.Similar ρ r')
    (policy : Policy) (place : SubroutineName) (table : Scopes) :
    r'.compileEntered policy place (table.rename ρ)
      = (r.compileEntered policy place table).mapError (CompileError.rename ρ) := by
  have hlocals : SymbolTable.localCount (table.rename ρ) = table.localCount := rfl
  have hfields : SymbolTable.fieldCount (table.rename ρ) = table.fieldCount := rfl
  have hbody : Statement.compileAll ⟨policy, place, (table.rename ρ).lookup⟩ r'.body
      = (Statement.compileAll ⟨policy, place, table.lookup⟩ r.body).mapError
          (CompileError.rename ρ) :=
    Statement.compileAll_rename (table.lookup_rename hρ) h.body
  rw [Subroutine.compileEntered, Subroutine.compileEntered, Emit.mapError_bind,
    Emit.mapError_bind, hlocals, hfields, h.kind, Subroutine.compileAllocation_eq_ofCode,
    Subroutine.compileAllocation_eq_ofCode]
  exact bind_congr fun _ => bind_congr fun _ => hbody

theorem Subroutine.Similar.compile {r r' : Subroutine} (h : r.Similar ρ r') (policy : Policy)
    (className : String) (table : Scopes) :
    r'.compile policy className (table.rename ρ)
      = ((r.compile policy className table).1.mapError (CompileError.rename ρ),
          (r.compile policy className table).2.rename ρ) := by
  have henter : SymbolTable.enter (table.rename ρ) r' = _ := table.enter_rename hρ h
  simp only [Subroutine.compile, Subroutine.compileAt, henter, h.compileEntered hρ,
    Emit.mapError_bind, h.name]
  rfl

/-- The tables stay in step from subroutine to subroutine, and a failure ends both classes at
the same one. -/
theorem Subroutine.compileAll_rename {rs rs' : List Subroutine}
    (h : List.Forall₂ (Subroutine.Similar ρ) rs rs') (policy : Policy) (className : String)
    (table : Scopes) :
    Subroutine.compileAll policy className (table.rename ρ) rs'
      = ((Subroutine.compileAll policy className table rs).1.mapError (CompileError.rename ρ),
          (Subroutine.compileAll policy className table rs).2.rename ρ) := by
  induction h generalizing table with
  | nil => rfl
  | @cons r r' rest rest' hr _ ih =>
      simp only [Subroutine.compileAll, hr.compile hρ, ih]
      generalize r.compile policy className table = first
      obtain ⟨⟨events, outcome⟩, left⟩ := first
      cases outcome with
      | ok u => exact Prod.ext (Emit.mapError_bind _ ⟨events, .ok u⟩ _).symm rfl
      | error e => rfl

theorem Class.Similar.compile {c c' : Class} (h : c.Similar ρ c') (policy : Policy)
    (table : Scopes) :
    c'.compile policy (table.rename ρ)
      = ((c.compile policy table).1.mapError (CompileError.rename ρ),
          (c.compile policy table).2.rename ρ) := by
  rw [Class.compile, Class.compile, h.name]
  exact Subroutine.compileAll_rename hρ h.subroutines policy c.name table

theorem Class.Similar.toListing {c c' : Class} (h : c.Similar ρ c') (policy : Policy) :
    c'.toListing policy = (c.toListing policy).mapError (CompileError.rename ρ) := by
  have hofClass := Scopes.ofClass_rename hρ h
  cases htable : Scopes.ofClass c with
  | error e =>
      rw [htable] at hofClass
      rw [Class.toListing_of_refused htable, Class.toListing_of_refused hofClass]
      rfl
  | ok table =>
      rw [htable] at hofClass
      have hstatics : (((c.compile policy table).2).rename ρ).staticCount
          = ((c.compile policy table).2).staticCount := rfl
      rw [Class.toListing_of_table htable, Class.toListing_of_table hofClass, h.compile hρ,
        h.name, hstatics, Emit.mapError_bind]
      rfl

end Injective

namespace Class

/-- Classes that differ only in what is never looked at have the same listing or the same
error, with the same instructions and notes written before it, and this with any table in
which they are compiled. -/
theorem toListing_eq_of_similar {c c' : Class} (h : c.Similar id c') (policy : Policy) :
    c'.toListing policy = c.toListing policy ∧
      ∀ table : Scopes, c'.compile policy table = c.compile policy table := by
  constructor
  · rw [h.toListing Function.injective_id, Emit.mapError_rename_id]
  · intro table
    have hcompile := h.compile Function.injective_id policy table
    rw [Scopes.rename_id, Scopes.rename_id, Emit.mapError_rename_id] at hcompile
    exact hcompile

/-- A class with a part of every kind that is not looked at. -/
def box (type : VarType) (receiver : Option String) (index : Expr) (operand : Term) (op : BinOp)
    (title : String) (value : Expr) : Class where
  name := "Box"
  vars := [⟨.field, type, ["size"]⟩]
  subroutines := [{
    kind := .method
    name := "grow"
    returns := some type
    params := [⟨type, "by"⟩]
    locals := []
    body := [.assign "size" (some index) (.binary (.var "by") op (.single (.unary .neg operand))),
      .call receiver "draw" [.single (.string title), .single (.var "by")],
      .ret (some value)] }]

/-- Names that stand for nothing do no harm in an index, below a unary operator or in a
returned value. -/
theorem toListing_box :
    let plain := box .int none (.single (.var "by")) (.var "by") .less "box" (.single (.var "by"))
    let ghostly := box .char (some "Screen") (.single (.var "ghost")) (.var "ghost") .equal ""
      (.single (.var "ghost"))
    plain.Similar id ghostly ∧
      (ghostly.toListing .skip).code = [.function "Box.grow" 0, .push .argument 1,
        .push .argument 1, .call "Box.draw" 2, .pop .temp 0, .ret] ∧
      (ghostly.toListing .reject).outcome
        = .error (.unsupported .indexedAssignment ⟨"Box", "grow"⟩) := by
  intro plain ghostly
  have hop : BinOp.Similar .less .equal := .gap rfl rfl
  have hassign : Statement.Similar id _ _ := .assignAt "size" (.single (.var "by"))
    (.single (.var "ghost"))
    (.binary (.var "by") hop (.single (.unary .neg .neg (.var "by") (.var "ghost"))))
  have hcall : Statement.Similar id _ _ := .call none (some "Screen") "draw"
    (.cons (.single (.string "box" "")) (.cons (.single (.var "by")) .nil))
  have hret : Statement.Similar id (.ret (some (.single (.var "by"))))
      (.ret (some (.single (.var "ghost")))) := .retOther rfl rfl
  have hsimilar : plain.Similar id ghostly :=
    ⟨rfl, .cons ⟨rfl, rfl⟩ .nil,
      .cons ⟨rfl, rfl, .cons rfl .nil, .nil, .cons hassign (.cons hcall (.cons hret .nil))⟩ .nil⟩
  refine ⟨hsimilar, ?_, ?_⟩
  · rw [(toListing_eq_of_similar hsimilar .skip).1]
    rfl
  · rw [(toListing_eq_of_similar hsimilar .reject).1]
    rfl

end Class

end JackLang
