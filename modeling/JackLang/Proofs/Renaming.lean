import JackLang.Proofs.Similarity
import Mathlib.Logic.Equiv.Basic

/-!
# Names of variables

A variable is known to the code by its segment and number.  Which name it has in the class
is forgotten, as long as different variables keep different names.  So a class and the same
class under new names have the same listing, and where one is refused the other is refused
as well, at the same place and for the same reason, under the new name.

`Class.rename` gives new names to variables wherever they are declared or used, also where
the compilation never looks.  Classes, subroutines, callees and receivers keep their names.
The renamed class is similar to the class (`Class.similar_rename`), and the rest is the
simulation of similar classes.
-/

namespace JackLang

/-! ## New names -/

mutual

/-- A term with its variables renamed. -/
def Term.rename (ρ : String → String) : Term → Term
  | .int value => .int value
  | .string text => .string text
  | .keyword constant => .keyword constant
  | .var name => .var (ρ name)
  | .paren inner => .paren (inner.rename ρ)
  | .unary op operand => .unary op (operand.rename ρ)

/-- An expression with its variables renamed. -/
def Expr.rename (ρ : String → String) : Expr → Expr
  | .single term => .single (term.rename ρ)
  | .binary term op rest => .binary (term.rename ρ) op (rest.rename ρ)

end

/-- A statement with its variables renamed. -/
def Statement.rename (ρ : String → String) : Statement → Statement
  | .call receiver name args => .call receiver name (args.map (Expr.rename ρ))
  | .assign target index value =>
      .assign (ρ target) (index.map (Expr.rename ρ)) (value.rename ρ)
  | .ret value => .ret (value.map (Expr.rename ρ))

/-- A parameter under a new name. -/
def Param.rename (ρ : String → String) (p : Param) : Param := { p with name := ρ p.name }

/-- Local variables under new names. -/
def LocalDecl.rename (ρ : String → String) (d : LocalDecl) : LocalDecl :=
  { d with names := d.names.map ρ }

/-- A subroutine with its variables renamed. -/
def Subroutine.rename (ρ : String → String) (r : Subroutine) : Subroutine :=
  { r with
    params := r.params.map (Param.rename ρ)
    locals := r.locals.map (LocalDecl.rename ρ)
    body := r.body.map (Statement.rename ρ) }

/-- Class variables under new names. -/
def ClassVar.rename (ρ : String → String) (v : ClassVar) : ClassVar :=
  { v with names := v.names.map ρ }

/-- A class with its variables renamed. -/
def Class.rename (ρ : String → String) (c : Class) : Class :=
  { c with
    vars := c.vars.map (ClassVar.rename ρ)
    subroutines := c.subroutines.map (Subroutine.rename ρ) }

/-! ## Renamed classes are similar -/

variable {ρ : String → String}

/-- A list whose members are changed one by one is related to itself member by member. -/
theorem forall₂_map_self {α : Type} {R : α → α → Prop} {f : α → α} (xs : List α)
    (h : ∀ x, R x (f x)) : List.Forall₂ R xs (xs.map f) :=
  List.forall₂_map_right_iff.2 (List.forall₂_same.2 fun x _ => h x)

mutual

theorem Term.similar_rename : ∀ t : Term, t.Similar ρ (t.rename ρ)
  | .int value => by rw [Term.rename]; exact .int value
  | .string text => by rw [Term.rename]; exact .string text text
  | .keyword constant => by rw [Term.rename]; exact .keyword constant constant
  | .var name => by rw [Term.rename]; exact .var name
  | .paren inner => by rw [Term.rename]; exact .paren (Expr.similar_rename inner)
  | .unary op operand => by rw [Term.rename]; exact .unary op op operand (operand.rename ρ)

theorem Expr.similar_rename : ∀ e : Expr, e.Similar ρ (e.rename ρ)
  | .single term => by rw [Expr.rename]; exact .single (Term.similar_rename term)
  | .binary term op rest => by
      rw [Expr.rename]
      exact .binary (Term.similar_rename term) (.refl op) (Expr.similar_rename rest)

end

/-- Under whatever name, a variable is not `this`. -/
theorem Expr.isThis_rename (e : Expr) : (e.rename ρ).isThis = e.isThis := by
  cases e with
  | single term =>
      cases term with
      | int | string | keyword => rfl
      | var | paren | unary => rfl
  | binary term op rest => rfl

theorem Expr.eq_of_isThis {e : Expr} (h : e.isThis = true) : e = .single (.keyword .this) := by
  cases e with
  | single term =>
      have hterm : some term = some (.keyword .this) := of_decide_eq_true h
      rw [Option.some.inj hterm]
  | binary term op rest => cases h

theorem Statement.similar_rename (s : Statement) : s.Similar ρ (s.rename ρ) := by
  cases s with
  | call receiver name args =>
      exact .call receiver receiver name (forall₂_map_self args Expr.similar_rename)
  | assign target index value =>
      cases index with
      | none => exact .assign target value.similar_rename
      | some index => exact .assignAt target index (index.rename ρ) value.similar_rename
  | ret value =>
      cases value with
      | none => exact .retNothing
      | some value =>
          cases hthis : value.isThis with
          | false => exact .retOther hthis (value.isThis_rename.trans hthis)
          | true =>
              obtain rfl := Expr.eq_of_isThis hthis
              exact .retThis

theorem Subroutine.similar_rename (r : Subroutine) : r.Similar ρ (r.rename ρ) where
  kind := rfl
  name := rfl
  params := forall₂_map_self r.params fun _ => rfl
  locals := forall₂_map_self r.locals fun _ => rfl
  body := forall₂_map_self r.body Statement.similar_rename

theorem Class.similar_rename (c : Class) : c.Similar ρ (c.rename ρ) where
  name := rfl
  vars := forall₂_map_self c.vars fun _ => ⟨rfl, rfl⟩
  subroutines := forall₂_map_self c.subroutines Subroutine.similar_rename

/-! ## Names do not matter -/

namespace Class

/-- Under new names that stay apart, a class has the same listing, instructions and notes,
and the same error about the renamed variable. -/
theorem toListing_rename (hρ : Function.Injective ρ) (policy : Policy) (c : Class) :
    (c.rename ρ).toListing policy = (c.toListing policy).mapError (CompileError.rename ρ) :=
  c.similar_rename.toListing hρ policy

/-- A class with a field, a method that uses it, and a function that hides it and uses a name
that is not declared. -/
def meter : Class where
  name := "Meter"
  vars := [⟨.field, .int, ["count"]⟩]
  subroutines := [
    { kind := .method, name := "add", returns := none, params := [⟨.int, "n"⟩], locals := []
      body := [.assign "count" none (.binary (.var "count") .add (.single (.var "n"))),
        .ret none] },
    { kind := .function, name := "twice", returns := none, params := [⟨.int, "n"⟩]
      locals := [⟨.int, ["count"]⟩]
      body := [.assign "count" none (.binary (.var "n") .add (.single (.var "m")))] }]

/-- The field and the unknown name change places, and now it is the old name of the field
that is unknown. -/
theorem toListing_rename_meter :
    Function.Injective (Equiv.swap "count" "m") ∧
      (meter.rename (Equiv.swap "count" "m")).toListing .reject
        = ⟨[.note (.compiling ⟨"Meter", "add"⟩), .instr (.function "Meter.add" 0),
            .instr (.push .this 0), .instr (.push .argument 1), .instr (.command .add),
            .instr (.pop .this 0), .instr (.push .constant 0), .instr .ret,
            .note (.compiling ⟨"Meter", "twice"⟩), .instr (.function "Meter.twice" 1),
            .instr (.push .argument 0)],
          .error (.unresolved "count" ⟨"Meter", "twice"⟩)⟩ := by
  have hswap : Function.Injective (Equiv.swap "count" "m") := (Equiv.swap "count" "m").injective
  refine ⟨hswap, ?_⟩
  rw [toListing_rename hswap .reject meter]
  rfl

end Class

end JackLang
