import JackLang.Proofs.Acceptance
import JackLang.Proofs.Indices

/-!
# Bare trees

Parentheses are there to write an expression in one line.  Without them an expression is a
*tree*, and the chain `a - b - c` and the expression `a - (b - c)` have the same one.  The
compiler sees the tree only (`Expr.compile_eq_compile_tree`).

The converse holds of the code that the strict policy accepts: it tells the tree.  Operands
come before their operator, so the code has to be read from its end.  The last instruction
tells a leaf from an operator, and the code of the operand before it ends where that of the
other starts.  `Tree.Writes.inj` reads a tree off the end of any code and finds the part
that is left.  That a variable can be told from its slot is due to the table, in which no
two names have the same symbol.
-/

namespace JackLang

open Vm (Instr Segment)

/-- An expression without its parentheses. -/
inductive Tree where
  /-- An integer constant. -/
  | int (value : UInt16)
  /-- A string constant. -/
  | string (text : String)
  /-- A keyword that stands for a value. -/
  | keyword (constant : KeywordConst)
  /-- A variable. -/
  | var (name : String)
  /-- A unary operator and its operand. -/
  | unary (op : UnOp) (operand : Tree)
  /-- A binary operator and its operands. -/
  | binary (op : BinOp) (left right : Tree)
deriving DecidableEq, Repr

mutual

/-- The tree of a term. -/
def Term.tree : Term → Tree
  | .int value => .int value
  | .string text => .string text
  | .keyword constant => .keyword constant
  | .var name => .var name
  | .paren inner => inner.tree
  | .unary op operand => .unary op operand.tree

/-- The tree of an expression. -/
def Expr.tree : Expr → Tree
  | .single term => term.tree
  | .binary term op rest => .binary op term.tree rest.tree

end

/-! ## The code of a tree -/

/-- The code of a tree. -/
def Tree.compile (env : Env) : Tree → Emit Unit
  | .int value => .instr (.push .constant value.toNat)
  | .string _ => env.gap .stringConstant
  | .keyword _ => env.gap .keywordConstant
  | .var name => do
      let symbol ← env.resolve name
      symbol.compileLoad env
  | .unary _ _ => env.gap .unaryTerm
  | .binary op left right => do
      left.compile env
      right.compile env
      op.compile env

mutual

theorem Term.compile_eq_compile_tree (env : Env) : ∀ t : Term, t.compile env = t.tree.compile env
  | .int _ => by rw [Term.compile, Term.tree, Tree.compile]
  | .string _ => by rw [Term.compile, Term.tree, Tree.compile]
  | .keyword _ => by rw [Term.compile, Term.tree, Tree.compile]
  | .var _ => by rw [Term.compile, Term.tree, Tree.compile]
  | .paren inner => by rw [Term.compile, Term.tree, Expr.compile_eq_compile_tree env inner]
  | .unary _ _ => by rw [Term.compile, Term.tree, Tree.compile]

/-- Parentheses do not matter to the compiler, whether it accepts an expression or not. -/
theorem Expr.compile_eq_compile_tree (env : Env) : ∀ e : Expr, e.compile env = e.tree.compile env
  | .single term => by rw [Expr.compile, Expr.tree, Term.compile_eq_compile_tree env term]
  | .binary term op rest => by
      rw [Expr.compile, Expr.tree, Tree.compile, Term.compile_eq_compile_tree env term,
        Expr.compile_eq_compile_tree env rest]

end

/-! ## Code of arithmetic -/

/-- The operator that an instruction computes. -/
def BinOp.ofInstr? : Instr → Option BinOp
  | .command .add => some .add
  | .command .sub => some .sub
  | .call "Math.multiply" 2 => some .mul
  | .call "Math.divide" 2 => some .div
  | _ => none

/-- The slot that holds the value of a leaf. -/
inductive Tree.Reads (lookup : String → Option Symbol) : Tree → Segment → Nat → Prop where
  | int (value : UInt16) : Tree.Reads lookup (.int value) .constant value.toNat
  | var {name : String} {symbol : Symbol} (hsymbol : lookup name = some symbol) :
      Tree.Reads lookup (.var name) symbol.segment symbol.index

/-- The code of a tree of arithmetic: its operands from left to right, then the operator. -/
inductive Tree.Writes (lookup : String → Option Symbol) : Tree → List Instr → Prop where
  | leaf {t : Tree} {segment : Segment} {index : Nat} (h : t.Reads lookup segment index) :
      Tree.Writes lookup t [.push segment index]
  | binary {op : BinOp} {left right : Tree} {code code' : List Instr} {i : Instr}
      (hleft : Tree.Writes lookup left code) (hright : Tree.Writes lookup right code')
      (hop : BinOp.ofInstr? i = some op) :
      Tree.Writes lookup (.binary op left right) (code ++ code' ++ [i])

variable {env : Env} {lookup : String → Option Symbol} {t t' : Tree}

/-- An operator that the strict policy accepts is told by its instruction. -/
theorem BinOp.exists_instr_of_compile (hpolicy : env.policy = .reject) {op : BinOp}
    (h : (op.compile env).outcome = .ok ()) :
    ∃ i, (op.compile env).code = [i] ∧ BinOp.ofInstr? i = some op := by
  have harith := BinOp.outcome_compile_eq_ok_iff.1 h hpolicy
  cases op with
  | add | sub | mul | div => exact ⟨_, rfl, rfl⟩
  | and | or | less | greater | equal => cases harith

/-- The code of a tree that the strict policy accepts. -/
theorem Tree.writes_compile (hpolicy : env.policy = .reject)
    (h : (t.compile env).outcome = .ok ()) : t.Writes env.lookup (t.compile env).code := by
  induction t with
  | int value => exact .leaf (.int value)
  | string text => exact absurd hpolicy ((Env.outcome_gap_eq_ok_iff _).1 h)
  | keyword constant => exact absurd hpolicy ((Env.outcome_gap_eq_ok_iff _).1 h)
  | var name =>
      rw [Tree.compile] at h ⊢
      obtain ⟨symbol, hsymbol, hload⟩ := Env.outcome_resolve_bind_eq_ok_iff.1 h
      have hstatic := Symbol.outcome_compileLoad_eq_ok_iff.1 hload hpolicy
      rw [Env.resolve_eq_pure hsymbol, pure_bind, Symbol.compileLoad, if_neg hstatic]
      exact .leaf (.var hsymbol)
  | unary op operand => exact absurd hpolicy ((Env.outcome_gap_eq_ok_iff _).1 h)
  | binary op left right ihleft ihright =>
      rw [Tree.compile] at h ⊢
      obtain ⟨hleft, h'⟩ := Emit.outcome_seq_eq_ok_iff.1 h
      obtain ⟨hright, hop⟩ := Emit.outcome_seq_eq_ok_iff.1 h'
      obtain ⟨i, hcode, hi⟩ := BinOp.exists_instr_of_compile hpolicy hop
      rw [Emit.code_bind hleft, Emit.code_bind hright, hcode, ← List.append_assoc]
      exact .binary (ihleft hleft) (ihright hright) hi

/-! ## Reading code from its end -/

theorem Storage.segment_injective : Function.Injective Storage.segment := by
  intro a b h
  cases a <;> cases b <;> cases h <;> rfl

theorem Storage.segment_ne_constant (storage : Storage) : storage.segment ≠ .constant := by
  intro h
  cases storage <;> cases h

theorem Symbol.eq_of_slot {symbol symbol' : Symbol} (hsegment : symbol.segment = symbol'.segment)
    (hindex : symbol.index = symbol'.index) : symbol = symbol' := by
  obtain ⟨storage, index⟩ := symbol
  obtain ⟨storage', index'⟩ := symbol'
  cases Storage.segment_injective hsegment
  cases hindex
  rfl

section Reading

variable (hinjective : ∀ a b symbol, lookup a = some symbol → lookup b = some symbol → a = b)

include hinjective

/-- A slot belongs to one leaf only. -/
theorem Tree.Reads.inj {segment segment' : Segment} {index index' : Nat}
    (h : t.Reads lookup segment index) (h' : t'.Reads lookup segment' index')
    (hsegment : segment = segment') (hindex : index = index') : t = t' := by
  cases h with
  | int value =>
      cases h' with
      | int value' => rw [UInt16.toNat_inj.1 hindex]
      | var hsymbol' => exact absurd hsegment.symm (Storage.segment_ne_constant _)
  | var hsymbol =>
      cases h' with
      | int value' => exact absurd hsegment (Storage.segment_ne_constant _)
      | var hsymbol' =>
          rw [Symbol.eq_of_slot hsegment hindex] at hsymbol
          rw [hinjective _ _ _ hsymbol hsymbol']

/-- The end of a code tells the tree that wrote it and where its code starts. -/
theorem Tree.Writes.inj {code code' before before' : List Instr} (h : t.Writes lookup code)
    (h' : t'.Writes lookup code') (hcode : before ++ code = before' ++ code') :
    t = t' ∧ before = before' := by
  induction h generalizing t' code' before before' with
  | leaf hreads =>
      cases h' with
      | leaf hreads' =>
          obtain ⟨hbefore, hlast⟩ := List.append_inj' hcode rfl
          obtain ⟨hsegment, hindex⟩ := Instr.push.inj (List.cons.inj hlast).1
          exact ⟨hreads.inj hinjective hreads' hsegment hindex, hbefore⟩
      | binary _ _ hop' =>
          rw [← List.append_assoc] at hcode
          obtain ⟨-, hlast⟩ := List.append_inj' hcode rfl
          cases hlast
          cases hop'
  | binary hleft hright hop ihleft ihright =>
      cases h' with
      | leaf hreads' =>
          rw [← List.append_assoc] at hcode
          obtain ⟨-, hlast⟩ := List.append_inj' hcode rfl
          cases hlast
          cases hop
      | binary hleft' hright' hop' =>
          simp only [← List.append_assoc] at hcode
          obtain ⟨hoperands, hlast⟩ := List.append_inj' hcode rfl
          cases hlast
          -- The right operand is read first, and what is left ends with the left one.
          obtain ⟨hright, hrest⟩ := ihright hright' hoperands
          obtain ⟨hleft, hbefore⟩ := ihleft hleft' hrest
          have hsame := Option.some.inj (hop.symm.trans hop')
          rw [hright, hleft, hsame]
          exact ⟨rfl, hbefore⟩

end Reading

/-! ## Expressions -/

namespace Expr

/-- Expressions with the same tree are compiled alike. -/
theorem compile_eq_of_tree_eq {e e' : Expr} (h : e.tree = e'.tree) (env : Env) :
    e.compile env = e'.compile env := by
  rw [compile_eq_compile_tree, h, ← compile_eq_compile_tree]

/-- Expressions that the strict policy accepts have the same code exactly when they differ
in parentheses only.  And wherever they differ in parentheses only, both are accepted or
both are refused. -/
theorem code_eq_iff_tree_eq (c : Class) (table : Scopes) (htable : Scopes.ofClass c = .ok table)
    (requests : List Scopes.Request) (place : SubroutineName) :
    let env : Env := ⟨.reject, place, (table.handleAll requests).lookup⟩
    ∀ e e' : Expr,
      ((e.compile env).outcome = .ok () → (e'.compile env).outcome = .ok () →
        ((e.compile env).code = (e'.compile env).code ↔ e.tree = e'.tree)) ∧
      (e.tree = e'.tree → e.compile env = e'.compile env) := by
  intro env e e'
  refine ⟨?_, fun h => compile_eq_of_tree_eq h env⟩
  intro he he'
  constructor
  · intro hcode
    have hnumbered := (Scopes.Numbered.ofClass htable).handleAll requests
    rw [compile_eq_compile_tree] at he he'
    rw [compile_eq_compile_tree, compile_eq_compile_tree env e'] at hcode
    have hwrites := Tree.writes_compile rfl he
    have hwrites' := Tree.writes_compile rfl he'
    exact (hwrites.inj hnumbered.coherent.injective hwrites' (congrArg ([] ++ ·) hcode)).1
  · intro htree
    rw [compile_eq_of_tree_eq htree]

/-- A chain of two differences is compiled like the difference with a group on its right,
and not like the one with a group on its left.  Its last variable is a parameter that hides
a static variable. -/
theorem code_of_groups :
    let point : Class := ⟨"Point", [⟨.static, .int, ["made"]⟩, ⟨.field, .int, ["x", "y"]⟩], []⟩
    let move : Subroutine := ⟨.method, "move", none, [⟨.int, "made"⟩], [], []⟩
    let chain : Expr := .binary (.var "x") .sub (.binary (.var "y") .sub (.single (.var "made")))
    let right : Expr :=
      .binary (.var "x") .sub (.single (.paren (.binary (.var "y") .sub (.single (.var "made")))))
    let left : Expr :=
      .binary (.paren (.binary (.var "x") .sub (.single (.var "y")))) .sub (.single (.var "made"))
    ∃ table, Scopes.ofClass point = .ok table ∧
      let env : Env := ⟨.reject, ⟨"Point", "move"⟩, (table.handleAll [.enter move]).lookup⟩
      (chain.compile env).outcome = .ok () ∧ (left.compile env).outcome = .ok () ∧
        chain.compile env = right.compile env ∧
        (chain.compile env).code ≠ (left.compile env).code := by
  intro point move chain right left
  obtain ⟨table, htable⟩ : ∃ table, Scopes.ofClass point = .ok table := ⟨_, rfl⟩
  have htold := code_eq_iff_tree_eq point table htable [.enter move] ⟨"Point", "move"⟩
  refine ⟨table, htable, ?_⟩
  cases htable
  intro env
  have hchain : (chain.compile env).outcome = .ok () := rfl
  have hleft : (left.compile env).outcome = .ok () := rfl
  refine ⟨hchain, hleft, (htold chain right).2 rfl, ?_⟩
  intro hcode
  have htree := ((htold chain left).1 hchain hleft).1 hcode
  cases htree

end Expr

end JackLang
