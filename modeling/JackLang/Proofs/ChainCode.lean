import JackLang.Compile.Expr
import JackLang.Proofs.Chains
import JackLang.Proofs.Emission

/-!
# The code of flat chains

The compiler takes a nested chain apart one term at a time and keeps the operator for the
end.  In the flat chain that means the terms from left to right and then the operators from
right to left (`Expr.codeOrder`), each of them compiled by itself
(`Expr.compile_chain`).  So `a - b - c` is the code of `a`, `b` and `c` and then of the two
operators, the second one first.

If no element fails, the code and the notes are those of the elements in that order.  If one
does, the first of them ends the chain.  An element is *atomic* unless it is a group in
parentheses: it writes one instruction, or notes one gap, or fails with nothing written and
an error at its own place (`Element.atomic_compile`).
-/

namespace JackLang

variable {env : Env}

/-! ## Atomic emissions -/

/-- Errors that the compiler places in a subroutine. -/
inductive CompileError.IsAt (place : SubroutineName) : CompileError → Prop where
  | unresolved (name : String) : IsAt place (.unresolved name place)
  | unsupported (construct : Construct) : IsAt place (.unsupported construct place)

/-- One instruction, one noted gap, or a failure with nothing written.  Both the gap and the
failure are at one place. -/
inductive Emit.Atomic (place : SubroutineName) : Emit Unit → Prop where
  | instr (i : Vm.Instr) : Emit.Atomic place (.instr i)
  | gap (construct : Construct) : Emit.Atomic place (.note (.noCode place construct))
  | failure {e : CompileError} (h : e.IsAt place) : Emit.Atomic place (.fail e)

theorem Emit.Atomic.events_of_error {place : SubroutineName} {x : Emit Unit} {e : CompileError}
    (h : x.Atomic place) (herror : x.outcome = .error e) : x.events = [] := by
  cases h with
  | instr i => cases herror
  | gap construct => cases herror
  | failure h => rfl

theorem Env.atomic_gap (env : Env) (construct : Construct) :
    (env.gap construct).Atomic env.place := by
  rw [Env.gap]
  cases env.policy with
  | skip => exact .gap construct
  | reject => exact .failure (.unsupported construct)

theorem BinOp.atomic_compile (env : Env) (op : BinOp) : (op.compile env).Atomic env.place := by
  cases op with
  | add | sub | mul | div => exact .instr _
  | and | or | less | greater | equal => exact env.atomic_gap .operator

theorem Symbol.atomic_compileLoad (env : Env) (symbol : Symbol) :
    (symbol.compileLoad env).Atomic env.place := by
  rw [Symbol.compileLoad]
  split
  · exact env.atomic_gap .staticReference
  · exact .instr _

/-! ## Elements -/

/-- The code of a term or an operator by itself. -/
def Element.compile (env : Env) : Element → Emit Unit
  | .term t => t.compile env
  | .op o => o.compile env

/-- Whether an element is an expression in parentheses. -/
def Element.isGroup : Element → Bool
  | .term (.paren _) => true
  | .term _ | .op _ => false

/-- An element that is no group is atomic. -/
theorem Element.atomic_compile (item : Element) (h : item.isGroup = false) :
    (item.compile env).Atomic env.place := by
  cases item with
  | op o => exact o.atomic_compile env
  | term t =>
      rw [Element.compile]
      cases t with
      | int value =>
          rw [Term.compile]
          exact .instr _
      | string text =>
          rw [Term.compile]
          exact env.atomic_gap .stringConstant
      | keyword constant =>
          rw [Term.compile]
          exact env.atomic_gap .keywordConstant
      | var name =>
          rw [Term.compile, Env.resolve]
          cases env.lookup name with
          | none => exact .failure (.unresolved name)
          | some symbol => exact symbol.atomic_compileLoad env
      | paren inner => cases h
      | unary op operand =>
          rw [Term.compile]
          exact env.atomic_gap .unaryTerm

/-! ## Chains -/

namespace Expr

/-- A flat chain: a term, and behind it operators with their terms. -/
def flat (first : Term) (links : List (BinOp × Term)) : List Element :=
  .term first :: links.flatMap fun link => [.op link.1, .term link.2]

/-- The expression of a flat chain. -/
def chain (first : Term) : List (BinOp × Term) → Expr
  | [] => .single first
  | (op, next) :: rest => .binary first op (chain next rest)

/-- The elements of a flat chain in the order of their code: the terms from left to right,
then the operators from right to left. -/
def codeOrder (first : Term) (links : List (BinOp × Term)) : List Element :=
  (first :: links.map Prod.snd).map .term ++ (links.map Prod.fst).reverse.map .op

theorem elements_chain (first : Term) (links : List (BinOp × Term)) :
    (chain first links).elements = flat first links := by
  induction links generalizing first with
  | nil => rfl
  | cons link rest ih =>
      obtain ⟨op, next⟩ := link
      rw [chain, elements, ih]
      rfl

/-- What stands behind the first term comes between its code and that of its operator. -/
theorem codeOrder_cons (first : Term) (op : BinOp) (next : Term) (rest : List (BinOp × Term)) :
    codeOrder first ((op, next) :: rest) = .term first :: (codeOrder next rest ++ [.op op]) := by
  simp [codeOrder]

/-- The elements of a chain are compiled one after another in the order of their code. -/
theorem compile_chain (env : Env) (first : Term) (links : List (BinOp × Term)) :
    (chain first links).compile env = forM (codeOrder first links) (Element.compile env) := by
  have hlast (item : Element) : forM [item] (Element.compile env) = item.compile env := by
    rw [List.forM_cons, List.forM_nil]
    exact bind_pure _
  induction links generalizing first with
  | nil => rw [chain, Expr.compile]; exact (hlast (.term first)).symm
  | cons link rest ih =>
      obtain ⟨op, next⟩ := link
      rw [chain, Expr.compile, codeOrder_cons, List.forM_cons, List.forM_append, hlast, ih]
      rfl

/-- A flat chain is an expression, and it is written in the order of its code.  Where it
compiles, its code and its notes are those of its elements.  Where it does not, the first
element that fails is the last to write, and it has written nothing itself unless it is a
group. -/
theorem compile_flat (env : Env) (first : Term) (links : List (BinOp × Term)) :
    ∃ e, ofElements (flat first links) = .ok e ∧
      ((e.compile env).outcome = .ok () →
        (∀ item ∈ codeOrder first links, (item.compile env).outcome = .ok ()) ∧
        (e.compile env).code
          = (codeOrder first links).flatMap (fun item => (item.compile env).code) ∧
        (e.compile env).notes
          = (codeOrder first links).flatMap (fun item => (item.compile env).notes)) ∧
      (∀ err, (e.compile env).outcome = .error err →
        ∃ before item after, codeOrder first links = before ++ item :: after ∧
          (∀ x ∈ before, (x.compile env).outcome = .ok ()) ∧
          (item.compile env).outcome = .error err ∧
          (e.compile env).events
            = before.flatMap (fun x => (x.compile env).events) ++ (item.compile env).events ∧
          (item.isGroup = false → (item.compile env).events = [])) ∧
      ∀ item : Element, item.isGroup = false → (item.compile env).Atomic env.place := by
  refine ⟨chain first links, ?_, ?_, ?_, Element.atomic_compile⟩
  · rw [ofElements_eq_ok_iff, elements_chain]
  · rw [compile_chain]
    intro hok
    exact ⟨Emit.outcome_forM_eq_ok_iff.1 hok, Emit.code_forM hok, Emit.notes_forM hok⟩
  · rw [compile_chain]
    intro err herror
    obtain ⟨before, item, after, horder, hbefore, hitem, hevents⟩ :=
      Emit.exists_first_failure herror
    exact ⟨before, item, after, horder, hbefore, hitem, hevents,
      fun hgroup => (item.atomic_compile hgroup).events_of_error hitem⟩

/-- In `x - "s" = 3` the string and the comparison are left out.  In `x * (x + ghost) - 3` the
group fails behind its first variable, and neither the number nor an operator is written. -/
theorem compile_flat_gaps_and_failure :
    let place : SubroutineName := ⟨"Main", "run"⟩
    let env : Env :=
      ⟨.skip, place, fun name => if name = "x" then some ⟨.local, 0⟩ else none⟩
    let x : Term := .var "x"
    let group : Term := .paren (.binary x .add (.single (.var "ghost")))
    (∃ e, ofElements (flat x [(.sub, .string "s"), (.equal, .int 3)]) = .ok e ∧
      (e.compile env).outcome = .ok () ∧
      (e.compile env).code = [.push .local 0, .push .constant 3, .command .sub] ∧
      (e.compile env).notes = [.noCode place .stringConstant, .noCode place .operator]) ∧
    ∃ e, ofElements (flat x [(.mul, group), (.sub, .int 3)]) = .ok e ∧
      (e.compile env).outcome = .error (.unresolved "ghost" place) ∧
      ∃ before item after,
        codeOrder x [(.mul, group), (.sub, .int 3)] = before ++ item :: after ∧
        (item.compile env).outcome = .error (.unresolved "ghost" place) ∧
        (e.compile env).events
          = before.flatMap (fun x => (x.compile env).events) ++ (item.compile env).events ∧
        (e.compile env).events = [.instr (.push .local 0), .instr (.push .local 0)] := by
  intro place env x group
  constructor
  · obtain ⟨e, he, hcompiled, -, -⟩ := compile_flat env x [(.sub, .string "s"), (.equal, .int 3)]
    refine ⟨e, he, ?_⟩
    rw [← elements_chain, ofElements_elements] at he
    cases he
    obtain ⟨-, hcode, hnotes⟩ := hcompiled rfl
    exact ⟨rfl, hcode, hnotes⟩
  · obtain ⟨e, he, -, hfailed, -⟩ := compile_flat env x [(.mul, group), (.sub, .int 3)]
    refine ⟨e, he, ?_⟩
    rw [← elements_chain, ofElements_elements] at he
    cases he
    obtain ⟨before, item, after, horder, -, hitem, hevents, -⟩ := hfailed _ rfl
    exact ⟨rfl, before, item, after, horder, hitem, hevents, rfl⟩

end Expr

end JackLang
