import JackLang.Proofs.ChainCode
import JackLang.Proofs.FirstGap
import Mathlib.Algebra.GroupWithZero.Nat

/-!
# Nothing is left out without a note

Every part of a class for which there could be an instruction has one, or there is a note
that it has none.  The number of such parts is the *size* of the class, and it is read off
the declarations alone.

The proof goes in two layers.  Within a subroutine, all notes are about gaps of that
subroutine, a failure is at the subroutine, and there are as many instructions and notes as
the size asks for (`Emit.Accounts`).  Around it stands the note that announces the
subroutine, and from there on a noted gap is one of the subroutine announced last
(`Emit.Announces`).  Both are kept by sequences, and the first by every construct.
-/

namespace JackLang

/-! ## Sizes -/

mutual

/-- The number of operators and of terms that are no groups, in a term. -/
def Term.size : Term → Nat
  | .int _ | .string _ | .keyword _ | .var _ | .unary _ _ => 1
  | .paren inner => inner.size

/-- The number of operators and of terms that are no groups, in an expression and in its
groups.  The operand of a unary operator is not counted. -/
def Expr.size : Expr → Nat
  | .single term => term.size
  | .binary term _ rest => term.size + rest.size + 1

end

/-- A call and its drop behind the arguments, a store behind the value, or the two parts of
a return. -/
def Statement.size : Statement → Nat
  | .call _ _ args => (args.map Expr.size).sum + 2
  | .assign _ _ value => value.size + 1
  | .ret _ => 2

/-- The entry, the allocation of an object with fields, and the statements. -/
def Subroutine.size (fields : Nat) (r : Subroutine) : Nat :=
  1 + (if r.kind = .constructor ∧ 0 < fields then 3 else 0) + (r.body.map Statement.size).sum

/-- The size of all subroutines. -/
def Class.size (c : Class) : Nat :=
  (c.subroutines.map (Subroutine.size c.fieldNames.length)).sum

/-! ## Within a subroutine -/

namespace Emit

variable {α β : Type} {place : SubroutineName} {x : Emit α}

/-- The number of instructions and of noted gaps. -/
def made (x : Emit α) : Nat := x.code.length + x.events.countP Event.isGap

theorem made_bind {a : α} (h : x.outcome = .ok a) (f : α → Emit β) :
    (x >>= f).made = x.made + (f a).made := by
  rw [made, code_bind h, events_bind h, List.length_append, List.countP_append, made, made]
  omega

/-- All notes are about gaps of one place.  If the emission fails, then at that place.  If it
ends well, it has made a given number of instructions and notes. -/
structure Accounts (place : SubroutineName) (n : Nat) (x : Emit α) : Prop where
  onlyGaps : ∀ note ∈ x.notes, ∃ construct, note = .noCode place construct
  isAt : ∀ e, x.outcome = .error e → e.IsAt place
  made_eq : ∀ a, x.outcome = .ok a → x.made = n

theorem Accounts.bind {n m : Nat} {f : α → Emit β} (hx : x.Accounts place n)
    (hf : ∀ a, (f a).Accounts place m) : (x >>= f).Accounts place (n + m) := by
  obtain ⟨events, r⟩ := x
  cases r with
  | error e =>
      refine ⟨hx.onlyGaps, ?_, fun b hb => by cases hb⟩
      intro e' he'
      cases he'
      exact hx.isAt e rfl
  | ok a =>
      refine ⟨?_, (hf a).isAt, ?_⟩
      · rw [notes_bind rfl f]
        exact List.forall_mem_append.2 ⟨hx.onlyGaps, (hf a).onlyGaps⟩
      · intro b hb
        rw [made_bind rfl f, hx.made_eq a rfl, (hf a).made_eq b hb]

theorem accounts_pure (a : α) : (pure a : Emit α).Accounts place 0 :=
  ⟨List.forall_mem_nil _, fun _ he => (by cases he), fun _ _ => rfl⟩

theorem accounts_fail {e : CompileError} (h : e.IsAt place) (n : Nat) :
    (Emit.fail e : Emit α).Accounts place n := by
  refine ⟨List.forall_mem_nil _, ?_, fun a ha => by cases ha⟩
  intro e' he'
  cases he'
  exact h

theorem accounts_instr (i : Vm.Instr) : (Emit.instr i).Accounts place 1 :=
  ⟨List.forall_mem_nil _, fun _ he => (by cases he), fun _ _ => rfl⟩

/-- An atomic emission makes one instruction or one note. -/
theorem Atomic.accounts {x : Emit Unit} (h : x.Atomic place) : x.Accounts place 1 := by
  cases h with
  | instr i => exact accounts_instr i
  | gap construct =>
      exact ⟨List.forall_mem_singleton.2 ⟨construct, rfl⟩, fun _ he => (by cases he),
        fun _ _ => rfl⟩
  | failure he => exact accounts_fail he 1

theorem accounts_forM {ι : Type} {f : ι → Emit Unit} {size : ι → Nat}
    (h : ∀ x, (f x).Accounts place (size x)) (xs : List ι) :
    (forM xs f).Accounts place (xs.map size).sum := by
  induction xs with
  | nil => exact accounts_pure ()
  | cons x xs ih =>
      rw [List.forM_cons, List.map_cons, List.sum_cons]
      exact (h x).bind fun _ => ih

end Emit

theorem Env.accounts_resolve_bind {env : Env} {n : Nat} {f : Symbol → Emit Unit}
    (h : ∀ symbol, (f symbol).Accounts env.place n) (name : String) :
    (env.resolve name >>= f).Accounts env.place n := by
  have hresolve : (env.resolve name).Accounts env.place 0 := by
    rw [Env.resolve]
    cases env.lookup name with
    | some symbol => exact Emit.accounts_pure symbol
    | none => exact Emit.accounts_fail (.unresolved name) 0
  have hbind := hresolve.bind h
  rwa [Nat.zero_add] at hbind

mutual

theorem Term.accounts_compile (env : Env) :
    ∀ t : Term, (t.compile env).Accounts env.place t.size
  | .int value => (Element.atomic_compile (.term (.int value)) rfl).accounts
  | .string text => (Element.atomic_compile (.term (.string text)) rfl).accounts
  | .keyword constant => (Element.atomic_compile (.term (.keyword constant)) rfl).accounts
  | .var name => (Element.atomic_compile (.term (.var name)) rfl).accounts
  | .unary op operand => (Element.atomic_compile (.term (.unary op operand)) rfl).accounts
  | .paren inner => by
      rw [Term.compile, Term.size]
      exact Expr.accounts_compile env inner

theorem Expr.accounts_compile (env : Env) :
    ∀ e : Expr, (e.compile env).Accounts env.place e.size
  | .single term => by
      rw [Expr.compile, Expr.size]
      exact Term.accounts_compile env term
  | .binary term op rest => by
      rw [Expr.compile, Expr.size, Nat.add_assoc]
      exact (Term.accounts_compile env term).bind fun _ =>
        (Expr.accounts_compile env rest).bind fun _ => (op.atomic_compile env).accounts

end

theorem Statement.accounts_compile (env : Env) (s : Statement) :
    (s.compile env).Accounts env.place s.size := by
  cases s with
  | call receiver name args =>
      rw [Statement.compile, Statement.size, Expr.compileAll_eq_forM]
      exact (Emit.accounts_forM (Expr.accounts_compile env) args).bind fun _ =>
        (Emit.accounts_instr _).bind fun _ => Emit.accounts_instr _
  | assign target index value =>
      rw [Statement.compile, Statement.size]
      refine env.accounts_resolve_bind (fun symbol => ?_) target
      -- The note of the gap stands before the value, the store behind it.
      cases symbol.storeGap? index with
      | some construct =>
          rw [Nat.add_comm]
          exact (env.atomic_gap construct).accounts.bind fun _ => Expr.accounts_compile env value
      | none => exact (Expr.accounts_compile env value).bind fun _ => Emit.accounts_instr _
  | ret value =>
      cases value with
      | none => exact (Emit.accounts_instr _).bind fun _ => Emit.accounts_instr _
      | some value =>
          rw [Statement.compile]
          split
          · exact (Emit.accounts_instr _).bind fun _ => Emit.accounts_instr _
          · exact (env.atomic_gap .returnExpression).accounts.bind fun _ => Emit.accounts_instr _

/-! ## Around a subroutine -/

namespace Note

/-- The notes that announce subroutines. -/
def traces (notes : List Note) : List Note := notes.filter (·.level = .trace)

/-- Every noted gap is one of the subroutine announced last before it. -/
def Attributed (notes : List Note) : Prop :=
  ∀ before place construct after, notes = before ++ .noCode place construct :: after →
    (traces before).getLast? = some (.compiling place)

theorem traces_append (notes notes' : List Note) :
    traces (notes ++ notes') = traces notes ++ traces notes' :=
  List.filter_append ..

theorem attributed_of_no_gap {notes : List Note}
    (h : ∀ place construct, .noCode place construct ∉ notes) : Attributed notes := by
  intro before place construct after hnotes
  refine absurd ?_ (h place construct)
  rw [hnotes]
  exact List.mem_append_right _ List.mem_cons_self

theorem Attributed.append {notes notes' : List Note} (h : Attributed notes)
    (h' : Attributed notes') : Attributed (notes ++ notes') := by
  intro before place construct after hsplit
  rcases List.append_eq_append_iff.1 hsplit with ⟨middle, rfl, hnotes'⟩ | ⟨middle, hnotes, hrest⟩
  · -- The gap is in the second part, where a subroutine has been announced before it.
    rw [traces_append, List.getLast?_append, h' middle place construct after hnotes']
    rfl
  · cases middle with
    | nil => cases h' [] place construct after hrest.symm
    | cons gap middle =>
        cases hrest
        exact h before place construct middle hnotes

section Announced

variable {place : SubroutineName} {notes : List Note}
  (h : ∀ note ∈ notes, ∃ construct, note = .noCode place construct)

include h

/-- The gaps of a subroutine announce nothing. -/
theorem traces_announced : traces (.compiling place :: notes) = [.compiling place] := by
  rw [traces, List.filter_cons_of_pos rfl]
  refine congrArg _ (List.filter_eq_nil_iff.2 ?_)
  intro note hnote
  obtain ⟨construct, rfl⟩ := h note hnote
  exact Bool.false_ne_true

/-- Behind the note that announces a subroutine, its gaps are attributed to it. -/
theorem attributed_announced : Attributed (.compiling place :: notes) := by
  intro before other construct after hsplit
  cases before with
  | nil => cases hsplit
  | cons first before =>
      rw [List.cons_append] at hsplit
      obtain ⟨rfl, rfl⟩ := List.cons.inj hsplit
      rw [List.forall_mem_append, List.forall_mem_cons] at h
      obtain ⟨hbefore, ⟨_, hplace⟩, -⟩ := h
      cases hplace
      rw [traces_announced hbefore]
      rfl

end Announced

end Note

namespace Emit

variable {α β : Type} {x : Emit α}

/-- Noted gaps are attributed to the subroutine announced last.  If the emission ends well,
it has announced given subroutines and made a given number of instructions and notes. -/
structure Announces (places : List SubroutineName) (n : Nat) (x : Emit α) : Prop where
  attributed : Note.Attributed x.notes
  traces_eq : ∀ a, x.outcome = .ok a → Note.traces x.notes = places.map .compiling
  made_eq : ∀ a, x.outcome = .ok a → x.made = n

theorem Announces.bind {places places' : List SubroutineName} {n m : Nat} {f : α → Emit β}
    (hx : x.Announces places n) (hf : ∀ a, (f a).Announces places' m) :
    (x >>= f).Announces (places ++ places') (n + m) := by
  obtain ⟨events, r⟩ := x
  cases r with
  | error e => exact ⟨hx.attributed, fun b hb => (by cases hb), fun b hb => (by cases hb)⟩
  | ok a =>
      refine ⟨?_, ?_, ?_⟩
      · rw [notes_bind rfl f]
        exact hx.attributed.append (hf a).attributed
      · intro b hb
        rw [notes_bind rfl f, Note.traces_append, hx.traces_eq a rfl, (hf a).traces_eq b hb,
          List.map_append]
      · intro b hb
        rw [made_bind rfl f, hx.made_eq a rfl, (hf a).made_eq b hb]

/-- What has no notes but on gaps of a place may stand behind the note that announces it. -/
theorem announces_note {place : SubroutineName} {n : Nat} {body : Emit Unit}
    (hgaps : ∀ note ∈ body.notes, ∃ construct, note = .noCode place construct)
    (hmade : ∀ a, body.outcome = .ok a → body.made = n) :
    (Emit.note (.compiling place) >>= fun _ => body).Announces [place] n := by
  refine ⟨Note.attributed_announced hgaps, fun _ _ => Note.traces_announced hgaps, ?_⟩
  intro a ha
  rw [made_bind rfl, hmade a ha]
  exact Nat.zero_add n

theorem announces_of_no_events {r : Except CompileError α} :
    (⟨[], r⟩ : Emit α).Announces [] 0 :=
  ⟨Note.attributed_of_no_gap fun _ _ => List.not_mem_nil, fun _ _ => rfl, fun _ _ => rfl⟩

theorem announces_summary (className : String) (statics lines : Nat) :
    (Emit.note (.summary className statics lines)).Announces [] 0 := by
  refine ⟨Note.attributed_of_no_gap ?_, fun _ _ => rfl, fun _ _ => rfl⟩
  intro place construct hgap
  cases List.mem_singleton.1 hgap

theorem announces_forM {ι : Type} {f : ι → Emit Unit} {place : ι → SubroutineName}
    {size : ι → Nat} (h : ∀ x, (f x).Announces [place x] (size x)) (xs : List ι) :
    (forM xs f).Announces (xs.map place) (xs.map size).sum := by
  induction xs with
  | nil => exact announces_of_no_events
  | cons x xs ih =>
      rw [List.forM_cons, List.map_cons, List.map_cons, List.sum_cons]
      exact (h x).bind fun _ => ih

end Emit

/-! ## Subroutines and classes -/

theorem Subroutine.accounts_compileAllocation {place : SubroutineName}
    (kind : Subroutine.Kind) (fields : Nat) :
    (Subroutine.compileAllocation kind fields).Accounts place
      (if kind = .constructor ∧ 0 < fields then 3 else 0) := by
  rw [Subroutine.compileAllocation]
  split
  · exact (Emit.accounts_instr _).bind fun _ => (Emit.accounts_instr _).bind fun _ =>
      Emit.accounts_instr _
  · exact Emit.accounts_pure ()

section Tables

variable {σ : Type} [SymbolTable σ]

theorem Subroutine.accounts_compileEntered (policy : Policy) (place : SubroutineName)
    (table : σ) (r : Subroutine) :
    (r.compileEntered policy place table).Accounts place
      (r.size (SymbolTable.fieldCount table)) := by
  rw [Subroutine.compileEntered, Subroutine.size, Nat.add_assoc, Statement.compileAll_eq_forM]
  exact (Emit.accounts_instr _).bind fun _ =>
    (Subroutine.accounts_compileAllocation r.kind _).bind fun _ =>
      Emit.accounts_forM (Statement.accounts_compile ⟨policy, place, _⟩) r.body

/-- A subroutine is announced, also where its names are refused. -/
theorem Subroutine.announces_compile (policy : Policy) (className : String) (table : σ)
    (r : Subroutine) :
    (r.compile policy className table).1.Announces [⟨className, r.name⟩]
      (r.size (SymbolTable.fieldCount (SymbolTable.enter table r).1)) := by
  have hentered := r.accounts_compileEntered policy ⟨className, r.name⟩
    (SymbolTable.enter table r).1
  rw [Subroutine.compile, Subroutine.compileAt]
  cases (SymbolTable.enter table r).2 with
  | error e => exact Emit.announces_note (List.forall_mem_nil _) fun a ha => by cases ha
  | ok u => exact Emit.announces_note hentered.onlyGaps hentered.made_eq

end Tables

namespace Class

theorem announces_compile {c : Class} {table : Scopes} (htable : Scopes.ofClass c = .ok table)
    (policy : Policy) :
    (c.compile policy table).1.Announces (c.subroutines.map fun r => ⟨c.name, r.name⟩) c.size := by
  have hsubroutine (r : Subroutine) : (r.compile policy c.name table).1.Announces
      [⟨c.name, r.name⟩] (r.size c.fieldNames.length) := by
    have h := r.announces_compile policy c.name table
    have hfields : SymbolTable.fieldCount (SymbolTable.enter table r).1 = c.fieldNames.length :=
      (table.fieldCount_enter r).trans (Scopes.fieldCount_ofClass htable)
    rwa [hfields] at h
  rw [compile, Subroutine.compileAll_eq_forM]
  exact Emit.announces_forM hsubroutine c.subroutines

theorem announces_toListing {c : Class} {table : Scopes}
    (htable : Scopes.ofClass c = .ok table) (policy : Policy) :
    (c.toListing policy).Announces (c.subroutines.map fun r => ⟨c.name, r.name⟩) c.size := by
  have hdone := (announces_compile htable policy).bind fun _ =>
    (Emit.announces_summary c.name (c.compile policy table).2.staticCount
      (Text.lineCount (Vm.Listing.write "" (c.compile policy table).1.code))).bind fun _ =>
        Emit.announces_of_no_events
          (r := .ok (Vm.Listing.write "" (c.compile policy table).1.code))
  rw [List.append_nil, List.append_nil] at hdone
  rw [toListing_of_table htable]
  exact hdone

/-- A class that compiles has an instruction or a noted gap for each of its parts.  Its
subroutines are announced in order, and a noted gap is one of the subroutine announced last
before it. -/
theorem made_eq_size (c : Class) (listing : String)
    (h : (c.toListing .skip).outcome = .ok listing) :
    (c.toListing .skip).code.length + (c.toListing .skip).events.countP Event.isGap = c.size ∧
      Note.traces (c.toListing .skip).notes
        = c.subroutines.map (fun r => .compiling ⟨c.name, r.name⟩) ∧
      Note.Attributed (c.toListing .skip).notes := by
  cases htable : Scopes.ofClass c with
  | error e =>
      rw [toListing_of_refused htable] at h
      cases h
  | ok table =>
      have hannounces := announces_toListing htable .skip
      refine ⟨hannounces.made_eq listing h, ?_, hannounces.attributed⟩
      rw [hannounces.traces_eq listing h, List.map_map]
      rfl

/-- A class with a gap of almost every kind, and with a group. -/
def purse : Class where
  name := "Purse"
  vars := [⟨.field, .int, ["coins"]⟩, ⟨.static, .int, ["made"]⟩]
  subroutines := [
    { kind := .constructor
      name := "new"
      returns := some (.object "Purse")
      params := [⟨.int, "n"⟩]
      locals := []
      body := [
        .assign "coins" none (.binary (.paren (.binary (.var "n") .add (.single (.int 1)))) .sub
          (.single (.string "lost"))),
        .assign "made" none (.single (.unary .neg (.var "n"))),
        .ret (some (.single (.keyword .this)))] },
    { kind := .function
      name := "peek"
      returns := some .int
      params := []
      locals := []
      body := [
        .call none "count" [.single (.var "made"), .binary (.int 2) .less (.single (.int 3))],
        .ret (some (.single (.var "coins")))] }]

/-- The purse has 23 parts and 17 instructions. -/
theorem made_eq_size_purse :
    ∃ listing, (purse.toListing .skip).outcome = .ok listing ∧
      (purse.toListing .skip).code.length = 17 ∧
      (purse.toListing .skip).events.countP Event.isGap = 6 ∧
      Note.traces (purse.toListing .skip).notes
        = [.compiling ⟨"Purse", "new"⟩, .compiling ⟨"Purse", "peek"⟩] ∧
      Note.Attributed (purse.toListing .skip).notes := by
  obtain ⟨listing, hlisting⟩ : ∃ listing, (purse.toListing .skip).outcome = .ok listing := ⟨_, rfl⟩
  obtain ⟨hmade, htraces, hattributed⟩ := made_eq_size purse listing hlisting
  have hcode : (purse.toListing .skip).code.length = 17 := rfl
  have hsize : purse.size = 23 := rfl
  exact ⟨listing, hlisting, hcode, by omega, htraces, hattributed⟩

end Class

end JackLang
