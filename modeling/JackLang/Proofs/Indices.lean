import JackLang.Proofs.Numbering
import Mathlib.Data.List.Intervals

/-!
# Symbols over the life of a table

A table is made for a class and then changed by requests: names are declared with any
storage class, subroutines are entered, and both can be refused.  Whatever the requests
were, the variables of each storage class have the numbers from a first one up to the
counter of the storage class, without gaps and without repetitions, and two names never
look up to the same symbol.

The counters and the scopes are kept apart, and the invariant `Numbered` relates them.  It
says of the lists what the rest of the module says of names: no scope repeats a name, each
scope has its own storage classes, and the numbers of a storage class, newest first, count
down from its counter to the first one.  Arguments have their first number from the
subroutine that was entered last.  Only `add` and `openScope` have to be shown to keep the
invariant, since every change is made of them.
-/

namespace JackLang.Scopes

/-! ## Numbers of a storage class -/

/-- The first number of a storage class, where that of arguments is `first`. -/
def firstIndex (first : Nat) : Storage → Nat
  | .argument => first
  | .static | .field | .local => 0

/-- The numbers of the variables of a storage class, newest first. -/
def indices (s : Scopes) (storage : Storage) : List Nat :=
  ((s.vars storage.ofClass).filter (·.2.storage = storage)).map (·.2.index)

theorem mem_indices {s : Scopes} {storage : Storage} {i : Nat} :
    i ∈ s.indices storage ↔ ∃ name, (name, ⟨storage, i⟩) ∈ s.vars storage.ofClass := by
  simp only [indices, List.mem_map, List.mem_filter, decide_eq_true_eq]
  constructor
  · rintro ⟨⟨name, symbol⟩, ⟨hmem, rfl⟩, rfl⟩
    exact ⟨name, hmem⟩
  · rintro ⟨name, hmem⟩
    exact ⟨(name, ⟨storage, i⟩), ⟨hmem, rfl⟩, rfl⟩

theorem indices_add_self (s : Scopes) (name : String) (symbol : Symbol) :
    (s.add name symbol).indices symbol.storage = symbol.index :: s.indices symbol.storage := by
  rw [indices, vars_add, List.filter_cons_of_pos (by simp), List.map_cons, indices]

theorem indices_add_of_ne (s : Scopes) (name : String) {symbol : Symbol} {storage : Storage}
    (h : storage ≠ symbol.storage) : (s.add name symbol).indices storage = s.indices storage := by
  by_cases hscope : storage.ofClass = symbol.storage.ofClass
  · have hother : ¬ symbol.storage = storage := h.symm
    rw [indices, indices, hscope, vars_add, List.filter_cons_of_neg (by simpa using hother)]
  · rw [indices, indices, vars_add_of_ne s name hscope]

/-! ## The invariant -/

/-- No scope repeats a name, each holds its own storage classes, and variables are numbered
in the order of their declaration up to the counter, arguments from `first` on. -/
structure Numbered (s : Scopes) (first : Nat) : Prop where
  distinct : ∀ ofClass, ((s.vars ofClass).map Prod.fst).Nodup
  inScope : ∀ ofClass, ∀ entry ∈ s.vars ofClass, entry.2.storage.ofClass = ofClass
  firstIndex_le : ∀ storage, firstIndex first storage ≤ s.counter storage
  indices_eq : ∀ storage,
    s.indices storage = (List.Ico (firstIndex first storage) (s.counter storage)).reverse

namespace Numbered

variable {s : Scopes} {first : Nat}

theorem add (h : s.Numbered first) {name : String} {storage : Storage}
    (hnew : name ∉ (s.vars storage.ofClass).map Prod.fst) :
    (s.add name ⟨storage, s.counter storage⟩).Numbered first := by
  refine ⟨?_, ?_, ?_, ?_⟩
  · intro ofClass
    by_cases hscope : ofClass = storage.ofClass
    · subst hscope
      rw [vars_add s name ⟨storage, _⟩, List.map_cons, List.nodup_cons]
      exact ⟨hnew, h.distinct _⟩
    · rw [vars_add_of_ne s name hscope]
      exact h.distinct ofClass
  · intro ofClass
    by_cases hscope : ofClass = storage.ofClass
    · subst hscope
      rw [vars_add s name ⟨storage, _⟩, List.forall_mem_cons]
      exact ⟨rfl, h.inScope _⟩
    · rw [vars_add_of_ne s name hscope]
      exact h.inScope ofClass
  · intro other
    rw [counter_add, bump]
    split
    · exact Nat.le_succ_of_le (h.firstIndex_le other)
    · exact h.firstIndex_le other
  · intro other
    rw [counter_add, bump]
    by_cases hstorage : other = storage
    · -- The new number stands before the others, and the counter passes it.
      subst hstorage
      rw [if_pos rfl, List.Ico.succ_top (h.firstIndex_le other), List.reverse_concat,
        ← h.indices_eq]
      exact indices_add_self s name ⟨other, s.counter other⟩
    · rw [if_neg hstorage, ← h.indices_eq]
      exact indices_add_of_ne s name hstorage

/-- A declaration keeps the invariant, also when it is refused. -/
theorem define (h : s.Numbered first) (name : String) (storage : Storage) :
    (s.define name storage).1.Numbered first := by
  by_cases hmem : name ∈ (s.vars storage.ofClass).map Prod.fst
  · rw [define_of_mem hmem]
    exact h
  · rw [define_of_not_mem hmem]
    exact h.add hmem

theorem defineAll (h : s.Numbered first) (decls : List (String × Storage)) :
    (s.defineAll decls).1.Numbered first :=
  defineAll_invariant (P := (·.Numbered first)) (fun _ decl _ hs => hs.define decl.1 decl.2) h

theorem ofClass {c : Class} {table : Scopes} (htable : Scopes.ofClass c = .ok table) :
    table.Numbered 0 := by
  have hempty : ({ className := c.name } : Scopes).Numbered 0 := by
    refine ⟨?_, ?_, ?_, ?_⟩
    · intro ofClass
      cases ofClass <;> exact List.nodup_nil
    · intro ofClass entry hentry
      cases ofClass <;> cases hentry
    · intro storage
      cases storage <;> exact Nat.le_refl 0
    · intro storage
      cases storage <;> rfl
  have hfilled := hempty.defineAll (classDecls c)
  rwa [ofClass_eq_ok_iff.1 htable] at hfilled

/-- An empty scope sets the first argument number anew. -/
theorem openScope (h : s.Numbered first) (r : Subroutine) :
    (s.openScope r).Numbered r.receivers := by
  refine ⟨?_, ?_, ?_, ?_⟩
  · intro ofClass
    cases ofClass with
    | true => exact h.distinct true
    | false => exact List.nodup_nil
  · intro ofClass
    cases ofClass with
    | true => exact h.inScope true
    | false => exact List.forall_mem_nil _
  · intro storage
    cases storage with
    | static | field | «local» => exact Nat.zero_le _
    | argument => exact Nat.le_refl _
  · intro storage
    -- The two storage classes of the class keep their variables, the others have none.
    cases storage with
    | static => exact h.indices_eq .static
    | field => exact h.indices_eq .field
    | argument => exact (congrArg List.reverse List.Ico.self_empty).symm
    | «local» => rfl

theorem enter (h : s.Numbered first) (r : Subroutine) :
    (s.enter r).1.Numbered r.receivers :=
  (h.openScope r).defineAll (declared r)

end Numbered

/-! ## Whole runs -/

/-- The subroutine that a request enters. -/
def Request.entered? : Request → Option Subroutine
  | .define _ _ => none
  | .enter r => some r

/-- The subroutine that is entered last, if one is. -/
def lastEntered (requests : List Request) : Option Subroutine :=
  (requests.filterMap Request.entered?).getLast?

/-- Requests keep the invariant.  Arguments start where the subroutine entered last has them
start, also when its names were refused. -/
theorem Numbered.handleAll {s : Scopes} {first : Nat} (h : s.Numbered first)
    (requests : List Request) :
    (s.handleAll requests).Numbered
      (((lastEntered requests).map Subroutine.receivers).getD first) := by
  induction requests generalizing s first with
  | nil => exact h
  | cons request rest ih =>
      cases request with
      | define name storage => exact ih (h.define name storage)
      | enter r =>
          have hlast : lastEntered (.enter r :: rest) = some ((lastEntered rest).getD r) :=
            List.getLast?_cons
          have hrun := ih (h.enter r)
          rw [hlast, Option.map_some, Option.getD_some]
          rwa [Option.getD_map] at hrun

section Kept

/-! What no declaration changes can change only where a subroutine is entered. -/

variable {α : Type} (f : Scopes → α) (hadd : ∀ s name symbol, f (s.add name symbol) = f s)

include hadd

theorem define_keeps (s : Scopes) (name : String) (storage : Storage) :
    f (s.define name storage).1 = f s := by
  by_cases hmem : name ∈ (s.vars storage.ofClass).map Prod.fst
  · rw [define_of_mem hmem]
  · rw [define_of_not_mem hmem, hadd]

theorem defineAll_keeps (s : Scopes) (decls : List (String × Storage)) :
    f (s.defineAll decls).1 = f s :=
  defineAll_invariant (P := (f · = f s))
    (fun t decl _ ht => (define_keeps f hadd t decl.1 decl.2).trans ht) rfl

theorem ofClass_keeps {c : Class} {table : Scopes} (h : ofClass c = .ok table) :
    f table = f { className := c.name } := by
  have hkept := defineAll_keeps f hadd { className := c.name } (classDecls c)
  rwa [ofClass_eq_ok_iff.1 h] at hkept

theorem enter_keeps (s : Scopes) (r : Subroutine) : f (s.enter r).1 = f (s.openScope r) :=
  defineAll_keeps f hadd (s.openScope r) (declared r)

end Kept

/-! ## Names and symbols -/

/-- A name has a symbol in one of the two scopes. -/
def Holds (s : Scopes) (name : String) (symbol : Symbol) : Prop :=
  s.classVars.lookup name = some symbol ∨ s.subroutineVars.lookup name = some symbol

/-- The variables of a storage class have the numbers from `first` up to `next`, each of
them once. -/
def HasExactly (s : Scopes) (storage : Storage) (first next : Nat) : Prop :=
  (∀ name i, s.Holds name ⟨storage, i⟩ → first ≤ i ∧ i < next) ∧
    ∀ i, first ≤ i → i < next → ∃! name, s.Holds name ⟨storage, i⟩

theorem holds_of_lookup {s : Scopes} {name : String} {symbol : Symbol}
    (h : s.lookup name = some symbol) : s.Holds name symbol := by
  rcases Option.or_eq_some_iff.1 h with hsub | ⟨-, hclass⟩
  · exact .inr hsub
  · exact .inl hclass

namespace Numbered

variable {s : Scopes} {first : Nat}

/-- A symbol is held in the scope of its storage class. -/
theorem holds_iff (h : s.Numbered first) {name : String} {symbol : Symbol} :
    s.Holds name symbol ↔ (name, symbol) ∈ s.vars symbol.storage.ofClass := by
  have hmem (ofClass : Bool) : (s.vars ofClass).lookup name = some symbol ↔
      (name, symbol) ∈ s.vars ofClass := lookup_eq_some_iff_mem (h.distinct ofClass)
  constructor
  · rintro (hclass | hsub)
    · have hentry := (hmem true).1 hclass
      rwa [h.inScope true _ hentry]
    · have hentry := (hmem false).1 hsub
      rwa [h.inScope false _ hentry]
  · intro hentry
    cases hscope : symbol.storage.ofClass with
    | true =>
        rw [hscope] at hentry
        exact .inl ((hmem true).2 hentry)
    | false =>
        rw [hscope] at hentry
        exact .inr ((hmem false).2 hentry)

theorem exists_holds_iff (h : s.Numbered first) {storage : Storage} {i : Nat} :
    (∃ name, s.Holds name ⟨storage, i⟩) ↔
      firstIndex first storage ≤ i ∧ i < s.counter storage := by
  simp only [h.holds_iff]
  rw [← mem_indices, h.indices_eq, List.mem_reverse, List.Ico.mem]

/-- No two names have the same symbol. -/
theorem eq_of_holds (h : s.Numbered first) {a b : String} {symbol : Symbol} (ha : s.Holds a symbol)
    (hb : s.Holds b symbol) : a = b := by
  have hnodup : (s.indices symbol.storage).Nodup := by
    rw [h.indices_eq, List.nodup_reverse]
    exact List.Ico.nodup _ _
  have hmem {name : String} (hname : s.Holds name symbol) : (name, symbol) ∈
      (s.vars symbol.storage.ofClass).filter (·.2.storage = symbol.storage) :=
    List.mem_filter.2 ⟨h.holds_iff.1 hname, by simp⟩
  exact congrArg Prod.fst (List.inj_on_of_nodup_map hnodup (hmem ha) (hmem hb) rfl)

theorem hasExactly (h : s.Numbered first) (storage : Storage) :
    s.HasExactly storage (firstIndex first storage) (s.counter storage) := by
  refine ⟨fun name i hname => h.exists_holds_iff.1 ⟨name, hname⟩, ?_⟩
  intro i hfirst hnext
  obtain ⟨name, hname⟩ := h.exists_holds_iff.2 ⟨hfirst, hnext⟩
  exact ⟨name, hname, fun other hother => h.eq_of_holds hother hname⟩

end Numbered

/-! ## What a declaration changes -/

/-- The subroutine has a variable of its own with the name of a class variable. -/
def Hides (s : Scopes) (name : String) (storage : Storage) : Prop :=
  storage.ofClass = true ∧ (s.subroutineVars.lookup name).isSome = true

theorem lookup_add_of_ne (s : Scopes) {name other : String} (symbol : Symbol)
    (h : other ≠ name) : (s.add name symbol).lookup other = s.lookup other := by
  have hskip (entries : List (String × Symbol)) :
      ((name, symbol) :: entries).lookup other = entries.lookup other := by
    rw [List.lookup_cons, beq_false_of_ne h]
  rw [add]
  split <;> simp only [lookup, hskip]

theorem lookup_eq_vars (s : Scopes) (name : String) :
    s.lookup name = ((s.vars false).lookup name).or ((s.vars true).lookup name) := rfl

theorem lookup_add_of_hides {s : Scopes} {name : String} {symbol : Symbol}
    (h : s.Hides name symbol.storage) : (s.add name symbol).lookup name = s.lookup name := by
  obtain ⟨hscope, hsome⟩ := h
  obtain ⟨found, hfound⟩ := Option.isSome_iff_exists.1 hsome
  have hsub : (s.vars false).lookup name = some found := hfound
  rw [lookup_eq_vars, lookup_eq_vars, vars_add_of_ne s name (by simp [hscope]), hsub,
    Option.some_or, Option.some_or]

theorem lookup_add_of_not_hides {s : Scopes} {name : String} {symbol : Symbol}
    (h : ¬ s.Hides name symbol.storage) : (s.add name symbol).lookup name = some symbol := by
  have hadded := vars_add s name symbol
  rw [lookup_eq_vars]
  cases hscope : symbol.storage.ofClass with
  | false =>
      rw [hscope] at hadded
      rw [hadded, List.lookup_cons_self, Option.some_or]
  | true =>
      have hnone : (s.vars false).lookup name = none := by
        rw [← Option.not_isSome_iff_eq_none]
        exact fun hsome => h ⟨hscope, hsome⟩
      rw [hscope] at hadded
      rw [vars_add_of_ne s name (by simp [hscope]), hnone, Option.none_or, hadded,
        List.lookup_cons_self]

/-- A name that is declared looks up to its new symbol unless it is hidden, and then to
what it did before. -/
theorem Numbered.lookup_define_iff {s s' : Scopes} {first : Nat} (h : s.Numbered first)
    {name : String} {storage : Storage} {symbol : Symbol}
    (hdefine : s.define name storage = (s', .ok symbol)) :
    s'.lookup name ≠ s.lookup name ↔ ¬ s.Hides name storage := by
  obtain ⟨hnew, rfl, rfl⟩ := define_eq_ok hdefine
  constructor
  · intro hchanged hhides
    exact hchanged (lookup_add_of_hides hhides)
  · intro hhides hsame
    rw [lookup_add_of_not_hides hhides] at hsame
    have hentry := h.holds_iff.1 (holds_of_lookup hsame.symm)
    exact hnew (List.mem_map_of_mem hentry)

/-! ## The table at any time -/

/-- What holds of a table at any time, where `first` is the number of the first argument:
the variables of each storage class have the numbers up to its counter. -/
structure Coherent (s : Scopes) (first : Nat) : Prop where
  statics : s.HasExactly .static 0 s.statics
  fields : s.HasExactly .field 0 s.fields
  locals : s.HasExactly .local 0 s.locals
  first_le : first ≤ s.arguments
  arguments : s.HasExactly .argument first s.arguments
  classScope : ∀ name symbol, s.classVars.lookup name = some symbol →
    symbol.storage = .static ∨ symbol.storage = .field
  subroutineScope : ∀ name symbol, s.subroutineVars.lookup name = some symbol →
    symbol.storage = .argument ∨ symbol.storage = .local
  injective : ∀ a b symbol, s.lookup a = some symbol → s.lookup b = some symbol → a = b

theorem Numbered.coherent {s : Scopes} {first : Nat} (h : s.Numbered first) :
    s.Coherent first where
  statics := h.hasExactly .static
  fields := h.hasExactly .field
  locals := h.hasExactly .local
  first_le := h.firstIndex_le .argument
  arguments := h.hasExactly .argument
  classScope := by
    intro name symbol hlookup
    have hscope := h.inScope true _ ((lookup_eq_some_iff_mem (h.distinct true)).1 hlookup)
    obtain ⟨storage, index⟩ := symbol
    cases storage with
    | static => exact .inl rfl
    | field => exact .inr rfl
    | argument => cases hscope
    | «local» => cases hscope
  subroutineScope := by
    intro name symbol hlookup
    have hscope := h.inScope false _ ((lookup_eq_some_iff_mem (h.distinct false)).1 hlookup)
    obtain ⟨storage, index⟩ := symbol
    cases storage with
    | static => cases hscope
    | field => cases hscope
    | argument => exact .inl rfl
    | «local» => exact .inr rfl
  injective a b symbol ha hb := h.eq_of_holds (holds_of_lookup ha) (holds_of_lookup hb)

/-- After any requests the table of a class is coherent.  The next declaration changes
nothing if it is refused, and otherwise at most what its own name looks up to. -/
theorem coherent_handleAll (c : Class) (table : Scopes) (htable : Scopes.ofClass c = .ok table)
    (requests : List Request) :
    let s := table.handleAll requests
    s.Coherent (if (lastEntered requests).any (·.kind = .method) then 1 else 0) ∧
      (∀ name storage e, (s.define name storage).2 = .error e → (s.define name storage).1 = s) ∧
      ∀ name storage symbol, (s.define name storage).2 = .ok symbol →
        (∀ other, other ≠ name → (s.define name storage).1.lookup other = s.lookup other) ∧
        ((s.define name storage).1.lookup name ≠ s.lookup name ↔ ¬ s.Hides name storage) ∧
        (¬ s.Hides name storage → (s.define name storage).1.lookup name = some symbol) := by
  intro s
  have hfirst : ((lastEntered requests).map Subroutine.receivers).getD 0
      = if (lastEntered requests).any (·.kind = .method) then 1 else 0 := by
    cases lastEntered requests with
    | none => rfl
    | some r => simp [Subroutine.receivers]
  have hnumbered := (Numbered.ofClass htable).handleAll requests
  rw [hfirst] at hnumbered
  refine ⟨hnumbered.coherent, ?_, ?_⟩
  · intro name storage e
    rcases hdefine : s.define name storage with ⟨s', answer⟩
    intro herror
    obtain rfl : answer = .error e := herror
    exact (define_eq_error hdefine).2.2
  · intro name storage symbol
    rcases hdefine : s.define name storage with ⟨s', answer⟩
    intro hok
    obtain rfl : answer = .ok symbol := hok
    refine ⟨?_, hnumbered.lookup_define_iff hdefine, ?_⟩
    · intro other hother
      obtain ⟨-, -, rfl⟩ := define_eq_ok hdefine
      exact lookup_add_of_ne s symbol hother
    · intro hhides
      obtain ⟨-, rfl, rfl⟩ := define_eq_ok hdefine
      exact lookup_add_of_not_hides hhides

/-- A method is refused at its second parameter.  Its first one is argument 1 and hides a
static variable that is declared later.  A field that is declared twice moves its counter
once. -/
theorem coherent_behind_refusal :
    let point : Class := ⟨"Point", [⟨.static, .int, ["made"]⟩, ⟨.field, .int, ["x", "y"]⟩], []⟩
    let move : Subroutine := ⟨.method, "move", none, [⟨.int, "by"⟩, ⟨.int, "by"⟩], [], []⟩
    ∃ table, ofClass point = .ok table ∧
      let s := table.handleAll [.define "z" .field, .enter move, .define "x" .local]
      s.Coherent 1 ∧ s.counter = (fun | .static => 1 | .field => 3 | .argument => 2 | .local => 1) ∧
        s.lookup "by" = some ⟨.argument, 1⟩ ∧ s.lookup "x" = some ⟨.local, 0⟩ ∧
        (s.define "by" .static).2 = .ok ⟨.static, 1⟩ ∧
        (s.define "by" .static).1.lookup "by" = some ⟨.argument, 1⟩ ∧
        (s.define "z" .field).2 = .error (.redeclared "z" (.ofClass "Point")) ∧
        (s.define "z" .field).1 = s := by
  intro point move
  obtain ⟨table, htable⟩ : ∃ table, ofClass point = .ok table := ⟨_, rfl⟩
  obtain ⟨hcoherent, hrefused, hdefined⟩ := coherent_handleAll point table htable
    [.define "z" .field, .enter move, .define "x" .local]
  refine ⟨table, htable, hcoherent, ?_⟩
  cases htable
  obtain ⟨-, hchanged, -⟩ := hdefined "by" .static ⟨.static, 1⟩ rfl
  refine ⟨?_, rfl, rfl, rfl, ?_, rfl, hrefused "z" .field _ rfl⟩
  · funext storage
    cases storage <;> rfl
  · exact not_ne_iff.1 fun hne => hchanged.1 hne ⟨rfl, rfl⟩

end JackLang.Scopes
