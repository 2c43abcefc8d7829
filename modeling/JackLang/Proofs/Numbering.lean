import JackLang.Symbol.Scopes
import Mathlib.Data.List.Nodup

/-!
# How variables are numbered

`Scopes.number` numbers a list of declarations: every storage class counts on its own,
in declaration order.  A variable's number is thus its position among the names of its
storage class (`Scopes.mem_number`).

Declaring a list of names succeeds exactly when no name repeats, and it adds exactly the
numbered declarations (`Scopes.defineAll_eq_ok`, `Scopes.defineAll_of_nodup`).  The two
uses of that are the table of a class (`Scopes.ofClass_eq_ok`) and the entry of a
subroutine (`Scopes.enter_eq_ok`).  The last section says what a name looks up to after
both.
-/

namespace JackLang

/-- The names of the class variables of a kind in order. -/
def Class.namesOf (c : Class) (kind : ClassVar.Kind) : List String :=
  (c.variables.filter (·.2 = kind)).map (·.1)

/-- The names of the fields in order. -/
def Class.fieldNames (c : Class) : List String := c.namesOf .field

namespace Scopes

/-! ## Numbered declarations -/

/-- The counters after one more variable of a storage class. -/
def bump (next : Storage → Nat) (storage : Storage) : Storage → Nat :=
  fun other => if other = storage then next other + 1 else next other

/-- Declarations with their symbols, where `next` has the first number of each storage
class. -/
def number (next : Storage → Nat) : List (String × Storage) → List (String × Symbol)
  | [] => []
  | (name, storage) :: rest =>
      (name, ⟨storage, next storage⟩) :: number (bump next storage) rest

/-- The declared names of a storage class in order. -/
def namesOf (storage : Storage) (decls : List (String × Storage)) : List String :=
  (decls.filter (·.2 = storage)).map (·.1)

@[simp] theorem map_fst_number (next : Storage → Nat) (decls : List (String × Storage)) :
    (number next decls).map Prod.fst = decls.map Prod.fst := by
  induction decls generalizing next with
  | nil => rfl
  | cons decl rest ih =>
      obtain ⟨name, storage⟩ := decl
      rw [number, List.map_cons, List.map_cons, ih]

theorem mem_namesOf {storage : Storage} {decls : List (String × Storage)} {name : String} :
    name ∈ namesOf storage decls ↔ (name, storage) ∈ decls := by
  simp [namesOf]

theorem namesOf_cons_self (name : String) (storage : Storage) (rest : List (String × Storage)) :
    namesOf storage ((name, storage) :: rest) = name :: namesOf storage rest := by
  simp [namesOf]

theorem namesOf_cons_of_ne (name : String) {storage of : Storage} (h : of ≠ storage)
    (rest : List (String × Storage)) :
    namesOf of ((name, storage) :: rest) = namesOf of rest := by
  simp [namesOf, h.symm]

/-- The number of a variable is its position among the names of its storage class. -/
theorem mem_number {next : Storage → Nat} {decls : List (String × Storage)}
    (hnodup : (decls.map Prod.fst).Nodup) {name : String} {symbol : Symbol} :
    (name, symbol) ∈ number next decls ↔
      (name, symbol.storage) ∈ decls ∧
        symbol.index = next symbol.storage + (namesOf symbol.storage decls).idxOf name := by
  induction decls generalizing next with
  | nil => simp [number]
  | cons decl rest ih =>
      obtain ⟨first, storage⟩ := decl
      obtain ⟨of, index⟩ := symbol
      rw [List.map_cons, List.nodup_cons] at hnodup
      rw [number, List.mem_cons, List.mem_cons, ih hnodup.2]
      by_cases hname : name = first
      · -- No later declaration has the same name, so the number is the first one.
        subst hname
        have hrest (s : Storage) : (name, s) ∉ rest := fun h =>
          hnodup.1 (List.mem_map.2 ⟨_, h, rfl⟩)
        simp only [hrest, false_and, or_false, Prod.mk.injEq, true_and, Symbol.mk.injEq]
        constructor
        · rintro ⟨rfl, rfl⟩
          simp [namesOf]
        · rintro ⟨rfl, h⟩
          exact ⟨rfl, by simpa [namesOf] using h⟩
      · simp only [Prod.mk.injEq, hname, false_and, false_or]
        refine and_congr_right fun _ => ?_
        by_cases hstorage : of = storage
        · subst hstorage
          have hne : (first == name) = false := beq_false_of_ne (Ne.symm hname)
          rw [namesOf_cons_self, List.idxOf_cons, hne, bump, if_pos rfl]
          simp only [cond_false]
          omega
        · rw [namesOf_cons_of_ne first hstorage, bump, if_neg hstorage]

/-! ## Tables without repeated names -/

/-- In a table without repeated names a name looks up to its only entry. -/
theorem lookup_eq_some_iff_mem {entries : List (String × Symbol)}
    (hnodup : (entries.map Prod.fst).Nodup) {name : String} {symbol : Symbol} :
    entries.lookup name = some symbol ↔ (name, symbol) ∈ entries := by
  induction entries with
  | nil => simp
  | cons entry rest ih =>
      obtain ⟨first, of⟩ := entry
      rw [List.map_cons, List.nodup_cons] at hnodup
      rw [List.lookup_cons, List.mem_cons]
      by_cases hname : name = first
      · subst hname
        have hrest : (name, symbol) ∉ rest := fun h => hnodup.1 (List.mem_map.2 ⟨_, h, rfl⟩)
        simp [hrest, eq_comm]
      · simp [beq_false_of_ne hname, hname, ih hnodup.2]

/-- The newest entry need not be the first one when no name repeats. -/
theorem lookup_reverse {entries : List (String × Symbol)}
    (hnodup : (entries.map Prod.fst).Nodup) (name : String) :
    entries.reverse.lookup name = entries.lookup name := by
  have hreverse : (entries.reverse.map Prod.fst).Nodup := by
    rw [List.map_reverse]
    exact List.nodup_reverse.2 hnodup
  apply Option.ext
  intro symbol
  rw [lookup_eq_some_iff_mem hreverse, lookup_eq_some_iff_mem hnodup, List.mem_reverse]

/-! ## Declaring names -/

/-- The scopes with more variables, the last one added last. -/
def addAll (s : Scopes) (entries : List (String × Symbol)) : Scopes :=
  entries.foldl (fun s entry => s.add entry.1 entry.2) s

theorem addAll_cons (s : Scopes) (name : String) (symbol : Symbol)
    (entries : List (String × Symbol)) :
    s.addAll ((name, symbol) :: entries) = (s.add name symbol).addAll entries := rfl

theorem vars_add (s : Scopes) (name : String) (symbol : Symbol) :
    (s.add name symbol).vars symbol.storage.ofClass
      = (name, symbol) :: s.vars symbol.storage.ofClass := by
  obtain ⟨storage, index⟩ := symbol
  cases storage <;> rfl

/-- A new variable leaves the other scope as it is. -/
theorem vars_add_of_ne (s : Scopes) (name : String) {symbol : Symbol} {ofClass : Bool}
    (h : ofClass ≠ symbol.storage.ofClass) : (s.add name symbol).vars ofClass = s.vars ofClass := by
  obtain rfl : ofClass = !symbol.storage.ofClass := Bool.eq_not.2 h
  obtain ⟨storage, index⟩ := symbol
  cases storage <;> rfl

/-- A new variable moves the counter of its storage class on, and no other. -/
theorem counter_add (s : Scopes) (name : String) (symbol : Symbol) :
    (s.add name symbol).counter = bump s.counter symbol.storage := by
  obtain ⟨storage, index⟩ := symbol
  funext other
  cases storage <;> cases other <;> rfl

/-- A name that is there already is refused, and the scopes stay. -/
theorem define_of_mem {s : Scopes} {name : String} {storage : Storage}
    (h : name ∈ (s.vars storage.ofClass).map Prod.fst) :
    s.define name storage = (s, .error (.redeclared name (s.scopeName storage))) := by
  rw [define, if_pos]
  obtain ⟨entry, hentry, rfl⟩ := List.mem_map.1 h
  exact List.lookup_isSome_iff.2 ⟨entry, hentry, beq_self_eq_true _⟩

/-- A name that is not there yet is added with the number that its counter gives. -/
theorem define_of_not_mem {s : Scopes} {name : String} {storage : Storage}
    (h : name ∉ (s.vars storage.ofClass).map Prod.fst) :
    s.define name storage
      = (s.add name ⟨storage, s.counter storage⟩, .ok ⟨storage, s.counter storage⟩) := by
  rw [define, if_neg]
  intro hfound
  obtain ⟨entry, hentry, hname⟩ := List.lookup_isSome_iff.1 hfound
  exact h (List.mem_map.2 ⟨entry, hentry, (beq_iff_eq.1 hname).symm⟩)

/-- A declaration that is not refused adds a new name. -/
theorem define_eq_ok {s s' : Scopes} {name : String} {storage : Storage} {symbol : Symbol}
    (h : s.define name storage = (s', .ok symbol)) :
    name ∉ (s.vars storage.ofClass).map Prod.fst ∧ symbol = ⟨storage, s.counter storage⟩ ∧
      s' = s.add name symbol := by
  by_cases hmem : name ∈ (s.vars storage.ofClass).map Prod.fst
  · rw [define_of_mem hmem] at h
    cases h
  · rw [define_of_not_mem hmem] at h
    cases h
    exact ⟨hmem, rfl, rfl⟩

/-- A declaration that is refused leaves the scopes as they are. -/
theorem define_eq_error {s s' : Scopes} {name : String} {storage : Storage} {e : CompileError}
    (h : s.define name storage = (s', .error e)) :
    name ∈ (s.vars storage.ofClass).map Prod.fst ∧ e = .redeclared name (s.scopeName storage) ∧
      s' = s := by
  by_cases hmem : name ∈ (s.vars storage.ofClass).map Prod.fst
  · rw [define_of_mem hmem] at h
    cases h
    exact ⟨hmem, rfl, rfl⟩
  · rw [define_of_not_mem hmem] at h
    cases h

/-- What every declaration keeps, several of them keep, also when one is refused. -/
theorem defineAll_invariant {P : Scopes → Prop} {decls : List (String × Storage)}
    (hdefine : ∀ s, ∀ decl ∈ decls, P s → P (s.define decl.1 decl.2).1) {s : Scopes} (h : P s) :
    P (s.defineAll decls).1 := by
  induction decls generalizing s with
  | nil => exact h
  | cons decl rest ih =>
      obtain ⟨name, storage⟩ := decl
      have hfirst : P (s.define name storage).1 := hdefine s _ List.mem_cons_self h
      have hrest := fun s decl hdecl => hdefine s decl (List.mem_cons_of_mem _ hdecl)
      rw [defineAll]
      split
      · next s' symbol hdefined =>
          rw [hdefined] at hfirst
          exact ih hrest hfirst
      · next s' e hdefined =>
          rw [hdefined] at hfirst
          exact hfirst

/-- Declarations in one scope that are not refused have names that are new and differ, and
they add their numbered symbols. -/
theorem defineAll_eq_ok {ofClass : Bool} {s s' : Scopes} {decls : List (String × Storage)}
    (hscope : ∀ decl ∈ decls, decl.2.ofClass = ofClass)
    (h : s.defineAll decls = (s', .ok ())) :
    (decls.map Prod.fst).Nodup ∧
      (∀ name ∈ decls.map Prod.fst, name ∉ (s.vars ofClass).map Prod.fst) ∧
      s' = s.addAll (number s.counter decls) := by
  induction decls generalizing s with
  | nil =>
      cases h
      exact ⟨List.nodup_nil, by simp, rfl⟩
  | cons decl rest ih =>
      obtain ⟨name, storage⟩ := decl
      obtain rfl : storage.ofClass = ofClass := hscope (name, storage) List.mem_cons_self
      rw [defineAll] at h
      split at h
      · next s₁ symbol hdefine =>
          obtain ⟨hnew, rfl, rfl⟩ := define_eq_ok hdefine
          obtain ⟨hnodup, hfresh, rfl⟩ :=
            ih (fun decl hdecl => hscope decl (List.mem_cons_of_mem _ hdecl)) h
          rw [vars_add s name ⟨storage, s.counter storage⟩] at hfresh
          refine ⟨?_, ?_, ?_⟩
          · rw [List.map_cons, List.nodup_cons]
            exact ⟨fun hmem => hfresh name hmem List.mem_cons_self, hnodup⟩
          · intro other hother
            rw [List.map_cons, List.mem_cons] at hother
            rcases hother with rfl | hother
            · exact hnew
            · exact fun hmem => hfresh other hother (List.mem_cons_of_mem _ hmem)
          · rw [number, addAll_cons, counter_add]
      · cases h

/-- Declarations in one scope whose names are new and differ are not refused. -/
theorem defineAll_of_nodup {ofClass : Bool} {s : Scopes} {decls : List (String × Storage)}
    (hscope : ∀ decl ∈ decls, decl.2.ofClass = ofClass)
    (hnodup : (decls.map Prod.fst).Nodup)
    (hnew : ∀ name ∈ decls.map Prod.fst, name ∉ (s.vars ofClass).map Prod.fst) :
    (s.defineAll decls).2 = .ok () := by
  induction decls generalizing s with
  | nil => rfl
  | cons decl rest ih =>
      obtain ⟨name, storage⟩ := decl
      obtain rfl : storage.ofClass = ofClass := hscope (name, storage) List.mem_cons_self
      rw [List.map_cons, List.nodup_cons] at hnodup
      rw [List.map_cons, List.forall_mem_cons] at hnew
      rw [defineAll, define_of_not_mem hnew.1]
      refine ih (fun decl hdecl => hscope decl (List.mem_cons_of_mem _ hdecl)) hnodup.2 ?_
      intro other hother
      rw [vars_add s name ⟨storage, s.counter storage⟩, List.map_cons, List.mem_cons, not_or]
      exact ⟨ne_of_mem_of_not_mem hother hnodup.1, hnew.2 other hother⟩

/-- The declared names of a storage class are counted. -/
theorem counter_addAll_number (s : Scopes) (decls : List (String × Storage))
    (storage : Storage) :
    (s.addAll (number s.counter decls)).counter storage
      = s.counter storage + (namesOf storage decls).length := by
  induction decls generalizing s with
  | nil => rfl
  | cons decl rest ih =>
      obtain ⟨name, of⟩ := decl
      rw [number, addAll_cons, ← counter_add s name ⟨of, s.counter of⟩, ih, counter_add, bump]
      by_cases hstorage : storage = of
      · subst hstorage
        rw [if_pos rfl, namesOf_cons_self, List.length_cons]
        omega
      · rw [if_neg hstorage, namesOf_cons_of_ne name hstorage]

/-- Numbering keeps storage classes. -/
theorem storage_of_mem_number {next : Storage → Nat} {decls : List (String × Storage)}
    {entry : String × Symbol} (h : entry ∈ number next decls) :
    (entry.1, entry.2.storage) ∈ decls := by
  induction decls generalizing next with
  | nil => cases h
  | cons decl rest ih =>
      obtain ⟨name, storage⟩ := decl
      rw [number, List.mem_cons] at h
      rcases h with rfl | h
      · exact List.mem_cons_self
      · exact List.mem_cons_of_mem _ (ih h)

/-- Variables of one scope are added there, and the other scope stays. -/
theorem vars_addAll {ofClass : Bool} {entries : List (String × Symbol)} (s : Scopes)
    (h : ∀ entry ∈ entries, entry.2.storage.ofClass = ofClass) :
    (s.addAll entries).vars ofClass = entries.reverse ++ s.vars ofClass ∧
      (s.addAll entries).vars (!ofClass) = s.vars (!ofClass) := by
  induction entries generalizing s with
  | nil => exact ⟨rfl, rfl⟩
  | cons entry rest ih =>
      obtain ⟨name, symbol⟩ := entry
      obtain rfl : symbol.storage.ofClass = ofClass := h (name, symbol) List.mem_cons_self
      obtain ⟨hadded, hstays⟩ :=
        ih (s.add name symbol) fun e he => h e (List.mem_cons_of_mem _ he)
      rw [addAll_cons, hadded, hstays, vars_add, vars_add_of_ne s name (by simp)]
      exact ⟨by simp, rfl⟩

/-! ## The table of a class -/

theorem ofClass_of_mem_classDecls {c : Class} {decl : String × Storage}
    (h : decl ∈ classDecls c) : decl.2.ofClass = true := by
  obtain ⟨⟨name, kind⟩, -, rfl⟩ := List.mem_map.1 h
  cases kind <;> rfl

theorem namesOf_classDecls (c : Class) (kind : ClassVar.Kind) :
    namesOf (.ofClassVar kind) (classDecls c) = c.namesOf kind := by
  have hstorage (other : ClassVar.Kind) :
      Storage.ofClassVar other = .ofClassVar kind ↔ other = kind := by
    cases other <;> cases kind <;> simp [Storage.ofClassVar]
  simp [namesOf, classDecls, Class.namesOf, List.filter_map, Function.comp_def, hstorage]

/-- The table of a class is an empty one in which all its variables have been declared. -/
theorem ofClass_eq_ok_iff {c : Class} {table : Scopes} :
    ofClass c = .ok table ↔
      ({ className := c.name } : Scopes).defineAll (classDecls c) = (table, .ok ()) := by
  rw [ofClass]
  rcases ({ className := c.name } : Scopes).defineAll (classDecls c) with ⟨s, answer⟩
  cases answer with
  | ok u => simp
  | error e => simp

/-- The table of a class holds the numbered class variables, whose names differ. -/
theorem ofClass_eq_ok {c : Class} {table : Scopes} (h : ofClass c = .ok table) :
    ((classDecls c).map Prod.fst).Nodup ∧
      table.classVars = (number (fun _ => 0) (classDecls c)).reverse := by
  obtain ⟨hnodup, -, rfl⟩ :=
    defineAll_eq_ok (fun _ => ofClass_of_mem_classDecls) (ofClass_eq_ok_iff.1 h)
  refine ⟨hnodup, ?_⟩
  have hcounter : ({ className := c.name } : Scopes).counter = fun _ => 0 := by
    funext storage
    cases storage <;> rfl
  have hscope : ∀ entry ∈ number (fun _ => 0) (classDecls c), entry.2.storage.ofClass = true :=
    fun _ he => ofClass_of_mem_classDecls (storage_of_mem_number he)
  rw [hcounter]
  exact (vars_addAll { className := c.name } hscope).1.trans (List.append_nil _)

theorem map_fst_classDecls (c : Class) :
    (classDecls c).map Prod.fst = c.variables.map Prod.fst := by
  simp [classDecls]

/-- A class has a table exactly when the names of its variables differ. -/
theorem exists_ofClass_iff {c : Class} :
    (∃ table, ofClass c = .ok table) ↔ (c.variables.map Prod.fst).Nodup := by
  rw [← map_fst_classDecls]
  constructor
  · rintro ⟨table, htable⟩
    exact (ofClass_eq_ok htable).1
  · intro hnodup
    have hok : (({ className := c.name } : Scopes).defineAll (classDecls c)).2 = .ok () :=
      defineAll_of_nodup (fun _ => ofClass_of_mem_classDecls) hnodup fun _ _ hmem => by cases hmem
    exact ⟨_, ofClass_eq_ok_iff.2 (Prod.ext rfl hok)⟩

/-- The table of a class counts its fields. -/
theorem fieldCount_ofClass {c : Class} {table : Scopes} (h : ofClass c = .ok table) :
    table.fieldCount = c.fieldNames.length := by
  obtain ⟨-, -, rfl⟩ :=
    defineAll_eq_ok (fun _ => ofClass_of_mem_classDecls) (ofClass_eq_ok_iff.1 h)
  have hcount := counter_addAll_number { className := c.name } (classDecls c) .field
  have hnames : namesOf .field (classDecls c) = c.fieldNames := namesOf_classDecls c .field
  rw [hnames] at hcount
  exact hcount.trans (Nat.zero_add _)

/-- A class variable is numbered among those of its kind. -/
theorem lookup_classVars {c : Class} {table : Scopes} (h : ofClass c = .ok table)
    {name : String} {symbol : Symbol} :
    table.classVars.lookup name = some symbol ↔
      ∃ kind, name ∈ c.namesOf kind ∧
        symbol = ⟨.ofClassVar kind, (c.namesOf kind).idxOf name⟩ := by
  obtain ⟨hnodup, hvars⟩ := ofClass_eq_ok h
  have hnumbered : ((number (fun _ => 0) (classDecls c)).map Prod.fst).Nodup := by
    rw [map_fst_number]
    exact hnodup
  rw [hvars, lookup_reverse hnumbered, lookup_eq_some_iff_mem hnumbered, mem_number hnodup,
    Nat.zero_add]
  constructor
  · rintro ⟨hmem, hindex⟩
    obtain ⟨⟨_, kind⟩, -, hdecl⟩ := List.mem_map.1 hmem
    have hstorage : Storage.ofClassVar kind = symbol.storage := (Prod.mk.inj hdecl).2
    rw [← hstorage] at hmem hindex
    rw [namesOf_classDecls] at hindex
    refine ⟨kind, ?_, ?_⟩
    · rw [← namesOf_classDecls]
      exact mem_namesOf.2 hmem
    · rw [hstorage, ← hindex]
  · rintro ⟨kind, hname, rfl⟩
    rw [← namesOf_classDecls] at hname ⊢
    exact ⟨mem_namesOf.1 hname, rfl⟩

/-! ## The scope of a subroutine -/

theorem ofClass_of_mem_declared {r : Subroutine} {decl : String × Storage}
    (h : decl ∈ declared r) : decl.2.ofClass = false := by
  rcases List.mem_append.1 h with h | h
  all_goals
    obtain ⟨name, -, rfl⟩ := List.mem_map.1 h
    rfl

theorem map_fst_declared (r : Subroutine) :
    (declared r).map Prod.fst = r.paramNames ++ r.localNames := by
  simp [declared, Function.comp_def]

theorem namesOf_argument_declared (r : Subroutine) :
    namesOf .argument (declared r) = r.paramNames := by
  simp [namesOf, declared, List.filter_map, Function.comp_def]

theorem namesOf_local_declared (r : Subroutine) :
    namesOf .local (declared r) = r.localNames := by
  simp [namesOf, declared, List.filter_map, Function.comp_def]

/-- The scope of a subroutine that has been entered holds its numbered parameters and
local variables, whose names differ, and the class scope stays. -/
theorem enter_eq_ok {s s' : Scopes} {r : Subroutine} (h : s.enter r = (s', .ok ())) :
    (r.paramNames ++ r.localNames).Nodup ∧ s'.classVars = s.classVars ∧
      s'.subroutineVars = (number (s.openScope r).counter (declared r)).reverse := by
  rw [enter] at h
  obtain ⟨hnodup, -, rfl⟩ := defineAll_eq_ok (fun _ => ofClass_of_mem_declared) h
  rw [map_fst_declared] at hnodup
  have hscope : ∀ entry ∈ number (s.openScope r).counter (declared r),
      entry.2.storage.ofClass = false :=
    fun _ he => ofClass_of_mem_declared (storage_of_mem_number he)
  obtain ⟨hvars, hstays⟩ := vars_addAll (s.openScope r) hscope
  exact ⟨hnodup, hstays, hvars.trans (List.append_nil _)⟩

/-- A subroutine is entered exactly when its parameters and local variables have different
names. -/
theorem enter_eq_ok_iff {s : Scopes} {r : Subroutine} :
    (s.enter r).2 = .ok () ↔ (r.paramNames ++ r.localNames).Nodup := by
  constructor
  · intro h
    exact (enter_eq_ok (Prod.ext rfl h)).1
  · intro hnodup
    rw [← map_fst_declared] at hnodup
    exact defineAll_of_nodup (fun _ => ofClass_of_mem_declared) hnodup fun _ _ hmem => by cases hmem

/-- A subroutine that has been entered has as many local variables as it declares. -/
theorem localCount_of_enter {s s' : Scopes} {r : Subroutine} (h : s.enter r = (s', .ok ())) :
    s'.localCount = r.localCount := by
  rw [enter] at h
  obtain ⟨-, -, rfl⟩ := defineAll_eq_ok (fun _ => ofClass_of_mem_declared) h
  have hcount := counter_addAll_number (s.openScope r) (declared r) .local
  rw [namesOf_local_declared] at hcount
  exact hcount.trans (Nat.zero_add _)

/-- A parameter is numbered behind the receiver, a local variable among its own. -/
theorem lookup_subroutineVars {s s' : Scopes} {r : Subroutine} (h : s.enter r = (s', .ok ()))
    {name : String} {symbol : Symbol} :
    s'.subroutineVars.lookup name = some symbol ↔
      (name ∈ r.paramNames ∧ symbol = ⟨.argument, r.receivers + r.paramNames.idxOf name⟩) ∨
      (name ∈ r.localNames ∧ symbol = ⟨.local, r.localNames.idxOf name⟩) := by
  obtain ⟨hnodup, -, hvars⟩ := enter_eq_ok h
  rw [← map_fst_declared] at hnodup
  have hnumbered :
      ((number (s.openScope r).counter (declared r)).map Prod.fst).Nodup := by
    rw [map_fst_number]
    exact hnodup
  rw [hvars, lookup_reverse hnumbered, lookup_eq_some_iff_mem hnumbered, mem_number hnodup]
  obtain ⟨storage, index⟩ := symbol
  cases storage with
  | static | field =>
      simp only [Symbol.mk.injEq, reduceCtorEq, false_and, and_false, or_false, iff_false]
      rintro ⟨hmem, -⟩
      cases ofClass_of_mem_declared hmem
  | argument =>
      rw [← mem_namesOf, namesOf_argument_declared]
      simp [counter, openScope]
  | «local» =>
      rw [← mem_namesOf, namesOf_local_declared]
      simp [counter, openScope]

/-- A name that the subroutine does not declare is looked up in the class. -/
theorem lookup_of_not_declared {s s' : Scopes} {r : Subroutine}
    (h : s.enter r = (s', .ok ())) {name : String} (hparam : name ∉ r.paramNames)
    (hlocal : name ∉ r.localNames) : s'.lookup name = s.classVars.lookup name := by
  obtain ⟨-, hclass, -⟩ := enter_eq_ok h
  have hnone : s'.subroutineVars.lookup name = none := by
    rw [Option.eq_none_iff_forall_ne_some]
    intro symbol hsymbol
    rcases (lookup_subroutineVars h).1 hsymbol with ⟨hmem, -⟩ | ⟨hmem, -⟩
    · exact hparam hmem
    · exact hlocal hmem
  rw [lookup, hnone, Option.none_or, hclass]

/-- What a name looks up to in a subroutine of a class. -/
theorem lookup_eq_some_iff {c : Class} {table s' : Scopes} {r : Subroutine}
    (htable : ofClass c = .ok table) (henter : table.enter r = (s', .ok ()))
    {name : String} {symbol : Symbol} :
    s'.lookup name = some symbol ↔
      (name ∈ r.paramNames ∧ symbol = ⟨.argument, r.receivers + r.paramNames.idxOf name⟩) ∨
      (name ∈ r.localNames ∧ symbol = ⟨.local, r.localNames.idxOf name⟩) ∨
      (name ∉ r.paramNames ∧ name ∉ r.localNames ∧ ∃ kind, name ∈ c.namesOf kind ∧
        symbol = ⟨.ofClassVar kind, (c.namesOf kind).idxOf name⟩) := by
  by_cases hdeclared : name ∈ r.paramNames ∨ name ∈ r.localNames
  · have hsub : ∃ found, s'.subroutineVars.lookup name = some found := by
      rcases hdeclared with hparam | hlocal
      · exact ⟨_, (lookup_subroutineVars henter).2 (.inl ⟨hparam, rfl⟩)⟩
      · exact ⟨_, (lookup_subroutineVars henter).2 (.inr ⟨hlocal, rfl⟩)⟩
    obtain ⟨found, hfound⟩ := hsub
    have hlookup : s'.lookup name = s'.subroutineVars.lookup name := by
      rw [lookup, hfound, Option.some_or]
    rw [hlookup, lookup_subroutineVars henter]
    constructor
    · rintro (h | h)
      · exact .inl h
      · exact .inr (.inl h)
    · rintro (h | h | ⟨hparam, hlocal, -⟩)
      · exact .inl h
      · exact .inr h
      · exact absurd hdeclared (not_or.2 ⟨hparam, hlocal⟩)
  · obtain ⟨hparam, hlocal⟩ := not_or.1 hdeclared
    rw [lookup_of_not_declared henter hparam hlocal, lookup_classVars htable]
    simp [hparam, hlocal]

end Scopes

end JackLang
