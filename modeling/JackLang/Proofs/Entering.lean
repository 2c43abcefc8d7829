import JackLang.Proofs.Blocks
import JackLang.Proofs.Indices
import Mathlib.Data.List.Induction

/-!
# What entering a subroutine does

Entering declares the parameters and then the local variables, one name after another.  If
no name repeats, all of them are numbered and the table resolves them, and nothing else but
the class (`Scopes.Resolves`).  If one does, the first that repeats is refused, and the table
is left in the middle.

The table in the middle need not be described anew.  It is the table that the subroutine
would leave if it declared nothing from the refused name on (`Subroutine.cut`,
`Scopes.enter_of_repeat`), and such a subroutine is entered without a refusal.
-/

namespace JackLang

/-- In a list that repeats something there is a first element that repeats an earlier one. -/
theorem exists_first_repeat {names : List String} (h : ¬ names.Nodup) :
    ∃ kept name rest, names = kept ++ name :: rest ∧ kept.Nodup ∧ name ∈ kept := by
  induction names using List.reverseRecOn with
  | nil => exact absurd List.nodup_nil h
  | append_singleton names last ih =>
      by_cases hnames : names.Nodup
      · have hlast : last ∈ names := by
          by_contra hnew
          exact h (List.nodup_append.2 ⟨hnames, List.nodup_singleton last, by
            rintro a ha b hb rfl
            exact hnew (List.mem_singleton.1 hb ▸ ha)⟩)
        exact ⟨names, last, [], rfl, hnames, hlast⟩
      · obtain ⟨kept, name, rest, rfl, hkept, hname⟩ := ih hnames
        exact ⟨kept, name, rest ++ [last], by simp, hkept, hname⟩

/-! ## Subroutines with fewer names -/

namespace Subroutine

/-- The subroutine with the first names of its parameters and local variables only.  The
types of the variables do not matter. -/
def cut (r : Subroutine) (n : Nat) : Subroutine :=
  { r with
    params := r.params.take n
    locals := [⟨.int, r.localNames.take (n - r.paramNames.length)⟩] }

theorem paramNames_cut (r : Subroutine) (n : Nat) :
    (r.cut n).paramNames = r.paramNames.take n :=
  List.map_take ..

theorem localNames_cut (r : Subroutine) (n : Nat) :
    (r.cut n).localNames = r.localNames.take (n - r.paramNames.length) :=
  List.append_nil _

end Subroutine

namespace Scopes

variable {s : Scopes} {r : Subroutine}

theorem declared_cut (r : Subroutine) (n : Nat) : declared (r.cut n) = (declared r).take n := by
  rw [declared, Subroutine.paramNames_cut, Subroutine.localNames_cut, declared, List.take_append,
    List.map_take, List.map_take, List.length_map]

/-- To enter a cut subroutine is to declare the first names of the whole one. -/
theorem enter_cut (s : Scopes) (r : Subroutine) (n : Nat) :
    s.enter (r.cut n) = (s.openScope r).defineAll ((declared r).take n) := by
  rw [enter, declared_cut]
  rfl

/-! ## Refused names -/

/-- Declarations behind others that were not refused. -/
theorem defineAll_append {s' : Scopes} {decls rest : List (String × Storage)}
    (h : s.defineAll decls = (s', .ok ())) : s.defineAll (decls ++ rest) = s'.defineAll rest := by
  induction decls generalizing s with
  | nil =>
      cases h
      rfl
  | cons decl decls ih =>
      obtain ⟨name, storage⟩ := decl
      rw [defineAll] at h
      rw [List.cons_append, defineAll]
      split at h
      · exact ih h
      · cases h

theorem scopeName_add (s : Scopes) (storage : Storage) (name : String) (symbol : Symbol) :
    (s.add name symbol).scopeName storage = s.scopeName storage := by
  rw [add]
  split <;> rfl

/-- Declarations in an empty scope are refused at the first name that repeats an earlier one,
and leave what the declarations before it leave. -/
theorem defineAll_of_repeat {ofClass : Bool} {decls : List (String × Storage)}
    {kept rest : List String} {name : String}
    (hscope : ∀ decl ∈ decls, decl.2.ofClass = ofClass) (hempty : s.vars ofClass = [])
    (hnames : decls.map Prod.fst = kept ++ name :: rest) (hkept : kept.Nodup)
    (hname : name ∈ kept) :
    ∃ s' storage, storage.ofClass = ofClass ∧
      s.defineAll (decls.take kept.length) = (s', .ok ()) ∧
      s.defineAll decls = (s', .error (.redeclared name (s.scopeName storage))) := by
  obtain ⟨before, behind, rfl, rfl, hbehind⟩ := List.map_eq_append_iff.1 hnames
  obtain ⟨⟨name, storage⟩, later, rfl, rfl, -⟩ := List.map_eq_cons_iff.1 hbehind
  rw [List.forall_mem_append, List.forall_mem_cons] at hscope
  obtain ⟨hbefore, rfl, -⟩ := hscope
  obtain ⟨s', hdefined⟩ : ∃ s', s.defineAll before = (s', .ok ()) := by
    refine ⟨_, Prod.ext rfl (defineAll_of_nodup hbefore hkept ?_)⟩
    rw [hempty]
    exact fun _ _ => List.not_mem_nil
  have hscopeName : s'.scopeName storage = s.scopeName storage := by
    have h := defineAll_keeps (scopeName · storage) (fun s => s.scopeName_add storage) s before
    rwa [hdefined] at h
  have hmem : name ∈ (s'.vars storage.ofClass).map Prod.fst := by
    obtain ⟨-, -, rfl⟩ := defineAll_eq_ok hbefore hdefined
    rw [(s.vars_addAll fun _ he => hbefore _ (storage_of_mem_number he)).1, hempty,
      List.append_nil, List.map_reverse, List.mem_reverse, map_fst_number]
    exact hname
  refine ⟨s', storage, rfl, ?_, ?_⟩
  · rw [List.length_map, List.take_left]
    exact hdefined
  · rw [defineAll_append hdefined, defineAll, define_of_mem hmem, hscopeName]

/-- A class with a repeated variable is refused at the first that repeats an earlier one. -/
theorem ofClass_of_repeat {c : Class} {kept rest : List String} {name : String}
    (hnames : c.variables.map Prod.fst = kept ++ name :: rest) (hkept : kept.Nodup)
    (hname : name ∈ kept) : ofClass c = .error (.redeclared name (.ofClass c.name)) := by
  rw [← map_fst_classDecls] at hnames
  obtain ⟨s', storage, hstorage, -, hrefused⟩ := defineAll_of_repeat
    (s := { className := c.name }) (fun _ => ofClass_of_mem_classDecls) rfl hnames hkept hname
  rw [ofClass, hrefused, scopeName, hstorage]
  rfl

/-- A subroutine with a repeated name is refused at the first that repeats an earlier one,
and leaves what it would without that name and the names behind it. -/
theorem enter_of_repeat {kept rest : List String} {name : String}
    (hnames : r.paramNames ++ r.localNames = kept ++ name :: rest) (hkept : kept.Nodup)
    (hname : name ∈ kept) :
    ∃ s', s.enter (r.cut kept.length) = (s', .ok ()) ∧
      s.enter r = (s', .error (.redeclared name (.ofSubroutine s.className r.name))) := by
  rw [← map_fst_declared] at hnames
  obtain ⟨s', storage, hstorage, hdefined, hrefused⟩ := defineAll_of_repeat
    (s := s.openScope r) (fun _ => ofClass_of_mem_declared) rfl hnames hkept hname
  refine ⟨s', (s.enter_cut r kept.length).trans hdefined, ?_⟩
  rw [enter, hrefused, scopeName, hstorage]
  rfl

/-! ## Resolved names -/

/-- A table resolves given parameters and local variables, numbered in their order, and every
other name as the class scope of another table does.  That scope is its own as well. -/
structure Resolves (s' s : Scopes) (first : Nat) (params locals : List String) : Prop where
  param : ∀ (k : Nat) name, params[k]? = some name →
    s'.lookup name = some ⟨.argument, first + k⟩
  localVar : ∀ (k : Nat) name, locals[k]? = some name → s'.lookup name = some ⟨.local, k⟩
  other : ∀ name, name ∉ params → name ∉ locals → s'.lookup name = s.classVars.lookup name
  localCount_eq : s'.localCount = locals.length
  classVars_eq : s'.classVars = s.classVars
  staticCount_eq : s'.staticCount = s.staticCount
  fieldCount_eq : s'.fieldCount = s.fieldCount

theorem lookup_of_subroutineVars {name : String} {symbol : Symbol}
    (h : s.subroutineVars.lookup name = some symbol) : s.lookup name = some symbol := by
  rw [lookup, h, Option.some_or]

/-- A subroutine that has been entered resolves all its names. -/
theorem resolves_of_enter {s' : Scopes} (h : s.enter r = (s', .ok ())) :
    s'.Resolves s r.receivers r.paramNames r.localNames := by
  obtain ⟨hnodup, hclass, -⟩ := enter_eq_ok h
  obtain ⟨hparams, hlocals, -⟩ := List.nodup_append.1 hnodup
  refine ⟨?_, ?_, fun name => lookup_of_not_declared h, localCount_of_enter h, hclass, ?_, ?_⟩
  · intro k name hname
    obtain ⟨hk, rfl⟩ := List.getElem?_eq_some_iff.1 hname
    apply lookup_of_subroutineVars
    rw [lookup_subroutineVars h]
    exact .inl ⟨List.getElem_mem hk, by rw [hparams.idxOf_getElem k hk]⟩
  · intro k name hname
    obtain ⟨hk, rfl⟩ := List.getElem?_eq_some_iff.1 hname
    apply lookup_of_subroutineVars
    rw [lookup_subroutineVars h]
    exact .inr ⟨List.getElem_mem hk, by rw [hlocals.idxOf_getElem k hk]⟩
  · rw [← staticCount_enter s r, h]
  · rw [← fieldCount_enter s r, h]

/-! ## Tables of a class -/

theorem className_add (s : Scopes) (name : String) (symbol : Symbol) :
    (s.add name symbol).className = s.className := by
  rw [add]
  split <;> rfl

theorem className_handleAll (s : Scopes) (requests : List Request) :
    (s.handleAll requests).className = s.className := by
  induction requests generalizing s with
  | nil => rfl
  | cons request rest ih =>
      rw [handleAll, ih]
      cases request with
      | define name storage => exact define_keeps className className_add s name storage
      | enter r => exact enter_keeps className className_add s r

/-- Whatever was asked of the table of a class before, a subroutine is entered exactly when
its names differ, and then they are resolved.  Otherwise the first name that repeats an
earlier one is refused, and the names before it are resolved.  Nothing comes of what was
declared or entered before but the class scope and its counters. -/
theorem enter_exact (c : Class) (table : Scopes) (htable : ofClass c = .ok table)
    (requests : List Request) (r : Subroutine) :
    let s := table.handleAll requests
    let names := r.paramNames ++ r.localNames
    ((s.enter r).2 = .ok () ↔ names.Nodup) ∧
      (names.Nodup → (s.enter r).1.Resolves s r.receivers r.paramNames r.localNames ∧
        (s.enter r).1.localCount = r.localCount) ∧
      (¬ names.Nodup → ∃ kept name rest,
        names = kept ++ name :: rest ∧ kept.Nodup ∧ name ∈ kept ∧
        (s.enter r).2 = .error (.redeclared name (.ofSubroutine c.name r.name)) ∧
        (s.enter r).1.Resolves s r.receivers (r.paramNames.take kept.length)
          (r.localNames.take (kept.length - r.paramNames.length))) ∧
      ∀ t : Scopes, t.className = s.className → t.classVars = s.classVars →
        t.statics = s.statics → t.fields = s.fields → t.enter r = s.enter r := by
  intro s names
  have hclass : s.className = c.name := by
    rw [className_handleAll]
    exact ofClass_keeps className className_add htable
  refine ⟨enter_eq_ok_iff, ?_, ?_, ?_⟩
  · intro hnames
    have hentered : s.enter r = ((s.enter r).1, .ok ()) := Prod.ext rfl (enter_eq_ok_iff.2 hnames)
    exact ⟨resolves_of_enter hentered, localCount_of_enter hentered⟩
  · intro hnames
    obtain ⟨kept, name, rest, hsplit, hkept, hname⟩ := exists_first_repeat hnames
    obtain ⟨s', hcut, hrefused⟩ := enter_of_repeat (s := s) hsplit hkept hname
    refine ⟨kept, name, rest, hsplit, hkept, hname, ?_, ?_⟩
    · rw [hrefused, hclass]
    · have hresolves := resolves_of_enter hcut
      rw [Subroutine.paramNames_cut, Subroutine.localNames_cut] at hresolves
      rw [hrefused]
      exact hresolves
  · intro t hname hvars hstatics hfields
    rw [enter, enter, openScope, openScope, hname, hvars, hstatics, hfields]

/-- A function is refused at its third local variable, which repeats a parameter.  The other
parameter hides a field, and the variables of the method entered before are gone. -/
theorem enter_refused_at_local :
    let point : Class := ⟨"Point", [⟨.static, .int, ["made"]⟩, ⟨.field, .int, ["x", "y"]⟩], []⟩
    let move : Subroutine := ⟨.method, "move", none, [⟨.int, "by"⟩], [], []⟩
    let swap : Subroutine := ⟨.function, "swap", none, [⟨.int, "a"⟩, ⟨.int, "x"⟩],
      [⟨.int, ["b", "c"]⟩, ⟨.char, ["a", "d"]⟩], []⟩
    ∃ table, ofClass point = .ok table ∧
      let s := table.handleAll [.define "z" .field, .enter move, .define "kept" .local]
      ¬ (swap.paramNames ++ swap.localNames).Nodup ∧
        (∃ kept name rest, swap.paramNames ++ swap.localNames = kept ++ name :: rest ∧
          kept.Nodup ∧ name ∈ kept ∧
          (s.enter swap).2 = .error (.redeclared name (.ofSubroutine "Point" "swap")) ∧
          (s.enter swap).1.Resolves s 0 (swap.paramNames.take kept.length)
            (swap.localNames.take (kept.length - 2))) ∧
        (s.enter swap).1.localCount = 2 ∧
        ["a", "x", "b", "c", "d", "y", "z", "by", "kept"].map (s.enter swap).1.lookup
          = [some ⟨.argument, 0⟩, some ⟨.argument, 1⟩, some ⟨.local, 0⟩, some ⟨.local, 1⟩, none,
            some ⟨.field, 1⟩, some ⟨.field, 2⟩, none, none] := by
  intro point move swap
  obtain ⟨table, htable⟩ : ∃ table, ofClass point = .ok table := ⟨_, rfl⟩
  obtain ⟨-, -, hrefused, -⟩ := enter_exact point table htable
    [.define "z" .field, .enter move, .define "kept" .local] swap
  have hrepeat : ¬ (swap.paramNames ++ swap.localNames).Nodup := by decide
  refine ⟨table, htable, hrepeat, hrefused hrepeat, ?_⟩
  cases htable
  exact ⟨rfl, rfl⟩

end Scopes

end JackLang
