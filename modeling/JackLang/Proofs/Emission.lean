import JackLang.Compile.Emit

/-!
# Emissions of plain code

An emission that writes instructions only and ends well is given by its code
(`Emit.ofCode`).  One after another they are again such an emission, and the code is
appended (`Emit.ofCode_bind`).

`Emit.outcome_bind_eq_ok` takes a successful sequence apart: both parts were successful,
and the code is that of the first and then of the second (`Emit.code_bind`).  Whether or
not a sequence is successful, each of its instructions comes from one of its parts
(`Emit.mem_code_bind`).  The last section says the same of `forM`, one emission for each
member of a list, and that the first emission to fail is the last to write
(`Emit.exists_first_failure`).
-/

namespace JackLang.Emit

variable {α β : Type}

/-- Writes code and ends well. -/
def ofCode (code : List Vm.Instr) : Emit Unit := ⟨code.map .instr, .ok ()⟩

@[simp] theorem outcome_ofCode (code : List Vm.Instr) : (ofCode code).outcome = .ok () := rfl

@[simp] theorem code_ofCode (code : List Vm.Instr) : (ofCode code).code = code := by
  induction code with
  | nil => rfl
  | cons i code ih =>
      rw [Emit.code, ofCode] at ih ⊢
      simp [Event.instr?, ih]

@[simp] theorem notes_ofCode (code : List Vm.Instr) : (ofCode code).notes = [] := by
  simp [Emit.notes, ofCode, Event.note?]

theorem instr_eq_ofCode (i : Vm.Instr) : instr i = ofCode [i] := rfl

/-- Plain code after plain code is plain code. -/
theorem ofCode_bind (code code' : List Vm.Instr) :
    (ofCode code >>= fun _ => ofCode code') = ofCode (code ++ code') := by
  simp only [ofCode, bind_ok, List.map_append]

/-- A sequence ends well when both parts do. -/
theorem outcome_bind_eq_ok {x : Emit α} {f : α → Emit β} {b : β}
    (h : (x >>= f).outcome = .ok b) :
    ∃ a, x.outcome = .ok a ∧ (f a).outcome = .ok b := by
  obtain ⟨events, r⟩ := x
  cases r with
  | ok a =>
      rw [bind_ok] at h
      exact ⟨a, rfl, h⟩
  | error e =>
      rw [bind_error] at h
      cases h

/-- A sequence whose first part ends well ends as the second. -/
theorem outcome_bind {x : Emit α} {a : α} (h : x.outcome = .ok a) (f : α → Emit β) :
    (x >>= f).outcome = (f a).outcome := by
  obtain ⟨events, r⟩ := x
  cases h
  rfl

/-- What a sequence writes when its first part ends well. -/
theorem events_bind {x : Emit α} {a : α} (h : x.outcome = .ok a) (f : α → Emit β) :
    (x >>= f).events = x.events ++ (f a).events := by
  obtain ⟨events, r⟩ := x
  cases h
  rfl

/-- The code of a sequence whose first part ends well. -/
theorem code_bind {x : Emit α} {a : α} (h : x.outcome = .ok a) (f : α → Emit β) :
    (x >>= f).code = x.code ++ (f a).code := by
  rw [code, events_bind h, List.filterMap_append]
  rfl

/-- The notes of a sequence whose first part ends well. -/
theorem notes_bind {x : Emit α} {a : α} (h : x.outcome = .ok a) (f : α → Emit β) :
    (x >>= f).notes = x.notes ++ (f a).notes := by
  rw [notes, events_bind h, List.filterMap_append]
  rfl

/-- Nothing comes after a failure. -/
theorem bind_of_error {x : Emit α} {e : CompileError} (h : x.outcome = .error e)
    (f : α → Emit β) : x >>= f = ⟨x.events, .error e⟩ := by
  obtain ⟨events, r⟩ := x
  cases h
  rfl

theorem bind_eq_self {x : Emit α} {e : CompileError} (h : x.outcome = .error e)
    (f : α → Emit α) : x >>= f = x := by
  rw [bind_of_error h, ← h]

theorem outcome_seq_eq_ok_iff {x : Emit Unit} {y : Emit β} {b : β} :
    (x >>= fun _ => y).outcome = .ok b ↔ x.outcome = .ok () ∧ y.outcome = .ok b := by
  constructor
  · intro h
    obtain ⟨⟨⟩, hx, hy⟩ := outcome_bind_eq_ok h
    exact ⟨hx, hy⟩
  · obtain ⟨events, r⟩ := x
    rintro ⟨hx, hy⟩
    cases hx
    exact hy

/-- An instruction of a sequence is written by one of the two parts, and by the second only
where the first has ended well. -/
theorem mem_code_bind {x : Emit α} {f : α → Emit β} {i : Vm.Instr}
    (h : i ∈ (x >>= f).code) : i ∈ x.code ∨ ∃ a, x.outcome = .ok a ∧ i ∈ (f a).code := by
  obtain ⟨events, r⟩ := x
  cases r with
  | ok a =>
      rw [code_bind rfl f, List.mem_append] at h
      exact h.imp_right fun hi => ⟨a, rfl, hi⟩
  | error e =>
      rw [bind_error] at h
      exact .inl h

/-! ## One emission for each member of a list -/

section Members

variable {ι : Type} {f : ι → Emit Unit} {xs : List ι}

theorem outcome_forM_eq_ok_iff :
    (forM xs f).outcome = .ok () ↔ ∀ x ∈ xs, (f x).outcome = .ok () := by
  induction xs with
  | nil => simp [pure_def]
  | cons x xs ih => rw [List.forM_cons, outcome_seq_eq_ok_iff, ih, List.forall_mem_cons]

theorem events_forM (h : (forM xs f).outcome = .ok ()) :
    (forM xs f).events = xs.flatMap fun x => (f x).events := by
  induction xs with
  | nil => rfl
  | cons x xs ih =>
      rw [List.forM_cons] at h ⊢
      obtain ⟨hx, hxs⟩ := outcome_seq_eq_ok_iff.1 h
      rw [events_bind hx, ih hxs, List.flatMap_cons]

theorem code_forM (h : (forM xs f).outcome = .ok ()) :
    (forM xs f).code = xs.flatMap fun x => (f x).code := by
  rw [code, events_forM h, List.filterMap_flatMap]
  rfl

theorem notes_forM (h : (forM xs f).outcome = .ok ()) :
    (forM xs f).notes = xs.flatMap fun x => (f x).notes := by
  rw [notes, events_forM h, List.filterMap_flatMap]
  rfl

/-- Where one of the emissions fails, the first that does ends the whole.  What is written
is what those before it write, and then what it writes itself. -/
theorem exists_first_failure {e : CompileError} (h : (forM xs f).outcome = .error e) :
    ∃ before x after, xs = before ++ x :: after ∧ (∀ y ∈ before, (f y).outcome = .ok ()) ∧
      (f x).outcome = .error e ∧
      (forM xs f).events = (before.flatMap fun y => (f y).events) ++ (f x).events := by
  induction xs with
  | nil => cases h
  | cons x xs ih =>
      rw [List.forM_cons] at h ⊢
      cases hx : (f x).outcome with
      | error e' =>
          rw [bind_eq_self hx] at h ⊢
          exact ⟨[], x, xs, rfl, List.forall_mem_nil _, h, rfl⟩
      | ok u =>
          rw [outcome_bind hx] at h
          obtain ⟨before, y, after, rfl, hbefore, hy, hevents⟩ := ih h
          refine ⟨x :: before, y, after, rfl, List.forall_mem_cons.2 ⟨hx, hbefore⟩, hy, ?_⟩
          rw [events_bind hx, hevents, List.flatMap_cons, List.append_assoc]

theorem mem_code_forM {i : Vm.Instr} (h : i ∈ (forM xs f).code) : ∃ x ∈ xs, i ∈ (f x).code := by
  induction xs with
  | nil => cases h
  | cons x xs ih =>
      rw [List.forM_cons] at h
      rcases mem_code_bind h with hx | ⟨⟨⟩, -, hxs⟩
      · exact ⟨x, List.mem_cons_self, hx⟩
      · obtain ⟨y, hy, hi⟩ := ih hxs
        exact ⟨y, List.mem_cons_of_mem _ hy, hi⟩

end Members

end JackLang.Emit
