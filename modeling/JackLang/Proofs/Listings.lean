import JackLang.Proofs.Slots

/-!
# Code from its listing

A listing has one line for each instruction, and the code can be told from it.  Names may
hold blanks and digits and may look like instructions (`call f 3 4` calls `f 3`), so a line
is taken apart from both ends.  The first word, which has no blank, says what the instruction
is.  The number behind the last blank is its index or count, and what stands between the two
is the name or the segment (`Instr.text_injective`).

A newline in a name is the only thing that could spoil the lines.  `Instr.OneLine` excludes
it, and `Class.OneLine` excludes it for the names from which the code of a class takes its
own (`Class.oneLine_of_mem_compile`).  Then the last note on a class, which counts the lines
of the listing, gives the number of instructions.
-/

namespace JackLang

namespace Vm

/-! ## Separators -/

/-- What stands before the first separator and what stands behind it. -/
theorem append_cons_inj_of_first {a : Char} {xs ys zs ws : List Char} (hxs : a ∉ xs)
    (hys : a ∉ ys) (h : xs ++ a :: zs = ys ++ a :: ws) : xs = ys ∧ zs = ws := by
  induction xs generalizing ys with
  | nil =>
      cases ys with
      | nil => exact ⟨rfl, (List.cons.inj h).2⟩
      | cons y ys =>
          have hy : a = y := (List.cons.inj h).1
          exact absurd (hy ▸ List.mem_cons_self) hys
  | cons x xs ih =>
      cases ys with
      | nil =>
          have hx : x = a := (List.cons.inj h).1
          exact absurd (hx ▸ List.mem_cons_self) hxs
      | cons y ys =>
          obtain ⟨rfl, htail⟩ := List.cons.inj h
          obtain ⟨rfl, rfl⟩ := ih (List.not_mem_of_not_mem_cons hxs)
            (List.not_mem_of_not_mem_cons hys) htail
          exact ⟨rfl, rfl⟩

/-- What stands before the last separator and what stands behind it. -/
theorem append_cons_inj_of_last {a : Char} {xs ys zs ws : List Char} (hzs : a ∉ zs)
    (hws : a ∉ ws) (h : xs ++ a :: zs = ys ++ a :: ws) : xs = ys ∧ zs = ws := by
  have hreverse : zs.reverse ++ a :: xs.reverse = ws.reverse ++ a :: ys.reverse := by
    simpa using congrArg List.reverse h
  obtain ⟨hzw, hxy⟩ := append_cons_inj_of_first (List.mem_reverse.not.2 hzs)
    (List.mem_reverse.not.2 hws) hreverse
  exact ⟨List.reverse_inj.1 hxy, List.reverse_inj.1 hzw⟩

/-! ## The parts of an instruction -/

namespace Instr

/-- The first word of an instruction. -/
def keyword : Instr → String
  | .function .. => "function"
  | .push .. => "push"
  | .pop .. => "pop"
  | .call .. => "call"
  | .command c => c.name
  | .ret => "return"

/-- The name or segment behind the first word, and the number behind that. -/
def operands : Instr → Option (String × Nat)
  | .function name n | .call name n => some (name, n)
  | .push segment n | .pop segment n => some (segment.name, n)
  | .command _ | .ret => none

/-- The instruction with a first word and operands. -/
def ofParts? : String → Option (String × Nat) → Option Instr
  | "function", some (name, n) => some (.function name n)
  | "call", some (name, n) => some (.call name n)
  | "push", some (name, n) => (Segment.ofName? name).map (.push · n)
  | "pop", some (name, n) => (Segment.ofName? name).map (.pop · n)
  | "return", none => some .ret
  | word, none => (Command.ofName? word).map .command
  | _, some _ => none

/-- An instruction is found by its parts. -/
theorem ofParts?_parts (i : Instr) : ofParts? i.keyword i.operands = some i := by
  cases i with
  | function name n => rfl
  | call name n => rfl
  | push segment n =>
      show (Segment.ofName? segment.name).map _ = _
      rw [Segment.ofName?_name]
      rfl
  | pop segment n =>
      show (Segment.ofName? segment.name).map _ = _
      rw [Segment.ofName?_name]
      rfl
  | command c => cases c <;> rfl
  | ret => rfl

/-- Operands as they are written, each behind a blank. -/
def operandChars : Option (String × Nat) → List Char
  | none => []
  | some (name, n) => ' ' :: name.toList ++ ' ' :: n.repr.toList

theorem toList_text (i : Instr) : i.text.toList = i.keyword.toList ++ operandChars i.operands := by
  cases i with
  | function name n => simp [text, keyword, operands, operandChars]
  | call name n => simp [text, keyword, operands, operandChars]
  | push segment n => simp [text, keyword, operands, operandChars]
  | pop segment n => simp [text, keyword, operands, operandChars]
  | command c => simp [text, keyword, operands, operandChars]
  | ret => rfl

theorem not_mem_keyword {a : Char} (ha : a.isAlpha = false) (i : Instr) :
    a ∉ i.keyword.toList := by
  have hletters : i.keyword.toList.all Char.isAlpha = true := by
    cases i with
    | command c => cases c <;> rfl
    | ret => rfl
    | function => show "function".toList.all Char.isAlpha = true; rfl
    | push => show "push".toList.all Char.isAlpha = true; rfl
    | pop => show "pop".toList.all Char.isAlpha = true; rfl
    | call => show "call".toList.all Char.isAlpha = true; rfl
  intro hmem
  rw [List.all_eq_true.1 hletters a hmem] at ha
  cases ha

theorem not_mem_repr {a : Char} (ha : a.isDigit = false) (n : Nat) : a ∉ n.repr.toList := by
  intro hmem
  rw [Nat.toList_repr] at hmem
  rw [Nat.isDigit_of_mem_toDigits (by omega) (by omega) hmem] at ha
  cases ha

/-- Operands are told from how they are written. -/
theorem operandChars_injective : Function.Injective operandChars := by
  intro o o' h
  match o, o' with
  | none, none => rfl
  | none, some _ => cases h
  | some _, none => cases h
  | some (name, n), some (name', n') =>
      -- No digit is a blank, so the number stands behind the last one.
      obtain ⟨hname, hdigits⟩ := append_cons_inj_of_last (not_mem_repr rfl n)
        (not_mem_repr rfl n') (List.cons.inj h).2
      have hn : n = n' := by
        have hvalue := congrArg (Nat.ofDigitChars 10 · 0) hdigits
        simpa only [Nat.toList_repr, Nat.ofDigitChars_ten_toDigits] using hvalue
      rw [String.toList_inj.1 hname, hn]

/-- Operands start with the first blank. -/
theorem append_operandChars_inj {xs ys : List Char} (hxs : ' ' ∉ xs) (hys : ' ' ∉ ys)
    {o o' : Option (String × Nat)} (h : xs ++ operandChars o = ys ++ operandChars o') :
    xs = ys ∧ o = o' := by
  have hwords : xs = ys := by
    match o, o' with
    | none, none => simpa only [operandChars, List.append_nil] using h
    | none, some (name, n) =>
        rw [operandChars, List.append_nil] at h
        exact absurd (h ▸ List.mem_append_right ys List.mem_cons_self) hxs
    | some (name, n), none =>
        rw [operandChars, operandChars, List.append_nil] at h
        exact absurd (h ▸ List.mem_append_right xs List.mem_cons_self) hys
    | some (name, n), some (name', n') => exact (append_cons_inj_of_first hxs hys h).1
  rw [hwords] at h
  exact ⟨hwords, operandChars_injective (List.append_cancel_left h)⟩

/-- An instruction is told from its text. -/
theorem text_injective : Function.Injective text := by
  intro i j h
  have hchars : i.keyword.toList ++ operandChars i.operands
      = j.keyword.toList ++ operandChars j.operands := by
    rw [← toList_text, ← toList_text, h]
  obtain ⟨hkeyword, hoperands⟩ :=
    append_operandChars_inj (not_mem_keyword rfl i) (not_mem_keyword rfl j) hchars
  have hparts := ofParts?_parts i
  rw [String.toList_inj.1 hkeyword, hoperands, ofParts?_parts] at hparts
  exact (Option.some.inj hparts).symm

/-! ## Lines -/

/-- The name in an instruction has no newline. -/
def OneLine : Instr → Prop
  | .function name _ | .call name _ => '\n' ∉ name.toList
  | .push .. | .pop .. | .command _ | .ret => True

instance : DecidablePred OneLine
  | .function name _ => inferInstanceAs (Decidable ('\n' ∉ name.toList))
  | .call name _ => inferInstanceAs (Decidable ('\n' ∉ name.toList))
  | .push .. | .pop .. | .command _ | .ret => .isTrue trivial

theorem newline_not_mem_text {i : Instr} (h : i.OneLine) : '\n' ∉ i.text.toList := by
  have hoperands {name : String} (hname : '\n' ∉ name.toList) (n : Nat) :
      '\n' ∉ operandChars (some (name, n)) := by
    simp only [operandChars, List.cons_append, List.mem_cons, List.mem_append, not_or]
    exact ⟨by decide, hname, by decide, not_mem_repr rfl n⟩
  have hsegment (segment : Segment) : '\n' ∉ segment.name.toList := by
    cases segment <;> decide
  rw [toList_text, List.mem_append, not_or]
  refine ⟨not_mem_keyword rfl i, ?_⟩
  cases i with
  | function name n => exact hoperands h n
  | call name n => exact hoperands h n
  | push segment n => exact hoperands (hsegment segment) n
  | pop segment n => exact hoperands (hsegment segment) n
  | command c => exact List.not_mem_nil
  | ret => exact List.not_mem_nil

end Instr

namespace Listing

/-- A listing that grows from nothing is that of the code. -/
theorem write_empty (code : List Instr) : write "" code = ofCode code := by
  rw [write_eq_append, String.empty_append]

theorem toList_ofCode_cons (i : Instr) (code : List Instr) :
    (ofCode (i :: code)).toList = i.text.toList ++ '\n' :: (ofCode code).toList := by
  simp [ofCode, Instr.line]

/-- Code of one-line instructions is told from its listing. -/
theorem ofCode_inj {code code' : List Instr} (h : ∀ i ∈ code, i.OneLine)
    (h' : ∀ i ∈ code', i.OneLine) (heq : ofCode code = ofCode code') : code = code' := by
  have hline (i : Instr) (code : List Instr) : (ofCode (i :: code)).toList ≠ [] := by
    rw [toList_ofCode_cons]
    exact List.append_ne_nil_of_right_ne_nil _ (List.cons_ne_nil _ _)
  have hchars := congrArg String.toList heq
  clear heq
  induction code generalizing code' with
  | nil =>
      cases code' with
      | nil => rfl
      | cons j code' => exact absurd hchars.symm (hline j code')
  | cons i code ih =>
      cases code' with
      | nil => exact absurd hchars (hline i code)
      | cons j code' =>
          -- Neither text has a newline, so the first lines end at the same place.
          rw [toList_ofCode_cons, toList_ofCode_cons] at hchars
          obtain ⟨hi, hcode⟩ := List.forall_mem_cons.1 h
          obtain ⟨hj, hcode'⟩ := List.forall_mem_cons.1 h'
          obtain ⟨htext, hrest⟩ := append_cons_inj_of_first (Instr.newline_not_mem_text hi)
            (Instr.newline_not_mem_text hj) hchars
          rw [Instr.text_injective (String.toList_inj.1 htext), ih hcode hcode' hrest]

/-- A text up to a newline is one line more. -/
theorem lineCountChars_append_newline {line : List Char} (h : '\n' ∉ line) (rest : List Char) :
    Text.lineCountChars (line ++ '\n' :: rest) = Text.lineCountChars rest + 1 := by
  have hcount : (line ++ '\n' :: rest).count '\n' = rest.count '\n' + 1 := by
    rw [List.count_append, List.count_eq_zero_of_not_mem h, List.count_cons_self, Nat.zero_add]
  rw [Text.lineCountChars, Text.lineCountChars, hcount, Nat.add_right_comm]
  cases rest with
  | nil => simp
  | cons c rest => simp [List.getLast?_append, List.getLast?_cons]

theorem lineCount_ofCode {code : List Instr} (h : ∀ i ∈ code, i.OneLine) :
    Text.lineCount (ofCode code) = code.length := by
  rw [Text.lineCount]
  induction code with
  | nil => rfl
  | cons i code ih =>
      obtain ⟨hi, hcode⟩ := List.forall_mem_cons.1 h
      rw [toList_ofCode_cons, lineCountChars_append_newline (Instr.newline_not_mem_text hi),
        ih hcode, List.length_cons]

end Listing

end Vm

/-! ## Classes -/

open Vm (Instr)
open Vm.Listing (write ofCode)

theorem SubroutineName.newline_not_mem_text {className subroutine : String}
    (hclass : '\n' ∉ className.toList) (hsubroutine : '\n' ∉ subroutine.toList) :
    '\n' ∉ (SubroutineName.mk className subroutine).text.toList := by
  rw [SubroutineName.text]
  split
  · exact hsubroutine
  · simp only [String.toList_append, List.mem_append, not_or]
    exact ⟨⟨hclass, by decide⟩, hsubroutine⟩

/-- The callee of a `do` has no newline in its name. -/
def Statement.OneLine : Statement → Prop
  | .call _ name _ => '\n' ∉ name.toList
  | .assign .. | .ret _ => True

instance : DecidablePred Statement.OneLine
  | .call _ name _ => inferInstanceAs (Decidable ('\n' ∉ name.toList))
  | .assign .. | .ret _ => .isTrue trivial

theorem Statement.OneLine.newline_not_mem {s : Statement} (h : s.OneLine) {callee : String}
    (hcallee : callee ∈ s.callees) : '\n' ∉ callee.toList := by
  cases s with
  | call receiver name args =>
      obtain rfl := List.mem_singleton.1 hcallee
      exact h
  | assign | ret => cases hcallee

theorem Statement.oneLine_of_mem {env : Env} {s : Statement} {i : Instr}
    (hclass : '\n' ∉ env.place.className.toList) (h : s.OneLine)
    (hi : i ∈ (s.compile env).code) : i.OneLine := by
  cases Statement.mayWrite_of_mem hi with
  | call hcallee args =>
      exact SubroutineName.newline_not_mem_text hclass (h.newline_not_mem hcallee)
  | multiply =>
      show '\n' ∉ "Math.multiply".toList
      decide
  | divide =>
      show '\n' ∉ "Math.divide".toList
      decide
  | constant | load | store | add | sub | drop | object | ret => trivial

theorem Subroutine.oneLine_of_mem_allocation {kind : Subroutine.Kind} {fields : Nat} {i : Instr}
    (h : i ∈ Subroutine.allocation kind fields) : i.OneLine := by
  rcases Subroutine.mem_allocation h with rfl | rfl | rfl
  · trivial
  · show '\n' ∉ "Memory.alloc".toList
    decide
  · trivial

namespace Class

/-- The names of a class, of its subroutines and of the callees in them have no newline. -/
structure OneLine (c : Class) : Prop where
  className : '\n' ∉ c.name.toList
  subroutines : ∀ r ∈ c.subroutines, '\n' ∉ r.name.toList
  callees : ∀ r ∈ c.subroutines, ∀ s ∈ r.body, s.OneLine

variable {policy : Policy} {table : Scopes} {c : Class}

theorem oneLine_of_mem_compile (h : c.OneLine) {i : Instr}
    (hi : i ∈ (c.compile policy table).1.code) : i.OneLine := by
  rw [compile, Subroutine.compileAll_eq_forM] at hi
  obtain ⟨r, hr, hi⟩ := Emit.mem_code_forM hi
  cases henter : (table.enter r).2 with
  | error e =>
      rw [Subroutine.compile_of_refused henter] at hi
      cases hi
  | ok u =>
      rw [Subroutine.code_compile henter, Subroutine.opening, List.cons_append] at hi
      rcases List.mem_cons.1 hi with rfl | hi
      · exact SubroutineName.newline_not_mem_text h.className (h.subroutines r hr)
      rcases List.mem_append.1 hi with halloc | hbody
      · exact Subroutine.oneLine_of_mem_allocation halloc
      · obtain ⟨s, hs, hi⟩ := Emit.mem_code_forM hbody
        exact Statement.oneLine_of_mem h.className (h.callees r hr s hs) hi

theorem toListing_of_failed {e : CompileError} (htable : Scopes.ofClass c = .ok table)
    (h : (c.compile policy table).1.outcome = .error e) :
    c.toListing policy = ⟨(c.compile policy table).1.events, .error e⟩ := by
  rw [toListing_of_table htable]
  generalize (c.compile policy table).1 = recorded at h
  obtain ⟨events, outcome⟩ := recorded
  cases h
  rfl

/-- A class without newlines in its names has a listing with a line for each instruction. -/
theorem toListing_of_oneLine (hlines : c.OneLine) (htable : Scopes.ofClass c = .ok table)
    (h : (c.compile policy table).1.outcome = .ok ()) :
    c.toListing policy
      = ⟨(c.compile policy table).1.events ++ [.note (.summary c.name
            (c.compile policy table).2.staticCount (c.compile policy table).1.code.length)],
          .ok (ofCode (c.compile policy table).1.code)⟩ := by
  have hcount : Text.lineCount (ofCode (c.compile policy table).1.code)
      = (c.compile policy table).1.code.length :=
    Vm.Listing.lineCount_ofCode fun i hi => oneLine_of_mem_compile hlines hi
  rw [toListing_of_table htable, Vm.Listing.write_empty, hcount]
  generalize (c.compile policy table).2.staticCount = statics
  generalize (c.compile policy table).1 = recorded at h
  obtain ⟨events, outcome⟩ := recorded
  cases h
  rfl

/-- Text and code say the same.  Writing line by line gives the listing of the code.  Of
instructions without newlines in their names the listing has one line each, and no other
code has it.  A class without such newlines has the listing of the code that is recorded for
it, with the number of instructions in the last note, or it fails as the recording does. -/
theorem listing_determines_code :
    (∀ code, write "" code = ofCode code) ∧
    (∀ code code', (∀ i ∈ code, i.OneLine) → (∀ i ∈ code', i.OneLine) →
      ofCode code = ofCode code' → code = code') ∧
    (∀ code, (∀ i ∈ code, i.OneLine) → Text.lineCount (ofCode code) = code.length) ∧
    ∀ (policy : Policy) (c : Class), c.OneLine →
      (∀ e, Scopes.ofClass c = .error e → c.toListing policy = ⟨[], .error e⟩) ∧
      ∀ table, Scopes.ofClass c = .ok table →
        let recorded := (c.compile policy table).1
        (∀ e, recorded.outcome = .error e → c.toListing policy = ⟨recorded.events, .error e⟩) ∧
        (recorded.outcome = .ok () → c.toListing policy
          = ⟨recorded.events ++ [.note (.summary c.name
                (c.compile policy table).2.staticCount recorded.code.length)],
              .ok (ofCode recorded.code)⟩) := by
  refine ⟨Vm.Listing.write_empty, ?_, ?_, ?_⟩
  · intro code code' h h' heq
    exact Vm.Listing.ofCode_inj h h' heq
  · intro code h
    exact Vm.Listing.lineCount_ofCode h
  · intro policy c hlines
    refine ⟨fun e he => toListing_of_refused he, fun table htable => ⟨?_, ?_⟩⟩
    · exact fun e he => toListing_of_failed htable he
    · exact fun hok => toListing_of_oneLine hlines htable hok

/-- A class whose names read like parts of instructions. -/
def misleading : Class where
  name := "push constant"
  vars := []
  subroutines := [{
    kind := .function
    name := "f 3"
    returns := none
    params := []
    locals := []
    body := [.call none "return" [.single (.int 7)], .ret none] }]

theorem listing_of_misleading :
    (∀ i ∈ [Instr.call "f 3" 4], i.OneLine) ∧
    (∀ code, (∀ i ∈ code, i.OneLine) → ofCode code = ofCode [.call "f 3" 4] →
      code = [.call "f 3" 4]) ∧
    misleading.OneLine ∧
    (misleading.toListing .reject).notes
      = [.compiling ⟨"push constant", "f 3"⟩, .summary "push constant" 0 6] := by
  have hcall : ∀ i ∈ [Instr.call "f 3" 4], i.OneLine :=
    List.forall_mem_singleton.2 (show '\n' ∉ "f 3".toList by decide)
  have hlines : misleading.OneLine :=
    ⟨by decide, List.forall_mem_singleton.2 (by decide), List.forall_mem_singleton.2 (by decide)⟩
  obtain ⟨-, hcode, -, hclass⟩ := listing_determines_code
  refine ⟨hcall, fun code h => hcode code _ h hcall, hlines, ?_⟩
  rw [((hclass .reject misleading hlines).2 { className := "push constant" } rfl).2 rfl]
  rfl

end Class

end JackLang
