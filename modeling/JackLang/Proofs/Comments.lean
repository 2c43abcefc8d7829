import JackLang.Proofs.Openers
import Mathlib.Data.Nat.Find
import Mathlib.Order.Bounds.Basic

/-!
# Comments by search

The text is read character by character, with a mode and a look at the next character.  What
that comes to can be said without modes.  Find the first opener.  The text before it stays.
Behind `//`, go on at the first newline; behind `/*`, go on behind the first `*/`; and where
there is none, nothing more stays.  `Stripped` says this with positions in the text, and
`stripComments_eq_iff_stripped` says that reading and searching agree.

The link is that up to the position where it ends, a mode does the same at every character.
Outside of comments it keeps the character (`strip_code_eq_append`), and inside it drops it
(`Kind.strip_eq_drop`).  So openers that overlap, or that stand inside of the other kind of
comment, need no attention of their own.
-/

namespace JackLang.Text.CommentFree

/-! ## Kinds of comments -/

/-- The kinds of comments. -/
inductive Kind where
  /-- From `//` to the end of the line. -/
  | line
  /-- From `/*` to `*/`. -/
  | block
deriving DecidableEq, Repr

namespace Kind

/-- The two characters that open a comment. -/
def opener : Kind → List Char
  | .line => ['/', '/']
  | .block => ['/', '*']

/-- The mode behind the opener. -/
def mode : Kind → Mode
  | .line => .line
  | .block => .block

/-- What ends a comment. -/
def ending : Kind → List Char
  | .line => ['\n']
  | .block => ['*', '/']

/-- The number of characters of the ending that belong to the comment. -/
def closing : Kind → Nat
  | .line => 0
  | .block => 2

end Kind

variable {cs : List Char} {kind : Kind} {i j n : Nat}

/-! ## Positions -/

/-- A pattern stands in a text at a position. -/
def StandsAt (pattern cs : List Char) (i : Nat) : Prop := pattern <+: cs.drop i

/-- An opener stands in a text at a position. -/
def OpensAt (cs : List Char) (i : Nat) : Prop := ∃ kind : Kind, StandsAt kind.opener cs i

theorem standsAt_drop {pattern : List Char} :
    StandsAt pattern (cs.drop n) i ↔ StandsAt pattern cs (n + i) := by
  rw [StandsAt, StandsAt, List.drop_drop]

theorem exists_standsAt_iff {pattern : List Char} :
    (∃ i, StandsAt pattern cs i) ↔ pattern <:+: cs := by
  constructor
  · intro h
    obtain ⟨i, hi⟩ := h
    exact hi.isInfix.trans (List.drop_suffix i cs).isInfix
  · intro h
    obtain ⟨before, behind, rfl⟩ := h
    exact ⟨before.length, by simp [StandsAt]⟩

theorem opensAt_iff : OpensAt cs i ↔ StandsAt ['/', '/'] cs i ∨ StandsAt ['/', '*'] cs i := by
  constructor
  · intro h
    obtain ⟨kind, hkind⟩ := h
    cases kind with
    | line => exact .inl hkind
    | block => exact .inr hkind
  · intro h
    rcases h with hline | hblock
    · exact ⟨.line, hline⟩
    · exact ⟨.block, hblock⟩

theorem openerFree_iff : OpenerFree cs ↔ ¬ ∃ i, OpensAt cs i := by
  simp only [opensAt_iff, exists_or, exists_standsAt_iff, not_or]
  rfl

theorem opensAt_zero_iff {c : Char} {rest : List Char} : OpensAt (c :: rest) 0 ↔ Opens c rest := by
  rw [opensAt_iff, Opens, and_or_left]
  cases rest with
  | nil => simp [StandsAt]
  | cons x rest => simp [StandsAt, List.cons_prefix_cons, eq_comm]

theorem lt_length_of_standsAt {c : Char} {pattern : List Char} (h : StandsAt (c :: pattern) cs i) :
    i < cs.length := by
  have hlength := h.length_le
  rw [List.length_cons, List.length_drop] at hlength
  omega

/-- Positions that meet a condition have a first one among them. -/
theorem exists_first {P : Nat → Prop} (h : ∃ i, P i) : ∃ i, IsLeast {i | P i} i := by
  classical
  exact ⟨Nat.find h, Nat.find_spec h, fun _ hi => Nat.find_min' h hi⟩

/-! ## Modes up to where they end -/

/-- Outside of comments the text before an opener is kept. -/
theorem strip_code_eq_append (h : ∀ i < n, ¬ OpensAt cs i) :
    strip .code cs = cs.take n ++ strip .code (cs.drop n) := by
  induction n generalizing cs with
  | zero => rfl
  | succ n ih =>
      cases cs with
      | nil => rfl
      | cons c rest =>
          have hopens : ¬ Opens c rest := fun ho => h 0 n.succ_pos (opensAt_zero_iff.2 ho)
          have hrest : ∀ i < n, ¬ OpensAt rest i := fun i hi => h (i + 1) (Nat.succ_lt_succ hi)
          rw [strip_code_cons hopens, ih hrest, List.take_succ_cons, List.drop_succ_cons,
            List.cons_append]

namespace Kind

theorem strip_opener (h : StandsAt kind.opener cs i) :
    strip .code (cs.drop i) = strip kind.mode (cs.drop (i + 2)) := by
  obtain ⟨behind, hbehind⟩ := h
  rw [← List.drop_drop, ← hbehind]
  cases kind with
  | line =>
      show strip .code ('/' :: '/' :: behind) = strip .line behind
      rw [strip]
  | block =>
      show strip .code ('/' :: '*' :: behind) = strip .block behind
      rw [strip]

theorem strip_cons {c : Char} {rest : List Char} (h : ¬ kind.ending <+: c :: rest) :
    strip kind.mode (c :: rest) = strip kind.mode rest := by
  cases kind with
  | line =>
      show strip .line (c :: rest) = strip .line rest
      rw [strip]
      intro hc
      subst hc
      exact h ⟨rest, rfl⟩
  | block =>
      show strip .block (c :: rest) = strip .block rest
      rw [strip]
      intro behind hc hbehind
      subst hc hbehind
      exact h ⟨behind, rfl⟩

/-- Inside of a comment the text before its ending is dropped. -/
theorem strip_eq_drop (h : ∀ i < n, ¬ StandsAt kind.ending cs i) :
    strip kind.mode cs = strip kind.mode (cs.drop n) := by
  induction n generalizing cs with
  | zero => rfl
  | succ n ih =>
      cases cs with
      | nil => rfl
      | cons c rest =>
          have hrest : ∀ i < n, ¬ StandsAt kind.ending rest i := fun i hi =>
            h (i + 1) (Nat.succ_lt_succ hi)
          rw [strip_cons (h 0 n.succ_pos), ih hrest, List.drop_succ_cons]

/-- The newline at the end of a line comment is kept, and the end of a block comment is not. -/
theorem strip_ending (h : StandsAt kind.ending cs i) :
    strip kind.mode (cs.drop i) = strip .code (cs.drop (i + kind.closing)) := by
  obtain ⟨behind, hbehind⟩ := h
  rw [← List.drop_drop, ← hbehind]
  cases kind with
  | line =>
      have hopens : ¬ Opens '\n' behind := fun ho => absurd ho.1 (by decide)
      show strip .line ('\n' :: behind) = strip .code ('\n' :: behind)
      rw [strip_code_cons hopens, strip]
  | block =>
      show strip .block ('*' :: '/' :: behind) = strip .code behind
      rw [strip]

end Kind

/-! ## One comment -/

section FirstOpener

variable (hopen : IsLeast {i | OpensAt cs i} i) (hkind : StandsAt kind.opener cs i)

include hopen hkind

/-- The comment that opens first is left with its kind's mode behind the opener. -/
theorem strip_first_opener :
    strip .code cs = cs.take i ++ strip kind.mode (cs.drop (i + 2)) := by
  have hbefore : ∀ l < i, ¬ OpensAt cs l := fun l hl ho =>
    absurd (hopen.2 ho) (Nat.not_le_of_lt hl)
  rw [strip_code_eq_append hbefore, Kind.strip_opener hkind]

theorem strip_ended_comment (hend : IsLeast {j | i + 2 ≤ j ∧ StandsAt kind.ending cs j} j) :
    strip .code cs = cs.take i ++ strip .code (cs.drop (j + kind.closing)) := by
  obtain ⟨m, rfl⟩ := Nat.exists_eq_add_of_le hend.1.1
  have hbefore : ∀ l < m, ¬ StandsAt kind.ending (cs.drop (i + 2)) l := by
    intro l hl hl'
    have hle := hend.2 ⟨by omega, standsAt_drop.1 hl'⟩
    omega
  rw [strip_first_opener hopen hkind, Kind.strip_eq_drop hbefore, List.drop_drop,
    Kind.strip_ending hend.1.2]

theorem strip_endless_comment (hend : ∀ j, i + 2 ≤ j → ¬ StandsAt kind.ending cs j) :
    strip .code cs = cs.take i := by
  have hbefore : ∀ l < cs.length, ¬ StandsAt kind.ending (cs.drop (i + 2)) l := fun l _ hl =>
    hend (i + 2 + l) (by omega) (standsAt_drop.1 hl)
  rw [strip_first_opener hopen hkind, Kind.strip_eq_drop hbefore,
    List.drop_eq_nil_of_le (by simp), strip, List.append_nil]

end FirstOpener

/-! ## All comments -/

/-- What remains of a text, by search for the first opener and then for its ending.  The
ending is searched for behind the opener. -/
inductive Stripped : List Char → List Char → Prop where
  /-- There is no opener, and the whole text remains. -/
  | plain {cs : List Char} (hfree : OpenerFree cs) : Stripped cs cs
  /-- The text before the first comment remains, and what remains of the text behind it. -/
  | ended {cs rest : List Char} {i j : Nat} (kind : Kind) (hopen : IsLeast {i | OpensAt cs i} i)
      (hkind : StandsAt kind.opener cs i)
      (hend : IsLeast {j | i + 2 ≤ j ∧ StandsAt kind.ending cs j} j)
      (hrest : Stripped (cs.drop (j + kind.closing)) rest) : Stripped cs (cs.take i ++ rest)
  /-- The first comment takes the rest of the text. -/
  | endless {cs : List Char} {i : Nat} (kind : Kind) (hopen : IsLeast {i | OpensAt cs i} i)
      (hkind : StandsAt kind.opener cs i)
      (hend : ∀ j, i + 2 ≤ j → ¬ StandsAt kind.ending cs j) : Stripped cs (cs.take i)

theorem Stripped.strip_eq {kept : List Char} (h : Stripped cs kept) : strip .code cs = kept := by
  induction h with
  | plain hfree => exact strip_of_openerFree hfree
  | ended kind hopen hkind hend _ ih => rw [strip_ended_comment hopen hkind hend, ih]
  | endless kind hopen hkind hend => exact strip_endless_comment hopen hkind hend

/-- The search comes to an end, since each time it goes on behind an opener. -/
theorem stripped_strip (cs : List Char) : Stripped cs (strip .code cs) := by
  by_cases hfree : OpenerFree cs
  · rw [strip_of_openerFree hfree]
    exact .plain hfree
  obtain ⟨i, hopen⟩ := exists_first (not_not.1 (mt openerFree_iff.2 hfree))
  obtain ⟨kind, hkind⟩ := hopen.1
  by_cases hending : ∃ j, i + 2 ≤ j ∧ StandsAt kind.ending cs j
  · obtain ⟨j, hend⟩ := exists_first hending
    rw [strip_ended_comment hopen hkind hend]
    exact .ended kind hopen hkind hend (stripped_strip (cs.drop (j + kind.closing)))
  · have hend : ∀ j, i + 2 ≤ j → ¬ StandsAt kind.ending cs j := fun j hij hj =>
      hending ⟨j, hij, hj⟩
    rw [strip_endless_comment hopen hkind hend]
    exact .endless kind hopen hkind hend
termination_by cs.length
decreasing_by
  have hij := hend.1.1
  have hi : i < cs.length := by
    cases kind with
    | line => exact lt_length_of_standsAt hkind
    | block => exact lt_length_of_standsAt hkind
  rw [List.length_drop]
  omega

end JackLang.Text.CommentFree

namespace JackLang.Text

/-- Reading a text with modes leaves what searching it for openers and endings leaves. -/
theorem stripComments_eq_iff_stripped (source kept : String) :
    stripComments source = kept ↔ CommentFree.Stripped source.toList kept.toList := by
  rw [← String.toList_inj, toList_stripComments]
  constructor
  · intro h
    rw [← h]
    exact CommentFree.stripped_strip source.toList
  · exact CommentFree.Stripped.strip_eq

end JackLang.Text
