import JackLang.Text.CommentFree
import Mathlib.Data.List.Infix

/-!
# Comment openers

A text is *opener-free* when it has neither `//` nor `/*`.  These texts are exactly the
results of removing comments.  A result is opener-free (`openerFree_strip`), since a
slash is kept only before a character that is kept as well and makes no opener.  And an
opener-free text is its own result (`strip_of_openerFree`).

Both facts go through one condition on a character and the text behind it, `Opens`, which
looks at two characters only.  A character that is no slash and no star separates two
texts (`openerFree_append_cons`), so pieces can be checked one by one.
-/

namespace JackLang.Text.CommentFree

/-- A text without `//` and without `/*`. -/
def OpenerFree (cs : List Char) : Prop := ¬ ['/', '/'] <:+: cs ∧ ¬ ['/', '*'] <:+: cs

instance (cs : List Char) : Decidable (OpenerFree cs) :=
  inferInstanceAs (Decidable (¬ ['/', '/'] <:+: cs ∧ ¬ ['/', '*'] <:+: cs))

/-- A character opens a comment together with the text behind it. -/
def Opens (c : Char) (rest : List Char) : Prop :=
  c = '/' ∧ (rest.head? = some '/' ∨ rest.head? = some '*')

/-- A text that starts with no opener has a first character that opens nothing. -/
theorem not_opens_of_ne {c : Char} {rest : List Char}
    (hline : ∀ behind, c = '/' → rest = '/' :: behind → False)
    (hblock : ∀ behind, c = '/' → rest = '*' :: behind → False) : ¬ Opens c rest := by
  intro h
  obtain ⟨hc, hhead⟩ := h
  cases rest with
  | nil => simp at hhead
  | cons x rest =>
      rcases hhead with hhead | hhead
      · exact hline rest hc (by rw [Option.some.inj hhead])
      · exact hblock rest hc (by rw [Option.some.inj hhead])

theorem openerFree_nil : OpenerFree [] := by decide

theorem openerFree_cons {c : Char} {rest : List Char} :
    OpenerFree (c :: rest) ↔ ¬ Opens c rest ∧ OpenerFree rest := by
  have hhead (x : Char) : ['/', x] <+: c :: rest ↔ c = '/' ∧ rest.head? = some x := by
    cases rest <;> simp [List.cons_prefix_cons, eq_comm]
  rw [OpenerFree, OpenerFree, List.infix_cons_iff, List.infix_cons_iff, hhead, hhead, Opens]
  tauto

/-- A part of an opener-free text is opener-free. -/
theorem OpenerFree.of_part {cs ds : List Char} (h : OpenerFree ds) (hpart : cs <:+: ds) :
    OpenerFree cs :=
  ⟨fun hline => h.1 (hline.trans hpart), fun hblock => h.2 (hblock.trans hpart)⟩

/-- A text without slashes is opener-free. -/
theorem OpenerFree.of_not_mem {cs : List Char} (h : '/' ∉ cs) : OpenerFree cs :=
  ⟨fun hline => h (hline.subset List.mem_cons_self),
    fun hblock => h (hblock.subset List.mem_cons_self)⟩

theorem opens_append_cons_iff {b c : Char} {rest ds : List Char} (hslash : b ≠ '/')
    (hstar : b ≠ '*') : Opens c (rest ++ b :: ds) ↔ Opens c rest := by
  cases rest with
  | nil => simp [Opens, hslash, hstar]
  | cons x rest => rfl

/-- No opener goes across a character other than slash and star. -/
theorem openerFree_append_cons {b : Char} (hslash : b ≠ '/') (hstar : b ≠ '*')
    (cs ds : List Char) : OpenerFree (cs ++ b :: ds) ↔ OpenerFree cs ∧ OpenerFree ds := by
  induction cs with
  | nil =>
      have hb : ¬ Opens b ds := fun h => hslash h.1
      simp [openerFree_cons, openerFree_nil, hb]
  | cons c cs ih =>
      rw [List.cons_append, openerFree_cons, openerFree_cons, ih,
        opens_append_cons_iff hslash hstar, and_assoc]

/-! ## Removing comments -/

/-- Outside of comments a character that opens none is kept. -/
theorem strip_code_cons {c : Char} {rest : List Char} (h : ¬ Opens c rest) :
    strip .code (c :: rest) = c :: strip .code rest := by
  rw [strip]
  · rintro behind rfl rfl
    exact h ⟨rfl, .inl rfl⟩
  · rintro behind rfl rfl
    exact h ⟨rfl, .inr rfl⟩

/-- An opener-free text has no comments. -/
theorem strip_of_openerFree {cs : List Char} (h : OpenerFree cs) : strip .code cs = cs := by
  induction cs with
  | nil => rw [strip]
  | cons c rest ih =>
      obtain ⟨hopens, hrest⟩ := openerFree_cons.1 h
      rw [strip_code_cons hopens, ih hrest]

/-- A kept character opens no comment with what is kept behind it. -/
theorem not_opens_strip {c : Char} {rest : List Char} (h : ¬ Opens c rest) :
    ¬ Opens c (strip .code rest) := by
  rintro ⟨rfl, hhead⟩
  cases rest with
  | nil => simp [strip] at hhead
  | cons x rest =>
      -- The next character is no slash, so it is kept and stays next.
      have hx : ¬ Opens x rest := fun hx => h ⟨rfl, .inl (congrArg some hx.1)⟩
      rw [strip_code_cons hx] at hhead
      exact h ⟨rfl, hhead⟩

/-- What remains of a text is opener-free. -/
theorem openerFree_strip (mode : Mode) (cs : List Char) : OpenerFree (strip mode cs) := by
  fun_induction strip mode cs with
  | case1 => exact openerFree_nil
  | case2 rest ih => exact ih
  | case3 rest ih => exact ih
  | case4 c rest hline hblock ih =>
      exact openerFree_cons.2 ⟨not_opens_strip (not_opens_of_ne hline hblock), ih⟩
  | case5 rest ih => exact openerFree_cons.2 ⟨fun h => absurd h.1 (by decide), ih⟩
  | case6 c rest hc ih => exact ih
  | case7 rest ih => exact ih
  | case8 c rest hc ih => exact ih

end JackLang.Text.CommentFree

namespace JackLang.Text

open CommentFree (OpenerFree openerFree_strip strip_of_openerFree)

theorem openerFree_stripComments (source : String) :
    OpenerFree (stripComments source).toList := by
  rw [toList_stripComments]
  exact openerFree_strip .code source.toList

/-- The texts without anything to remove are the opener-free ones. -/
theorem stripComments_eq_self_iff {text : String} :
    stripComments text = text ↔ OpenerFree text.toList := by
  constructor
  · intro h
    rw [← h]
    exact openerFree_stripComments text
  · intro h
    rw [← String.toList_inj, toList_stripComments, strip_of_openerFree h]

/-- Removing comments is complete: no opener remains, and a text is left alone exactly when
it has none.  So a second removal changes nothing. -/
theorem stripComments_complete_idempotent (source : String) :
    OpenerFree (stripComments source).toList ∧
      (∀ text, stripComments text = text ↔ OpenerFree text.toList) ∧
      stripComments (stripComments source) = stripComments source := by
  refine ⟨openerFree_stripComments source, ?_, ?_⟩
  · intro text
    exact stripComments_eq_self_iff
  · exact stripComments_eq_self_iff.2 (openerFree_stripComments source)

end JackLang.Text
