import JackLang.Proofs.Openers
import JackLang.Proofs.Segmentation
import JackLang.Token

/-!
# Separators

A *separator* is a character that belongs to no lexeme: it is blank and no quote.  The texts
before and behind it are cut into lexemes apart, unless it stands inside of a string
constant.  It does not when the quotes before it come in pairs, or when no quote follows; in
the second case the last quote before it may have no partner and is skipped
(`Lexeme.scan_append_separator`).

Comments go across separators.  The text behind one is read in the mode in which the text
before it ends (`Text.CommentFree.strip_append_cons`).  A newline ends a line comment, so
that only a block comment goes across it.  Lines can therefore be tokenized one by one, as
long as no block comment and no string constant takes in the end of a line.
-/

namespace JackLang

namespace Text.CommentFree

variable {b c : Char} {rest ds : List Char}

/-! ## Comments -/

/-- Outside of comments a character that opens none does not change the mode. -/
theorem modeAfter_code_cons (h : ¬ Opens c rest) :
    modeAfter .code (c :: rest) = modeAfter .code rest := by
  rw [modeAfter]
  · intro behind hc hrest
    exact h ⟨hc, .inl (congrArg List.head? hrest)⟩
  · intro behind hc hrest
    exact h ⟨hc, .inr (congrArg List.head? hrest)⟩

/-- Behind a character other than slash and star, reading goes on in the mode in which the
text before it ends. -/
theorem strip_append_cons (hslash : b ≠ '/') (hstar : b ≠ '*') (mode : Mode)
    (cs ds : List Char) :
    strip mode (cs ++ b :: ds) = strip mode cs ++ strip (modeAfter mode cs) (b :: ds) := by
  fun_induction strip mode cs with
  | case1 mode => rw [List.nil_append, List.nil_append, modeAfter]
  | case2 rest ih | case3 rest ih | case5 rest ih | case7 rest ih =>
      simp only [List.cons_append, strip, modeAfter, ih]
  | case4 c rest hline hblock ih =>
      have hopens : ¬ Opens c rest := not_opens_of_ne hline hblock
      have hopens' : ¬ Opens c (rest ++ b :: ds) :=
        mt (opens_append_cons_iff hslash hstar).1 hopens
      rw [List.cons_append, strip_code_cons hopens', ih, modeAfter_code_cons hopens,
        List.cons_append]
  | case6 c rest hc ih =>
      rw [List.cons_append, strip, ih, modeAfter]
      · exact hc
      · exact hc
  | case8 c rest hc ih =>
      rw [List.cons_append, strip, ih, modeAfter]
      · exact hc
      · -- The first text may end in a star, which the second cannot complete.
        intro behind hcstar hrest
        cases rest with
        | nil => exact hslash (List.cons.inj hrest).1
        | cons x rest => exact hc rest hcstar (by rw [(List.cons.inj hrest).1])

/-- A newline leads out of a line comment, so that the next line is read outside of comments
unless a block comment is open. -/
theorem strip_newline {mode : Mode} (hmode : mode ≠ .block) (ds : List Char) :
    strip mode ('\n' :: ds) = '\n' :: strip .code ds := by
  cases mode with
  | code => rw [strip_code_cons fun h => absurd h.1 (by decide)]
  | line => rw [strip]
  | block => exact absurd rfl hmode

end Text.CommentFree

namespace Lexeme

variable {b : Char} {d : Lexeme} {cs ds rest : List Char}

/-! ## Lexemes -/

/-- A character that belongs to no lexeme, unless it stands in a string constant. -/
def IsSeparator (b : Char) : Prop := isBlank b = true ∧ b ≠ '"'

theorem isSeparator_space : IsSeparator ' ' := ⟨by decide, by decide⟩

theorem isSeparator_newline : IsSeparator '\n' := ⟨by decide, by decide⟩

/-- A separator is skipped. -/
theorem scan_separator (hb : IsSeparator b) (rest : List Char) :
    scan (b :: rest) = scan rest := by
  have hstep : step b rest = (none, rest) := step_blank hb.1 fun hquote => absurd hquote hb.2
  rw [scan_cons, hstep]
  rfl

/-- A lexeme ends before a blank and at the end of a text. -/
theorem endsBefore_of_head (h : ∀ c ∈ rest.head?, isBlank c = true) : d.EndsBefore rest := by
  obtain ⟨kind, text⟩ := d
  cases kind with
  | number =>
      intro c hc
      obtain ⟨-, hdigit, -⟩ := isBlank_iff.1 (h c hc)
      exact hdigit
  | name =>
      intro c hc
      obtain ⟨hletter, hdigit, -⟩ := isBlank_iff.1 (h c hc)
      rw [Text.isNameChar, hletter, hdigit, Bool.or_false]
  | operator =>
      intro _ hequal
      obtain ⟨-, -, -, hne, -⟩ := isBlank_iff.1 (h '=' hequal)
      exact hne rfl
  | string => trivial
  | bracket => trivial

theorem EndsBefore.append_cons (h : d.EndsBefore rest) (hb : isBlank b = true) :
    d.EndsBefore (rest ++ b :: ds) := by
  cases rest with
  | nil => exact endsBefore_of_head (by simpa using hb)
  | cons c rest => exact h

/-- The texts before and behind a separator are scanned apart, unless it stands in a string
constant. -/
theorem scan_append_separator (hb : IsSeparator b) (h : cs.count '"' % 2 = 0 ∨ '"' ∉ ds) :
    scan (cs ++ b :: ds) = scan cs ++ scan ds := by
  induction cs using scan.induct with
  | case1 => rw [List.nil_append, scan_separator hb, scan_nil, List.nil_append]
  | case2 c rest ih =>
      -- A step over the first text is the same with the second one behind it, and keeps the
      -- condition on quotes.
      rcases step_cases c rest with
        ⟨hstep, hblank, hlast⟩ | ⟨d, behind, hstep, hsource, hd, hend⟩
      · rw [hstep] at ih
        have hfree : c = '"' → '"' ∉ ds := by
          intro hc
          have hone : (c :: rest).count '"' = 1 := by
            rw [hc, List.count_cons_self, List.count_eq_zero.2 (hlast hc)]
          exact h.resolve_left (by omega)
        have hlast' : c = '"' → '"' ∉ rest ++ b :: ds := by
          intro hc
          simp [hlast hc, hfree hc, hb.2.symm]
        have hrest : rest.count '"' % 2 = 0 ∨ '"' ∉ ds := by
          by_cases hc : c = '"'
          · exact .inr (hfree hc)
          · rwa [List.count_cons_of_ne hc] at h
        rw [List.cons_append, scan_cons, step_blank hblank hlast', scan_cons, hstep]
        exact ih hrest
      · rw [hstep] at ih
        have hbehind : behind.count '"' % 2 = 0 ∨ '"' ∉ ds := by
          have hpaired := count_quote_source_mod_two hd
          rw [hsource, List.count_append] at h
          exact h.imp_left fun heven => by omega
        rw [hsource, List.append_assoc, scan_source hd (hend.append_cons hb.1), ih hbehind,
          scan_source hd hend, List.cons_append]

end Lexeme

/-! ## Lines -/

open Text (stripComments)
open Text.CommentFree (modeAfter)

/-- Comments are removed line by line, unless a block comment is open at the end of one. -/
theorem Text.toList_stripComments_append_newline {a : String}
    (hmode : modeAfter .code a.toList ≠ .block) (b : String) :
    (stripComments (a ++ "\n" ++ b)).toList =
      (stripComments a).toList ++ '\n' :: (stripComments b).toList := by
  have htext : (a ++ "\n" ++ b).toList = a.toList ++ '\n' :: b.toList := by simp
  rw [toList_stripComments, htext, CommentFree.strip_append_cons (by decide) (by decide),
    CommentFree.strip_newline hmode, toList_stripComments, toList_stripComments]

/-- The tokens of two texts with a newline between them are those of the first and then
those of the second, when neither a block comment nor a string constant goes from one into
the other. -/
theorem Token.tokenize_append_newline (keywords : Keywords) (a b : String)
    (hmode : modeAfter .code a.toList ≠ .block)
    (hquotes : (stripComments a).toList.count '"' % 2 = 0 ∨ '"' ∉ (stripComments b).toList) :
    tokenize keywords (a ++ "\n" ++ b) = tokenize keywords a ++ tokenize keywords b := by
  rw [tokenize, Lexeme.ofSource, Text.toList_stripComments_append_newline hmode b,
    Lexeme.scan_append_separator Lexeme.isSeparator_newline hquotes, List.map_append]
  rfl

/-- The first line has a quote without a partner and ends in a comment with another one, and
the second line starts with a slash. -/
theorem Token.tokenize_append_newline_half_open :
    modeAfter .code "x = \"y // \"z /*".toList ≠ .block ∧
      '"' ∉ (stripComments "/ 2 /* \" */ = w").toList ∧
      tokenize .jack ("x = \"y // \"z /*" ++ "\n" ++ "/ 2 /* \" */ = w") =
        tokenize .jack "x = \"y // \"z /*" ++ tokenize .jack "/ 2 /* \" */ = w" ∧
      tokenize .jack "x = \"y // \"z /*" =
        [⟨.identifier, "x"⟩, ⟨.operator, "="⟩, ⟨.identifier, "y"⟩] ∧
      tokenize .jack "/ 2 /* \" */ = w" =
        [⟨.operator, "/"⟩, ⟨.number, "2"⟩, ⟨.operator, "="⟩, ⟨.identifier, "w"⟩] := by
  have hmode : modeAfter .code "x = \"y // \"z /*".toList ≠ .block := by decide
  have hquotes : '"' ∉ (stripComments "/ 2 /* \" */ = w").toList := by decide
  refine ⟨hmode, hquotes, tokenize_append_newline .jack _ _ hmode (.inr hquotes), ?_, ?_⟩
  · decide +kernel
  · decide +kernel

end JackLang
