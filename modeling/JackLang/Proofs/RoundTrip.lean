import JackLang.Proofs.Separators

/-!
# Rendering and reading back

Tokens that are rendered and tokenized again come back exactly when each of them is
*well-formed*: its text has the shape of its kind, the keyword set agrees with its kind,
and as a string constant it has no comment opener.  The tokens of a source text are
well-formed, so they come back when they are rendered.

A token is written like the lexeme it comes from (`toList_display`).  Well-formed tokens
are those whose lexeme is well-formed, is written without a comment opener and is
classified as the token again (`wellFormed_iff`).  The first two conditions let the
rendered text pass through the removal of comments and the scanner, one blank between two
lexemes being enough to end the first of them.
-/

namespace JackLang

open Text.CommentFree (OpenerFree openerFree_append_cons openerFree_cons openerFree_nil
  openerFree_strip strip_of_openerFree)

namespace Lexeme

/-- A well-formed lexeme has a comment opener only inside of a string constant. -/
theorem openerFree_source_iff {d : Lexeme} (hd : d.WellFormed) :
    OpenerFree d.source ↔ (d.kind = .string → OpenerFree d.text.toList) := by
  obtain ⟨kind, text⟩ := d
  cases kind with
  | string =>
      have hopens : ¬ Text.CommentFree.Opens '"' (text.toList ++ ['"']) :=
        fun h => absurd h.1 (by decide)
      simp [source, openerFree_cons, hopens, openerFree_append_cons, openerFree_nil]
  | number =>
      refine iff_of_true (.of_not_mem fun hmem => ?_) (by simp)
      exact absurd (isNameChar_of_isNumber hd _ hmem) (by decide)
  | name =>
      refine iff_of_true (.of_not_mem fun hmem => ?_) (by simp)
      exact absurd (isNameChar_of_isName hd _ hmem) (by decide)
  | operator =>
      have hd : text ∈ ["+", "-", "*", "/", "=", "=="] := hd
      have hall : ∀ text ∈ ["+", "-", "*", "/", "=", "=="], OpenerFree text.toList := by decide
      exact iff_of_true (hall text hd) (by simp)
  | bracket =>
      have hd : text ∈ ["(", ")"] := hd
      have hall : ∀ text ∈ ["(", ")"], OpenerFree text.toList := by decide
      exact iff_of_true (hall text hd) (by simp)

end Lexeme

namespace Token

/-! ## Well-formed tokens -/

/-- The text of a token is one that a source text can have as a token of its kind. -/
def WellFormed (keywords : Keywords) (token : Token) : Prop :=
  match token.kind with
  | .number => Lexeme.isNumber token.text.toList = true
  | .string => '"' ∉ token.text.toList ∧ OpenerFree token.text.toList
  | .keyword => Lexeme.isName token.text.toList = true ∧ token.text ∈ keywords
  | .identifier => Lexeme.isName token.text.toList = true ∧ token.text ∉ keywords
  | .operator => token.text ∈ ["+", "-", "*", "/", "=", "=="]
  | .bracket => token.text ∈ ["(", ")"]

/-- The kind of the lexemes that become tokens of a kind. -/
def Kind.lexeme : Kind → Lexeme.Kind
  | .number => .number
  | .string => .string
  | .keyword | .identifier => .name
  | .operator => .operator
  | .bracket => .bracket

/-- The lexeme of a token. -/
def lexeme (token : Token) : Lexeme := ⟨token.kind.lexeme, token.text⟩

theorem lexeme_ofLexeme (keywords : Keywords) (d : Lexeme) :
    (ofLexeme keywords d).lexeme = d := by
  obtain ⟨kind, text⟩ := d
  cases kind with
  | name =>
      by_cases hmem : text ∈ keywords
      · simp [lexeme, ofLexeme, Kind.ofLexeme, hmem, Kind.lexeme]
      · simp [lexeme, ofLexeme, Kind.ofLexeme, hmem, Kind.lexeme]
  | number | string | operator | bracket => rfl

/-- A token is written like its lexeme. -/
theorem toList_display (token : Token) : token.display.toList = token.lexeme.source := by
  obtain ⟨kind, text⟩ := token
  cases kind with
  | string => simp [display, lexeme, Kind.lexeme, Lexeme.source]
  | number | keyword | identifier | operator | bracket => rfl

/-- A token is well-formed when its lexeme is, is written without a comment opener and
becomes the token again. -/
theorem wellFormed_iff {keywords : Keywords} {token : Token} :
    token.WellFormed keywords ↔
      token.lexeme.WellFormed ∧ OpenerFree token.lexeme.source ∧
        ofLexeme keywords token.lexeme = token := by
  rw [← and_assoc, and_congr_right Lexeme.openerFree_source_iff]
  obtain ⟨kind, text⟩ := token
  cases kind with
  | keyword | identifier =>
      by_cases hmem : text ∈ keywords
      all_goals simp [WellFormed, lexeme, Kind.lexeme, Lexeme.WellFormed, ofLexeme,
        Kind.ofLexeme, hmem]
  | number | string | operator | bracket =>
      simp [WellFormed, lexeme, Kind.lexeme, Lexeme.WellFormed, ofLexeme, Kind.ofLexeme]

/-! ## Rendered text -/

theorem toList_render_singleton (token : Token) :
    (render [token]).toList = token.lexeme.source := toList_display token

theorem toList_render_cons (token next : Token) (rest : List Token) :
    (render (token :: next :: rest)).toList =
      token.lexeme.source ++ ' ' :: (render (next :: rest)).toList := by
  simp [render, toList_display]

/-- Rendered tokens are scanned as their lexemes. -/
theorem scan_render {tokens : List Token} (h : ∀ t ∈ tokens, t.lexeme.WellFormed) :
    Lexeme.scan (render tokens).toList = tokens.map lexeme := by
  induction tokens with
  | nil => exact Lexeme.scan_nil
  | cons token rest ih =>
      obtain ⟨htoken, hrest⟩ := List.forall_mem_cons.1 h
      cases rest with
      | nil =>
          have hend : token.lexeme.EndsBefore [] := Lexeme.endsBefore_of_head (by simp)
          have hscan := Lexeme.scan_source htoken hend
          rw [List.append_nil, Lexeme.scan_nil] at hscan
          rw [toList_render_singleton, hscan, List.map_singleton]
      | cons next rest =>
          have hspace := Lexeme.isSeparator_space
          have hend : token.lexeme.EndsBefore (' ' :: (render (next :: rest)).toList) :=
            Lexeme.endsBefore_of_head (by simpa using hspace.1)
          rw [toList_render_cons, Lexeme.scan_source htoken hend, Lexeme.scan_separator hspace,
            ih hrest]
          rfl

/-- Rendered tokens have a comment opener only if one of them has. -/
theorem openerFree_render {tokens : List Token} (h : ∀ t ∈ tokens, OpenerFree t.lexeme.source) :
    OpenerFree (render tokens).toList := by
  induction tokens with
  | nil => exact openerFree_nil
  | cons token rest ih =>
      obtain ⟨htoken, hrest⟩ := List.forall_mem_cons.1 h
      cases rest with
      | nil =>
          rw [toList_render_singleton]
          exact htoken
      | cons next rest =>
          rw [toList_render_cons, openerFree_append_cons (by decide) (by decide)]
          exact ⟨htoken, ih hrest⟩

/-! ## Both directions -/

/-- A text without comments that is scanned as the lexemes of well-formed tokens has these
tokens. -/
theorem tokenize_of_scan {keywords : Keywords} {tokens : List Token} {text : String}
    (h : ∀ t ∈ tokens, t.WellFormed keywords) (hfree : OpenerFree text.toList)
    (hscan : Lexeme.scan text.toList = tokens.map lexeme) : tokenize keywords text = tokens := by
  have hback : ∀ t ∈ tokens, ofLexeme keywords t.lexeme = t :=
    fun t ht => (wellFormed_iff.1 (h t ht)).2.2
  rw [tokenize, Lexeme.ofSource, Text.toList_stripComments, strip_of_openerFree hfree, hscan,
    List.map_map]
  exact (List.map_congr_left hback).trans (List.map_id _)

/-- Well-formed tokens come back. -/
theorem tokenize_render {keywords : Keywords} {tokens : List Token}
    (h : ∀ t ∈ tokens, t.WellFormed keywords) : tokenize keywords (render tokens) = tokens := by
  have hwell : ∀ t ∈ tokens, t.lexeme.WellFormed := fun t ht => (wellFormed_iff.1 (h t ht)).1
  have hfree : ∀ t ∈ tokens, OpenerFree t.lexeme.source :=
    fun t ht => (wellFormed_iff.1 (h t ht)).2.1
  exact tokenize_of_scan h (openerFree_render hfree) (scan_render hwell)

/-- The tokens of a source text are well-formed. -/
theorem wellFormed_of_mem_tokenize {keywords : Keywords} {source : String} {token : Token}
    (h : token ∈ tokenize keywords source) : token.WellFormed keywords := by
  obtain ⟨d, hd, rfl⟩ := List.mem_map.1 h
  rw [Lexeme.ofSource, Text.toList_stripComments] at hd
  obtain ⟨hwell, hpart⟩ := Lexeme.of_mem_scan hd
  rw [wellFormed_iff, lexeme_ofLexeme]
  exact ⟨hwell, (openerFree_strip .code source.toList).of_part hpart, rfl⟩

/-- Rendered tokens come back exactly when they are well-formed, and the tokens of any
source text are and do. -/
theorem tokenize_render_eq_iff (keywords : Keywords) (tokens : List Token) (source : String) :
    (tokenize keywords (render tokens) = tokens ↔ ∀ t ∈ tokens, t.WellFormed keywords) ∧
      (∀ t ∈ tokenize keywords source, t.WellFormed keywords) ∧
        tokenize keywords (render (tokenize keywords source)) = tokenize keywords source := by
  have hsource : ∀ t ∈ tokenize keywords source, t.WellFormed keywords :=
    fun t ht => wellFormed_of_mem_tokenize ht
  refine ⟨⟨?_, tokenize_render⟩, hsource, tokenize_render hsource⟩
  intro h t ht
  rw [← h] at ht
  exact wellFormed_of_mem_tokenize ht

end Token

end JackLang
