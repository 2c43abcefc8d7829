import JackLang.Calculator
import JackLang.Proofs.RoundTrip
import JackLang.Proofs.Spelling

/-!
# Printing and reading expressions

An expression is *readable* when it is made of numbers, names that are no keywords, string
constants that a source text can have, parentheses and the operators with a lexeme.  These
are exactly the expressions that some text is read as, and each of them is read from its own
text.  So a text that can be read may be replaced by the text of its expression.

The printed text is cut into the tokens of the expression (`Expr.tokenize_text`).  Blanks
stand around binary operators only, so at every other place it matters what comes next: a
number or a name is followed by a blank, a closing bracket or nothing, and none of them goes
on with it.  For the same reason no comment is opened, since a slash has blanks around it.
-/

namespace JackLang

open Text.CommentFree (OpenerFree openerFree_append_cons openerFree_cons openerFree_nil)

/-! ## Readable expressions -/

/-- The binary operators that have a lexeme. -/
def BinOp.readable : List BinOp := [.add, .sub, .mul, .div, .equal]

mutual

/-- A term that some text is read as. -/
def Term.Readable : Term → Prop
  | .int _ => True
  | .string text => '"' ∉ text.toList ∧ OpenerFree text.toList
  | .keyword _ => False
  | .var name => Lexeme.isName name.toList = true ∧ name ∉ Keywords.jack
  | .paren inner => inner.Readable
  | .unary _ _ => False

/-- An expression that some text is read as. -/
def Expr.Readable : Expr → Prop
  | .single term => term.Readable
  | .binary term op rest =>
      term.Readable ∧ op ∈ BinOp.readable ∧ rest.Readable

end

/-! ## The tokens of an expression -/

mutual

/-- The tokens of a printed term. -/
def Term.tokens : Term → List Token
  | .int value => [⟨.number, value.toNat.repr⟩]
  | .string text => [⟨.string, text⟩]
  | .keyword constant => [⟨.keyword, constant.word⟩]
  | .var name => [⟨.identifier, name⟩]
  | .paren inner => ⟨.bracket, "("⟩ :: (inner.tokens ++ [⟨.bracket, ")"⟩])
  | .unary op operand => ⟨.operator, op.symbol⟩ :: operand.tokens

/-- The tokens of a printed expression. -/
def Expr.tokens : Expr → List Token
  | .single term => term.tokens
  | .binary term op rest => term.tokens ++ ⟨.operator, op.symbol⟩ :: rest.tokens

end

/-! ## Cutting the printed text -/

/-- What follows does not go on with a number or a name. -/
def Lexeme.Separate (rest : List Char) : Prop := ∀ c ∈ rest.head?, Text.isNameChar c = false

theorem Lexeme.separate_cons {c : Char} (h : Text.isNameChar c = false) (rest : List Char) :
    Separate (c :: rest) := by
  intro x hx
  cases hx
  exact h

/-- A written token is scanned as its lexeme. -/
theorem Token.scan_display {token : Token} (hwell : token.lexeme.WellFormed)
    (hkind : token.kind ≠ .operator) {rest : List Char} (hrest : Lexeme.Separate rest) :
    Lexeme.scan (token.display.toList ++ rest) = token.lexeme :: Lexeme.scan rest := by
  rw [toList_display]
  refine Lexeme.scan_source hwell ?_
  obtain ⟨kind, text⟩ := token
  cases kind with
  | number =>
      intro c hc
      exact (Bool.or_eq_false_iff.1 (hrest c hc)).2
  | keyword => exact hrest
  | identifier => exact hrest
  | operator => exact absurd rfl hkind
  | string => trivial
  | bracket => trivial

theorem Lexeme.scan_bracket {text : String} (h : text ∈ ["(", ")"]) (rest : List Char) :
    scan (text.toList ++ rest) = ⟨.bracket, text⟩ :: scan rest := by
  have hwell : WellFormed ⟨.bracket, text⟩ := h
  exact scan_source hwell trivial

mutual

/-- A printed term is scanned as its tokens. -/
theorem Term.scan_text : ∀ (t : Term), (∀ token ∈ t.tokens, token.lexeme.WellFormed) →
    ∀ rest, Lexeme.Separate rest →
      Lexeme.scan (t.text.toList ++ rest) = t.tokens.map Token.lexeme ++ Lexeme.scan rest
  | .int value, hwell, rest, hrest =>
      Token.scan_display (hwell ⟨.number, value.toNat.repr⟩ List.mem_cons_self)
        Token.Kind.noConfusion hrest
  | .string text, hwell, rest, hrest =>
      Token.scan_display (hwell ⟨.string, text⟩ List.mem_cons_self) Token.Kind.noConfusion hrest
  | .keyword constant, hwell, rest, hrest =>
      Token.scan_display (hwell ⟨.keyword, constant.word⟩ List.mem_cons_self)
        Token.Kind.noConfusion hrest
  | .var name, hwell, rest, hrest =>
      Token.scan_display (hwell ⟨.identifier, name⟩ List.mem_cons_self)
        Token.Kind.noConfusion hrest
  | .paren inner, hwell, rest, hrest => by
      rw [Term.tokens, List.forall_mem_cons, List.forall_mem_append] at hwell
      have htext : (Term.paren inner).text.toList ++ rest
          = "(".toList ++ (inner.text.toList ++ (")".toList ++ rest)) := by
        simp [Term.text]
      have hclose : Lexeme.Separate (")".toList ++ rest) := Lexeme.separate_cons (by decide) rest
      rw [htext, Lexeme.scan_bracket (by simp), Expr.scan_text inner hwell.2.1 _ hclose,
        Lexeme.scan_bracket (by simp)]
      simp [Term.tokens, Token.lexeme, Token.Kind.lexeme]
  | .unary op operand, hwell, rest, hrest => by
      rw [Term.tokens, List.forall_mem_cons] at hwell
      have htext : (Term.unary op operand).text.toList ++ rest
          = op.symbol.toList ++ (operand.text.toList ++ rest) := by
        simp [Term.text]
      have hend : Lexeme.EndsBefore ⟨.operator, op.symbol⟩ (operand.text.toList ++ rest) := by
        intro hequal
        cases op with
        | neg => exact absurd hequal (by decide)
        | not => exact absurd hequal (by decide)
      have hop := Lexeme.scan_source hwell.1 hend
      rw [Term.scan_text operand hwell.2 rest hrest] at hop
      rw [htext, Term.tokens, List.map_cons, List.cons_append]
      exact hop

theorem Expr.scan_text : ∀ (e : Expr), (∀ token ∈ e.tokens, token.lexeme.WellFormed) →
    ∀ rest, Lexeme.Separate rest →
      Lexeme.scan (e.text.toList ++ rest) = e.tokens.map Token.lexeme ++ Lexeme.scan rest
  | .single term, hwell, rest, hrest => Term.scan_text term hwell rest hrest
  | .binary term op later, hwell, rest, hrest => by
      rw [Expr.tokens, List.forall_mem_append, List.forall_mem_cons] at hwell
      obtain ⟨hterm, hop, hlater⟩ := hwell
      have htext : (Expr.binary term op later).text.toList ++ rest =
          term.text.toList ++ ' ' ::
            (op.symbol.toList ++ ' ' :: (later.text.toList ++ rest)) := by
        simp [Expr.text]
      have hblank (behind : List Char) : Lexeme.Separate (' ' :: behind) :=
        Lexeme.separate_cons (by decide) behind
      have hspace := Lexeme.isSeparator_space
      have hend : Lexeme.EndsBefore ⟨.operator, op.symbol⟩ (' ' :: (later.text.toList ++ rest)) :=
        Lexeme.endsBefore_of_head (by simpa using hspace.1)
      have hsymbol := Lexeme.scan_source hop hend
      rw [Lexeme.scan_separator hspace, Expr.scan_text later hlater rest hrest] at hsymbol
      rw [htext, Term.scan_text term hterm _ (hblank _), Lexeme.scan_separator hspace, Expr.tokens,
        List.map_append, List.map_cons, List.append_assoc, List.cons_append]
      exact congrArg _ hsymbol

end

mutual

/-- A printed term opens no comment if none of its tokens does. -/
theorem Term.openerFree_text : ∀ (t : Term),
    (∀ token ∈ t.tokens, OpenerFree token.lexeme.source) → OpenerFree t.text.toList
  | .int value, hfree => hfree ⟨.number, value.toNat.repr⟩ List.mem_cons_self
  | .string text, hfree => by
      have htext := Token.toList_display ⟨.string, text⟩
      exact htext ▸ hfree ⟨.string, text⟩ List.mem_cons_self
  | .keyword constant, hfree => hfree ⟨.keyword, constant.word⟩ List.mem_cons_self
  | .var name, hfree => hfree ⟨.identifier, name⟩ List.mem_cons_self
  | .paren inner, hfree => by
      rw [Term.tokens, List.forall_mem_cons, List.forall_mem_append] at hfree
      have htext : (Term.paren inner).text.toList = '(' :: (inner.text.toList ++ [')']) := by
        simp [Term.text]
      rw [htext, openerFree_cons, openerFree_append_cons (by decide) (by decide)]
      exact ⟨fun h => absurd h.1 (by decide), Expr.openerFree_text inner hfree.2.1, openerFree_nil⟩
  | .unary op operand, hfree => by
      rw [Term.tokens, List.forall_mem_cons] at hfree
      have hrest := Term.openerFree_text operand hfree.2
      have htext : (Term.unary op operand).text.toList
          = op.symbol.toList ++ operand.text.toList := by
        simp [Term.text]
      rw [htext]
      cases op with
      | neg => exact openerFree_cons.2 ⟨fun h => absurd h.1 (by decide), hrest⟩
      | not => exact openerFree_cons.2 ⟨fun h => absurd h.1 (by decide), hrest⟩

theorem Expr.openerFree_text : ∀ (e : Expr),
    (∀ token ∈ e.tokens, OpenerFree token.lexeme.source) → OpenerFree e.text.toList
  | .single term, hfree => Term.openerFree_text term hfree
  | .binary term op later, hfree => by
      rw [Expr.tokens, List.forall_mem_append, List.forall_mem_cons] at hfree
      obtain ⟨hterm, hop, hlater⟩ := hfree
      have htext : (Expr.binary term op later).text.toList
          = term.text.toList ++ ' ' :: (op.symbol.toList ++ ' ' :: later.text.toList) := by
        simp [Expr.text]
      rw [htext, openerFree_append_cons (by decide) (by decide),
        openerFree_append_cons (by decide) (by decide)]
      exact ⟨Term.openerFree_text term hterm, hop, Expr.openerFree_text later hlater⟩

end

/-- Where its tokens can stand in a source text, a printed expression is cut into them. -/
theorem Expr.tokenize_text {keywords : Keywords} {e : Expr}
    (h : ∀ token ∈ e.tokens, token.WellFormed keywords) :
    Token.tokenize keywords e.text = e.tokens := by
  have hwell : ∀ t ∈ e.tokens, t.lexeme.WellFormed :=
    fun t ht => (Token.wellFormed_iff.1 (h t ht)).1
  have hfree : ∀ t ∈ e.tokens, OpenerFree t.lexeme.source :=
    fun t ht => (Token.wellFormed_iff.1 (h t ht)).2.1
  have hscan := e.scan_text hwell [] (by intro c hc; cases hc)
  rw [List.append_nil, Lexeme.scan_nil, List.append_nil] at hscan
  exact Token.tokenize_of_scan h (e.openerFree_text hfree) hscan

/-! ## Readable expressions are printed and read -/

theorem BinOp.symbol_mem_spellings {op : BinOp} (h : op ∈ readable) :
    op.symbol ∈ op.spellings := by
  simp only [readable, List.mem_cons, List.not_mem_nil, or_false] at h
  rcases h with rfl | rfl | rfl | rfl | rfl
  all_goals simp [BinOp.symbol, BinOp.spellings]

theorem BinOp.mem_of_mem_spellings {op : BinOp} {symbol : String} (h : symbol ∈ op.spellings) :
    op ∈ readable := by
  cases op with
  | add | sub | mul | div | equal => simp [readable]
  | and | or | less | greater => cases h

theorem BinOp.scanned_of_mem_spellings {op : BinOp} {symbol : String} (h : symbol ∈ op.spellings) :
    symbol ∈ ["+", "-", "*", "/", "=", "=="] := by
  cases op with
  | add | sub | mul | div | equal =>
      simp only [BinOp.spellings, List.mem_cons, List.not_mem_nil, or_false] at h
      simp [h]
  | and | or | less | greater => cases h

theorem Lexeme.isNumber_repr (n : Nat) : isNumber n.repr.toList = true := by
  simp only [isNumber, Bool.and_eq_true, Bool.not_eq_true', List.isEmpty_eq_false_iff,
    List.all_eq_true, Nat.toList_repr]
  exact ⟨Nat.toDigits_ne_nil, fun c hc => Nat.isDigit_of_mem_toDigits (by omega) (by omega) hc⟩

mutual

/-- A readable term is spelled by its tokens, and they can stand in a source text. -/
theorem Term.Readable.tokens_spell : ∀ {t : Term}, t.Readable →
    t.SpelledBy t.tokens ∧ ∀ token ∈ t.tokens, token.WellFormed .jack
  | .int value, _ => by
      have hdigits := Lexeme.isNumber_repr value.toNat
      have hvalue : Nat.ofDigitChars 10 value.toNat.repr.toList 0 = value.toNat := by
        rw [Nat.toList_repr, Nat.ofDigitChars_ten_toDigits]
      exact ⟨.int hdigits hvalue, List.forall_mem_singleton.2 hdigits⟩
  | .string text, h => ⟨.string text, List.forall_mem_singleton.2 h⟩
  | .var name, h => ⟨.var name, List.forall_mem_singleton.2 h⟩
  | .paren inner, h => by
      have hinner : inner.Readable := h
      obtain ⟨hspelled, hwell⟩ := Expr.Readable.tokens_spell hinner
      have hopen : Token.WellFormed .jack ⟨.bracket, "("⟩ := List.mem_cons_self
      have hclose : Token.WellFormed .jack ⟨.bracket, ")"⟩ :=
        List.mem_cons_of_mem _ List.mem_cons_self
      refine ⟨.paren hspelled, ?_⟩
      rw [Term.tokens, List.forall_mem_cons, List.forall_mem_append]
      exact ⟨hopen, hwell, List.forall_mem_singleton.2 hclose⟩
  | .keyword _, h => h.elim
  | .unary _ _, h => h.elim

theorem Expr.Readable.tokens_spell : ∀ {e : Expr}, e.Readable →
    e.SpelledBy e.tokens ∧ ∀ token ∈ e.tokens, token.WellFormed .jack
  | .single term, h => by
      have hterm : term.Readable := h
      obtain ⟨hspelled, hwell⟩ := Term.Readable.tokens_spell hterm
      exact ⟨.single hspelled, hwell⟩
  | .binary term op rest, h => by
      obtain ⟨hterm, hop, hrest⟩ := h
      obtain ⟨hspelled, hwell⟩ := Term.Readable.tokens_spell hterm
      obtain ⟨hspelledRest, hwellRest⟩ := Expr.Readable.tokens_spell hrest
      have hsymbol := BinOp.symbol_mem_spellings hop
      have hscanned : Token.WellFormed .jack ⟨.operator, op.symbol⟩ :=
        BinOp.scanned_of_mem_spellings hsymbol
      refine ⟨.binary hspelled hsymbol hspelledRest, ?_⟩
      rw [Expr.tokens, List.forall_mem_append, List.forall_mem_cons]
      exact ⟨hwell, hscanned, hwellRest⟩

end

mutual

/-- What tokens of a source text spell is readable. -/
theorem Term.SpelledBy.readable : ∀ {t : Term} {tokens : List Token}, t.SpelledBy tokens →
    (∀ token ∈ tokens, token.WellFormed .jack) → t.Readable
  | _, _, .int _ _, _ => trivial
  | _, _, .var name, hwell => hwell ⟨.identifier, name⟩ List.mem_cons_self
  | _, _, .string text, hwell => hwell ⟨.string, text⟩ List.mem_cons_self
  | _, _, .paren hinner, hwell => by
      rw [List.forall_mem_cons, List.forall_mem_append] at hwell
      exact Expr.SpelledBy.readable hinner hwell.2.1

theorem Expr.SpelledBy.readable : ∀ {e : Expr} {tokens : List Token}, e.SpelledBy tokens →
    (∀ token ∈ tokens, token.WellFormed .jack) → e.Readable
  | _, _, .single hterm, hwell => Term.SpelledBy.readable hterm hwell
  | _, _, .binary hterm hop hrest, hwell => by
      rw [List.forall_mem_append, List.forall_mem_cons] at hwell
      exact ⟨Term.SpelledBy.readable hterm hwell.1, BinOp.mem_of_mem_spellings hop,
        Expr.SpelledBy.readable hrest hwell.2.2⟩

end

theorem Token.WellFormed.plain {keywords : Keywords} {token : Token}
    (h : token.WellFormed keywords) : token.Plain := by
  obtain ⟨kind, text⟩ := token
  constructor
  · rintro rfl
    exact h
  · rintro rfl
    exact h

namespace Calculator

theorem read_eq_ok_iff {text : String} {e : Expr} :
    read text = .ok e ↔ Expr.ofTokens (Token.tokenize .jack text) = .ok e := by
  rw [read]
  split
  · next found hfound => rw [hfound, Except.ok.injEq, Except.ok.injEq]
  · next cause hcause =>
      rw [hcause]
      constructor
      · intro h
        cases h
      · intro h
        cases h

theorem read_text {e : Expr} (h : e.Readable) : read e.text = .ok e := by
  obtain ⟨hspelled, hwell⟩ := h.tokens_spell
  rw [read_eq_ok_iff, Expr.tokenize_text hwell]
  exact Expr.ofTokens_of_spelledBy hspelled

theorem readable_of_read {text : String} {e : Expr} (h : read text = .ok e) : e.Readable := by
  have hwell : ∀ token ∈ Token.tokenize .jack text, token.WellFormed .jack :=
    fun token => Token.wellFormed_of_mem_tokenize
  have hspelled := Expr.spelledBy_of_ofTokens (fun token htoken => (hwell token htoken).plain)
    (read_eq_ok_iff.1 h)
  exact hspelled.readable hwell

/-- The readable expressions are those that are read from their own text, and those that are
read from any text.  So a text may be replaced by the text of what it is read as. -/
theorem readable_iff_read_text (e : Expr) :
    (e.Readable ↔ read e.text = .ok e) ∧ (e.Readable ↔ ∃ text, read text = .ok e) ∧
      ∀ text, read text = .ok e → read e.text = .ok e := by
  refine ⟨⟨read_text, readable_of_read⟩, ⟨?_, ?_⟩, ?_⟩
  · intro h
    exact ⟨e.text, read_text h⟩
  · rintro ⟨text, h⟩
    exact readable_of_read h
  · intro text h
    exact read_text (readable_of_read h)

end Calculator

end JackLang
