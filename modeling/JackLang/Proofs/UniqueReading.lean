import JackLang.Proofs.Printing

/-!
# Printed expressions can be told apart

Two expressions with the same text are the same, as long as names look like names and no
string constant has a quote.  This holds of every expression and not only of those that the
scanner can read back: an operator without a lexeme, a keyword and a unary operator are
printed all the same.

The text of a term is followed by a blank, a closing bracket or nothing, and the proof reads
from the left.  The first character tells words, string constants, groups and signs apart
(`Term.exists_head`).  A word ends where no name character follows, a string constant at the
next quote, and a group at its own closing bracket.  So a term is found together with the
text behind it (`Term.eq_of_text_append`), and that tells whether the chain goes on.
-/

namespace JackLang

open Lexeme (Separate isName isNumber isQuotable span_append)
open Text (isNameChar)

/-! ## Legible expressions -/

mutual

/-- Names look like names and do not stand for values, and strings have no quote. -/
def Term.Legible : Term → Prop
  | .int _ | .keyword _ => True
  | .string text => '"' ∉ text.toList
  | .var name => isName name.toList = true ∧ ∀ constant : KeywordConst, name ≠ constant.word
  | .paren inner => inner.Legible
  | .unary _ operand => operand.Legible

/-- All terms of an expression are legible. -/
def Expr.Legible : Expr → Prop
  | .single term => term.Legible
  | .binary term _ rest => term.Legible ∧ rest.Legible

end

/-! ## Symbols and words -/

/-- What can be read back is written in one way only. -/
theorem injective_of_read {α : Type} {write : α → String} {read : String → Option α}
    (h : ∀ a, read (write a) = some a) : Function.Injective write := by
  intro a b hwritten
  have hread := congrArg read hwritten
  rwa [h, h, Option.some.injEq] at hread

/-- A symbol of one character is told together with the text behind it. -/
theorem eq_of_symbol_append {α : Type} {symbol : α → String} {read : String → Option α}
    (hread : ∀ a, read (symbol a) = some a) (hlength : ∀ a, (symbol a).toList.length = 1)
    {a b : α} {rest rest' : List Char}
    (h : (symbol a).toList ++ rest = (symbol b).toList ++ rest') : a = b ∧ rest = rest' := by
  obtain ⟨hsymbol, hrest⟩ := List.append_inj h ((hlength a).trans (hlength b).symm)
  exact ⟨injective_of_read hread (String.toList_inj.1 hsymbol), hrest⟩

theorem BinOp.length_symbol (op : BinOp) : op.symbol.toList.length = 1 := by
  cases op with
  | add | sub | mul | div | and | or | less | greater | equal => rfl

theorem UnOp.length_symbol (op : UnOp) : op.symbol.toList.length = 1 := by
  cases op with
  | neg | not => rfl

theorem Lexeme.isName_word (k : KeywordConst) : isName k.word.toList = true := by
  cases k with
  | true | false | null | this => rfl

theorem Lexeme.not_isName_of_isNumber {cs : List Char} (h : isNumber cs = true) :
    isName cs = false := by
  cases cs with
  | nil => rfl
  | cons c rest =>
      rw [isNumber, Bool.and_eq_true, List.all_cons, Bool.and_eq_true] at h
      rw [isName, isLetter_of_isDigit h.2.1, Bool.false_and]

/-- A run of characters is told from the text behind it. -/
theorem Lexeme.run_append_inj {p : Char → Bool} {run run' rest rest' : List Char}
    (hrun : ∀ c ∈ run, p c = true) (hrun' : ∀ c ∈ run', p c = true)
    (hrest : ∀ c ∈ rest.head?, p c = false) (hrest' : ∀ c ∈ rest'.head?, p c = false)
    (h : run ++ rest = run' ++ rest') : run = run' ∧ rest = rest' := by
  obtain ⟨htake, hdrop⟩ := span_append hrun hrest
  obtain ⟨htake', hdrop'⟩ := span_append hrun' hrest'
  rw [h] at htake hdrop
  exact ⟨htake.symm.trans htake', hdrop.symm.trans hdrop'⟩

/-! ## First characters -/

/-- What the first character of a term tells. -/
inductive Lead where
  /-- A number, a keyword or a name. -/
  | word
  /-- A string constant. -/
  | quote
  /-- A group in parentheses. -/
  | group
  /-- A unary operator. -/
  | sign

/-- What a character tells as the first of a term. -/
def Lead.ofChar (c : Char) : Lead :=
  if isNameChar c then .word
  else if c = '"' then .quote
  else if c = '(' then .group
  else .sign

/-- What a term starts with. -/
def Term.lead : Term → Lead
  | .int _ | .keyword _ | .var _ => .word
  | .string _ => .quote
  | .paren _ => .group
  | .unary _ _ => .sign

/-- A word is a number or a name. -/
theorem Term.isNumber_or_isName {t : Term} (h : t.Legible) (hword : t.lead = .word) :
    isNumber t.text.toList = true ∨ isName t.text.toList = true := by
  cases t with
  | int value =>
      rw [Term.text]
      exact .inl (Lexeme.isNumber_repr value.toNat)
  | keyword constant =>
      rw [Term.text]
      exact .inr (Lexeme.isName_word constant)
  | var name =>
      rw [Term.text]
      exact .inr h.1
  | string text => cases hword
  | paren inner => cases hword
  | unary op operand => cases hword

theorem Term.isNameChar_of_mem_text {t : Term} (h : t.Legible) (hword : t.lead = .word) :
    ∀ c ∈ t.text.toList, isNameChar c = true := by
  rcases Term.isNumber_or_isName h hword with hnumber | hname
  · exact Lexeme.isNameChar_of_isNumber hnumber
  · exact Lexeme.isNameChar_of_isName hname

theorem Lexeme.eq_of_repr_eq {n m : Nat} (h : n.repr = m.repr) : n = m := by
  have hvalue := congrArg (fun text => Nat.ofDigitChars 10 text.toList 0) h
  simpa only [Nat.toList_repr, Nat.ofDigitChars_ten_toDigits] using hvalue

/-- A word is told from its text. -/
theorem Term.eq_of_word {t t' : Term} (h : t.Legible) (h' : t'.Legible) (hword : t.lead = .word)
    (hword' : t'.lead = .word) (htext : t.text = t'.text) : t = t' := by
  have hclash (value : UInt16) {name : String} (hname : isName name.toList = true) :
      value.toNat.repr ≠ name := by
    rintro rfl
    rw [Lexeme.not_isName_of_isNumber (Lexeme.isNumber_repr value.toNat)] at hname
    cases hname
  cases t with
  | int value =>
      rw [Term.text] at htext
      cases t' with
      | int value' =>
          rw [Term.text] at htext
          rw [UInt16.toNat_inj.1 (Lexeme.eq_of_repr_eq htext)]
      | keyword constant => exact absurd htext (hclash value (Lexeme.isName_word constant))
      | var name => exact absurd htext (hclash value h'.1)
      | string | paren | unary => cases hword'
  | keyword constant =>
      rw [Term.text] at htext
      cases t' with
      | int value => exact absurd htext.symm (hclash value (Lexeme.isName_word constant))
      | keyword constant' => rw [injective_of_read KeywordConst.ofWord?_word htext]
      | var name => exact absurd htext.symm (h'.2 constant)
      | string | paren | unary => cases hword'
  | var name =>
      rw [Term.text] at htext
      cases t' with
      | int value => exact absurd htext.symm (hclash value h.1)
      | keyword constant => exact absurd htext (h.2 constant)
      | var name' => rw [htext, Term.text]
      | string | paren | unary => cases hword'
  | string | paren | unary => cases hword

/-- The first character of a term tells what the term is. -/
theorem Term.exists_head {t : Term} (h : t.Legible) :
    ∃ c cs, t.text.toList = c :: cs ∧ Lead.ofChar c = t.lead := by
  have hhead (hword : t.lead = .word) :
      ∃ c cs, t.text.toList = c :: cs ∧ Lead.ofChar c = t.lead := by
    have hkind := Term.isNumber_or_isName h hword
    have hchars := Term.isNameChar_of_mem_text h hword
    generalize t.text.toList = text at hkind hchars
    cases text with
    | nil =>
        rcases hkind with hnumber | hname
        · cases hnumber
        · cases hname
    | cons c cs =>
        refine ⟨c, cs, rfl, ?_⟩
        rw [Lead.ofChar, if_pos (hchars c List.mem_cons_self), hword]
  cases t with
  | int value => exact hhead rfl
  | keyword constant => exact hhead rfl
  | var name => exact hhead rfl
  | string text => exact ⟨'"', text.toList ++ ['"'], by simp [Term.text], rfl⟩
  | paren inner => exact ⟨'(', inner.text.toList ++ [')'], by simp [Term.text], rfl⟩
  | unary op operand =>
      cases op with
      | neg => exact ⟨'-', operand.text.toList, by simp [Term.text, UnOp.symbol], rfl⟩
      | not => exact ⟨'~', operand.text.toList, by simp [Term.text, UnOp.symbol], rfl⟩

/-- Terms whose texts start alike start with the same. -/
theorem Term.lead_eq {t t' : Term} (h : t.Legible) (h' : t'.Legible) {rest rest' : List Char}
    (htext : t.text.toList ++ rest = t'.text.toList ++ rest') : t.lead = t'.lead := by
  obtain ⟨c, cs, hc, hlead⟩ := Term.exists_head h
  obtain ⟨c', cs', hc', hlead'⟩ := Term.exists_head h'
  rw [hc, hc', List.cons_append, List.cons_append] at htext
  rw [← hlead, ← hlead', (List.cons.inj htext).1]

/-! ## Reading from the left -/

/-- Nothing or a closing bracket comes next. -/
def Closed (rest : List Char) : Prop := ∀ c ∈ rest.head?, c = ')'

theorem Closed.separate {rest : List Char} (h : Closed rest) : Separate rest := by
  intro c hc
  rw [h c hc]
  rfl

theorem not_closed_blank (rest : List Char) : ¬ Closed (' ' :: rest) := by
  intro h
  have hblank : ' ' = ')' := h ' ' rfl
  cases hblank

theorem separate_blank (rest : List Char) : Separate (' ' :: rest) := Lexeme.separate_cons rfl rest

/-- A word is told together with the text behind it. -/
theorem Term.eq_of_word_append {t t' : Term} {rest rest' : List Char} (h : t.Legible)
    (h' : t'.Legible) (hword : t.lead = .word) (hrest : Separate rest) (hrest' : Separate rest')
    (htext : t.text.toList ++ rest = t'.text.toList ++ rest') : t = t' ∧ rest = rest' := by
  have hword' : t'.lead = .word := (Term.lead_eq h h' htext).symm.trans hword
  obtain ⟨hchars, hbehind⟩ := Lexeme.run_append_inj (Term.isNameChar_of_mem_text h hword)
    (Term.isNameChar_of_mem_text h' hword') hrest hrest' htext
  exact ⟨Term.eq_of_word h h' hword hword' (String.toList_inj.1 hchars), hbehind⟩

theorem Term.toList_text_string (text : String) (rest : List Char) :
    (Term.string text).text.toList ++ rest = '"' :: (text.toList ++ '"' :: rest) := by
  simp [Term.text]

theorem Term.toList_text_paren (inner : Expr) (rest : List Char) :
    (Term.paren inner).text.toList ++ rest = '(' :: (inner.text.toList ++ ')' :: rest) := by
  simp [Term.text]

theorem Term.toList_text_unary (op : UnOp) (operand : Term) (rest : List Char) :
    (Term.unary op operand).text.toList ++ rest
      = op.symbol.toList ++ (operand.text.toList ++ rest) := by
  simp [Term.text]

theorem Expr.toList_text_binary (term : Term) (op : BinOp) (later : Expr) (rest : List Char) :
    (Expr.binary term op later).text.toList ++ rest
      = term.text.toList ++ ' ' :: (op.symbol.toList ++ ' ' :: (later.text.toList ++ rest)) := by
  simp [Expr.text]

/-- A string constant ends at the next quote. -/
theorem Term.eq_of_string_append {text text' : String} {rest rest' : List Char}
    (h : '"' ∉ text.toList) (h' : '"' ∉ text'.toList)
    (htext : (Term.string text).text.toList ++ rest = (Term.string text').text.toList ++ rest') :
    text = text' ∧ rest = rest' := by
  have hquotable {text : String} (h : '"' ∉ text.toList) :
      ∀ c ∈ text.toList, isQuotable c = true := by
    intro c hc
    exact decide_eq_true (ne_of_mem_of_not_mem hc h)
  have hquote (rest : List Char) : ∀ c ∈ ('"' :: rest).head?, isQuotable c = false := by
    intro c hc
    cases hc
    rfl
  rw [Term.toList_text_string, Term.toList_text_string] at htext
  obtain ⟨hchars, hbehind⟩ := Lexeme.run_append_inj (hquotable h) (hquotable h') (hquote rest)
    (hquote rest') (List.cons.inj htext).2
  exact ⟨String.toList_inj.1 hchars, (List.cons.inj hbehind).2⟩

mutual

/-- A term is told together with the text behind it. -/
theorem Term.eq_of_text_append : ∀ (t t' : Term) {rest rest' : List Char}, t.Legible →
    t'.Legible → Separate rest → Separate rest' →
    t.text.toList ++ rest = t'.text.toList ++ rest' → t = t' ∧ rest = rest'
  | .int _, _, _, _, h, h', hrest, hrest', htext =>
      Term.eq_of_word_append h h' rfl hrest hrest' htext
  | .keyword _, _, _, _, h, h', hrest, hrest', htext =>
      Term.eq_of_word_append h h' rfl hrest hrest' htext
  | .var _, _, _, _, h, h', hrest, hrest', htext =>
      Term.eq_of_word_append h h' rfl hrest hrest' htext
  | .string text, t', rest, rest', h, h', hrest, hrest', htext => by
      have hlead := Term.lead_eq h h' htext
      cases t' with
      | string text' =>
          obtain ⟨rfl, hbehind⟩ := Term.eq_of_string_append h h' htext
          exact ⟨rfl, hbehind⟩
      | int | keyword | var | paren | unary => cases hlead
  | .paren inner, t', rest, rest', h, h', hrest, hrest', htext => by
      have hlead := Term.lead_eq h h' htext
      cases t' with
      | paren inner' =>
          have hclosed (rest : List Char) : Closed (')' :: rest) := by
            intro c hc
            cases hc
            rfl
          rw [Term.toList_text_paren, Term.toList_text_paren] at htext
          obtain ⟨rfl, hbehind⟩ := Expr.eq_of_text_append inner inner' h h' (hclosed rest)
            (hclosed rest') (List.cons.inj htext).2
          exact ⟨rfl, (List.cons.inj hbehind).2⟩
      | int | keyword | var | string | unary => cases hlead
  | .unary op operand, t', rest, rest', h, h', hrest, hrest', htext => by
      have hlead := Term.lead_eq h h' htext
      cases t' with
      | unary op' operand' =>
          rw [Term.toList_text_unary, Term.toList_text_unary] at htext
          obtain ⟨rfl, hoperand⟩ :=
            eq_of_symbol_append UnOp.ofSymbol?_symbol UnOp.length_symbol htext
          obtain ⟨rfl, hbehind⟩ :=
            Term.eq_of_text_append operand operand' h h' hrest hrest' hoperand
          exact ⟨rfl, hbehind⟩
      | int | keyword | var | string | paren => cases hlead

/-- An expression is told together with the text behind it. -/
theorem Expr.eq_of_text_append : ∀ (e e' : Expr) {rest rest' : List Char}, e.Legible →
    e'.Legible → Closed rest → Closed rest' →
    e.text.toList ++ rest = e'.text.toList ++ rest' → e = e' ∧ rest = rest'
  | .single term, .single term', _, _, h, h', hrest, hrest', htext => by
      obtain ⟨rfl, hbehind⟩ :=
        Term.eq_of_text_append term term' h h' hrest.separate hrest'.separate htext
      exact ⟨rfl, hbehind⟩
  | .single term, .binary term' op' later', rest, _, h, h', hrest, _, htext => by
      -- The chain that goes on has a blank where the other one ends.
      rw [Expr.toList_text_binary] at htext
      obtain ⟨-, rfl⟩ := Term.eq_of_text_append term term' h h'.1 hrest.separate
        (separate_blank _) htext
      exact absurd hrest (not_closed_blank _)
  | .binary term op later, .single term', _, rest', h, h', _, hrest', htext => by
      rw [Expr.toList_text_binary] at htext
      obtain ⟨-, rfl⟩ := Term.eq_of_text_append term term' h.1 h' (separate_blank _)
        hrest'.separate htext
      exact absurd hrest' (not_closed_blank _)
  | .binary term op later, .binary term' op' later', _, _, h, h', hrest, hrest', htext => by
      rw [Expr.toList_text_binary, Expr.toList_text_binary] at htext
      obtain ⟨rfl, hbehind⟩ := Term.eq_of_text_append term term' h.1 h'.1 (separate_blank _)
        (separate_blank _) htext
      obtain ⟨rfl, hlater⟩ := eq_of_symbol_append BinOp.ofSymbol?_symbol BinOp.length_symbol
        (List.cons.inj hbehind).2
      obtain ⟨rfl, hend⟩ := Expr.eq_of_text_append later later' h.2 h'.2 hrest hrest'
        (List.cons.inj hlater).2
      exact ⟨rfl, hend⟩

end

/-- Legible expressions with the same text are the same. -/
theorem Expr.eq_of_text_eq (e e' : Expr) (h : e.Legible) (h' : e'.Legible)
    (htext : e.text = e'.text) : e = e' := by
  have hend : Closed [] := by
    intro c hc
    cases hc
  have hchars : e.text.toList ++ [] = e'.text.toList ++ [] := by rw [htext]
  exact (Expr.eq_of_text_append e e' h h' hend hend hchars).1

/-- The second minus of `x - -y` is a sign, and a group around it is printed too. -/
theorem Expr.text_of_minus_signs :
    let x : Term := .var "x"
    let minus : Term := .unary .neg (.var "y")
    let bare : Expr := .binary x .sub (.single minus)
    let grouped : Expr := .binary x .sub (.single (.paren (.single minus)))
    bare.Legible ∧ grouped.Legible ∧ bare.text = "x - -y" ∧ bare.text ≠ grouped.text := by
  intro x minus bare grouped
  have hx : x.Legible := ⟨rfl, fun constant => by cases constant <;> simp [KeywordConst.word]⟩
  have hminus : minus.Legible :=
    ⟨rfl, fun constant => by cases constant <;> simp [KeywordConst.word]⟩
  have hbare : bare.Legible := ⟨hx, hminus⟩
  have hgrouped : grouped.Legible := ⟨hx, hminus⟩
  refine ⟨hbare, hgrouped, rfl, ?_⟩
  intro htext
  have hsame := Expr.eq_of_text_eq bare grouped hbare hgrouped htext
  simp [bare, grouped, minus] at hsame

end JackLang
