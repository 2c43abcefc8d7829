import JackLang.Lexeme
import Mathlib.Data.List.TakeWhile

/-!
# Segmentation

The lexemes of a text are the pieces of a *segmentation*: lexemes with gaps before,
between and behind them, which together make up the text.  Three rules decide which
segmentations are valid.  A lexeme ends only where it could not go on.  A gap has no
character that starts a lexeme.  And a quote stands in a gap only as the last one of the
text, when the number of quotes is odd.

Every text has a valid segmentation, and the lexemes of any valid one are those of the
scanner.  Both directions come from one description of a single step: `step_cases` says
what a step can do, and `step_blank` and `step_source` say which step is done where.
-/

namespace JackLang

namespace Lexeme

open Text (isLetter isDigit isNameChar)

/-! ## Shapes of lexemes -/

/-- Whether characters are a run of digits. -/
def isNumber (cs : List Char) : Bool := !cs.isEmpty && cs.all isDigit

/-- Whether characters are a letter followed by letters and digits. -/
def isName : List Char → Bool
  | [] => false
  | c :: rest => isLetter c && rest.all isNameChar

/-- The text of a lexeme is one of its kind. -/
def WellFormed (d : Lexeme) : Prop :=
  match d.kind with
  | .number => isNumber d.text.toList = true
  | .string => '"' ∉ d.text.toList
  | .name => isName d.text.toList = true
  | .operator => d.text ∈ ["+", "-", "*", "/", "=", "=="]
  | .bracket => d.text ∈ ["(", ")"]

instance (d : Lexeme) : Decidable d.WellFormed :=
  match d with
  | ⟨.number, text⟩ => inferInstanceAs (Decidable (isNumber text.toList = true))
  | ⟨.string, text⟩ => inferInstanceAs (Decidable ('"' ∉ text.toList))
  | ⟨.name, text⟩ => inferInstanceAs (Decidable (isName text.toList = true))
  | ⟨.operator, text⟩ => inferInstanceAs (Decidable (text ∈ ["+", "-", "*", "/", "=", "=="]))
  | ⟨.bracket, text⟩ => inferInstanceAs (Decidable (text ∈ ["(", ")"]))

/-- The characters that a lexeme is read from. -/
def source (d : Lexeme) : List Char :=
  match d.kind with
  | .string => '"' :: (d.text.toList ++ ['"'])
  | .number | .name | .operator | .bracket => d.text.toList

/-- The text behind a lexeme does not go on with it. -/
def EndsBefore (d : Lexeme) (rest : List Char) : Prop :=
  match d.kind with
  | .number => ∀ c ∈ rest.head?, isDigit c = false
  | .name => ∀ c ∈ rest.head?, isNameChar c = false
  | .operator => d.text = "=" → rest.head? ≠ some '='
  | .string | .bracket => True

/-- Whether a character is no letter, digit, operator or bracket.  A quote counts as
blank. -/
def isBlank (c : Char) : Bool :=
  !(isLetter c || isDigit c || isOperator c || c = '=' || isBracket c)

/-- A quote in a gap has no quote behind it, neither in the gap nor in the rest. -/
def QuoteLast (gap rest : List Char) : Prop :=
  ∀ u w, gap = u ++ '"' :: w → '"' ∉ w ++ rest

/-! ## Characters -/

/-- A digit is no letter. -/
theorem isLetter_of_isDigit {c : Char} (h : isDigit c = true) : isLetter c = false := by
  obtain ⟨hleast, hgreatest⟩ := Bool.and_eq_true_iff.1 h
  have hleast : 48 ≤ c.toNat := of_decide_eq_true hleast
  have hgreatest : c.toNat ≤ 57 := of_decide_eq_true hgreatest
  rw [Text.isLetter_of_ascii (by omega), Bool.eq_false_iff]
  intro halpha
  rcases Bool.or_eq_true_iff.1 halpha with hcase | hcase
  · have hupper : 65 ≤ c.toNat := (of_decide_eq_true hcase).1
    omega
  · have hlower : 97 ≤ c.toNat := of_decide_eq_true (Bool.and_eq_true_iff.1 hcase).1
    omega

/-- A class of characters without quotes, operators and brackets. -/
def IsPlain (p : Char → Bool) : Prop :=
  ∀ x ∈ ['"', '=', '+', '-', '*', '/', '(', ')'], p x = false

theorem isPlain_isDigit : IsPlain isDigit := by
  simp only [IsPlain, List.forall_mem_cons]
  exact ⟨rfl, rfl, rfl, rfl, rfl, rfl, rfl, rfl, List.forall_mem_nil _⟩

theorem isPlain_isLetter : IsPlain isLetter := by
  simp only [IsPlain, List.forall_mem_cons]
  exact ⟨rfl, rfl, rfl, rfl, rfl, rfl, rfl, rfl, List.forall_mem_nil _⟩

/-- A character of a plain class is no quote, operator or bracket. -/
theorem IsPlain.ne {p : Char → Bool} (hp : IsPlain p) {c : Char} (h : p c = true) :
    c ≠ '"' ∧ c ≠ '=' ∧ isOperator c = false ∧ isBracket c = false := by
  have hne (x : Char) (hx : x ∈ ['"', '=', '+', '-', '*', '/', '(', ')']) : c ≠ x := by
    rintro rfl
    rw [hp c hx] at h
    cases h
  refine ⟨hne _ (by decide), hne _ (by decide), ?_, ?_⟩
  · simp [isOperator, hne '+' (by decide), hne '-' (by decide), hne '*' (by decide),
      hne '/' (by decide)]
  · simp [isBracket, hne '(' (by decide), hne ')' (by decide)]

theorem isNameChar_of_isNumber {cs : List Char} (h : isNumber cs = true) :
    ∀ c ∈ cs, isNameChar c = true := by
  simp only [isNumber, Bool.and_eq_true, List.all_eq_true] at h
  intro c hc
  simp [isNameChar, h.2 c hc]

theorem isNameChar_of_isName {cs : List Char} (h : isName cs = true) :
    ∀ c ∈ cs, isNameChar c = true := by
  cases cs with
  | nil => cases h
  | cons c rest =>
      simp only [isName, Bool.and_eq_true, List.all_eq_true] at h
      exact List.forall_mem_cons.2 ⟨Text.isNameChar_of_isLetter h.1, h.2⟩

/-! ## Runs of characters -/

/-- A run is taken up to the first character that does not belong to it. -/
theorem span_append {p : Char → Bool} {run rest : List Char} (hrun : ∀ c ∈ run, p c = true)
    (hrest : ∀ c ∈ rest.head?, p c = false) :
    (run ++ rest).takeWhile p = run ∧ (run ++ rest).dropWhile p = rest := by
  rw [List.takeWhile_append_of_pos hrun, List.dropWhile_append_of_pos hrun]
  cases rest with
  | nil => simp
  | cons c rest => simp [hrest c rfl]

/-- A text starts with a longest run. -/
theorem exists_span (p : Char → Bool) (cs : List Char) :
    ∃ run rest, cs = run ++ rest ∧ (∀ c ∈ run, p c = true) ∧
      ∀ c ∈ rest.head?, p c = false := by
  refine ⟨cs.takeWhile p, cs.dropWhile p, List.takeWhile_append_dropWhile.symm, ?_, ?_⟩
  · intro c hc
    exact List.mem_takeWhile_imp hc
  · intro c hc
    have hstop := List.head?_dropWhile_not p cs
    rw [Option.mem_def.1 hc] at hstop
    exact hstop

/-! ## One step -/

theorem isBlank_iff {c : Char} : isBlank c = true ↔
    isLetter c = false ∧ isDigit c = false ∧ isOperator c = false ∧ c ≠ '=' ∧
      isBracket c = false := by
  simp [isBlank, and_assoc]

/-- A blank character is skipped, a quote only when it is the last one. -/
theorem step_blank {c : Char} {rest : List Char} (hblank : isBlank c = true)
    (hquote : c = '"' → '"' ∉ rest) : step c rest = (none, rest) := by
  obtain ⟨hletter, hdigit, hoperator, hequal, hbracket⟩ := isBlank_iff.1 hblank
  by_cases hc : c = '"'
  · have hall : rest.dropWhile isQuotable = [] := by
      rw [List.dropWhile_eq_nil_iff]
      intro x hx
      have hne : x ≠ '"' := ne_of_mem_of_not_mem hx (hquote hc)
      simp [isQuotable, hne]
    rw [step.eq_def, if_pos hc, hall]
  · simp [step, hc, hletter, hdigit, hoperator, hequal, hbracket]

/-- A number is read as a whole. -/
theorem step_number {c : Char} {cs rest : List Char} (hc : isDigit c = true)
    (hcs : ∀ x ∈ cs, isDigit x = true) (hrest : ∀ x ∈ rest.head?, isDigit x = false) :
    step c (cs ++ rest) = (some ⟨.number, .ofList (c :: cs)⟩, rest) := by
  obtain ⟨hquote, hequal, hoperator, hbracket⟩ := isPlain_isDigit.ne hc
  obtain ⟨htake, hdrop⟩ := span_append hcs hrest
  simp [step, hquote, hequal, hoperator, hbracket, hc, htake, hdrop]

/-- A name is read as a whole. -/
theorem step_name {c : Char} {cs rest : List Char} (hc : isLetter c = true)
    (hcs : ∀ x ∈ cs, isNameChar x = true) (hrest : ∀ x ∈ rest.head?, isNameChar x = false) :
    step c (cs ++ rest) = (some ⟨.name, .ofList (c :: cs)⟩, rest) := by
  obtain ⟨hquote, hequal, hoperator, hbracket⟩ := isPlain_isLetter.ne hc
  have hdigit : isDigit c = false := by
    rw [Bool.eq_false_iff]
    intro hdigit
    rw [isLetter_of_isDigit hdigit] at hc
    cases hc
  obtain ⟨htake, hdrop⟩ := span_append hcs hrest
  simp [step, hquote, hequal, hoperator, hbracket, hdigit, hc, htake, hdrop]

/-- A string constant is read up to its closing quote. -/
theorem step_string {cs rest : List Char} (hcs : '"' ∉ cs) :
    step '"' (cs ++ '"' :: rest) = (some ⟨.string, .ofList cs⟩, rest) := by
  have hrun : ∀ x ∈ cs, isQuotable x = true := by
    intro x hx
    have hne : x ≠ '"' := ne_of_mem_of_not_mem hx hcs
    simp [isQuotable, hne]
  have hstop : ∀ x ∈ ('"' :: rest).head?, isQuotable x = false := by simp [isQuotable]
  obtain ⟨htake, hdrop⟩ := span_append hrun hstop
  rw [step.eq_def, if_pos rfl, htake, hdrop]

/-- A single `=` is read where no other follows. -/
theorem step_equal {rest : List Char} (hrest : rest.head? ≠ some '=') :
    step '=' rest = (some ⟨.operator, "="⟩, rest) := by
  rw [step.eq_def, if_neg (by decide), if_pos rfl]
  split
  · next behind => exact absurd rfl hrest
  · rfl

/-- Where a lexeme stands that ends there, the step reads it. -/
theorem step_source {d : Lexeme} {rest : List Char} (hd : d.WellFormed)
    (hend : d.EndsBefore rest) :
    ∃ c tail, d.source ++ rest = c :: tail ∧ step c tail = (some d, rest) := by
  obtain ⟨kind, text⟩ := d
  cases kind with
  | number =>
      have hd : isNumber text.toList = true := hd
      match hcs : text.toList with
      | [] => rw [hcs] at hd; cases hd
      | c :: cs =>
          rw [hcs] at hd
          simp only [isNumber, List.isEmpty_cons, Bool.not_false, Bool.true_and, List.all_cons,
            Bool.and_eq_true, List.all_eq_true] at hd
          refine ⟨c, cs ++ rest, by simp [source, hcs], ?_⟩
          rw [step_number hd.1 hd.2 hend, ← hcs, String.ofList_toList]
  | string =>
      refine ⟨'"', text.toList ++ '"' :: rest, by simp [source], ?_⟩
      rw [step_string hd, String.ofList_toList]
  | name =>
      have hd : isName text.toList = true := hd
      match hcs : text.toList with
      | [] => rw [hcs] at hd; cases hd
      | c :: cs =>
          rw [hcs] at hd
          simp only [isName, Bool.and_eq_true, List.all_eq_true] at hd
          refine ⟨c, cs ++ rest, by simp [source, hcs], ?_⟩
          rw [step_name hd.1 hd.2 hend, ← hcs, String.ofList_toList]
  | operator =>
      have hd : text ∈ ["+", "-", "*", "/", "=", "=="] := hd
      simp only [List.mem_cons, List.not_mem_nil, or_false] at hd
      rcases hd with rfl | rfl | rfl | rfl | rfl | rfl
      · exact ⟨'+', rest, rfl, rfl⟩
      · exact ⟨'-', rest, rfl, rfl⟩
      · exact ⟨'*', rest, rfl, rfl⟩
      · exact ⟨'/', rest, rfl, rfl⟩
      · exact ⟨'=', rest, rfl, step_equal (hend rfl)⟩
      · exact ⟨'=', '=' :: rest, rfl, rfl⟩
  | bracket =>
      have hd : text ∈ ["(", ")"] := hd
      simp only [List.mem_cons, List.not_mem_nil, or_false] at hd
      rcases hd with rfl | rfl
      · exact ⟨'(', rest, rfl, rfl⟩
      · exact ⟨')', rest, rfl, rfl⟩

/-- What a step can do: skip a blank character, or read a lexeme that ends there. -/
theorem step_cases (c : Char) (rest : List Char) :
    (step c rest = (none, rest) ∧ isBlank c = true ∧ (c = '"' → '"' ∉ rest)) ∨
      ∃ d behind, step c rest = (some d, behind) ∧ c :: rest = d.source ++ behind ∧
        d.WellFormed ∧ d.EndsBefore behind := by
  -- The cases are those of the step and in its order.
  by_cases hquote : c = '"'
  · subst hquote
    by_cases hmem : '"' ∈ rest
    · obtain ⟨cs, behind, rfl, hcs⟩ := List.eq_append_cons_of_mem hmem
      refine .inr ⟨_, behind, step_string hcs, ?_, ?_, trivial⟩
      · simp [source]
      · show '"' ∉ (String.ofList cs).toList
        rwa [String.toList_ofList]
    · exact .inl ⟨step_blank (by decide) fun _ => hmem, by decide, fun _ => hmem⟩
  by_cases hequal : c = '='
  · subst hequal
    by_cases hnext : rest.head? = some '='
    · obtain ⟨behind, rfl⟩ : ∃ behind, rest = '=' :: behind := by
        cases rest with
        | nil => cases hnext
        | cons x behind => exact ⟨behind, by rw [Option.some.inj hnext]⟩
      exact .inr ⟨⟨.operator, "=="⟩, behind, rfl, rfl, by decide, fun h => absurd h (by decide)⟩
    · exact .inr ⟨⟨.operator, "="⟩, rest, step_equal hnext, rfl, by decide, fun _ => hnext⟩
  by_cases hoperator : isOperator c = true
  · simp only [isOperator, Bool.or_eq_true, decide_eq_true_eq] at hoperator
    rcases hoperator with ((rfl | rfl) | rfl) | rfl
    all_goals
      exact .inr ⟨⟨.operator, _⟩, rest, rfl, rfl, by decide, fun h => absurd h (by decide)⟩
  by_cases hbracket : isBracket c = true
  · simp only [isBracket, Bool.or_eq_true, decide_eq_true_eq] at hbracket
    rcases hbracket with rfl | rfl
    all_goals exact .inr ⟨⟨.bracket, _⟩, rest, rfl, rfl, by decide, trivial⟩
  by_cases hdigit : isDigit c = true
  · obtain ⟨cs, behind, rfl, hcs, hbehind⟩ := exists_span isDigit rest
    refine .inr ⟨_, behind, step_number hdigit hcs hbehind, ?_, ?_, hbehind⟩
    · simp [source]
    · show isNumber (String.ofList (c :: cs)).toList = true
      rw [String.toList_ofList]
      simpa [isNumber, hdigit] using hcs
  by_cases hletter : isLetter c = true
  · obtain ⟨cs, behind, rfl, hcs, hbehind⟩ := exists_span isNameChar rest
    refine .inr ⟨_, behind, step_name hletter hcs hbehind, ?_, ?_, hbehind⟩
    · simp [source]
    · show isName (String.ofList (c :: cs)).toList = true
      rw [String.toList_ofList]
      simpa [isName, hletter] using hcs
  have hblank : isBlank c = true := by simp_all [isBlank]
  exact .inl ⟨step_blank hblank fun h => absurd h hquote, hblank, fun h => absurd h hquote⟩

/-! ## Scanning gaps and lexemes -/

theorem quoteLast_nil (rest : List Char) : QuoteLast [] rest := by
  intro u w h
  simp at h

theorem quoteLast_cons {c : Char} {gap rest : List Char} :
    QuoteLast (c :: gap) rest ↔ (c = '"' → '"' ∉ gap ++ rest) ∧ QuoteLast gap rest := by
  constructor
  · intro h
    refine ⟨?_, ?_⟩
    · rintro rfl
      exact h [] gap rfl
    · rintro u w rfl
      exact h (c :: u) w rfl
  · rintro ⟨hfirst, hgap⟩ u w h
    cases u with
    | nil =>
        obtain ⟨rfl, rfl⟩ := List.cons.inj h
        exact hfirst rfl
    | cons x u =>
        obtain ⟨-, rfl⟩ := List.cons.inj h
        exact hgap u w rfl

/-- A gap gives no lexeme. -/
theorem scan_gap {gap rest : List Char} (hblank : ∀ c ∈ gap, isBlank c = true)
    (hlast : QuoteLast gap rest) : scan (gap ++ rest) = scan rest := by
  induction gap with
  | nil => rfl
  | cons c gap ih =>
      obtain ⟨hquote, hlast⟩ := quoteLast_cons.1 hlast
      rw [List.cons_append, scan_cons, step_blank (hblank c List.mem_cons_self) hquote]
      exact ih (fun x hx => hblank x (List.mem_cons_of_mem _ hx)) hlast

/-- A lexeme that ends there is scanned as such. -/
theorem scan_source {d : Lexeme} {rest : List Char} (hd : d.WellFormed)
    (hend : d.EndsBefore rest) : scan (d.source ++ rest) = d :: scan rest := by
  obtain ⟨c, tail, htext, hstep⟩ := step_source hd hend
  rw [htext, scan_cons, hstep]
  rfl

/-- Quotes come in pairs inside of lexemes. -/
theorem count_quote_source {d : Lexeme} (hd : d.WellFormed) :
    d.source.count '"' = if d.kind = .string then 2 else 0 := by
  obtain ⟨kind, text⟩ := d
  cases kind with
  | string =>
      have hd : '"' ∉ text.toList := hd
      simp [source, List.count_eq_zero.2 hd]
  | number =>
      refine List.count_eq_zero.2 fun hmem => ?_
      exact absurd (isNameChar_of_isNumber hd _ hmem) (by decide)
  | name =>
      refine List.count_eq_zero.2 fun hmem => ?_
      exact absurd (isNameChar_of_isName hd _ hmem) (by decide)
  | operator =>
      have hd : text ∈ ["+", "-", "*", "/", "=", "=="] := hd
      simp only [List.mem_cons, List.not_mem_nil, or_false] at hd
      rcases hd with rfl | rfl | rfl | rfl | rfl | rfl <;> rfl
  | bracket =>
      have hd : text ∈ ["(", ")"] := hd
      simp only [List.mem_cons, List.not_mem_nil, or_false] at hd
      rcases hd with rfl | rfl <;> rfl

theorem count_quote_source_mod_two {d : Lexeme} (hd : d.WellFormed) :
    d.source.count '"' % 2 = 0 := by
  rw [count_quote_source hd]
  split <;> rfl

end Lexeme

/-! ## Segmentations -/

/-- A text that is cut into lexemes and gaps. -/
structure Segmentation where
  /-- The gap before the first lexeme. -/
  first : List Char
  /-- The lexemes, each with the gap behind it. -/
  pieces : List (Lexeme × List Char)

namespace Segmentation

/-- The characters of lexemes and the gaps behind them. -/
def textOf (pieces : List (Lexeme × List Char)) : List Char :=
  pieces.flatMap fun piece => piece.1.source ++ piece.2

/-- The text that is cut. -/
def text (s : Segmentation) : List Char := s.first ++ textOf s.pieces

/-- The lexemes in order. -/
def lexemes (s : Segmentation) : List Lexeme := s.pieces.map Prod.fst

/-- The gaps in order. -/
def gaps (s : Segmentation) : List (List Char) := s.first :: s.pieces.map Prod.snd

/-- Every piece has a property together with the text behind it. -/
def Throughout (P : Lexeme × List Char → List Char → Prop)
    (pieces : List (Lexeme × List Char)) : Prop :=
  ∀ before piece after, pieces = before ++ piece :: after → P piece (textOf after)

/-- The rules for lexemes and gaps. -/
structure Valid (s : Segmentation) : Prop where
  /-- Every lexeme has the shape of its kind. -/
  wellFormed : ∀ d ∈ s.lexemes, d.WellFormed
  /-- No gap has a letter, a digit, an operator or a bracket. -/
  blank : ∀ gap ∈ s.gaps, ∀ c ∈ gap, Lexeme.isBlank c = true
  /-- The gaps have no quote, or one when the text has an odd number of them. -/
  quotes : s.gaps.flatten.count '"' = s.text.count '"' % 2
  /-- A quote in the first gap is the last one of the text. -/
  lastInFirst : Lexeme.QuoteLast s.first (textOf s.pieces)
  /-- A quote in a gap behind a lexeme is the last one of the text. -/
  lastBehind : Throughout (fun piece rest => Lexeme.QuoteLast piece.2 rest) s.pieces
  /-- No lexeme could go on. -/
  maximal : Throughout (fun piece rest => piece.1.EndsBefore (piece.2 ++ rest)) s.pieces

theorem throughout_nil (P : Lexeme × List Char → List Char → Prop) : Throughout P [] := by
  intro before piece after h
  simp at h

theorem throughout_cons {P : Lexeme × List Char → List Char → Prop}
    {piece : Lexeme × List Char} {pieces : List (Lexeme × List Char)} :
    Throughout P (piece :: pieces) ↔ P piece (textOf pieces) ∧ Throughout P pieces := by
  constructor
  · intro h
    refine ⟨h [] piece pieces rfl, ?_⟩
    rintro before other after rfl
    exact h (piece :: before) other after rfl
  · rintro ⟨hpiece, hpieces⟩ before other after h
    cases before with
    | nil =>
        obtain ⟨rfl, rfl⟩ := List.cons.inj h
        exact hpiece
    | cons x before =>
        obtain ⟨-, rfl⟩ := List.cons.inj h
        exact hpieces before other after rfl

/-- Pieces that follow the rules are scanned as their lexemes. -/
theorem scan_textOf {pieces : List (Lexeme × List Char)}
    (hwell : ∀ piece ∈ pieces, piece.1.WellFormed)
    (hblank : ∀ piece ∈ pieces, ∀ c ∈ piece.2, Lexeme.isBlank c = true)
    (hlast : Throughout (fun piece rest => Lexeme.QuoteLast piece.2 rest) pieces)
    (hmax : Throughout (fun piece rest => piece.1.EndsBefore (piece.2 ++ rest)) pieces) :
    Lexeme.scan (textOf pieces) = pieces.map Prod.fst := by
  induction pieces with
  | nil => exact Lexeme.scan_nil
  | cons piece pieces ih =>
      obtain ⟨hlast, hlasts⟩ := throughout_cons.1 hlast
      obtain ⟨hmax, hmaxs⟩ := throughout_cons.1 hmax
      rw [List.forall_mem_cons] at hwell hblank
      have htext : textOf (piece :: pieces) = piece.1.source ++ (piece.2 ++ textOf pieces) := by
        simp [textOf]
      rw [htext, Lexeme.scan_source hwell.1 hmax, Lexeme.scan_gap hblank.1 hlast,
        ih hwell.2 hblank.2 hlasts hmaxs, List.map_cons]

/-- The lexemes of a valid segmentation are those of the scanner. -/
theorem Valid.scan_text {s : Segmentation} (h : s.Valid) : Lexeme.scan s.text = s.lexemes := by
  have hblank := h.blank
  rw [gaps, List.forall_mem_cons, List.forall_mem_map] at hblank
  have hwell := h.wellFormed
  rw [lexemes, List.forall_mem_map] at hwell
  rw [text, Lexeme.scan_gap hblank.1 h.lastInFirst,
    scan_textOf hwell hblank.2 h.lastBehind h.maximal, lexemes]

/-! ## Existence -/

/-- A segmentation with one more character before the first gap. -/
def skip (c : Char) (s : Segmentation) : Segmentation := ⟨c :: s.first, s.pieces⟩

/-- A segmentation with one more lexeme before the first gap. -/
def prepend (d : Lexeme) (s : Segmentation) : Segmentation := ⟨[], (d, s.first) :: s.pieces⟩

theorem Valid.skip {c : Char} {s : Segmentation} (h : s.Valid)
    (hblank : Lexeme.isBlank c = true) (hquote : c = '"' → '"' ∉ s.text) :
    (s.skip c).Valid where
  wellFormed := h.wellFormed
  blank := by
    have hblanks := h.blank
    rw [gaps, List.forall_mem_cons] at hblanks ⊢
    refine ⟨?_, hblanks.2⟩
    rw [Segmentation.skip, List.forall_mem_cons]
    exact ⟨hblank, hblanks.1⟩
  quotes := by
    have hgaps : (s.skip c).gaps.flatten = c :: s.gaps.flatten := rfl
    have htext : (s.skip c).text = c :: s.text := rfl
    have hquotes := h.quotes
    rw [hgaps, htext, List.count_cons, List.count_cons]
    by_cases hc : c = '"'
    · -- A skipped quote is the only one from there on, so both counts are one.
      have hzero : s.text.count '"' = 0 := List.count_eq_zero.2 (hquote hc)
      simpa [hzero, hc] using hquotes
    · simpa [hc] using hquotes
  lastInFirst := Lexeme.quoteLast_cons.2 ⟨hquote, h.lastInFirst⟩
  lastBehind := h.lastBehind
  maximal := h.maximal

theorem Valid.prepend {d : Lexeme} {s : Segmentation} (h : s.Valid) (hd : d.WellFormed)
    (hend : d.EndsBefore s.text) : (s.prepend d).Valid where
  wellFormed := List.forall_mem_cons.2 ⟨hd, h.wellFormed⟩
  blank := List.forall_mem_cons.2 ⟨by simp [Segmentation.prepend], h.blank⟩
  quotes := by
    have hgaps : (s.prepend d).gaps.flatten = s.gaps.flatten := rfl
    have htext : (s.prepend d).text = d.source ++ s.text := by
      simp [Segmentation.prepend, text, textOf]
    have heven := Lexeme.count_quote_source_mod_two hd
    rw [hgaps, htext, List.count_append, h.quotes]
    omega
  lastInFirst := Lexeme.quoteLast_nil _
  lastBehind := throughout_cons.2 ⟨h.lastInFirst, h.lastBehind⟩
  maximal := throughout_cons.2 ⟨hend, h.maximal⟩

/-- Every text has a valid segmentation into the lexemes of the scanner. -/
theorem exists_valid (cs : List Char) :
    ∃ s : Segmentation, s.Valid ∧ s.text = cs ∧ s.lexemes = Lexeme.scan cs := by
  induction cs using Lexeme.scan.induct with
  | case1 =>
      refine ⟨⟨[], []⟩, ⟨by simp [lexemes], by simp [gaps], rfl, Lexeme.quoteLast_nil _,
        throughout_nil _, throughout_nil _⟩, rfl, ?_⟩
      rw [Lexeme.scan_nil]
      rfl
  | case2 c rest ih =>
      -- The induction is on what the step leaves, which the step then extends to the left.
      obtain ⟨s, hvalid, htext, hlexemes⟩ := ih
      rcases Lexeme.step_cases c rest with
        ⟨hstep, hblank, hquote⟩ | ⟨d, behind, hstep, hsource, hd, hend⟩
      · rw [hstep] at htext hlexemes
        subst htext
        refine ⟨s.skip c, hvalid.skip hblank hquote, rfl, ?_⟩
        rw [Lexeme.scan_cons, hstep]
        exact hlexemes
      · rw [hstep] at htext hlexemes
        subst htext
        refine ⟨s.prepend d, hvalid.prepend hd hend, ?_, ?_⟩
        · rw [hsource]
          simp [Segmentation.prepend, text, textOf]
        · rw [Lexeme.scan_cons, hstep]
          exact congrArg (d :: ·) hlexemes

/-- A lexeme of a segmentation stands in the text. -/
theorem source_infix_text {s : Segmentation} {d : Lexeme} (hd : d ∈ s.lexemes) :
    d.source <:+: s.text := by
  obtain ⟨piece, hpiece, rfl⟩ := List.mem_map.1 hd
  obtain ⟨before, after, hpieces⟩ := List.append_of_mem hpiece
  refine ⟨s.first ++ textOf before, piece.2 ++ textOf after, ?_⟩
  simp [text, textOf, hpieces]

end Segmentation

/-- Every scanned lexeme has the shape of its kind and stands in the text. -/
theorem Lexeme.of_mem_scan {d : Lexeme} {cs : List Char} (hd : d ∈ scan cs) :
    d.WellFormed ∧ d.source <:+: cs := by
  obtain ⟨s, hvalid, rfl, hlexemes⟩ := Segmentation.exists_valid cs
  rw [← hlexemes] at hd
  exact ⟨hvalid.wellFormed d hd, Segmentation.source_infix_text hd⟩

/-- The lexemes of a source text, and no others, are those of a valid segmentation of the
text without its comments. -/
theorem Segmentation.exists_valid_iff (source : String) (ds : List Lexeme) :
    (∃ s : Segmentation, s.Valid ∧ s.text = (Text.stripComments source).toList ∧
      s.lexemes = ds) ↔ ds = Lexeme.ofSource source := by
  constructor
  · rintro ⟨s, hvalid, htext, rfl⟩
    rw [Lexeme.ofSource, ← htext, hvalid.scan_text]
  · rintro rfl
    exact exists_valid _

end JackLang
