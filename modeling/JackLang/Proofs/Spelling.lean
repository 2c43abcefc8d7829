import JackLang.Expr.Reader
import JackLang.Proofs.Chains
import JackLang.Proofs.Segmentation

/-!
# Spelling

Which tokens spell an expression is said by a grammar, `Expr.SpelledBy`, which knows nothing
of reading.  A chain is spelled by its first term, its operator and the rest of it.  A
number is spelled by digits with its value, with any leading zeros, and equality by `=` and
`==`.  Keyword constants, unary terms and the operators without a lexeme have no spelling.

The reader accepts exactly the spelled tokens (`Expr.ofTokens_eq_ok_iff_spelledBy`).  Its
three functions are first described once and for all (`readsTerm_iff`, `readsElements_iff`,
`readsChain_iff`), without the lengths that their types carry.  That what is read is
spelled goes by the length of the tokens, as the reader does.  That what is spelled is read
goes by the grammar, for any tokens that follow: a term ends by itself, and a chain ends
where no operator follows.
-/

namespace JackLang

/-! ## The grammar -/

/-- The symbols that spell an operator. -/
def BinOp.spellings : BinOp → List String
  | .add => ["+"]
  | .sub => ["-"]
  | .mul => ["*"]
  | .div => ["/"]
  | .equal => ["=", "=="]
  | .and | .or | .less | .greater => []

mutual

/-- Tokens spell a term. -/
inductive Term.SpelledBy : Term → List Token → Prop where
  | int {value : UInt16} {text : String} (hdigits : Lexeme.isNumber text.toList = true)
      (hvalue : Nat.ofDigitChars 10 text.toList 0 = value.toNat) :
      Term.SpelledBy (.int value) [⟨.number, text⟩]
  | var (name : String) : Term.SpelledBy (.var name) [⟨.identifier, name⟩]
  | string (text : String) : Term.SpelledBy (.string text) [⟨.string, text⟩]
  | paren {inner : Expr} {inside : List Token} (hinner : Expr.SpelledBy inner inside) :
      Term.SpelledBy (.paren inner) (⟨.bracket, "("⟩ :: (inside ++ [⟨.bracket, ")"⟩]))

/-- Tokens spell an expression. -/
inductive Expr.SpelledBy : Expr → List Token → Prop where
  | single {term : Term} {tokens : List Token} (hterm : Term.SpelledBy term tokens) :
      Expr.SpelledBy (.single term) tokens
  | binary {term : Term} {op : BinOp} {rest : Expr} {front behind : List Token} {symbol : String}
      (hterm : Term.SpelledBy term front) (hop : symbol ∈ op.spellings)
      (hrest : Expr.SpelledBy rest behind) :
      Expr.SpelledBy (.binary term op rest) (front ++ ⟨.operator, symbol⟩ :: behind)

end

/-- An operator or a number has a text that a source text can have. -/
def Token.Plain (t : Token) : Prop :=
  (t.kind = .operator → t.text ∈ ["+", "-", "*", "/", "=", "=="]) ∧
    (t.kind = .number → Lexeme.isNumber t.text.toList = true)

namespace Expr

/-! ## Numbers and operators -/

theorem le_ofDigitChars (digits : List Char) (value : Nat) :
    value ≤ Nat.ofDigitChars 10 digits value := by
  have hpow : 1 ≤ 10 ^ digits.length := Nat.one_le_pow _ _ (by omega)
  rw [Nat.ofDigitChars_eq_ofDigitChars_zero]
  calc value = 1 * value := (Nat.one_mul value).symm
    _ ≤ 10 ^ digits.length * value := Nat.mul_le_mul_right value hpow
    _ ≤ _ := Nat.le_add_right _ _

/-- Digits are refused exactly when their whole value is too large. -/
theorem readDigits_eq {digits : List Char} (hdigits : ∀ c ∈ digits, Text.isDigit c = true)
    {value : Nat} (hvalue : value ≤ 65535) :
    readDigits value digits =
      if Nat.ofDigitChars 10 digits value ≤ 65535 then
        .ok (.ofNat (Nat.ofDigitChars 10 digits value))
      else .error .tooLarge := by
  induction digits generalizing value with
  | nil => rw [readDigits, Nat.ofDigitChars_nil, if_pos hvalue]
  | cons c rest ih =>
      rw [List.forall_mem_cons] at hdigits
      rw [readDigits, Nat.ofDigitChars_cons]
      simp only [hdigits.1, Bool.not_true, Bool.false_eq_true, if_false]
      split
      · next hnext => exact ih hdigits.2 hnext
      · next hnext =>
          -- More digits do not make the value smaller.
          have hle := le_ofDigitChars rest (10 * value + (c.toNat - '0'.toNat))
          rw [if_neg (by omega)]

theorem readInt_eq_ok_iff {text : String} (hdigits : Lexeme.isNumber text.toList = true)
    {value : UInt16} :
    readInt text = .ok value ↔ Nat.ofDigitChars 10 text.toList 0 = value.toNat := by
  simp only [Lexeme.isNumber, Bool.and_eq_true, Bool.not_eq_true', List.isEmpty_eq_false_iff,
    List.all_eq_true] at hdigits
  have hread : readInt text = readDigits 0 text.toList := by
    rw [readInt]
    split
    · next hnil => exact absurd hnil hdigits.1
    · next hplus => exact absurd (hdigits.2 '+' (by simp [hplus])) (by decide)
    · next digits hplus => exact absurd (hdigits.2 '+' (by simp [hplus])) (by decide)
    · rfl
  rw [hread, readDigits_eq hdigits.2 (Nat.zero_le _)]
  have hbound : value.toNat < 65536 := value.toNat_lt
  split
  · next hfits =>
      rw [Except.ok.injEq, ← UInt16.toNat_inj, UInt16.toNat_ofNat_of_lt' (Nat.lt_succ_of_le hfits)]
  · next hlarge =>
      refine iff_of_false (fun h => by cases h) (fun h => ?_)
      omega

theorem readOp_of_mem_spellings {symbol : String} {op : BinOp} (h : symbol ∈ op.spellings) :
    readOp symbol = .ok op := by
  cases op with
  | add | sub | mul | div =>
      obtain rfl := List.mem_singleton.1 h
      rfl
  | equal =>
      rcases List.mem_cons.1 h with rfl | h
      · rfl
      · obtain rfl := List.mem_singleton.1 h
        rfl
  | and | or | less | greater => cases h

theorem mem_spellings_of_readOp {symbol : String} {op : BinOp}
    (hscanned : symbol ∈ ["+", "-", "*", "/", "=", "=="]) (h : readOp symbol = .ok op) :
    symbol ∈ op.spellings := by
  simp only [List.mem_cons, List.not_mem_nil, or_false] at hscanned
  rcases hscanned with rfl | rfl | rfl | rfl | rfl | rfl
  all_goals
    cases h
    simp [BinOp.spellings]

/-! ## What the readers do -/

/-- A term is read from the front of tokens. -/
def ReadsTerm (tokens : List Token) (term : Term) (rest : List Token) : Prop :=
  ∃ h, readTerm tokens = .ok (term, ⟨rest, h⟩)

/-- The elements of a chain are read from the front of tokens. -/
def ReadsElements (tokens : List Token) (elements : List Element) (rest : List Token) : Prop :=
  ∃ h, readElements tokens = .ok (elements, ⟨rest, h⟩)

/-- A chain is read from the front of tokens. -/
def ReadsChain (tokens : List Token) (e : Expr) (rest : List Token) : Prop :=
  ∃ h, readChain tokens = .ok (e, ⟨rest, h⟩)

/-- The ways in which a term is read. -/
theorem readsTerm_iff {tokens rest : List Token} {term : Term} :
    ReadsTerm tokens term rest ↔
      (∃ text value, tokens = ⟨.number, text⟩ :: rest ∧ readInt text = .ok value ∧
        term = .int value) ∨
      (∃ name, tokens = ⟨.identifier, name⟩ :: rest ∧ term = .var name) ∨
      (∃ text, tokens = ⟨.string, text⟩ :: rest ∧ term = .string text) ∨
      ∃ inside inner, tokens = ⟨.bracket, "("⟩ :: inside ∧
        ReadsChain inside inner (⟨.bracket, ")"⟩ :: rest) ∧ term = .paren inner := by
  constructor
  · rintro ⟨hrest, h⟩
    unfold readTerm at h
    split at h
    · cases h
    · split at h
      · next value hvalue =>
          cases h
          exact .inl ⟨_, _, rfl, hvalue, rfl⟩
      · cases h
    · cases h
      exact .inr (.inl ⟨_, rfl, rfl⟩)
    · cases h
      exact .inr (.inr (.inl ⟨_, rfl, rfl⟩))
    · split at h
      · next hopen =>
          subst hopen
          split at h
          · next inner close rest hinside hchain =>
              split at h
              · next hclose =>
                  subst hclose
                  cases h
                  exact .inr (.inr (.inr ⟨_, _, rfl, ⟨hinside, hchain⟩, rfl⟩))
              · cases h
          · cases h
          · cases h
      · cases h
    · cases h
  · rintro (⟨text, value, rfl, hvalue, rfl⟩ | ⟨name, rfl, rfl⟩ | ⟨text, rfl, rfl⟩ |
      ⟨inside, inner, rfl, ⟨hinside, hchain⟩, rfl⟩)
    · exact ⟨by simp, by simp [readTerm, hvalue]⟩
    · exact ⟨by simp, by simp [readTerm]⟩
    · exact ⟨by simp, by simp [readTerm]⟩
    · have hrest : rest.length < (⟨.bracket, "("⟩ :: inside : List Token).length := by
        simp at hinside ⊢
        omega
      exact ⟨hrest, by simp [readTerm, hchain]⟩

/-- The ways in which the elements of a chain are read: a last term, or a term with an
operator behind it. -/
theorem readsElements_iff {tokens rest : List Token} {elements : List Element} :
    ReadsElements tokens elements rest ↔
      (∃ term, ReadsTerm tokens term rest ∧ (∀ t ∈ rest.head?, t.kind ≠ .operator) ∧
        elements = [.term term]) ∨
      ∃ term symbol behind op later, ReadsTerm tokens term (⟨.operator, symbol⟩ :: behind) ∧
        readOp symbol = .ok op ∧ ReadsElements behind later rest ∧
        elements = .term term :: .op op :: later := by
  constructor
  · rintro ⟨hrest, h⟩
    unfold readElements at h
    split at h
    · next term symbol behind hbehind hterm =>
        split at h
        · next op hop =>
            split at h
            · next later rest hlater helements =>
                cases h
                exact .inr ⟨term, symbol, behind, op, later, ⟨hbehind, hterm⟩, hop,
                  ⟨hlater, helements⟩, rfl⟩
            · cases h
        · cases h
    · next term rest hother hterm =>
        cases h
        refine .inl ⟨term, ⟨_, hterm⟩, ?_, rfl⟩
        rintro ⟨kind, text⟩ ht rfl
        obtain ⟨behind, rfl⟩ := List.head?_eq_some_iff.1 ht
        exact hother text behind hrest rfl
    · cases h
  · rintro (⟨term, ⟨hrest, hterm⟩, hend, rfl⟩ |
      ⟨term, symbol, behind, op, later, ⟨hbehind, hterm⟩, hop, ⟨hrest, hlater⟩, rfl⟩)
    · refine ⟨hrest, ?_⟩
      unfold readElements
      rw [hterm]
      split
      · next heq =>
          cases heq
          exact absurd rfl (hend _ rfl)
      · next heq =>
          cases heq
          rfl
      · next heq => cases heq
    · have hshorter : rest.length < tokens.length := by
        simp at hbehind
        omega
      exact ⟨hshorter, by unfold readElements; simp [hterm, hop, hlater]⟩

theorem readsChain_iff {tokens rest : List Token} {e : Expr} :
    ReadsChain tokens e rest ↔
      ∃ elements, ReadsElements tokens elements rest ∧ ofElements elements = .ok e := by
  constructor
  · rintro ⟨hrest, h⟩
    unfold readChain at h
    split at h
    · next elements rest helements =>
        split at h
        · next chain hchain =>
            cases h
            exact ⟨elements, ⟨hrest, helements⟩, hchain⟩
        · cases h
    · cases h
  · rintro ⟨elements, ⟨hrest, helements⟩, hchain⟩
    exact ⟨hrest, by unfold readChain; simp [helements, hchain]⟩

theorem ofTokens_eq_ok_iff_readsChain {tokens : List Token} {e : Expr} :
    ofTokens tokens = .ok e ↔ ReadsChain tokens e [] := by
  constructor
  · intro h
    unfold ofTokens at h
    split at h
    · next chain hrest hchain =>
        cases h
        exact ⟨hrest, hchain⟩
    · cases h
    · cases h
  · rintro ⟨hrest, hchain⟩
    rw [ofTokens, hchain]

/-! ## Reading is sound -/

mutual

/-- The tokens that are read as a term spell it. -/
theorem ReadsTerm.spelled (tokens : List Token) (hplain : ∀ t ∈ tokens, t.Plain) {term : Term}
    {rest : List Token} (h : ReadsTerm tokens term rest) :
    ∃ used, tokens = used ++ rest ∧ term.SpelledBy used := by
  rcases readsTerm_iff.1 h with ⟨text, value, htokens, hvalue, rfl⟩ | ⟨name, htokens, rfl⟩ |
    ⟨text, htokens, rfl⟩ | ⟨inside, inner, htokens, hchain, rfl⟩
  · have hdigits : Lexeme.isNumber text.toList = true :=
      (hplain ⟨.number, text⟩ (by simp [htokens])).2 rfl
    exact ⟨[⟨.number, text⟩], htokens, .int hdigits ((readInt_eq_ok_iff hdigits).1 hvalue)⟩
  · exact ⟨[⟨.identifier, name⟩], htokens, .var name⟩
  · exact ⟨[⟨.string, text⟩], htokens, .string text⟩
  · have hshorter : inside.length < tokens.length := by simp [htokens]
    obtain ⟨elements, helements, hbuilt⟩ := readsChain_iff.1 hchain
    obtain ⟨e, used, rfl, rfl, hspelled⟩ :=
      ReadsElements.spelled inside (fun t ht => hplain t (by simp [htokens, ht])) helements
    rw [ofElements_elements] at hbuilt
    cases hbuilt
    refine ⟨⟨.bracket, "("⟩ :: (used ++ [⟨.bracket, ")"⟩]), ?_, .paren hspelled⟩
    rw [htokens]
    simp
termination_by (tokens.length, 0)

/-- The tokens that are read as a chain spell an expression, and its elements are those
that are read. -/
theorem ReadsElements.spelled (tokens : List Token) (hplain : ∀ t ∈ tokens, t.Plain)
    {elements : List Element} {rest : List Token} (h : ReadsElements tokens elements rest) :
    ∃ (e : Expr) (used : List Token), elements = e.elements ∧ tokens = used ++ rest ∧
      e.SpelledBy used := by
  rcases readsElements_iff.1 h with ⟨term, hterm, -, rfl⟩ |
    ⟨term, symbol, behind, op, later, hterm, hop, hlater, rfl⟩
  · obtain ⟨used, htokens, hspelled⟩ := ReadsTerm.spelled tokens hplain hterm
    exact ⟨.single term, used, rfl, htokens, .single hspelled⟩
  · obtain ⟨front, htokens, hspelled⟩ := ReadsTerm.spelled tokens hplain hterm
    have hshorter : behind.length < tokens.length := by
      simp [htokens]
      omega
    have hmem (t : Token) (ht : t ∈ (⟨.operator, symbol⟩ : Token) :: behind) : t ∈ tokens := by
      rw [htokens]
      exact List.mem_append_right front ht
    obtain ⟨e, used, rfl, rfl, hlaterSpelled⟩ :=
      ReadsElements.spelled behind (fun t ht => hplain t (hmem t (List.mem_cons_of_mem _ ht)))
        hlater
    have hscanned := (hplain ⟨.operator, symbol⟩ (hmem _ List.mem_cons_self)).1 rfl
    refine ⟨.binary term op e, front ++ ⟨.operator, symbol⟩ :: used, rfl, ?_,
      .binary hspelled (mem_spellings_of_readOp hscanned hop) hlaterSpelled⟩
    rw [htokens]
    simp
termination_by (tokens.length, 1)

end

end Expr

/-! ## Reading is complete -/

open JackLang.Expr in
mutual

/-- A spelled term is read, whatever follows. -/
theorem Term.SpelledBy.reads : ∀ {term : Term} {used : List Token},
    term.SpelledBy used → ∀ rest, ReadsTerm (used ++ rest) term rest
  | _, _, .int hdigits hvalue, rest =>
      readsTerm_iff.2 (.inl ⟨_, _, rfl, (readInt_eq_ok_iff hdigits).2 hvalue, rfl⟩)
  | _, _, .var name, rest => readsTerm_iff.2 (.inr (.inl ⟨name, rfl, rfl⟩))
  | _, _, .string text, rest => readsTerm_iff.2 (.inr (.inr (.inl ⟨text, rfl, rfl⟩)))
  | _, _, @Term.SpelledBy.paren inner inside hinner, rest => by
      have hend : ∀ t ∈ (⟨.bracket, ")"⟩ :: rest : List Token).head?, t.kind ≠ .operator := by
        intro t ht
        cases ht
        exact Token.Kind.noConfusion
      have hinside := Expr.SpelledBy.reads hinner (⟨.bracket, ")"⟩ :: rest) hend
      have hchain := readsChain_iff.2 ⟨_, hinside, ofElements_elements inner⟩
      exact readsTerm_iff.2 (.inr (.inr (.inr ⟨_, inner, by simp, hchain, rfl⟩)))

/-- A spelled chain is read up to where no operator follows. -/
theorem Expr.SpelledBy.reads : ∀ {e : Expr} {used : List Token}, e.SpelledBy used →
    ∀ rest : List Token, (∀ t ∈ rest.head?, t.kind ≠ .operator) →
      ReadsElements (used ++ rest) e.elements rest
  | _, _, .single hterm, rest, hend =>
      readsElements_iff.2 (.inl ⟨_, Term.SpelledBy.reads hterm rest, hend, rfl⟩)
  | _, _, .binary hterm hop hlater, rest, hend => by
      refine readsElements_iff.2 (.inr ⟨_, _, _, _, _, ?_, readOp_of_mem_spellings hop,
        Expr.SpelledBy.reads hlater rest hend, rfl⟩)
      rw [List.append_assoc]
      exact Term.SpelledBy.reads hterm _

end

namespace Expr

/-! ## The elements that are read make a chain -/

theorem ReadsElements.exists_elements (tokens : List Token) {elements : List Element}
    {rest : List Token} (h : ReadsElements tokens elements rest) :
    ∃ e : Expr, elements = e.elements := by
  rcases readsElements_iff.1 h with ⟨term, -, -, rfl⟩ |
    ⟨term, symbol, behind, op, later, ⟨hbehind, -⟩, -, hlater, rfl⟩
  · exact ⟨.single term, rfl⟩
  · have hshorter : behind.length < tokens.length := Nat.lt_of_succ_lt hbehind
    obtain ⟨e, rfl⟩ := ReadsElements.exists_elements behind hlater
    exact ⟨.binary term op e, rfl⟩
termination_by tokens.length

theorem readDigits_ne_notChain (value : Nat) (digits : List Char) (cause : ChainError) :
    readDigits value digits ≠ .error (.notChain cause) := by
  intro h
  induction digits generalizing value with
  | nil => cases h
  | cons c rest ih =>
      rw [readDigits] at h
      split at h
      · cases h
      · split at h
        · exact ih _ h
        · cases h

theorem readInt_ne_notChain (text : String) (cause : ChainError) :
    readInt text ≠ .error (.notChain cause) := by
  intro h
  rw [readInt] at h
  split at h
  · cases h
  · cases h
  · exact readDigits_ne_notChain _ _ cause h
  · exact readDigits_ne_notChain _ _ cause h

mutual

theorem readTerm_ne_notChain (tokens : List Token) (cause : ChainError) :
    readTerm tokens ≠ .error (.notChain cause) := by
  intro h
  unfold readTerm at h
  split at h
  · cases h
  · split at h
    · cases h
    · next e hvalue =>
        cases h
        exact readInt_ne_notChain _ cause hvalue
  · cases h
  · cases h
  · next text inside =>
      split at h
      · split at h
        · split at h
          · cases h
          · cases h
        · cases h
        · next e hchain =>
            cases h
            exact readChain_ne_notChain inside cause hchain
      · cases h
  · cases h
termination_by (tokens.length, 0)

theorem readElements_ne_notChain (tokens : List Token) (cause : ChainError) :
    readElements tokens ≠ .error (.notChain cause) := by
  intro h
  unfold readElements at h
  split at h
  · next term symbol behind hbehind hterm =>
      have hshorter : behind.length < tokens.length := Nat.lt_of_succ_lt hbehind
      split at h
      · split at h
        · cases h
        · next e hlater =>
            cases h
            exact readElements_ne_notChain behind cause hlater
      · next e hop =>
          cases h
          rw [readOp] at hop
          split at hop
          · cases hop
          · cases hop
  · cases h
  · next e hterm =>
      cases h
      exact readTerm_ne_notChain tokens cause hterm
termination_by (tokens.length, 1)

/-- A chain is built from what is read for it. -/
theorem readChain_ne_notChain (tokens : List Token) (cause : ChainError) :
    readChain tokens ≠ .error (.notChain cause) := by
  intro h
  unfold readChain at h
  split at h
  · next elements rest helements =>
      obtain ⟨e, rfl⟩ := ReadsElements.exists_elements tokens ⟨rest.2, helements⟩
      rw [ofElements_elements] at h
      cases h
  · next e helements =>
      cases h
      exact readElements_ne_notChain tokens cause helements
termination_by (tokens.length, 2)

end

/-! ## Reading and the grammar -/

theorem ofTokens_of_spelledBy {e : Expr} {tokens : List Token} (h : e.SpelledBy tokens) :
    ofTokens tokens = .ok e := by
  have helements := h.reads [] (fun t ht => by cases ht)
  rw [List.append_nil] at helements
  exact ofTokens_eq_ok_iff_readsChain.2
    (readsChain_iff.2 ⟨_, helements, ofElements_elements e⟩)

theorem spelledBy_of_ofTokens {e : Expr} {tokens : List Token} (hplain : ∀ t ∈ tokens, t.Plain)
    (h : ofTokens tokens = .ok e) : e.SpelledBy tokens := by
  obtain ⟨elements, helements, hbuilt⟩ :=
    readsChain_iff.1 (ofTokens_eq_ok_iff_readsChain.1 h)
  obtain ⟨e', used, rfl, rfl, hspelled⟩ := ReadsElements.spelled tokens hplain helements
  rw [ofElements_elements] at hbuilt
  cases hbuilt
  rwa [List.append_nil]

/-- Tokens are read as an expression exactly when they spell it, they spell one expression
at most, and the elements that are read for a chain never fail to make one. -/
theorem ofTokens_eq_ok_iff_spelledBy (tokens : List Token) (hplain : ∀ t ∈ tokens, t.Plain)
    (e : Expr) :
    (ofTokens tokens = .ok e ↔ e.SpelledBy tokens) ∧
      (∀ e' : Expr, e.SpelledBy tokens → e'.SpelledBy tokens → e = e') ∧
      ∀ cause, ofTokens tokens ≠ .error (.notChain cause) := by
  refine ⟨⟨spelledBy_of_ofTokens hplain, ofTokens_of_spelledBy⟩, ?_, ?_⟩
  · intro e' h h'
    exact Except.ok.inj ((ofTokens_of_spelledBy h).symm.trans (ofTokens_of_spelledBy h'))
  · intro cause h
    rw [ofTokens] at h
    split at h
    · cases h
    · cases h
    · next hchain =>
        cases h
        exact readChain_ne_notChain tokens cause hchain

/-- Leading zeros, both spellings of equality, and a string constant. -/
theorem ofTokens_leading_zeros :
    let tokens : List Token := [⟨.bracket, "("⟩, ⟨.number, "007"⟩, ⟨.operator, "="⟩,
      ⟨.identifier, "x"⟩, ⟨.bracket, ")"⟩, ⟨.operator, "=="⟩, ⟨.string, "a b"⟩]
    let e : Expr := .binary (.paren (.binary (.int 7) .equal (.single (.var "x")))) .equal
      (.single (.string "a b"))
    (∀ t ∈ tokens, t.Plain) ∧ ofTokens tokens = .ok e ∧
      ∀ e' : Expr, e'.SpelledBy tokens → e = e' := by
  intro tokens e
  have hplain : ∀ t ∈ tokens, t.Plain := by
    simp [tokens, Token.Plain, Lexeme.isNumber, Text.isDigit]
  have hspelled : e.SpelledBy tokens :=
    .binary (.paren (.binary (.int rfl rfl) (by simp [BinOp.spellings]) (.single (.var "x"))))
      (by simp [BinOp.spellings]) (.single (.string "a b"))
  obtain ⟨hread, honly, -⟩ := ofTokens_eq_ok_iff_spelledBy tokens hplain e
  exact ⟨hplain, hread.2 hspelled, fun e' h' => honly e' hspelled h'⟩

end Expr

end JackLang
