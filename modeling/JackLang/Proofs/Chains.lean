import JackLang.Expr.Chain
import Mathlib.Order.Bounds.Basic

/-!
# Flat and nested chains

The lists that build an expression are the flat forms of expressions, and each builds the
one it is the flat form of (`Expr.ofElements_eq_ok_iff`).  A list of odd length that builds
nothing has a *misplaced* element, an operator where a term belongs or the other way round,
and the refusal names the first of them (`Expr.expectedAt_of_chainFrom`).  Lists of even
length are refused before any element is looked at.

Building goes through the list in steps of two, and at each step it takes for granted that
there is an element.  `Expr.chainAt?` does the same with positions in the whole list and has
no answer where there is none.  In a list of odd length an operator at an odd position has
an element behind it, so that there always is an answer.
-/

namespace JackLang

/-- What a refusal says of a position with the wrong kind of element. -/
def ChainError.expectedAt (position : Nat) : ChainError :=
  if position % 2 = 0 then .expectedTerm position else .expectedOperator position

theorem ChainError.expectedAt_ne_empty (p : Nat) : expectedAt p ≠ .empty := by
  rw [expectedAt]
  split <;> simp

theorem ChainError.expectedAt_ne_evenLength (p n : Nat) : expectedAt p ≠ .evenLength n := by
  rw [expectedAt]
  split <;> simp

namespace Expr

/-- The wrong kind of element stands at a position of a list. -/
inductive Misplaced (xs : List Element) (p : Nat) : Prop where
  /-- An operator stands where a term belongs. -/
  | operator (op : BinOp) (heven : p % 2 = 0) (hop : xs[p]? = some (.op op))
  /-- A term stands where an operator belongs. -/
  | term (term : Term) (hodd : p % 2 = 1) (hterm : xs[p]? = some (.term term))

/-- The chain from a position of a list on, unless an element is asked for beyond its end. -/
def chainAt? (xs : List Element) (i : Nat) : Option (Except ChainError Expr) :=
  match _ : xs[i]? with
  | none => none
  | some (.op _) => some (.error (.expectedTerm i))
  | some (.term term) =>
      match xs[i + 1]? with
      | none => some (.ok (.single term))
      | some (.term _) => some (.error (.expectedOperator (i + 1)))
      | some (.op op) => (chainAt? xs (i + 2)).map (Except.map (.binary term op))
termination_by xs.length - i
decreasing_by
  obtain ⟨hi, -⟩ := List.getElem?_eq_some_iff.1 ‹xs[i]? = some (.term term)›
  omega

variable {xs rest : List Element} {e : Expr} {p : Nat}

/-! ## Flat forms -/

theorem length_elements : ∀ e : Expr, e.elements.length % 2 = 1
  | .single _ => rfl
  | .binary _ _ rest => by
      rw [elements, List.length_cons, List.length_cons]
      have hrest := length_elements rest
      omega

theorem chainFrom_elements : ∀ (e : Expr) (position : Nat), chainFrom position e.elements = .ok e
  | .single _, _ => rfl
  | .binary term op rest, position => by
      rw [elements, chainFrom, chainFrom_elements rest]

theorem elements_of_chainFrom {position : Nat} (h : chainFrom position xs = .ok e) :
    e.elements = xs := by
  fun_induction chainFrom position xs generalizing e with
  | case1 position term =>
      cases h
      rfl
  | case2 position term op rest chain hchain ih =>
      cases h
      rw [elements, ih hchain]
  | case3 => cases h
  | case4 => cases h
  | case5 => cases h
  | case6 => cases h

theorem ofElements_of_odd (h : xs.length % 2 = 1) : ofElements xs = chainFrom 0 xs := by
  have hne : xs ≠ [] := by
    intro hnil
    rw [hnil] at h
    cases h
  rw [ofElements, if_neg (by simpa using hne), if_neg (by omega)]

/-- An expression is built from its flat form. -/
theorem ofElements_elements (e : Expr) : ofElements e.elements = .ok e := by
  rw [ofElements_of_odd (length_elements e), chainFrom_elements]

/-- An expression is built from its flat form only. -/
theorem ofElements_eq_ok_iff : ofElements xs = .ok e ↔ e.elements = xs := by
  constructor
  · intro h
    rw [ofElements] at h
    split at h
    · cases h
    · split at h
      · cases h
      · exact elements_of_chainFrom h
  · intro h
    rw [← h, ofElements_elements]

/-! ## Misplaced elements -/

theorem misplaced_cons_cons {x y : Element} :
    Misplaced (x :: y :: rest) (p + 2) ↔ Misplaced rest p := by
  have hparity : (p + 2) % 2 = p % 2 := Nat.add_mod_right p 2
  constructor
  · intro h
    cases h with
    | operator op heven hop => exact .operator op (hparity ▸ heven) hop
    | term term hodd hterm => exact .term term (hparity ▸ hodd) hterm
  · intro h
    cases h with
    | operator op heven hop => exact .operator op (hparity.trans heven) hop
    | term term hodd hterm => exact .term term (hparity.trans hodd) hterm

theorem not_misplaced_zero {term : Term} : ¬ Misplaced (.term term :: rest) 0 := by
  intro h
  cases h with
  | operator op heven hop => cases hop
  | term term hodd hterm => cases hodd

theorem not_misplaced_one {x : Element} {op : BinOp} : ¬ Misplaced (x :: .op op :: rest) 1 := by
  intro h
  cases h with
  | operator op heven hop => cases heven
  | term term hodd hterm => cases hterm

/-- A flat form has every element in its place. -/
theorem not_misplaced_elements : ∀ (e : Expr) (p : Nat), ¬ Misplaced e.elements p
  | .single _, 0 => not_misplaced_zero
  | .single _, p + 1 => by
      intro h
      cases h with
      | operator op heven hop => cases hop
      | term term hodd hterm => cases hterm
  | .binary _ _ _, 0 => not_misplaced_zero
  | .binary _ _ _, 1 => not_misplaced_one
  | .binary _ _ rest, p + 2 => by
      rw [elements, misplaced_cons_cons]
      exact not_misplaced_elements rest p

/-- Behind a term and an operator in their places, the first misplaced element is that of
the rest. -/
theorem isLeast_misplaced_cons_cons {term : Term} {op : BinOp}
    (h : IsLeast {p | Misplaced rest p} p) :
    IsLeast {p | Misplaced (.term term :: .op op :: rest) p} (p + 2) := by
  refine ⟨misplaced_cons_cons.2 h.1, ?_⟩
  intro p' hp'
  match p', hp' with
  | 0, hp' => exact absurd hp' not_misplaced_zero
  | 1, hp' => exact absurd hp' not_misplaced_one
  | p' + 2, hp' => exact Nat.add_le_add_right (h.2 (misplaced_cons_cons.1 hp')) 2

/-- A list of odd length is refused for its first misplaced element. -/
theorem expectedAt_of_chainFrom {position : Nat} {err : ChainError}
    (hposition : position % 2 = 0) (hlength : xs.length % 2 = 1)
    (h : chainFrom position xs = .error err) :
    ∃ p, IsLeast {p | Misplaced xs p} p ∧ err = .expectedAt (position + p) := by
  fun_induction chainFrom position xs with
  | case1 => cases h
  | case2 => cases h
  | case3 position term op rest cause hcause ih =>
      cases h
      have hrest : rest.length % 2 = 1 := by
        rw [List.length_cons, List.length_cons] at hlength
        omega
      obtain ⟨p, hleast, herr⟩ := ih (by omega) hrest hcause
      exact ⟨p + 2, isLeast_misplaced_cons_cons hleast, by rw [herr, Nat.add_right_comm]; rfl⟩
  | case4 position first second rest =>
      cases h
      refine ⟨1, ⟨.term second rfl rfl, ?_⟩, ?_⟩
      · intro p hp
        cases p with
        | zero => exact absurd hp not_misplaced_zero
        | succ p => exact Nat.le_add_left 1 p
      · rw [ChainError.expectedAt, if_neg (by omega)]
  | case5 position op rest =>
      cases h
      refine ⟨0, ⟨.operator op rfl rfl, fun p _ => Nat.zero_le p⟩, ?_⟩
      rw [Nat.add_zero, ChainError.expectedAt, if_pos hposition]
  | case6 => cases hlength

theorem exists_isLeast_of_error (hodd : xs.length % 2 = 1) {err : ChainError}
    (h : ofElements xs = .error err) :
    ∃ p, IsLeast {p | Misplaced xs p} p ∧ err = .expectedAt p := by
  rw [ofElements_of_odd hodd] at h
  obtain ⟨p, hleast, herr⟩ := expectedAt_of_chainFrom rfl hodd h
  rw [Nat.zero_add] at herr
  exact ⟨p, hleast, herr⟩

/-- A list with a misplaced element is refused. -/
theorem Misplaced.exists_error (h : Misplaced xs p) : ∃ err, ofElements xs = .error err := by
  cases hresult : ofElements xs with
  | ok e =>
      rw [← ofElements_eq_ok_iff.1 hresult] at h
      exact absurd h (not_misplaced_elements e p)
  | error err => exact ⟨err, rfl⟩

/-! ## Positions -/

theorem drop_of_getElem? {i : Nat} {x : Element} (h : xs[i]? = some x) :
    xs.drop i = x :: xs.drop (i + 1) := by
  rw [List.drop_eq_getElem?_toList_append, h]
  rfl

theorem chainFrom_binary (position : Nat) (term : Term) (op : BinOp) (rest : List Element) :
    chainFrom position (.term term :: .op op :: rest) =
      (chainFrom (position + 2) rest).map (.binary term op) := by
  rw [chainFrom]
  cases chainFrom (position + 2) rest with
  | error err => rfl
  | ok chain => rfl

/-- With an odd number of elements left, none is asked for beyond the end. -/
theorem chainAt?_eq_chainFrom {i : Nat} (h : (xs.drop i).length % 2 = 1) :
    chainAt? xs i = some (chainFrom i (xs.drop i)) := by
  fun_induction chainAt? xs i with
  | case1 i hfirst =>
      rw [List.drop_eq_nil_of_le (List.getElem?_eq_none_iff.1 hfirst)] at h
      cases h
  | case2 i op hfirst => rw [drop_of_getElem? hfirst, chainFrom]
  | case3 i term hfirst hsecond =>
      rw [drop_of_getElem? hfirst, List.drop_eq_nil_of_le (List.getElem?_eq_none_iff.1 hsecond),
        chainFrom]
  | case4 i first hfirst second hsecond =>
      rw [drop_of_getElem? hfirst, drop_of_getElem? hsecond, chainFrom]
  | case5 i term hfirst op hsecond ih =>
      -- Two elements less leave an odd number again, and so at least one.
      have hrest : (xs.drop (i + 2)).length % 2 = 1 := by
        obtain ⟨hi, -⟩ := List.getElem?_eq_some_iff.1 hsecond
        rw [List.length_drop] at h ⊢
        omega
      rw [ih hrest, drop_of_getElem? hfirst, drop_of_getElem? hsecond, chainFrom_binary]
      rfl

/-! ## Answers -/

/-- What can become of a list of elements. -/
theorem ofElements_cases (xs : List Element) :
    (xs = [] ∧ ofElements xs = .error .empty) ∨
      (xs ≠ [] ∧ xs.length % 2 = 0 ∧ ofElements xs = .error (.evenLength xs.length)) ∨
      xs.length % 2 = 1 ∧ ((∃ e, ofElements xs = .ok e) ∨
        ∃ p, IsLeast {p | Misplaced xs p} p ∧ ofElements xs = .error (.expectedAt p)) := by
  cases xs with
  | nil => exact .inl ⟨rfl, rfl⟩
  | cons x rest =>
      rcases Nat.mod_two_eq_zero_or_one (x :: rest).length with heven | hodd
      · refine .inr (.inl ⟨List.cons_ne_nil x rest, heven, ?_⟩)
        rw [ofElements, if_neg (by simp), if_pos heven]
      · refine .inr (.inr ⟨hodd, ?_⟩)
        cases hresult : ofElements (x :: rest) with
        | ok e => exact .inl ⟨e, rfl⟩
        | error err =>
            obtain ⟨p, hleast, rfl⟩ := exists_isLeast_of_error hodd hresult
            exact .inr ⟨p, hleast, rfl⟩

theorem ofElements_eq_empty_iff : ofElements xs = .error .empty ↔ xs = [] := by
  constructor
  · intro hempty
    rcases ofElements_cases xs with ⟨hnil, -⟩ | ⟨-, -, h⟩ | ⟨-, ⟨e, h⟩ | ⟨p, -, h⟩⟩
    · exact hnil
    · cases h.symm.trans hempty
    · cases h.symm.trans hempty
    · have herr := Except.error.inj (h.symm.trans hempty)
      exact absurd herr (ChainError.expectedAt_ne_empty p)
  · intro hnil
    rw [hnil]
    rfl

theorem ofElements_eq_evenLength_iff {n : Nat} :
    ofElements xs = .error (.evenLength n) ↔ xs ≠ [] ∧ xs.length % 2 = 0 ∧ n = xs.length := by
  constructor
  · intro hlength
    rcases ofElements_cases xs with ⟨-, h⟩ | ⟨hne, heven, h⟩ | ⟨-, ⟨e, h⟩ | ⟨p, -, h⟩⟩
    · cases h.symm.trans hlength
    · cases h.symm.trans hlength
      exact ⟨hne, heven, rfl⟩
    · cases h.symm.trans hlength
    · have herr := Except.error.inj (h.symm.trans hlength)
      exact absurd herr (ChainError.expectedAt_ne_evenLength p n)
  · intro h
    obtain ⟨hne, heven, rfl⟩ := h
    rw [ofElements, if_neg (by simpa using hne), if_pos heven]

/-- Flat and nested chains correspond to each other, and what is refused is refused for a
stated cause.  In a list of odd length that is the first misplaced element, and no element
is asked for beyond the end. -/
theorem ofElements_exact (xs : List Element) :
    (∀ e, ofElements xs = .ok e ↔ e.elements = xs) ∧
      (ofElements xs = .error .empty ↔ xs = []) ∧
      (∀ n, ofElements xs = .error (.evenLength n) ↔
        xs ≠ [] ∧ xs.length % 2 = 0 ∧ n = xs.length) ∧
      (xs.length % 2 = 1 →
        ((∃ err, ofElements xs = .error err) ↔ ∃ p, Misplaced xs p) ∧
        (∀ p, IsLeast {p | Misplaced xs p} p → ofElements xs = .error (.expectedAt p)) ∧
        chainAt? xs 0 = some (ofElements xs)) := by
  refine ⟨fun e => ofElements_eq_ok_iff, ofElements_eq_empty_iff,
    fun n => ofElements_eq_evenLength_iff, ?_⟩
  intro hodd
  refine ⟨⟨?_, ?_⟩, ?_, ?_⟩
  · intro herror
    obtain ⟨err, herr⟩ := herror
    obtain ⟨p, hleast, -⟩ := exists_isLeast_of_error hodd herr
    exact ⟨p, hleast.1⟩
  · intro hmisplaced
    obtain ⟨p, hp⟩ := hmisplaced
    exact hp.exists_error
  · intro p hp
    obtain ⟨err, herr⟩ := hp.1.exists_error
    obtain ⟨p', hp', rfl⟩ := exists_isLeast_of_error hodd herr
    rw [hp.unique hp', herr]
  · have hchain : chainAt? xs 0 = some (chainFrom 0 xs) := chainAt?_eq_chainFrom hodd
    rw [hchain, ofElements_of_odd hodd]

/-- In `a + + b c` the second operator and the first of the two terms behind it are
misplaced, and the operator comes first. -/
theorem ofElements_second_operator :
    let xs : List Element :=
      [.term (.var "a"), .op .add, .op .add, .term (.var "b"), .term (.var "c")]
    xs.length % 2 = 1 ∧ IsLeast {p | Misplaced xs p} 2 ∧
      ofElements xs = .error (.expectedTerm 2) := by
  intro xs
  have hodd : xs.length % 2 = 1 := by simp [xs]
  have hleast : IsLeast {p | Misplaced xs p} 2 := by
    refine ⟨.operator .add rfl rfl, ?_⟩
    intro p hp
    match p, hp with
    | 0, hp => exact absurd hp not_misplaced_zero
    | 1, hp => exact absurd hp not_misplaced_one
    | p + 2, _ => exact Nat.le_add_left 2 p
  obtain ⟨-, -, -, hrefused⟩ := ofElements_exact xs
  exact ⟨hodd, hleast, (hrefused hodd).2.1 2 hleast⟩

end Expr

end JackLang
