import Abacus.Proofs.Script
import Abacus.Proofs.Statement

/-!
# Statements close what they open

A statement has as many closing parentheses as opening ones, in its lexemes as in its text. So a
text that holds a statement is not open, and a statement never waits for another line.

## Main results

* `Abacus.Grammar.Reads.balanced` — the parts of expressions close what they open.
* `Abacus.Spelling.count_paren` — the parentheses of a text are those of its lexemes.
* `Abacus.Statement.isOpen_of_ofLine` — no statement is open.
-/

namespace Abacus

open Grammar Text

variable {part : Part} {ls rest : List Lexeme} {l : Lexeme} {cs : List Char}

/-! ## Lexemes -/

/-- Parameters have no parentheses. -/
lemma Grammar.count_parameters (ps : List String) :
    (parameters ps).count .openParen = 0 ∧ (parameters ps).count .closeParen = 0 := by
  fun_induction parameters ps with
  | case1 => exact ⟨rfl, rfl⟩
  | case2 p => exact ⟨rfl, rfl⟩
  | case3 p ps _ ih => simpa using ih

/-- Between the place where a part of an expression starts and the one where it ends, as many
parentheses are closed as are opened. -/
lemma Grammar.Reads.balanced (h : Reads part ls rest) :
    ls.count .openParen + rest.count .closeParen =
      rest.count .openParen + ls.count .closeParen := by
  induction h with
  | expression _ ih | last _ ih | lastLambda _ ih | lastArg _ ih => exact ih
  | number | name | noArgs => simp [Nat.add_comm]
  | link _ _ ihe ih | nextArg _ _ ihe ih | invoke _ _ ihe ih =>
    simp only [List.count_cons, beq_iff_eq, reduceCtorEq, if_false, if_true] at ihe ih ⊢
    omega
  | call _ ih | enclosed _ ih | group _ _ ih =>
    simp only [List.count_cons, beq_iff_eq, reduceCtorEq, if_false, if_true] at ih ⊢
    omega
  | @lambda ps _ _ _ _ ih =>
    obtain ⟨hopen, hclose⟩ := count_parameters ps
    simp only [List.count_cons, List.count_append, hopen, hclose, beq_iff_eq, reduceCtorEq,
      if_false, if_true] at ih ⊢
    omega

/-- The lexemes of a statement close what they open. -/
lemma Statement.Denotes.balanced {nesting : Nat} {form : Statement.Form}
    (h : Statement.Denotes nesting ls form) : ls.count .openParen = ls.count .closeParen := by
  have hterm : ∀ {term ls}, Expr.ofLexemes nesting ls = .ok term →
      ls.count .openParen = ls.count .closeParen := by
    intro term ls hterm
    simpa using (Expr.reads_of_ofLexemes hterm).balanced
  cases h with
  | binding h | expression h => simpa using hterm h
  | @definition _ ps _ _ _ h =>
    have hbody := hterm h
    obtain ⟨hopen, hclose⟩ := count_parameters ps
    simp only [List.count_cons, List.count_append, hopen, hclose, beq_iff_eq, reduceCtorEq,
      if_false, if_true]
    omega

/-! ## Texts -/

/-- Parentheses stand in no text of characters of another class. -/
lemma count_paren_eq_zero {p : Char → Bool} (hopen : p '(' = false) (hclose : p ')' = false)
    (hcs : ∀ c ∈ cs, p c = true) : cs.count '(' = 0 ∧ cs.count ')' = 0 := by
  rw [List.count_eq_zero, List.count_eq_zero]
  constructor
  · intro hmem
    rw [hcs _ hmem] at hopen
    cases hopen
  · intro hmem
    rw [hcs _ hmem] at hclose
    cases hclose

/-- Parentheses stand in no lexemes but their own. -/
lemma Lexeme.Written.count_paren (h : l.Written) :
    l.chars.count '(' = [l].count .openParen ∧ l.chars.count ')' = [l].count .closeParen := by
  cases l with
  | number numeral =>
    obtain ⟨d, ds, hds, hdigit, hall⟩ := h
    have hchars : ∀ c ∈ numeral.toList, isNumeralChar c = true := by
      rw [hds, List.forall_mem_cons]
      exact ⟨isNumeralChar_iff.mpr (.inl hdigit), List.all_eq_true.mp hall⟩
    simpa [Lexeme.chars] using count_paren_eq_zero (by decide) (by decide) hchars
  | identifier name =>
    simpa [Lexeme.chars] using count_paren_eq_zero (by decide) (by decide) (isNameChar_of_isName h)
  | keyword word => cases word <;> decide
  | operator op => cases op <;> decide
  | openParen | closeParen | comma | equals | arrow => decide

/-- The parentheses of a text are those among its lexemes. -/
lemma Spelling.count_paren (h : Spelling cs ls) :
    cs.count '(' = ls.count .openParen ∧ cs.count ')' = ls.count .closeParen := by
  induction h with
  | nil => exact ⟨rfl, rfl⟩
  | @blank c cs ls hc _ ih =>
    have hsingle : ∀ d ∈ [c], isBlank d = true := List.forall_mem_singleton.mpr hc
    have hblank := count_paren_eq_zero (by decide) (by decide) hsingle
    rw [← List.singleton_append, List.count_append, List.count_append, hblank.1, hblank.2,
      Nat.zero_add, Nat.zero_add]
    exact ih
  | @lexeme l rest ls hwritten _ _ ih =>
    obtain ⟨hopen, hclose⟩ := hwritten.count_paren
    rw [List.count_append, List.count_append, hopen, hclose, ih.1, ih.2, ← List.count_append,
      ← List.count_append]
    exact ⟨rfl, rfl⟩

/-- **No statement is open.** -/
theorem Statement.isOpen_of_ofLine {limits : Limits} {line : String} {statement : Statement}
    (h : Statement.ofLine limits line = .ok statement) : Script.isOpen line.toList = false := by
  obtain ⟨tokens, htokens, hdenotes⟩ := Statement.exists_ofLine_iff_denotes.mp ⟨statement, h, rfl⟩
  obtain ⟨hopen, hclose⟩ :=
    (lexemes?_eq_some_iff.mp (Expr.lexemes?_of_tokensOf htokens)).count_paren
  rw [Script.isOpen, hopen, hclose, hdenotes.balanced]
  simp

end Abacus
