import Abacus.Expr.Parse
import Mathlib.Tactic.Lemma

/-!
# The grammar of expressions

The grammar

```
expression     ::= additive
additive       ::= multiplicative (("+" | "-") multiplicative)*
multiplicative ::= power (("*" | "/") power)*
power          ::= primary ("^" primary)*
primary        ::= number
                 | lambda
                 | name ("(" arguments? ")")?
                 | "(" lambda ")" ("(" arguments? ")")?
                 | "(" expression ")"
lambda         ::= "fn" "(" parameters? ")" "=>" expression
parameters     ::= name ("," name)*
arguments      ::= expression ("," expression)*
```

as a relation between a phrase, the lexemes from where it starts on, and those that follow it. The
relation also fixes the tree of a phrase. The grammar is ambiguous only in where the body of a
lambda ends, so the relation takes a condition on the two ends of a body: with `AnyEnd` it is the
grammar as written, and with `Longest` every body extends as far to the right as the grammar
permits.

## Main definitions

* `Abacus.Grammar.Phrase` — the phrases, with their trees.
* `Abacus.Grammar.Derives` — the grammar, under a condition on the bodies of lambdas.
* `Abacus.Grammar.Longest` — the condition that a body ends as late as it can.
* `Abacus.Grammar.Sentence` — the lexemes that form an expression.
* `Abacus.Grammar.groupEnd` — the lexemes from the end of the present group on.

## Main results

* `Abacus.Grammar.Derives.groupEnd_eq` — a phrase lies inside of one group.
* `Abacus.Grammar.longest_of_ends` — a body that reaches the end of its group is the longest one.
-/

namespace Abacus.Grammar

/-! ## Phrases -/

/-- The phrases of the grammar, with what they mean. -/
inductive Phrase where
  /-- An expression whose operators outside of parentheses have at least the given precedence. The
  levels 1, 2 and 3 are the additive, multiplicative and power expressions, 4 the primary ones. -/
  | level (precedence : Nat) (e : Expr)
  /-- A lambda without parentheses around it. -/
  | lambda (e : Expr)
  /-- Arguments with commas between them, or none at all. -/
  | args (es : List Expr)

/-- The lexemes of parameters with commas between them. -/
def parameters : List String → List Lexeme
  | [] => []
  | [p] => [.identifier p]
  | p :: ps => .identifier p :: .comma :: parameters ps

/-! ## The grammar -/

/-- `Derives fits φ ls rest` states that the lexemes `ls` start with the phrase `φ` and go on with
`rest`. The lexemes from a body of a lambda on and those behind it have to satisfy `fits`. -/
inductive Derives (fits : List Lexeme → List Lexeme → Prop) :
    Phrase → List Lexeme → List Lexeme → Prop where
  /-- A level without an operator of its own is the next tighter level. -/
  | tighter {p : Nat} {e : Expr} {ls rest : List Lexeme} (hp : p < 4)
      (he : Derives fits (.level (p + 1) e) ls rest) : Derives fits (.level p e) ls rest
  /-- An operator has its own level on its left and the next tighter one on its right. -/
  | binary {op : Operator} {a b : Expr} {ls mid rest : List Lexeme}
      (ha : Derives fits (.level op.precedence a) ls (.operator op :: mid))
      (hb : Derives fits (.level (op.precedence + 1) b) mid rest) :
      Derives fits (.level op.precedence (.binary op a b)) ls rest
  | number {numeral : String} {rest : List Lexeme} :
      Derives fits (.level 4 (.number (Number.Decimal.ofNumeral numeral.toList).nearest))
        (.number numeral :: rest) rest
  | bare {f : Expr} {ls rest : List Lexeme} (hf : Derives fits (.lambda f) ls rest) :
      Derives fits (.level 4 f) ls rest
  | name {name : String} {rest : List Lexeme} :
      Derives fits (.level 4 (.var name)) (.identifier name :: rest) rest
  | call {name : String} {es : List Expr} {ls rest : List Lexeme}
      (hes : Derives fits (.args es) ls (.closeParen :: rest)) :
      Derives fits (.level 4 (.call name es)) (.identifier name :: .openParen :: ls) rest
  | enclosed {f : Expr} {ls rest : List Lexeme}
      (hf : Derives fits (.lambda f) ls (.closeParen :: rest)) :
      Derives fits (.level 4 f) (.openParen :: ls) rest
  | invoke {f : Expr} {es : List Expr} {ls mid rest : List Lexeme}
      (hf : Derives fits (.lambda f) ls (.closeParen :: .openParen :: mid))
      (hes : Derives fits (.args es) mid (.closeParen :: rest)) :
      Derives fits (.level 4 (.invoke f es)) (.openParen :: ls) rest
  | group {e : Expr} {ls rest : List Lexeme}
      (he : Derives fits (.level 1 e) ls (.closeParen :: rest)) :
      Derives fits (.level 4 e) (.openParen :: ls) rest
  | lambda {ps : List String} {body : Expr} {ls rest : List Lexeme}
      (hbody : Derives fits (.level 1 body) ls rest) (hfits : fits ls rest) :
      Derives fits (.lambda (.lambda ps body))
        (.keyword .fnWord :: .openParen :: (parameters ps ++ .closeParen :: .arrow :: ls)) rest
  | noArgs {rest : List Lexeme} : Derives fits (.args []) rest rest
  | lastArg {e : Expr} {ls rest : List Lexeme} (he : Derives fits (.level 1 e) ls rest) :
      Derives fits (.args [e]) ls rest
  | nextArg {e next : Expr} {es : List Expr} {ls mid rest : List Lexeme}
      (he : Derives fits (.level 1 e) ls (.comma :: mid))
      (hes : Derives fits (.args (next :: es)) mid rest) :
      Derives fits (.args (e :: next :: es)) ls rest

/-- The body of a lambda may end wherever the grammar lets it end. -/
def AnyEnd (_ls _rest : List Lexeme) : Prop := True

/-- The body of a lambda extends as far to the right as possible: no expression that starts where it
starts ends behind it. -/
def Longest (ls rest : List Lexeme) : Prop :=
  ∀ e rest', Derives AnyEnd (.level 1 e) ls rest' → rest.length ≤ rest'.length

/-- The sequences of lexemes that the grammar derives from an expression. -/
def Sentence (ls : List Lexeme) : Prop := ∃ e, Derives AnyEnd (.level 1 e) ls []

/-- No numeral has more than one point. -/
def OncePointed (ls : List Lexeme) : Prop :=
  ∀ numeral, Lexeme.number numeral ∈ ls → numeral.toList.count '.' ≤ 1

/-- What can follow an expression: the end, or what ends or separates the parts of a group. -/
def Ends : List Lexeme → Prop
  | [] => True
  | l :: _ => l = .closeParen ∨ l = .comma

variable {fits : List Lexeme → List Lexeme → Prop} {φ : Phrase} {ls mid rest : List Lexeme}

@[simp] lemma ends_nil : Ends [] := trivial

@[simp] lemma ends_closeParen : Ends (.closeParen :: rest) := .inl rfl

@[simp] lemma ends_comma : Ends (.comma :: rest) := .inr rfl

/-- What belongs to a level belongs to every looser one. -/
lemma Derives.loosen {p q : Nat} {e : Expr} (h : Derives fits (.level p e) ls rest) (hp : p ≤ 4)
    (hq : q ≤ p) :
    Derives fits (.level q e) ls rest := by
  obtain ⟨k, rfl⟩ := Nat.exists_eq_add_of_le hq
  induction k generalizing q with
  | zero => exact h
  | succ k ih =>
    rw [show q + (k + 1) = q + 1 + k by omega] at h hp
    exact .tighter (by omega) (ih h hp (by omega))

/-- The body of a lambda is the end of the lambda. -/
lemma suffix_lambda (ps : List String) (ls : List Lexeme) :
    ls <:+ .keyword .fnWord :: .openParen :: (parameters ps ++ .closeParen :: .arrow :: ls) :=
  ⟨.keyword .fnWord :: .openParen :: (parameters ps ++ [.closeParen, .arrow]), by simp⟩

/-- What follows a phrase is the end of the lexemes that it starts. -/
lemma Derives.suffix (h : Derives fits φ ls rest) : rest <:+ ls := by
  induction h with
  | tighter _ _ ih => exact ih
  | binary _ _ iha ihb => exact ihb.trans ((List.suffix_cons _ _).trans iha)
  | number => exact List.suffix_cons _ _
  | bare _ ih => exact ih
  | name => exact List.suffix_cons _ _
  | call _ ih =>
    exact (List.suffix_cons _ _).trans
      (ih.trans ((List.suffix_cons _ _).trans (List.suffix_cons _ _)))
  | enclosed _ ih => exact (List.suffix_cons _ _).trans (ih.trans (List.suffix_cons _ _))
  | invoke _ _ ihf ihes =>
    have hmid := (List.suffix_cons Lexeme.openParen _).trans ((List.suffix_cons _ _).trans ihf)
    exact (List.suffix_cons _ _).trans (ihes.trans (hmid.trans (List.suffix_cons _ _)))
  | group _ ih => exact (List.suffix_cons _ _).trans (ih.trans (List.suffix_cons _ _))
  | lambda _ _ ih => exact ih.trans (suffix_lambda _ _)
  | noArgs => exact List.suffix_rfl
  | lastArg _ ih => exact ih
  | nextArg _ _ ihe ihes => exact ihes.trans ((List.suffix_cons _ _).trans ihe)

/-! ## The end of a group -/

/-- The lexemes from the place on where the present group ends or has a comma, `depth` further
groups being open inside of it. -/
def groupEnd : Nat → List Lexeme → List Lexeme
  | _, [] => []
  | depth, .openParen :: ls => groupEnd (depth + 1) ls
  | 0, .closeParen :: ls => .closeParen :: ls
  | depth + 1, .closeParen :: ls => groupEnd depth ls
  | 0, .comma :: ls => .comma :: ls
  | depth, _ :: ls => groupEnd depth ls

/-- Where the group ends there is nothing to skip. -/
lemma groupEnd_of_ends (h : Ends rest) : groupEnd 0 rest = rest := by
  cases rest with
  | nil => rfl
  | cons l ls => rcases h with rfl | rfl <;> rfl

/-- What is skipped stands in front of the rest. -/
lemma groupEnd_suffix (depth : Nat) (ls : List Lexeme) : groupEnd depth ls <:+ ls := by
  fun_induction groupEnd depth ls with
  | case1 => exact List.suffix_rfl
  | case2 depth ls ih => exact ih.trans (List.suffix_cons _ _)
  | case3 ls => exact List.suffix_rfl
  | case4 depth ls ih => exact ih.trans (List.suffix_cons _ _)
  | case5 ls => exact List.suffix_rfl
  | case6 depth l ls _ _ _ _ ih => exact ih.trans (List.suffix_cons _ _)

/-- Parameters stand inside of their own group. -/
lemma groupEnd_parameters (depth : Nat) (ps : List String) (ls : List Lexeme) :
    groupEnd (depth + 1) (parameters ps ++ ls) = groupEnd (depth + 1) ls := by
  fun_induction parameters ps with
  | case1 => rfl
  | case2 p => rfl
  | case3 p ps _ ih => simpa [groupEnd] using ih

/-- The groups that a phrase opens are closed in it, and only arguments have a comma outside of
them. So the group around a phrase ends where it ends for what follows the phrase. -/
lemma Derives.groupEnd_eq (h : Derives fits φ ls rest) (depth : Nat)
    (hd : ∀ es, φ = .args es → 0 < depth) : groupEnd depth ls = groupEnd depth rest := by
  induction h generalizing depth with
  | tighter _ _ ih => exact ih depth (by simp)
  | binary _ _ iha ihb =>
    rw [iha depth (by simp), groupEnd.eq_def]
    simpa using ihb depth (by simp)
  | number => simp [groupEnd]
  | bare _ ih => exact ih depth (by simp)
  | name => simp [groupEnd]
  | call _ ih => simpa [groupEnd] using ih (depth + 1) (by simp)
  | enclosed _ ih => simpa [groupEnd] using ih (depth + 1) (by simp)
  | invoke _ _ ihf ihes =>
    simp only [groupEnd]
    rw [ihf (depth + 1) (by simp)]
    simpa [groupEnd] using ihes (depth + 1) (by simp)
  | group _ ih => simpa [groupEnd] using ih (depth + 1) (by simp)
  | lambda _ _ ih =>
    simpa [groupEnd, groupEnd_parameters] using ih depth (by simp)
  | noArgs => rfl
  | lastArg _ ih => exact ih depth (by simp)
  | nextArg _ _ ihe ihes =>
    obtain ⟨d, rfl⟩ := Nat.exists_eq_add_of_lt (hd _ rfl)
    rw [ihe _ (by simp), ← ihes _ (by simp)]
    simp [groupEnd]

/-- An expression that reaches the end of its group is the longest one from its start.

**Proof sketch.** Any expression from the same start lies inside of the same group, so what
follows it goes on to the same end. -/
lemma longest_of_ends {e : Expr} (h : Derives fits (.level 1 e) ls rest) (hends : Ends rest) :
    Longest ls rest := by
  intro e' rest' h'
  have hrest : groupEnd 0 rest' = rest := by
    rw [← h'.groupEnd_eq 0 (by simp), h.groupEnd_eq 0 (by simp), groupEnd_of_ends hends]
  rw [← hrest]
  exact (groupEnd_suffix 0 rest').length_le

end Abacus.Grammar
