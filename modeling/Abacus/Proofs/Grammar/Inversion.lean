import Abacus.Proofs.Statement.Balance

/-!
# Where the parts of a phrase stand

From the lexemes of a phrase and its tree it follows where its parts stand. The operator of a
binary expression is found by counting the lexemes behind it, apart from parentheses, since the
tree tells how many there are. The arguments of a call are found by the groups that are closed in
front of them.

## Main definitions

* `Abacus.Expr.width` — the number of lexemes that an expression is made of, apart from parentheses.
* `Abacus.Grammar.solid` — the number of lexemes that are no parentheses.
* `Abacus.Grammar.Closed` — lexemes that lie within one group and have no comma outside of inner
  ones.

## Main results

* `Abacus.Grammar.Derives.solid_eq` — a phrase has as many lexemes as its tree is wide.
* `Abacus.Grammar.Derives.operator_at` — where the operator of a binary expression stands.
* `Abacus.Grammar.Derives.inside` — an operand in parentheses that its level does not admit
  without them.
* `Abacus.Grammar.Derives.body_at` — where the body of a lambda stands.
* `Abacus.Grammar.Derives.args_of_call`, `Abacus.Grammar.Derives.args_of_invoke`,
  `Abacus.Grammar.Derives.first_arg` — where the arguments of a call stand.
-/

namespace Abacus

open Grammar

namespace Expr

mutual

/-- The number of lexemes that an expression is made of, apart from parentheses. -/
def width : Expr → Nat
  | number _ => 1
  | var _ => 1
  | binary _ left right => left.width + 1 + right.width
  | lambda params body => (parameters params).length + 2 + body.width
  | call _ args => 1 + widths args
  | invoke function args => function.width + widths args

/-- The number of lexemes of a list of expressions, with the commas between them. -/
def widths : List Expr → Nat
  | [] => 0
  | [e] => e.width
  | e :: es => e.width + 1 + widths es

end

end Expr

namespace Grammar

variable {fits : List Lexeme → List Lexeme → Prop} {φ : Phrase} {p : Nat} {op : Operator}
  {e f x a b body : Expr} {es es' : List Expr} {name : String} {ps : List String} {l : Lexeme}
  {ls mid rest front back : List Lexeme}

/-! ## Counting -/

/-- Whether a lexeme is a parenthesis. -/
def isParen : Lexeme → Bool
  | .openParen => true
  | .closeParen => true
  | _ => false

/-- The number of lexemes that are no parentheses. -/
def solid (ls : List Lexeme) : Nat := ls.countP fun l => !isParen l

@[simp] lemma solid_nil : solid [] = 0 := rfl

@[simp] lemma solid_cons (l : Lexeme) (ls : List Lexeme) :
    solid (l :: ls) = solid ls + if isParen l then 0 else 1 := by
  rw [solid, List.countP_cons, ← solid]
  cases isParen l <;> rfl

@[simp] lemma solid_append (ls ls' : List Lexeme) : solid (ls ++ ls') = solid ls + solid ls' :=
  List.countP_append

/-- Opening parentheses do not count. -/
@[simp] lemma solid_replicate (k : Nat) (h : isParen l = true) :
    solid (List.replicate k l) = 0 := by
  induction k with
  | zero => rfl
  | succ k ih => rw [List.replicate_succ, solid_cons, ih, h, if_pos rfl]

/-- Parameters are no parentheses. -/
@[simp] lemma solid_parameters (ps : List String) :
    solid (parameters ps) = (parameters ps).length := by
  fun_induction parameters ps with
  | case1 => rfl
  | case2 p => rfl
  | case3 p ps _ ih => simp [isParen, ih]

/-- The number of lexemes of a phrase, apart from parentheses. -/
def Phrase.width : Phrase → Nat
  | .level _ e => e.width
  | .lambda e => e.width
  | .args es => Expr.widths es

/-- A phrase has as many lexemes, apart from parentheses, as its tree is wide. -/
lemma Derives.solid_eq (h : Derives fits φ ls rest) : solid ls = φ.width + solid rest := by
  induction h with
  | tighter _ _ ih | bare _ ih | lastArg _ ih => exact ih
  | @binary op a b _ _ _ _ _ iha ihb =>
    simp only [Phrase.width, Expr.width, solid_cons, isParen, Bool.false_eq_true,
      if_false] at iha ihb ⊢
    omega
  | number | name =>
    simp only [Phrase.width, Expr.width, solid_cons, isParen, Bool.false_eq_true, if_false]
    omega
  | call _ ih =>
    simp only [Phrase.width, Expr.width, solid_cons, isParen, Bool.false_eq_true, if_false,
      if_true] at ih ⊢
    omega
  | enclosed _ ih | group _ ih =>
    simp only [Phrase.width, solid_cons, isParen, if_true] at ih ⊢
    omega
  | invoke _ _ ihf ihes =>
    simp only [Phrase.width, Expr.width, solid_cons, isParen, if_true] at ihf ihes ⊢
    omega
  | lambda _ _ ih =>
    simp only [Phrase.width, Expr.width, solid_cons, solid_append, solid_parameters, isParen,
      Bool.false_eq_true, if_false, if_true] at ih ⊢
    omega
  | noArgs => exact (Nat.zero_add _).symm
  | nextArg _ _ ihe ihes =>
    simp only [Phrase.width, Expr.widths, solid_cons, isParen, Bool.false_eq_true,
      if_false] at ihe ihes ⊢
    omega

/-- The number of lexemes behind a lexeme that is no parenthesis gives its place. -/
lemma eq_of_append_cons_eq {front' mid' : List Lexeme} {l' : Lexeme} (hl : isParen l = false)
    (hl' : isParen l' = false) (h : front ++ l :: mid = front' ++ l' :: mid')
    (hsolid : solid mid = solid mid') : front = front' ∧ mid = mid' := by
  rcases List.append_eq_append_iff.mp h with ⟨between, rfl, hmid⟩ | ⟨between, rfl, hmid⟩
  · cases between with
    | nil => exact ⟨(List.append_nil front).symm, (List.cons.inj hmid).2⟩
    | cons c between =>
      rw [List.cons_append, List.cons.injEq] at hmid
      rw [hmid.2, solid_append, solid_cons, hl', if_neg Bool.false_ne_true] at hsolid
      omega
  · cases between with
    | nil => exact ⟨List.append_nil front', (List.cons.inj hmid).2.symm⟩
    | cons c between =>
      rw [List.cons_append, List.cons.injEq] at hmid
      rw [hmid.2, solid_append, solid_cons, hl, if_neg Bool.false_ne_true] at hsolid
      omega

/-! ## Operators -/

/-- A binary expression has its operator in parentheses that stand around all of it, of which
there is at least one if its level is too tight. -/
lemma Derives.exists_operator (h : Derives fits (.level p (.binary op a b)) ls rest) :
    ∃ k front mid, ls = List.replicate k .openParen ++ (front ++ .operator op :: mid) ∧
      Derives fits (.level op.precedence a) (front ++ .operator op :: mid) (.operator op :: mid) ∧
      Derives fits (.level (op.precedence + 1) b) mid (List.replicate k .closeParen ++ rest) ∧
      (k = 0 → p ≤ op.precedence) := by
  generalize hφ : Phrase.level p (.binary op a b) = φ at h
  induction h generalizing p with
  | tighter _ _ ih =>
    cases hφ
    obtain ⟨k, front, mid, hls, ha, hb, hle⟩ := ih rfl
    exact ⟨k, front, mid, hls, ha, hb, fun hk => Nat.le_of_succ_le (hle hk)⟩
  | binary ha hb =>
    cases hφ
    obtain ⟨front, rfl⟩ := ha.suffix
    exact ⟨0, front, _, rfl, ha, hb, fun _ => Nat.le_refl _⟩
  | group _ ih =>
    cases hφ
    obtain ⟨k, front, mid, rfl, ha, hb, -⟩ := ih rfl
    refine ⟨k + 1, front, mid, rfl, ha, ?_, fun hk => absurd hk (Nat.succ_ne_zero k)⟩
    rw [List.replicate_succ', List.append_assoc]
    exact hb
  | bare hf | enclosed hf =>
    cases hφ
    cases hf
  | _ => cases hφ

/-- **Where the operator of a binary expression stands.** If the lexemes in front of an operator
close what they open, and those behind it are as many as there have to be behind the operator of
the expression, then it is that operator, and it stands in no parentheses. So the level of the
expression is no tighter than the operator.

**Proof sketch.** The parentheses that stand around all of the expression do not count, so the
operator is the one inside of them (`eq_of_append_cons_eq`). In front of it stand these
parentheses and the left operand, which closes what it opens (`Reads.balanced`). So there are none
of them. -/
theorem Derives.operator_at
    (h : Derives fits (.level p (.binary op a b)) (front ++ .operator op :: mid) rest)
    (hpointed : OncePointed (front ++ .operator op :: mid))
    (hfront : front.count .openParen = front.count .closeParen)
    (hmid : solid mid = b.width + solid rest) :
    p ≤ op.precedence ∧
      Derives fits (.level op.precedence a) (front ++ .operator op :: mid) (.operator op :: mid) ∧
      Derives fits (.level (op.precedence + 1) b) mid rest := by
  obtain ⟨k, front', mid', hls, ha, hb, hle⟩ := h.exists_operator
  have hsolid : solid mid = solid mid' := by
    rw [hmid, hb.solid_eq, solid_append, solid_replicate k rfl, Nat.zero_add]
    rfl
  rw [← List.append_assoc] at hls
  obtain ⟨rfl, rfl⟩ := eq_of_append_cons_eq rfl rfl hls hsolid
  obtain ⟨a', ha'⟩ := ha.readsSome
    (hpointed.suffix ⟨List.replicate k .openParen, (List.append_assoc _ _ _).symm⟩)
  have hbalanced := ha'.balanced
  have hk : k = 0 := by
    simp only [List.count_append, List.count_replicate, beq_iff_eq, reduceCtorEq, if_false, if_true]
      at hfront hbalanced
    omega
  subst hk
  exact ⟨hle rfl, ha, hb⟩

/-! ## Primary expressions -/

/-- What is no binary expression is a primary one on every level. -/
lemma Derives.primary (h : Derives fits (.level p e) ls rest) (he : ∀ op a b, e ≠ .binary op a b) :
    Derives fits (.level 4 e) ls rest := by
  generalize hφ : Phrase.level p e = φ at h
  induction h generalizing p with
  | tighter _ _ ih =>
    cases hφ
    exact ih rfl
  | binary ha hb =>
    cases hφ
    exact absurd rfl (he _ _ _)
  | lambda | noArgs | lastArg | nextArg => cases hφ
  | number => cases hφ; exact .number
  | name => cases hφ; exact .name
  | bare hf => cases hφ; exact .bare hf
  | call hes => cases hφ; exact .call hes
  | enclosed hf => cases hφ; exact .enclosed hf
  | invoke hf hes => cases hφ; exact .invoke hf hes
  | group he => cases hφ; exact .group he

/-- An operand that starts with a parenthesis, on a level that does not admit it otherwise, is all
that stands in these parentheses. -/
lemma Derives.inside (h : Derives fits (.level p e) (.openParen :: ls) rest)
    (hlt : e.precedence < p) (hp : p ≤ 4) : Derives fits (.level 1 e) ls (.closeParen :: rest) := by
  generalize hφ : Phrase.level p e = φ, hls : Lexeme.openParen :: ls = ls' at h
  induction h generalizing p with
  | tighter _ _ ih =>
    cases hφ
    exact ih (by omega) (by omega) rfl hls
  | binary ha hb =>
    cases hφ
    exact absurd hlt (Nat.lt_irrefl _)
  | group he =>
    cases hφ
    cases hls
    exact he
  | enclosed hf =>
    cases hφ
    cases hls
    exact (Derives.bare hf).loosen (by omega) (by omega)
  | invoke hf hes =>
    cases hφ
    exact absurd hlt (by simp only [Expr.precedence]; omega)
  | bare hf =>
    cases hφ
    cases hf
    cases hls
  | number | name | call | lambda => cases hls
  | noArgs | lastArg | nextArg => cases hφ

/-- The body of a lambda stands behind its arrow. -/
lemma Derives.body_at (h : Derives fits (.level p (.lambda ps body))
      (.keyword .fnWord :: .openParen :: (parameters ps ++ .closeParen :: .arrow :: ls)) rest) :
    Derives fits (.lambda (.lambda ps body))
        (.keyword .fnWord :: .openParen :: (parameters ps ++ .closeParen :: .arrow :: ls)) rest ∧
      Derives fits (.level 1 body) ls rest := by
  have hprimary := h.primary fun op a b heq => by cases heq
  generalize hq : 4 = q, hls : Lexeme.keyword .fnWord :: .openParen ::
    (parameters ps ++ .closeParen :: .arrow :: ls) = ls' at hprimary ⊢
  cases hprimary with
  | tighter hp => omega
  | bare hf =>
    refine ⟨hf, ?_⟩
    cases hf with
    | lambda hbody _ =>
      simp only [List.cons.injEq, List.append_cancel_left_eq, true_and] at hls
      rw [hls]
      exact hbody
  | enclosed | group => cases hls

/-- The arguments of a call stand in its parentheses. -/
lemma Derives.args_of_call
    (h : Derives fits (.level p (.call name es)) (.identifier name :: .openParen :: ls) rest) :
    Derives fits (.args es) ls (.closeParen :: rest) := by
  have hprimary := h.primary fun op a b heq => by cases heq
  generalize hq : 4 = q at hprimary
  cases hprimary with
  | tighter hp => omega
  | call hes => exact hes
  | bare hf => cases hf

/-! ## Groups -/

/-- Lexemes that lie within one group, and without a comma outside of the groups that they open. -/
def Closed (ls : List Lexeme) : Prop :=
  ∀ depth rest, groupEnd depth (ls ++ rest) = groupEnd depth rest

/-- The group of a phrase behind closed lexemes ends where that of the lexemes does. -/
lemma Derives.eq_of_closed (h : Derives fits φ (ls ++ mid) rest) (hφ : ∀ es, φ ≠ .args es)
    (hls : Closed ls) (hmid : Ends mid) (hrest : Ends rest) : rest = mid := by
  have hend := h.groupEnd_eq 0 fun es heq => absurd heq (hφ es)
  rw [hls, groupEnd_of_ends hmid, groupEnd_of_ends hrest] at hend
  exact hend.symm

/-- The function of a call in place stands in the first parentheses, and its arguments in the
second ones. -/
lemma Derives.args_of_invoke
    (h : Derives fits (.level p (.invoke f es))
      (.openParen :: (ls ++ .closeParen :: .openParen :: mid)) rest)
    (hls : Closed ls) (hmid : rest.length ≤ mid.length) :
    Derives fits (.lambda f) (ls ++ .closeParen :: .openParen :: mid)
        (.closeParen :: .openParen :: mid) ∧
      Derives fits (.args es) mid (.closeParen :: rest) := by
  have hprimary := h.primary fun op a b heq => by cases heq
  generalize hq : 4 = q at hprimary
  cases hprimary with
  | tighter hp => omega
  | bare hf => cases hf
  | enclosed hf => cases hf
  | invoke hf hes =>
    cases hf.eq_of_closed (fun es heq => by cases heq) hls ends_closeParen ends_closeParen
    exact ⟨hf, hes⟩
  | group he =>
    have heq := he.eq_of_closed (fun es heq => by cases heq) hls ends_closeParen ends_closeParen
    have hlength := congrArg List.length heq
    simp only [List.length_cons] at hlength
    omega

/-- The first of several arguments ends at the first comma outside of its groups. -/
lemma Derives.first_arg {next : Expr}
    (h : Derives fits (.args (e :: next :: es)) (ls ++ .comma :: mid) rest) (hls : Closed ls) :
    Derives fits (.level 1 e) (ls ++ .comma :: mid) (.comma :: mid) ∧
      Derives fits (.args (next :: es)) mid rest := by
  cases h with
  | nextArg he hes =>
    cases he.eq_of_closed (fun es heq => by cases heq) hls ends_comma ends_comma
    exact ⟨he, hes⟩

end Grammar

end Abacus
