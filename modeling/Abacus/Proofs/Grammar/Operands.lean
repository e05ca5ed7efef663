import Abacus.Proofs.Grammar

/-!
# The grammar without levels

Expressions as chains of operands with operators between them, in which only the last operand can
be a lambda without parentheses. This grammar is not ambiguous, since whatever follows a lambda
belongs to its body. It derives the same sentences as the grammar with levels, and from each of
them the tree in which every lambda extends as far to the right as possible.

## Main definitions

* `Abacus.Grammar.Part` — the parts of expressions, with their trees.
* `Abacus.Grammar.Reads` — the grammar without levels.

## Main results

* `Abacus.Grammar.Reads.splice` — an operator and an expression can be put behind an expression.
* `Abacus.Grammar.Reads.append` — two chains with an operator between them are a chain.
-/

namespace Abacus.Grammar

/-- The parts of expressions, with what they mean. -/
inductive Part where
  | expression (e : Expr)
  /-- Operands with operators between them. A closed chain does not end with a bare lambda. -/
  | chain (closed : Bool) (first : Expr) (links : List (Operator × Expr))
  /-- An operand that is not a bare lambda. -/
  | operand (e : Expr)
  | lambda (e : Expr)
  | args (es : List Expr)

/-- `Reads part ls rest` states that the lexemes `ls` start with the part and go on with `rest`. -/
inductive Reads : Part → List Lexeme → List Lexeme → Prop where
  | expression {c : Bool} {first : Expr} {links : List (Operator × Expr)} {ls rest : List Lexeme}
      (h : Reads (.chain c first links) ls rest) :
      Reads (.expression (first.assemble links)) ls rest
  | last {e : Expr} {ls rest : List Lexeme} (he : Reads (.operand e) ls rest) :
      Reads (.chain true e []) ls rest
  | lastLambda {f : Expr} {ls rest : List Lexeme} (hf : Reads (.lambda f) ls rest) :
      Reads (.chain false f []) ls rest
  | link {c : Bool} {op : Operator} {e next : Expr} {links : List (Operator × Expr)}
      {ls mid rest : List Lexeme} (he : Reads (.operand e) ls (.operator op :: mid))
      (h : Reads (.chain c next links) mid rest) : Reads (.chain c e ((op, next) :: links)) ls rest
  | number {numeral : String} {value : Float} {rest : List Lexeme}
      (h : Number.literal? numeral.toList = some value) :
      Reads (.operand (.number value)) (.number numeral :: rest) rest
  | name {name : String} {rest : List Lexeme} :
      Reads (.operand (.var name)) (.identifier name :: rest) rest
  | call {name : String} {es : List Expr} {ls rest : List Lexeme}
      (hes : Reads (.args es) ls (.closeParen :: rest)) :
      Reads (.operand (.call name es)) (.identifier name :: .openParen :: ls) rest
  | enclosed {f : Expr} {ls rest : List Lexeme} (hf : Reads (.lambda f) ls (.closeParen :: rest)) :
      Reads (.operand f) (.openParen :: ls) rest
  | invoke {f : Expr} {es : List Expr} {ls mid rest : List Lexeme}
      (hf : Reads (.lambda f) ls (.closeParen :: .openParen :: mid))
      (hes : Reads (.args es) mid (.closeParen :: rest)) :
      Reads (.operand (.invoke f es)) (.openParen :: ls) rest
  | group {e : Expr} {ls rest : List Lexeme} (hls : ls.head? ≠ some (.keyword .fnWord))
      (he : Reads (.expression e) ls (.closeParen :: rest)) :
      Reads (.operand e) (.openParen :: ls) rest
  | lambda {ps : List String} {body : Expr} {ls rest : List Lexeme}
      (hbody : Reads (.expression body) ls rest) :
      Reads (.lambda (.lambda ps body))
        (.keyword .fnWord :: .openParen :: (parameters ps ++ .closeParen :: .arrow :: ls)) rest
  | noArgs {rest : List Lexeme} : Reads (.args []) rest rest
  | lastArg {e : Expr} {ls rest : List Lexeme} (he : Reads (.expression e) ls rest) :
      Reads (.args [e]) ls rest
  | nextArg {e next : Expr} {es : List Expr} {ls mid rest : List Lexeme}
      (he : Reads (.expression e) ls (.comma :: mid))
      (hes : Reads (.args (next :: es)) mid rest) : Reads (.args (e :: next :: es)) ls rest

variable {part : Part} {c : Bool} {e first : Expr} {links : List (Operator × Expr)}
  {ls mid rest : List Lexeme}

/-! ## What is read -/

/-- No numeral is a parameter. -/
lemma number_notMem_parameters (numeral : String) (ps : List String) :
    Lexeme.number numeral ∉ parameters ps := by
  fun_induction parameters ps <;> simp_all

/-- Reading takes lexemes away. -/
lemma Reads.length_le (h : Reads part ls rest) : rest.length ≤ ls.length := by
  induction h with
  | expression _ ih | last _ ih | lastLambda _ ih | lastArg _ ih => exact ih
  | number | name | noArgs => simp
  | link _ _ ihe ih | nextArg _ _ ihe ih | invoke _ _ ihe ih =>
    simp only [List.length_cons] at ihe ih ⊢
    omega
  | call _ ih | enclosed _ ih | group _ _ ih =>
    simp only [List.length_cons] at ih ⊢
    omega
  | lambda _ ih =>
    simp only [List.length_cons, List.length_append]
    omega

/-- No numeral that is read has more than one point. -/
lemma Reads.pointed (h : Reads part ls rest) (hrest : OncePointed rest) : OncePointed ls := by
  induction h with
  | expression _ ih | last _ ih | lastLambda _ ih | lastArg _ ih => exact ih hrest
  | link _ _ ihe ih | nextArg _ _ ihe ih =>
    refine ihe fun numeral hmem => ?_
    exact ih hrest numeral (by simpa using hmem)
  | @number numeral value rest h =>
    have hcount : ¬ 2 ≤ numeral.toList.count '.' := by
      rw [← Number.literal?_eq_none_iff, h]
      simp
    intro other hmem
    rcases List.mem_cons.mp hmem with heq | hmem
    · cases heq
      omega
    · exact hrest other hmem
  | name => exact fun numeral hmem => hrest numeral (by simpa using hmem)
  | call _ ih | enclosed _ ih | group _ _ ih =>
    intro numeral hmem
    exact ih (fun numeral hmem => hrest numeral (by simpa using hmem)) numeral (by simpa using hmem)
  | invoke _ _ ihf ihes =>
    intro numeral hmem
    refine ihf (fun numeral hmem => ?_) numeral (by simpa using hmem)
    exact ihes (fun numeral hmem => hrest numeral (by simpa using hmem)) numeral
      (by simpa using hmem)
  | lambda _ ih =>
    intro numeral hmem
    exact ih hrest numeral (by simpa [number_notMem_parameters] using hmem)
  | noArgs => exact hrest

/-! ## How an expression starts -/

/-- An operand starts with no reserved word and does not close a group. -/
lemma Reads.head_operand {l : Lexeme} (h : Reads (.operand e) (l :: ls) rest) :
    l ≠ .keyword .fnWord ∧ l ≠ .closeParen := by
  cases h <;> simp

/-- A lambda starts with its reserved word. -/
lemma Reads.head_lambda (h : Reads (.lambda e) ls rest) : ∃ ls', ls = .keyword .fnWord :: ls' := by
  cases h
  exact ⟨_, rfl⟩

/-- No expression starts with the end of a group. -/
lemma Reads.head_expression (h : Reads (.expression e) ls rest) : ls.head? ≠ some .closeParen := by
  cases h with
  | expression h =>
    cases h with
    | last he | link he =>
      cases ls with
      | nil => simp
      | cons l ls => simpa using he.head_operand.2
    | lastLambda hf =>
      cases hf
      simp

/-- An expression that starts like a lambda is a lambda. -/
lemma Reads.lambda_of_expression (h : Reads (.expression e) (.keyword .fnWord :: ls) rest) :
    Reads (.lambda e) (.keyword .fnWord :: ls) rest := by
  cases h with
  | expression h =>
    cases h with
    | last he | link he => exact absurd rfl he.head_operand.1
    | lastLambda hf => exact hf

/-- An expression in parentheses is an operand, whatever it starts with. -/
lemma Reads.parenthesized (h : Reads (.expression e) ls (.closeParen :: rest)) :
    Reads (.operand e) (.openParen :: ls) rest := by
  by_cases hls : ls.head? = some (.keyword .fnWord)
  · obtain ⟨l, rfl⟩ := List.head?_eq_some_iff.mp hls
    exact .enclosed h.lambda_of_expression
  · exact .group hls h

/-! ## Going on behind an expression -/

/-- Some expression, chain or lambda, whichever the given part is, stands between two places. -/
def ReadsOne : Part → List Lexeme → List Lexeme → Prop
  | .expression _, ls, rest => ∃ e, Reads (.expression e) ls rest
  | .chain .., ls, rest => ∃ c first links, Reads (.chain c first links) ls rest
  | .lambda _, ls, rest => ∃ f, Reads (.lambda f) ls rest
  | _, _, _ => True

/-- What stands behind an operator goes on the expression in front of it, at its last operand.

**Proof sketch.** Induction on the first part. A closed chain gets one more link. Behind a lambda
the operator belongs to its body, which is a shorter expression. -/
lemma Reads.splice_part {rest' : List Lexeme} {op : Operator} {b : Expr}
    (h : Reads part ls rest') (hrest' : rest' = .operator op :: mid)
    (hb : Reads (.expression b) mid rest) : ReadsOne part ls rest := by
  induction h with
  | expression _ ih =>
    obtain ⟨c, first, links, h⟩ := ih hrest'
    exact ⟨_, .expression h⟩
  | last he =>
    subst hrest'
    cases hb with
    | expression hb => exact ⟨_, _, _, .link he hb⟩
  | lastLambda _ ih =>
    obtain ⟨f, hf⟩ := ih hrest'
    exact ⟨_, _, _, .lastLambda hf⟩
  | link he _ _ ih =>
    obtain ⟨c, first, links, h⟩ := ih hrest'
    exact ⟨_, _, _, .link he h⟩
  | lambda _ ih =>
    obtain ⟨body, hbody⟩ := ih hrest'
    exact ⟨_, .lambda hbody⟩
  | _ => trivial

/-- An expression, an operator and an expression are an expression. -/
lemma Reads.splice {a b : Expr} {op : Operator}
    (ha : Reads (.expression a) ls (.operator op :: mid)) (hb : Reads (.expression b) mid rest) :
    ∃ e, Reads (.expression e) ls rest :=
  ha.splice_part rfl hb

/-- Two chains with an operator between them are a chain, unless the first one ends with a
lambda. -/
lemma Reads.append {op : Operator} {next : Expr} {links' : List (Operator × Expr)}
    (h : Reads (.chain true first links) ls (.operator op :: mid))
    (h' : Reads (.chain c next links') mid rest) :
    Reads (.chain c first (links ++ (op, next) :: links')) ls rest := by
  induction links generalizing first ls with
  | nil =>
    cases h with
    | last he => exact .link he h'
  | cons l links ih =>
    cases h with
    | link he h => exact .link he (ih h)

end Abacus.Grammar
