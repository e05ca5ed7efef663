import Abacus.Proofs.Grammar.Nesting
import Abacus.Proofs.Result

/-!
# The reader follows the grammar

Every reader of a part of an expression returns exactly what the grammar of chains reads, unless
the lexemes nest too deeply. The readers of the parts take the reader of the expressions inside of
them as an argument, so each of them is right if that one is, and the reader of expressions is
right by induction on the number of levels.

## Main definitions

* `Abacus.Reader.Faithful` — what makes a reader of expressions right.
* `Abacus.Reader.Settles` — a result that can differ only by too deep a nesting.

## Main results

* `Abacus.Reader.expression_faithful` — the reader of expressions is right.
-/

namespace Abacus.Reader

open Grammar

/-! ## What is to be shown -/

/-- A result is the given value, or the nesting is too deep. -/
def Settles {α : Type} (x : Except Stuck α) (a : α) : Prop := x = .ok a ∨ x = .error .tooNested

/-- Lexemes that do not go on with an operator. -/
def Stops (ls : List Lexeme) : Prop := ∀ op rest, ls ≠ .operator op :: rest

/-- A reader is right for expressions that nest less than `n` levels deep: what it returns follows
the grammar and extends as far as it can, it refuses nothing that the grammar reads up to the end
of a group, and only lexemes that nest at least `n` levels deep are too deep for it. -/
structure Faithful (n : Nat) (inner : Reader Expr) : Prop where
  reads : ∀ {ls e rest}, inner ls = .ok (e, rest) → Reads (.expression e) ls rest
  stops : ∀ {ls e rest}, inner ls = .ok (e, rest) → Stops rest
  settles : ∀ {ls e rest}, Reads (.expression e) ls rest → Ends rest →
    Settles (inner ls) (e, rest)
  nested : ∀ {ls}, inner ls = .error .tooNested →
    ∀ depth groups, depth + n ≤ deepest depth groups ls

variable {α β : Type}

/-- Steps that settle one after another settle. -/
lemma Settles.bind {x : Except Stuck α} {f : α → Except Stuck β} {a : α} {b : β}
    (hx : Settles x a) (hf : Settles (f a) b) : Settles (x >>= f) b := by
  rcases hx with rfl | rfl
  · exact hf
  · exact .inr rfl

/-- A value settles. -/
lemma Settles.value (a : α) : Settles (.ok a) a := .inl rfl

/-- Nothing that may end an expression is an operator. -/
lemma stops_of_ends {rest : List Lexeme} (h : Ends rest) : Stops rest := by
  rintro op ls rfl
  rcases h with h | h <;> simp at h

/-- Nothing that may end an expression opens a group. -/
lemma head_ne_openParen_of_ends {rest : List Lexeme} (h : Ends rest) :
    rest.head? ≠ some .openParen := by
  cases rest with
  | nil => simp
  | cons l ls => rcases h with rfl | rfl <;> simp

/-! ## Single lexemes and parameters -/

variable {ls rest : List Lexeme}

/-- The wanted lexeme is read. -/
lemma expect_eq_ok_iff {wanted : Lexeme} {what : Expectation} {u : Unit} :
    expect wanted what ls = .ok (u, rest) ↔ ls = wanted :: rest := by
  cases ls with
  | nil => simp [expect]
  | cons l ls => by_cases h : l = wanted <;> simp [expect, h]

/-- The wanted lexeme settles. -/
lemma expect_settles (wanted : Lexeme) (what : Expectation) (ls : List Lexeme) :
    Settles (expect wanted what (wanted :: ls)) ((), ls) :=
  .inl (expect_eq_ok_iff.mpr rfl)

/-- No single lexeme nests. -/
lemma expect_ne_tooNested {wanted : Lexeme} {what : Expectation} :
    expect wanted what ls ≠ .error .tooNested := by
  cases ls with
  | nil => simp [expect]
  | cons l ls => by_cases h : l = wanted <;> simp [expect, h]

/-- Parameters are a first one and the others, each behind a comma. -/
lemma parameters_cons (p : String) (ps : List String) :
    parameters (p :: ps) = .identifier p :: ps.flatMap fun q => [.comma, .identifier q] := by
  induction ps generalizing p with
  | nil => rfl
  | cons q qs ih => simp [parameters, ih]

/-- The parameters behind the first one are read up to the end of their group. -/
lemma moreParams_eq_ok_iff {ps : List String} :
    moreParams ls = .ok (ps, rest) ↔
      ls = (ps.flatMap fun q => [.comma, .identifier q]) ++ .closeParen :: rest := by
  fun_induction moreParams ls generalizing ps with
  | case1 p ls ih =>
    rw [Result.map_eq_ok_iff]
    cases ps with
    | nil => simp
    | cons q qs =>
      constructor
      · rintro ⟨⟨qs', rest'⟩, h, heq⟩
        cases heq
        simp [ih.mp h]
      · intro h
        simp only [List.flatMap_cons, List.cons_append, List.nil_append, List.cons.injEq,
          Lexeme.identifier.injEq, true_and] at h
        obtain ⟨rfl, h⟩ := h
        exact ⟨_, ih.mpr h, rfl⟩
  | case2 ls hls => cases ps <;> simp_all
  | case3 ls => cases ps <;> simp [eq_comm]
  | case4 ls h₁ h₂ h₃ => cases ps <;> simp_all

/-- Parameters are read up to the end of their group. -/
lemma params_eq_ok_iff {ps : List String} :
    params ls = .ok (ps, rest) ↔ ls = parameters ps ++ .closeParen :: rest := by
  fun_cases params ls with
  | case1 ls => cases ps <;> simp [parameters, parameters_cons, eq_comm]
  | case2 p ls =>
    rw [Result.map_eq_ok_iff]
    cases ps with
    | nil => simp [parameters]
    | cons q qs =>
      rw [parameters_cons]
      constructor
      · rintro ⟨⟨qs', rest'⟩, h, heq⟩
        cases heq
        simp [moreParams_eq_ok_iff.mp h]
      · intro h
        simp only [List.cons_append, List.cons.injEq, Lexeme.identifier.injEq] at h
        obtain ⟨rfl, h⟩ := h
        exact ⟨_, moreParams_eq_ok_iff.mpr h, rfl⟩
  | case3 ls h₁ h₂ => cases ps <;> simp_all [parameters, parameters_cons]

/-- No parameters nest. -/
lemma params_ne_tooNested : params ls ≠ .error .tooNested := by
  have hmore : ∀ ls, moreParams ls ≠ .error .tooNested := by
    intro ls
    fun_induction moreParams ls <;> simp_all [Result.map_eq_error_iff]
  fun_cases params ls <;> simp_all [Result.map_eq_error_iff]

/-! ## Lambdas -/

section

variable {n : Nat} {inner : Reader Expr} {e f : Expr} {es : List Expr}
  {links : List (Operator × Expr)}

/-- What is read as a lambda is one, and no operator follows it. -/
lemma lambda_reads (hinner : Faithful n inner) (h : lambda inner ls = .ok (f, rest)) :
    Reads (.lambda f) (.keyword .fnWord :: ls) rest ∧ Stops rest := by
  simp only [lambda, Result.bind_eq_ok_iff, Result.pure_eq_ok_iff] at h
  obtain ⟨⟨⟨⟩, ls₁⟩, hopen, ⟨ps, ls₂⟩, hps, ⟨⟨⟩, ls₃⟩, harrow, ⟨body, ls₄⟩, hbody, heq⟩ := h
  cases heq
  rw [expect_eq_ok_iff] at hopen harrow
  rw [params_eq_ok_iff] at hps
  subst hopen hps harrow
  exact ⟨.lambda (hinner.reads hbody), hinner.stops hbody⟩

/-- A lambda is read if its body is. -/
lemma lambda_settles (hinner : Faithful n inner)
    (h : Reads (.lambda f) (.keyword .fnWord :: ls) rest)
    (hends : Ends rest) : Settles (lambda inner ls) (f, rest) := by
  cases h with
  | @lambda ps body ls _ hbody =>
    refine Settles.bind (expect_settles _ _ _) ?_
    refine Settles.bind (.inl (params_eq_ok_iff.mpr rfl)) ?_
    refine Settles.bind (expect_settles _ _ _) ?_
    exact (hinner.settles hbody hends).bind (.value _)

/-- A lambda nests too deeply only if its body does, one level further inside. -/
lemma lambda_nested (hinner : Faithful n inner) (h : lambda inner ls = .error .tooNested)
    (depth : Nat) (groups : List Group) :
    depth + 1 + n ≤ deepest depth groups (.keyword .fnWord :: ls) := by
  simp only [lambda, Result.bind_eq_error_iff, expect_ne_tooNested, params_ne_tooNested,
    Result.pure_ne_error, and_false, exists_false, or_false, false_or] at h
  obtain ⟨⟨⟨⟩, ls₁⟩, hopen, ⟨ps, ls₂⟩, hps, ⟨⟨⟩, ls₃⟩, harrow, hbody⟩ := h
  rw [expect_eq_ok_iff] at hopen harrow
  rw [params_eq_ok_iff] at hps
  subst hopen hps harrow
  rw [deepest_parameters]
  exact hinner.nested hbody (depth + 1) groups

/-! ## Arguments -/

/-- What is read behind an argument goes on the arguments up to the end of their group. -/
lemma moreArgs_reads (hinner : Faithful n inner) {start : List Lexeme} {k : Nat}
    (he : Reads (.expression e) start ls) (h : moreArgs inner k ls = .ok (es, rest)) :
    Reads (.args (e :: es)) start (.closeParen :: rest) := by
  fun_induction moreArgs inner k ls generalizing e es start with
  | case1 k ls ih =>
    simp only [Result.bind_eq_ok_iff, Result.pure_eq_ok_iff] at h
    obtain ⟨⟨next, ls₁⟩, hnext, ⟨es, ls₂⟩, hes, heq⟩ := h
    cases heq
    exact .nextArg he (ih ls₁ (hinner.reads hnext) hes)
  | case2 k ls =>
    cases h
    exact .lastArg he
  | case3 => simp at h

/-- What is read as arguments are arguments up to the end of their group. -/
lemma args_reads (hinner : Faithful n inner) (h : args inner ls = .ok (es, rest)) :
    Reads (.args es) ls (.closeParen :: rest) := by
  fun_cases args inner ls with
  | case1 ls =>
    cases h
    exact .noArgs
  | case2 ls hls =>
    rw [args] at h
    · simp only [Result.bind_eq_ok_iff, Result.pure_eq_ok_iff] at h
      obtain ⟨⟨e, ls₁⟩, he, ⟨es, ls₂⟩, hes, heq⟩ := h
      cases heq
      exact moreArgs_reads hinner (hinner.reads he) hes
    · exact hls

/-- Arguments up to the end of their group are a first one, which is followed by a comma or the
end of the group, and what is read behind it. -/
lemma moreArgs_settles (hinner : Faithful n inner)
    (h : Reads (.args (e :: es)) ls (.closeParen :: rest)) :
    ∃ mid, Reads (.expression e) ls mid ∧ Ends mid ∧
      ∀ k, mid.length ≤ k → Settles (moreArgs inner k mid) (es, rest) := by
  induction es generalizing e ls with
  | nil =>
    cases h with
    | lastArg he =>
      refine ⟨_, he, ends_closeParen, fun k _ => ?_⟩
      rw [moreArgs]
      exact .value _
  | cons next es ih =>
    cases h with
    | @nextArg _ _ _ _ mid _ he hes =>
      refine ⟨_, he, ends_comma, fun k hk => ?_⟩
      obtain ⟨mid', hnext, hends, hmore⟩ := ih hes
      have hlength := hnext.length_le
      obtain ⟨k, rfl⟩ : ∃ k', k = k' + 1 := ⟨k - 1, by simp at hk; omega⟩
      have hk' : mid'.length ≤ k := by
        simp only [List.length_cons] at hk
        omega
      exact (hinner.settles hnext hends).bind ((hmore k hk').bind (.value _))

/-- Arguments up to the end of their group are read. -/
lemma args_settles (hinner : Faithful n inner) (h : Reads (.args es) ls (.closeParen :: rest)) :
    Settles (args inner ls) (es, rest) := by
  cases es with
  | nil =>
    cases h
    exact .value _
  | cons e es =>
    obtain ⟨mid, he, hends, hmore⟩ := moreArgs_settles hinner h
    have hhead := he.head_expression
    rw [args]
    · exact (hinner.settles he hends).bind ((hmore _ (Nat.le_refl _)).bind (.value _))
    · rintro ls' rfl
      simp at hhead

/-- What stands behind an argument nests too deeply only if one of the further arguments does. -/
lemma moreArgs_nested (hinner : Faithful n inner) {k : Nat}
    (h : moreArgs inner k ls = .error .tooNested) {depth : Nat} {groups : List Group}
    (hg : (Group.innermost groups).inside = depth) : depth + n ≤ deepest depth groups ls := by
  fun_induction moreArgs inner k ls with
  | case1 k ls ih =>
    have hcomma : deepest depth groups ls ≤ deepest depth groups (.comma :: ls) := by
      simp only [deepest, hg]
      omega
    rw [Result.bind_eq_error_iff] at h
    rcases h with h | ⟨⟨next, ls₁⟩, hnext, h⟩
    · exact Nat.le_trans (hinner.nested h depth groups) hcomma
    · simp only [Result.bind_eq_error_iff, Result.pure_ne_error, and_false, exists_false,
        or_false] at h
      have hmid := (hinner.reads hnext).deepest_le depth groups (by simp)
      have hmore := ih ls₁ h
      omega
  | case2 => simp at h
  | case3 => simp at h

/-- Arguments nest too deeply only if one of them does. -/
lemma args_nested (hinner : Faithful n inner) (h : args inner ls = .error .tooNested) {depth : Nat}
    {groups : List Group} (hg : (Group.innermost groups).inside = depth) :
    depth + n ≤ deepest depth groups ls := by
  fun_cases args inner ls with
  | case1 ls => simp [args] at h
  | case2 ls hls =>
    rw [args, Result.bind_eq_error_iff] at h
    · rcases h with h | ⟨⟨e, ls₁⟩, he, h⟩
      · exact hinner.nested h depth groups
      · simp only [Result.bind_eq_error_iff, Result.pure_ne_error, and_false, exists_false,
          or_false] at h
        have hmid := (hinner.reads he).deepest_le depth groups (by simp)
        have hmore := moreArgs_nested hinner h hg
        omega
    · exact hls

/-! ## Operands -/

/-- What is read between operators is an operand, or a lambda that no operator follows. -/
lemma operand_reads (hinner : Faithful n inner) (h : operand inner ls = .ok (e, rest)) :
    Reads (.operand e) ls rest ∨ Reads (.lambda e) ls rest ∧ Stops rest := by
  fun_cases operand inner ls with
  | case1 numeral ls value hvalue =>
    simp only [operand, hvalue] at h
    cases h
    exact .inl (.number hvalue)
  | case2 numeral ls hvalue => simp [operand, hvalue] at h
  | case3 ls => exact .inr (lambda_reads hinner h)
  | case4 name ls =>
    simp only [operand, Result.bind_eq_ok_iff, Result.pure_eq_ok_iff] at h
    obtain ⟨⟨es, ls₁⟩, hes, heq⟩ := h
    cases heq
    exact .inl (.call (args_reads hinner hes))
  | case5 name ls hls =>
    rw [operand] at h
    · cases h
      exact .inl .name
    · exact hls
  -- a lambda in parentheses, which is called in place or not
  | case6 ls =>
    simp only [operand, Result.bind_eq_ok_iff] at h
    obtain ⟨⟨f, ls₁⟩, hf, ⟨⟨⟩, ls₂⟩, hclose, h⟩ := h
    rw [expect_eq_ok_iff] at hclose
    subst hclose
    have hf := (lambda_reads hinner hf).1
    split at h
    · rename_i hls₂
      dsimp only at hls₂
      subst hls₂
      simp only [Result.bind_eq_ok_iff, Result.pure_eq_ok_iff] at h
      obtain ⟨⟨es, ls₃⟩, hes, heq⟩ := h
      cases heq
      exact .inl (.invoke hf (args_reads hinner hes))
    · cases h
      exact .inl (.enclosed hf)
  | case7 ls hls =>
    rw [operand] at h
    · simp only [Result.bind_eq_ok_iff, Result.pure_eq_ok_iff] at h
      obtain ⟨⟨e, ls₁⟩, he, ⟨⟨⟩, ls₂⟩, hclose, heq⟩ := h
      cases heq
      rw [expect_eq_ok_iff] at hclose
      subst hclose
      exact .inl (hinner.reads he).parenthesized
    · exact hls
  | case8 ls h₁ h₂ h₃ h₄ h₅ =>
    rw [operand] at h <;> first | assumption | simp at h

/-- Behind what is read between operators fewer lexemes follow, and none of them nests more
deeply. -/
lemma operand_behind (hinner : Faithful n inner) (h : operand inner ls = .ok (e, rest)) :
    rest.length ≤ ls.length ∧
      ∀ depth groups, deepest depth groups rest ≤ deepest depth groups ls := by
  rcases operand_reads hinner h with he | ⟨hf, -⟩
  · exact ⟨he.length_le, fun depth groups => he.deepest_le depth groups (by simp)⟩
  · exact ⟨hf.length_le, fun depth groups => hf.deepest_le depth groups (by simp)⟩

/-- An operand is read if the group behind it, should there be one, belongs to it. -/
lemma operand_settles (hinner : Faithful n inner) (h : Reads (.operand e) ls rest)
    (hrest : rest.head? ≠ some .openParen) : Settles (operand inner ls) (e, rest) := by
  cases h with
  | number hvalue =>
    simp only [operand, hvalue]
    exact .value _
  | name =>
    rw [operand]
    · exact .value _
    · rintro ls rfl
      simp at hrest
  | call hes => exact (args_settles hinner hes).bind (.value _)
  | enclosed hf =>
    obtain ⟨ls, rfl⟩ := hf.head_lambda
    refine (lambda_settles hinner hf ends_closeParen).bind ((expect_settles _ _ _).bind ?_)
    dsimp only
    split
    · simp at hrest
    · exact .value _
  | invoke hf hes =>
    obtain ⟨ls, rfl⟩ := hf.head_lambda
    refine (lambda_settles hinner hf ends_closeParen).bind ((expect_settles _ _ _).bind ?_)
    exact (args_settles hinner hes).bind (.value _)
  | group hls he =>
    rw [operand]
    · exact (hinner.settles he ends_closeParen).bind ((expect_settles _ _ _).bind (.value _))
    · rintro ls rfl
      simp at hls

/-- An operand nests too deeply only if something in its parentheses does, one level further
inside. -/
lemma operand_nested (hinner : Faithful n inner) (h : operand inner ls = .error .tooNested)
    (depth : Nat) (groups : List Group) : depth + 1 + n ≤ deepest depth groups ls := by
  fun_cases operand inner ls with
  | case1 numeral ls value hvalue | case2 numeral ls hvalue => simp [operand, hvalue] at h
  | case3 ls => exact lambda_nested hinner h depth groups
  | case4 name ls =>
    simp only [operand, Result.bind_eq_error_iff, Result.pure_ne_error, and_false, exists_false,
      or_false] at h
    have hes := args_nested hinner h
      (show (Group.innermost (⟨depth + 1, depth⟩ :: groups)).inside = depth + 1 from rfl)
    simpa only [deepest] using hes
  | case5 name ls hls =>
    rw [operand] at h
    · simp at h
    · exact hls
  | case6 ls =>
    rw [operand, Result.bind_eq_error_iff] at h
    rcases h with h | ⟨⟨f, ls₁⟩, hf, h⟩
    · have hlambda := lambda_nested hinner h (depth + 1) (⟨depth + 1, depth⟩ :: groups)
      simp only [deepest] at hlambda ⊢
      omega
    · -- The lambda was read, so the arguments behind its parenthesis are what nests too deeply.
      simp only [Result.bind_eq_error_iff, expect_ne_tooNested, false_or] at h
      obtain ⟨⟨⟨⟩, ls₂⟩, hclose, h⟩ := h
      rw [expect_eq_ok_iff] at hclose
      subst hclose
      split at h
      · rename_i ls₃ hls₃
        dsimp only at hls₃
        subst hls₃
        simp only [Result.bind_eq_error_iff, Result.pure_ne_error, and_false, exists_false,
          or_false] at h
        have hes := args_nested hinner h
          (show (Group.innermost (⟨depth + 1, depth⟩ :: groups)).inside = depth + 1 from rfl)
        have hlambda := (lambda_reads hinner hf).1.deepest_le (depth + 1)
          (⟨depth + 1, depth⟩ :: groups) (by simp)
        simp only [deepest, Group.innermost, List.tail_cons] at hlambda ⊢
        omega
      · exact absurd h Result.pure_ne_error
  | case7 ls hls =>
    rw [operand] at h
    · simp only [Result.bind_eq_error_iff, Result.pure_ne_error, expect_ne_tooNested, and_false,
        exists_false, or_false] at h
      have he := hinner.nested h (depth + 1) (⟨depth + 1, depth⟩ :: groups)
      simpa only [deepest] using he
    · exact hls
  | case8 ls h₁ h₂ h₃ h₄ h₅ =>
    rw [operand] at h <;> first | assumption | simp at h

/-! ## Chains -/

/-- No operator follows, so a chain ends. -/
lemma chain_of_stops (h : Stops ls) (k : Nat) : chain inner k ls = .ok ([], ls) := by
  rw [chain]
  exact fun _ op ls' _ heq => h op ls' heq

/-- What is read behind an operand makes a chain with it that no operator follows. -/
lemma chain_reads (hinner : Faithful n inner) {start : List Lexeme} {k : Nat}
    (he : Reads (.operand e) start ls ∨ Reads (.lambda e) start ls ∧ Stops ls)
    (h : chain inner k ls = .ok (links, rest)) (hk : ls.length ≤ k) :
    (∃ c, Reads (.chain c e links) start rest) ∧ Stops rest := by
  fun_induction chain inner k ls generalizing e links start with
  | case1 k op ls ih =>
    have he : Reads (.operand e) start (.operator op :: ls) := by
      rcases he with he | ⟨-, hstops⟩
      · exact he
      · exact absurd rfl (hstops op ls)
    simp only [Result.bind_eq_ok_iff, Result.pure_eq_ok_iff] at h
    obtain ⟨⟨next, ls₁⟩, hnext, ⟨links, ls₂⟩, hlinks, heq⟩ := h
    cases heq
    have hreads := operand_reads hinner hnext
    have hlength : ls₁.length ≤ k := by
      have := (operand_behind hinner hnext).1
      simp only [List.length_cons] at hk
      omega
    obtain ⟨⟨c, hchain⟩, hstops⟩ := ih ls₁ hreads hlinks hlength
    exact ⟨⟨c, .link he hchain⟩, hstops⟩
  | case2 k ls hls =>
    have hstops : Stops ls := by
      rintro op ls' rfl
      obtain ⟨k, rfl⟩ : ∃ k', k = k' + 1 := ⟨k - 1, by simp at hk; omega⟩
      exact hls k op ls' rfl rfl
    cases h
    rcases he with he | ⟨he, -⟩
    · exact ⟨⟨true, .last he⟩, hstops⟩
    · exact ⟨⟨false, .lastLambda he⟩, hstops⟩

/-- A chain up to the end of its group is an operand, and the links that are read behind it. -/
lemma chain_settles {c : Bool} (hinner : Faithful n inner) (h : Reads (.chain c e links) ls rest)
    (hends : Ends rest) :
    ∃ mid, Settles (operand inner ls) (e, mid) ∧ mid.length ≤ ls.length ∧
      ∀ k, mid.length ≤ k → Settles (chain inner k mid) (links, rest) := by
  induction links generalizing e ls with
  | nil =>
    have hchain : ∀ k, chain inner k rest = .ok ([], rest) :=
      fun k => chain_of_stops (stops_of_ends hends) k
    cases h with
    | last he =>
      refine ⟨rest, operand_settles hinner he (head_ne_openParen_of_ends hends), he.length_le, ?_⟩
      exact fun k _ => .inl (hchain k)
    | lastLambda hf =>
      obtain ⟨ls, rfl⟩ := hf.head_lambda
      refine ⟨rest, lambda_settles hinner hf hends, hf.length_le, ?_⟩
      exact fun k _ => .inl (hchain k)
  | cons l links ih =>
    cases h with
    | @link _ op _ next _ _ mid _ he h =>
      refine ⟨_, operand_settles hinner he (by simp), he.length_le, fun k hk => ?_⟩
      obtain ⟨mid', hnext, hlength, hlinks⟩ := ih h
      obtain ⟨k, rfl⟩ : ∃ k', k = k' + 1 := ⟨k - 1, by simp at hk; omega⟩
      have hk' : mid'.length ≤ k := by
        simp only [List.length_cons] at hk
        omega
      exact hnext.bind ((hlinks k hk').bind (.value _))

/-- A chain nests too deeply only if one of its operands does. -/
lemma chain_nested (hinner : Faithful n inner) {k : Nat} (h : chain inner k ls = .error .tooNested)
    (depth : Nat) (groups : List Group) : depth + 1 + n ≤ deepest depth groups ls := by
  fun_induction chain inner k ls with
  | case1 k op ls ih =>
    have hop : deepest depth groups (.operator op :: ls) = deepest depth groups ls := by
      simp [deepest]
    rw [hop]
    rw [Result.bind_eq_error_iff] at h
    rcases h with h | ⟨⟨e, ls₁⟩, he, h⟩
    · exact operand_nested hinner h depth groups
    · simp only [Result.bind_eq_error_iff, Result.pure_ne_error, and_false, exists_false,
        or_false] at h
      have hrest := ih ls₁ h
      have hoperand := (operand_behind hinner he).2 depth groups
      omega
  | case2 => simp at h

end

/-! ## Expressions -/

/-- The reader of expressions is right at every number of levels.

**Proof sketch.** Induction on the number of levels. A reader that admits no level always finds the
nesting too deep. Each further level reads an operand and the chain behind it, inside of which the
reader with one level less is right. -/
theorem expression_faithful (n : Nat) : Faithful n (expression n) := by
  induction n with
  | zero =>
    exact {
      reads := fun h => by simp [expression] at h
      stops := fun h => by simp [expression] at h
      settles := fun _ _ => .inr rfl
      nested := fun _ depth groups => le_deepest depth groups _ }
  | succ n ih =>
    have hchain : ∀ {ls e rest}, expression (n + 1) ls = .ok (e, rest) →
        Reads (.expression e) ls rest ∧ Stops rest := by
      intro ls e rest h
      simp only [expression, Result.bind_eq_ok_iff, Result.pure_eq_ok_iff] at h
      obtain ⟨⟨first, mid⟩, hfirst, ⟨links, rest⟩, hlinks, heq⟩ := h
      cases heq
      obtain ⟨⟨c, h⟩, hstops⟩ :=
        chain_reads ih (operand_reads ih hfirst) hlinks (Nat.le_refl _)
      exact ⟨.expression h, hstops⟩
    refine ⟨fun h => (hchain h).1, fun h => (hchain h).2, ?_, ?_⟩
    · intro ls e rest h hends
      cases h with
      | expression h =>
        obtain ⟨mid, hfirst, -, hlinks⟩ := chain_settles ih h hends
        exact hfirst.bind ((hlinks _ (Nat.le_refl _)).bind (.value _))
    · intro ls h depth groups
      rw [expression, Result.bind_eq_error_iff] at h
      rcases h with h | ⟨⟨first, mid⟩, hfirst, h⟩
      · have := operand_nested ih h depth groups
        omega
      · simp only [Result.bind_eq_error_iff, Result.pure_ne_error, and_false, exists_false,
          or_false] at h
        have hlinks := chain_nested ih h depth groups
        have hoperand := (operand_behind ih hfirst).2 depth groups
        omega

end Abacus.Reader
