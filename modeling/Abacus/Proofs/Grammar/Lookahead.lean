import Abacus.Proofs.Grammar.Reader

/-!
# One lexeme of lookahead

The readers look at no more than one lexeme behind what they have taken, and what they have taken
can always be gone on to something that they read. So where a reader is stuck, it is stuck at the
first lexeme with which it cannot go on, and it is stuck there whatever stands behind that lexeme.

## Main definitions

* `Abacus.Grammar.IsExpression`, `Abacus.Grammar.IsLambda`, `Abacus.Grammar.IsParameters`,
  `Abacus.Grammar.IsArguments`, `Abacus.Grammar.IsMoreArguments`, `Abacus.Grammar.IsContinuation`
  — the languages of the readers.
* `Abacus.Reader.Follows` — a reader that takes members of a language, with one lexeme of lookahead.

## Main results

* `Abacus.Reader.expression_follows` — the reader of expressions follows the language of
  expressions.
-/

namespace Abacus

open Grammar

/-! ## Languages -/

namespace Grammar

variable {part : Part} {e : Expr} {ls rest : List Lexeme}

/-- What follows a part may be longer. -/
lemma Reads.extend (h : Reads part ls rest) (tail : List Lexeme) :
    Reads part (ls ++ tail) (rest ++ tail) := by
  induction h with
  | expression _ ih => exact .expression ih
  | last _ ih => exact .last ih
  | lastLambda _ ih => exact .lastLambda ih
  | link _ _ ihe ih => exact .link ihe ih
  | number h => exact .number h
  | name => exact .name
  | call _ ih => exact .call ih
  | enclosed _ ih => exact .enclosed ih
  | invoke _ _ ihf ih => exact .invoke ihf ih
  | group _ _ ih => exact ih.parenthesized
  | lambda _ ih =>
    simp only [List.cons_append, List.append_assoc]
    exact .lambda ih
  | noArgs => exact .noArgs
  | lastArg _ ih => exact .lastArg ih
  | nextArg _ _ ihe ih => exact .nextArg ihe ih

/-- Lexemes that form an expression. -/
def IsExpression (ls : List Lexeme) : Prop := ∃ e, Reads (.expression e) ls []

/-- Lexemes that form a lambda behind its first word. -/
def IsLambda (ls : List Lexeme) : Prop := ∃ f, Reads (.lambda f) (.keyword .fnWord :: ls) []

/-- Lexemes that form the parameters of a lambda and the end of their group. -/
def IsParameters (ls : List Lexeme) : Prop := ∃ ps, ls = parameters ps ++ [.closeParen]

/-- A name and a comma may stand in front of parameters. -/
lemma IsParameters.comma {q : String} (h : IsParameters (.identifier q :: ls)) (p : String) :
    IsParameters (.identifier p :: .comma :: .identifier q :: ls) := by
  obtain ⟨ps, hps⟩ := h
  cases ps with
  | nil => cases hps
  | cons q' ps => exact ⟨p :: q' :: ps, by rw [hps]; rfl⟩

/-- Lexemes that form the arguments of a call and the end of their group. -/
def IsArguments (ls : List Lexeme) : Prop := ∃ es, Reads (.args es) ls [.closeParen]

/-- Lexemes that behind every argument form the other arguments of a call and the end of their
group. -/
def IsMoreArguments (ls : List Lexeme) : Prop :=
  ∀ e front, Reads (.expression e) front [] →
    ∃ es, Reads (.args (e :: es)) (front ++ ls) [.closeParen]

/-- Lexemes that go on every expression to an expression. -/
def IsContinuation (ls : List Lexeme) : Prop :=
  ∀ front, IsExpression front → IsExpression (front ++ ls)

/-- A name is an expression. -/
lemma isExpression_name (name : String) : IsExpression [.identifier name] :=
  ⟨_, .expression (.last .name)⟩

/-- An operand is an expression. -/
lemma isExpression_of_operand (h : Reads (.operand e) ls []) : IsExpression ls :=
  ⟨_, .expression (.last h)⟩

/-- A lambda is an expression. -/
lemma IsLambda.isExpression (h : IsLambda ls) : IsExpression (.keyword .fnWord :: ls) := by
  obtain ⟨f, hf⟩ := h
  exact ⟨_, .expression (.lastLambda hf)⟩

/-- An operator and an expression go on every expression. -/
lemma IsExpression.isContinuation (h : IsExpression ls) (op : Operator) :
    IsContinuation (.operator op :: ls) := by
  rintro front ⟨a, ha⟩
  obtain ⟨b, hb⟩ := h
  have ha' := ha.extend (.operator op :: ls)
  rw [List.nil_append] at ha'
  exact ha'.splice hb

/-- The end of its group may stand behind an argument. -/
lemma isMoreArguments_closeParen : IsMoreArguments [.closeParen] :=
  fun _ _ he => ⟨[], .lastArg (he.extend [.closeParen])⟩

/-- An argument and others may stand behind a comma. -/
lemma IsMoreArguments.comma {next : List Lexeme} (hnext : IsExpression next)
    (h : IsMoreArguments ls) :
    IsMoreArguments (.comma :: (next ++ ls)) := by
  intro e front he
  obtain ⟨e', he'⟩ := hnext
  obtain ⟨es, hes⟩ := h e' next he'
  exact ⟨e' :: es, .nextArg (he.extend _) hes⟩

end Grammar

namespace Reader

variable {α β : Type} {L K M : List Lexeme → Prop} {r r' : Reader α} {ls rest : List Lexeme}

/-! ## Readers with one lexeme of lookahead -/

/-- `Follows L r ls` states that the reader `r` takes lexemes with the property `L` from the front
of the lexemes `ls`, or takes what can be gone on to such lexemes and is stuck. In both cases it
has looked at no more than the next lexeme. -/
structure Follows (L : List Lexeme → Prop) (r : Reader α) (ls : List Lexeme) : Prop where
  ok : ∀ {a rest}, r ls = .ok (a, rest) → ∃ front, L front ∧ ls = front ++ rest ∧
    ∀ rest', rest'.head? = rest.head? → r (front ++ rest') = .ok (a, rest')
  stuck : ∀ {problem rest}, r ls = .error (.on problem rest) →
    ∃ front, (∃ tail, L (front ++ tail)) ∧ ls = front ++ rest ∧
      ∀ rest', rest'.head? = rest.head? → r (front ++ rest') = .error (.on problem rest')

/-- What holds of the end holds of all that starts like it. -/
lemma forall_head_nil {P : List Lexeme → Prop} (h : P []) :
    ∀ ls, ls.head? = ([] : List Lexeme).head? → P ls := by
  intro ls hls
  rwa [List.head?_eq_none_iff.mp hls]

/-- What holds of one lexeme and all that can stand behind it holds of all that starts with it. -/
lemma forall_head_cons {P : List Lexeme → Prop} {l : Lexeme} (h : ∀ ls, P (l :: ls)) :
    ∀ ls', ls'.head? = (l :: ls).head? → P ls' := by
  intro ls' hls'
  obtain ⟨rest, rfl⟩ := List.head?_eq_some_iff.mp hls'
  exact h rest

/-- A reader that returns a value because of the next lexeme has taken nothing. -/
lemma Follows.value {a : α} (hL : L []) (h : ∀ ls', ls'.head? = ls.head? → r ls' = .ok (a, ls')) :
    Follows L r ls where
  ok := by
    intro a' rest hr
    rw [h ls rfl] at hr
    cases hr
    exact ⟨[], hL, rfl, h⟩
  stuck := by
    intro problem rest hr
    rw [h ls rfl] at hr
    cases hr

/-- A reader that is stuck because of the next lexeme has taken nothing. -/
lemma Follows.fail {problem : SyntaxProblem} (hL : ∃ ls, L ls)
    (h : ∀ ls', ls'.head? = ls.head? → r ls' = .error (.on problem ls')) : Follows L r ls where
  ok := by
    intro a rest hr
    rw [h ls rfl] at hr
    cases hr
  stuck := by
    intro problem rest hr
    rw [h ls rfl] at hr
    cases hr
    exact ⟨[], hL, rfl, h⟩

/-- A reader that takes one lexeme goes on behind it. -/
lemma Follows.cons {l : Lexeme} (h : Follows (fun ls => L (l :: ls)) (fun ls => r (l :: ls)) ls) :
    Follows L r (l :: ls) where
  ok := by
    intro a rest hr
    obtain ⟨front, hfront, rfl, hlocal⟩ := h.ok hr
    exact ⟨l :: front, hfront, rfl, hlocal⟩
  stuck := by
    intro problem rest hr
    obtain ⟨front, htail, rfl, hlocal⟩ := h.stuck hr
    exact ⟨l :: front, htail, rfl, hlocal⟩

/-- Only what a reader does with the next lexeme in front matters. -/
lemma Follows.congr (h : Follows L r ls) (heq : ∀ ls', ls'.head? = ls.head? → r' ls' = r ls') :
    Follows L r' ls where
  ok := by
    intro a rest hr
    rw [heq ls rfl] at hr
    obtain ⟨front, hfront, rfl, hlocal⟩ := h.ok hr
    refine ⟨front, hfront, rfl, fun rest' hrest' => ?_⟩
    rw [heq _ (by rw [List.head?_append, List.head?_append, hrest'])]
    exact hlocal rest' hrest'
  stuck := by
    intro problem rest hr
    rw [heq ls rfl] at hr
    obtain ⟨front, htail, rfl, hlocal⟩ := h.stuck hr
    refine ⟨front, htail, rfl, fun rest' hrest' => ?_⟩
    rw [heq _ (by rw [List.head?_append, List.head?_append, hrest'])]
    exact hlocal rest' hrest'

/-- Readers one after another follow a language, if the second has any member to go on with and each
member of the first goes on to one of both. -/
lemma Follows.bind {f : α × List Lexeme → Except Stuck (β × List Lexeme)} (h : Follows K r ls)
    (hf : ∀ a rest, r ls = .ok (a, rest) → Follows M (fun ls => f (a, ls)) rest)
    (hM : ∃ ls, M ls) (hL : ∀ front next, K front → M next → L (front ++ next)) :
    Follows L (fun ls => r ls >>= f) ls where
  ok := by
    intro b rest hr
    rw [Result.bind_eq_ok_iff] at hr
    obtain ⟨⟨a, mid⟩, hr, hfr⟩ := hr
    obtain ⟨front, hfront, hls, hlocal⟩ := h.ok hr
    obtain ⟨next, hnext, rfl, hlocal'⟩ := (hf a mid hr).ok hfr
    refine ⟨front ++ next, hL _ _ hfront hnext, by rw [hls, List.append_assoc], ?_⟩
    intro rest' hrest'
    have hmid := hlocal (next ++ rest') (by rw [List.head?_append, List.head?_append, hrest'])
    rw [List.append_assoc, hmid]
    exact hlocal' rest' hrest'
  stuck := by
    intro problem rest hr
    rw [Result.bind_eq_error_iff] at hr
    rcases hr with hr | ⟨⟨a, mid⟩, hr, hfr⟩
    · obtain ⟨front, ⟨tail, htail⟩, hls, hlocal⟩ := h.stuck hr
      obtain ⟨next, hnext⟩ := hM
      refine ⟨front, ⟨tail ++ next, ?_⟩, hls, fun rest' hrest' => ?_⟩
      · rw [← List.append_assoc]
        exact hL _ _ htail hnext
      · rw [hlocal rest' hrest']
        rfl
    · obtain ⟨front, hfront, hls, hlocal⟩ := h.ok hr
      obtain ⟨next, ⟨tail, htail⟩, rfl, hlocal'⟩ := (hf a mid hr).stuck hfr
      refine ⟨front ++ next, ⟨tail, ?_⟩, by rw [hls, List.append_assoc], fun rest' hrest' => ?_⟩
      · rw [List.append_assoc]
        exact hL _ _ hfront htail
      · have hmid := hlocal (next ++ rest') (by rw [List.head?_append, List.head?_append, hrest'])
        rw [List.append_assoc, hmid]
        exact hlocal' rest' hrest'

/-- A reader whose values are changed takes the same lexemes. -/
lemma Follows.map (h : Follows L r ls) (g : α → β) :
    Follows L (fun ls => (r ls).map fun x => (g x.1, x.2)) ls where
  ok := by
    intro b rest hr
    rw [Result.map_eq_ok_iff] at hr
    obtain ⟨⟨a, rest⟩, hr, heq⟩ := hr
    cases heq
    obtain ⟨front, hfront, hls, hlocal⟩ := h.ok hr
    exact ⟨front, hfront, hls, fun rest' hrest' => by rw [hlocal rest' hrest']; rfl⟩
  stuck := by
    intro problem rest hr
    obtain ⟨front, htail, hls, hlocal⟩ := h.stuck (Result.map_eq_error_iff.mp hr)
    exact ⟨front, htail, hls, fun rest' hrest' => by rw [hlocal rest' hrest']; rfl⟩

/-- A reader takes lexemes with every property that follows from the one of what it takes. -/
lemma Follows.mono (h : Follows K r ls) (hL : ∀ ls, K ls → L ls) : Follows L r ls where
  ok := by
    intro a rest hr
    obtain ⟨front, hfront, hls⟩ := h.ok hr
    exact ⟨front, hL front hfront, hls⟩
  stuck := by
    intro problem rest hr
    obtain ⟨front, ⟨tail, htail⟩, hls⟩ := h.stuck hr
    exact ⟨front, ⟨tail, hL _ htail⟩, hls⟩

/-! ## Single lexemes and parameters -/

/-- The reader of one lexeme takes that lexeme. -/
lemma expect_follows (wanted : Lexeme) (what : Expectation) (ls : List Lexeme) :
    Follows (· = [wanted]) (expect wanted what) ls := by
  cases ls with
  | nil => exact .fail ⟨_, rfl⟩ (forall_head_nil rfl)
  | cons l ls =>
    by_cases hl : l = wanted
    · subst hl
      exact .cons (.value rfl fun ls' _ => if_pos rfl)
    · exact .fail ⟨_, rfl⟩ (forall_head_cons fun ls' => if_neg hl)

/-- A reader that takes one lexeme by name goes on behind it. -/
lemma Follows.expect {wanted : Lexeme} {what : Expectation}
    {f : Unit × List Lexeme → Except Stuck (β × List Lexeme)} (hL : ∃ ls, L (wanted :: ls))
    (h : ∀ rest, Follows (fun ls => L (wanted :: ls)) (fun ls => f ((), ls)) rest) :
    Follows L (fun ls => expect wanted what ls >>= f) ls := by
  refine (expect_follows wanted what ls).bind (fun _ rest _ => h rest) hL ?_
  rintro _ next rfl hnext
  exact hnext

/-- The reader of the parameters behind the first one takes them with the end of their group. -/
lemma moreParams_follows (p : String) (ls : List Lexeme) :
    Follows (fun ls => IsParameters (.identifier p :: ls)) moreParams ls := by
  have hlast : ∀ p, IsParameters [.identifier p, .closeParen] := fun p => ⟨[p], rfl⟩
  fun_induction moreParams ls generalizing p with
  | case1 q ls ih =>
    have hmore := (ih q).map (q :: ·)
    exact .cons (.cons (hmore.mono fun ls hls => hls.comma p))
  | case2 ls hls =>
    have hnext : ∃ ls, IsParameters (.identifier p :: .comma :: ls) := ⟨_, (hlast p).comma p⟩
    cases ls with
    | nil => exact .cons (.fail hnext (forall_head_nil rfl))
    | cons l ls =>
      cases l with
      | identifier q => exact absurd rfl (hls q ls)
      | _ => exact .cons (.fail hnext (forall_head_cons fun _ => rfl))
  | case3 ls => exact .cons (.value (hlast p) fun _ _ => rfl)
  | case4 ls h₁ h₂ h₃ =>
    cases ls with
    | nil => exact .fail ⟨_, hlast p⟩ (forall_head_nil rfl)
    | cons l ls =>
      cases l with
      | comma => exact absurd rfl (h₂ ls)
      | closeParen => exact absurd rfl (h₃ ls)
      | _ => exact .fail ⟨_, hlast p⟩ (forall_head_cons fun _ => rfl)

/-- The reader of parameters takes them with the end of their group. -/
lemma params_follows (ls : List Lexeme) : Follows IsParameters params ls := by
  have hempty : IsParameters [.closeParen] := ⟨[], rfl⟩
  cases ls with
  | nil => exact .fail ⟨_, hempty⟩ (forall_head_nil rfl)
  | cons l ls =>
    cases l with
    | closeParen => exact .cons (.value hempty fun _ _ => rfl)
    | identifier p => exact .cons ((moreParams_follows p ls).map (p :: ·))
    | _ => exact .fail ⟨_, hempty⟩ (forall_head_cons fun _ => rfl)

/-! ## Lambdas and arguments -/

section

variable {n : Nat} {inner : Reader Expr}

/-- The reader of lambdas takes one behind its first word. -/
lemma lambda_follows (hinner : ∀ ls, Follows IsExpression inner ls) (ls : List Lexeme) :
    Follows IsLambda (lambda inner) ls := by
  have hlambda : ∀ ps body, IsExpression body →
      IsLambda (.openParen :: (parameters ps ++ .closeParen :: .arrow :: body)) := by
    rintro ps body ⟨e, he⟩
    exact ⟨_, .lambda he⟩
  have hbehind : ∀ ps, IsLambda (.openParen :: (parameters ps ++ .closeParen :: .arrow ::
      [.identifier "x"])) := fun ps => hlambda ps _ (isExpression_name "x")
  refine .expect ⟨_, hbehind []⟩ fun ls => ?_
  refine (params_follows ls).bind (M := fun ls => ∀ ps,
    IsLambda (.openParen :: (parameters ps ++ .closeParen :: ls))) (fun ps ls _ => ?_)
    ⟨_, hbehind⟩ ?_
  · refine .expect ⟨_, hbehind⟩ fun ls => ?_
    exact ((hinner ls).map (Expr.lambda ps)).mono fun body hbody ps => hlambda ps body hbody
  · rintro _ next ⟨ps, rfl⟩ hnext
    simpa using hnext ps

/-- The number of lexemes, and any greater one, is a bound for the number of arguments behind the
first. -/
lemma moreArgs_eq (hinner : Faithful n inner) {k m : Nat} (hk : ls.length ≤ k)
    (hm : ls.length ≤ m) :
    moreArgs inner k ls = moreArgs inner m ls := by
  induction k generalizing m ls with
  | zero =>
    obtain rfl := List.length_eq_zero_iff.mp (Nat.le_zero.mp hk)
    cases m <;> rfl
  | succ k ih =>
    cases ls with
    | nil => cases m <;> rfl
    | cons l ls =>
      obtain ⟨m, rfl⟩ : ∃ m', m = m' + 1 := ⟨m - 1, by simp at hm; omega⟩
      simp only [List.length_cons, Nat.add_le_add_iff_right] at hk hm
      cases l with
      | comma =>
        refine Result.bind_congr_of_ok fun next hnext => ?_
        have hle := (hinner.reads hnext).length_le
        exact congrArg (· >>= _) (ih (Nat.le_trans hle hk) (Nat.le_trans hle hm))
      | _ => rfl

/-- The reader of the arguments behind the first one takes them with the end of their group. -/
lemma moreArgs_follows (hfaithful : Faithful n inner) (hinner : ∀ ls, Follows IsExpression inner ls)
    (ls : List Lexeme) : Follows IsMoreArguments (fun ls => moreArgs inner ls.length ls) ls := by
  have hlast := isMoreArguments_closeParen
  induction hn : ls.length using Nat.strongRecOn generalizing ls with
  | ind k ih =>
    cases ls with
    | nil => exact .fail ⟨_, hlast⟩ (forall_head_nil rfl)
    | cons l ls =>
      cases l with
      | comma =>
        -- the bound counts the lexemes from the comma on, and those behind an argument are fewer
        have hcomma : ∀ ls, moreArgs inner (Lexeme.comma :: ls).length (.comma :: ls) =
            inner ls >>= fun x => (moreArgs inner x.2.length x.2).map fun y =>
              (x.1 :: y.1, y.2) := by
          refine fun ls => Result.bind_congr_of_ok fun next hnext => ?_
          have hle := (hfaithful.reads hnext).length_le
          exact congrArg (· >>= _) (moreArgs_eq hfaithful hle (Nat.le_refl _))
        refine .cons (Follows.congr ?_ fun ls' _ => hcomma ls')
        refine (hinner ls).bind (fun e rest hnext => ?_) ⟨_, hlast⟩ fun front next => .comma
        have hle := (hfaithful.reads hnext).length_le
        exact (ih rest.length (by simp at hn; omega) rest rfl).map (e :: ·)
      | closeParen => exact .cons (.value hlast fun _ _ => rfl)
      | _ => exact .fail ⟨_, hlast⟩ (forall_head_cons fun _ => rfl)

/-- The reader of arguments takes them with the end of their group. -/
lemma args_follows (hfaithful : Faithful n inner) (hinner : ∀ ls, Follows IsExpression inner ls)
    (ls : List Lexeme) : Follows IsArguments (args inner) ls := by
  by_cases hls : ls.head? = some .closeParen
  · obtain ⟨ls, rfl⟩ := List.head?_eq_some_iff.mp hls
    exact .cons (.value ⟨[], .noArgs⟩ fun _ _ => rfl)
  · have hargs : ∀ ls', ls'.head? = ls.head? → args inner ls' =
        inner ls' >>= fun x => (moreArgs inner x.2.length x.2).map fun y => (x.1 :: y.1, y.2) := by
      intro ls' hls'
      rw [← hls'] at hls
      rw [args]
      · rfl
      · rintro rest rfl
        exact hls rfl
    refine Follows.congr ?_ hargs
    refine (hinner ls).bind (fun e rest _ => (moreArgs_follows hfaithful hinner rest).map (e :: ·))
      ⟨_, isMoreArguments_closeParen⟩ ?_
    rintro front next ⟨e, he⟩ hnext
    obtain ⟨es, hes⟩ := hnext e front he
    exact ⟨_, hes⟩

/-! ## Operands, chains and expressions -/

/-- Behind the start of a group and the first word of a lambda, the reader of operands takes the
lambda, and the arguments if they follow. -/
lemma enclosed_follows (hfaithful : Faithful n inner) (hinner : ∀ ls, Follows IsExpression inner ls)
    (ls : List Lexeme) : Follows (fun ls => IsExpression (.openParen :: .keyword .fnWord :: ls))
      (fun ls => operand inner (.openParen :: .keyword .fnWord :: ls)) ls := by
  have hclosed : ∀ front, IsLambda front →
      IsExpression (.openParen :: .keyword .fnWord :: (front ++ [.closeParen])) := by
    rintro front ⟨f, hf⟩
    exact isExpression_of_operand (.enclosed (hf.extend [.closeParen]))
  have hcalled : ∀ front args, IsLambda front → IsArguments args →
      IsExpression (.openParen :: .keyword .fnWord ::
        (front ++ .closeParen :: .openParen :: args)) := by
    rintro front args ⟨f, hf⟩ ⟨es, hes⟩
    exact isExpression_of_operand (.invoke (hf.extend (.closeParen :: .openParen :: args)) hes)
  refine (lambda_follows hinner ls).bind (M := fun ls => ∀ front, IsLambda front →
    IsExpression (.openParen :: .keyword .fnWord :: (front ++ ls))) (fun f ls _ => ?_)
    ⟨_, hclosed⟩ fun front next hfront hnext => hnext front hfront
  refine .expect ⟨_, hclosed⟩ fun ls => ?_
  cases ls with
  | nil => exact .value hclosed (forall_head_nil rfl)
  | cons l ls =>
    cases l with
    | openParen =>
      have hargs := (args_follows hfaithful hinner ls).map (Expr.invoke f)
      exact .cons (hargs.mono fun args hargs front hfront => hcalled front args hfront hargs)
    | _ => exact .value hclosed (forall_head_cons fun _ => rfl)

/-- Behind the start of a group that is no lambda, the reader of operands takes an expression and
the end of the group. -/
lemma group_follows (hinner : ∀ ls, Follows IsExpression inner ls)
    (hls : ls.head? ≠ some (.keyword .fnWord)) :
    Follows (fun ls => IsExpression (.openParen :: ls))
      (fun ls => operand inner (.openParen :: ls)) ls := by
  have hgroup : ∀ front, IsExpression front →
      IsExpression (.openParen :: (front ++ [.closeParen])) := by
    rintro front ⟨e, he⟩
    exact isExpression_of_operand (he.extend [.closeParen]).parenthesized
  have hread : ∀ ls', ls'.head? = ls.head? → operand inner (.openParen :: ls') =
      inner ls' >>= fun x => expect .closeParen .closeParen x.2 >>= fun y => .ok (x.1, y.2) := by
    intro ls' hls'
    rw [← hls'] at hls
    rw [operand]
    · rfl
    · rintro rest rfl
      exact hls rfl
  refine Follows.congr ?_ hread
  refine (hinner ls).bind (M := (· = [.closeParen])) (fun e ls _ => ?_) ⟨_, rfl⟩ ?_
  · dsimp only
    refine .expect ⟨[], rfl⟩ fun ls => ?_
    exact .value rfl fun _ _ => rfl
  · rintro front _ hfront rfl
    exact hgroup front hfront

/-- The reader of operands takes an expression. -/
lemma operand_follows (hfaithful : Faithful n inner) (hinner : ∀ ls, Follows IsExpression inner ls)
    (ls : List Lexeme) : Follows IsExpression (operand inner) ls := by
  have hname := isExpression_name "x"
  -- the cases are those of the reader, one for each lexeme that an operand can start with
  cases ls with
  | nil => exact .fail ⟨_, hname⟩ (forall_head_nil rfl)
  | cons l ls =>
    cases l with
    | number numeral =>
      cases hvalue : Number.literal? numeral.toList with
      | none =>
        have hinvalid : ∀ ls, operand inner (.number numeral :: ls) =
            .error (.on .invalidNumber (.number numeral :: ls)) :=
              fun ls => by simp only [operand, hvalue]
        exact .fail ⟨_, hname⟩ (forall_head_cons hinvalid)
      | some value =>
        have hnumber : IsExpression [.number numeral] := isExpression_of_operand (.number hvalue)
        have hread : ∀ ls, operand inner (.number numeral :: ls) = .ok (.number value, ls) :=
          fun ls => by simp only [operand, hvalue]
        exact .cons (.value hnumber fun ls _ => hread ls)
    | keyword k =>
      cases k with
      | fnWord => exact .cons ((lambda_follows hinner ls).mono fun _ hls => hls.isExpression)
      | _ => exact .fail ⟨_, hname⟩ (forall_head_cons fun _ => rfl)
    | identifier name =>
      have hvar := isExpression_name name
      cases ls with
      | nil => exact .cons (.value hvar (forall_head_nil rfl))
      | cons l ls =>
        cases l with
        | openParen =>
          have hargs := (args_follows hfaithful hinner ls).map (Expr.call name)
          refine .cons (.cons (hargs.mono ?_))
          rintro front ⟨es, hes⟩
          exact isExpression_of_operand (.call hes)
        | _ => exact .cons (.value hvar (forall_head_cons fun _ => rfl))
    | openParen =>
      by_cases hls : ls.head? = some (.keyword .fnWord)
      · obtain ⟨ls, rfl⟩ := List.head?_eq_some_iff.mp hls
        exact .cons (.cons (enclosed_follows hfaithful hinner ls))
      · exact .cons (group_follows hinner hls)
    | _ => exact .fail ⟨_, hname⟩ (forall_head_cons fun _ => rfl)

/-- The number of lexemes, and any greater one, is a bound for the length of a chain. -/
lemma chain_eq (hinner : Faithful n inner) {k m : Nat} (hk : ls.length ≤ k) (hm : ls.length ≤ m) :
    chain inner k ls = chain inner m ls := by
  induction k generalizing m ls with
  | zero =>
    obtain rfl := List.length_eq_zero_iff.mp (Nat.le_zero.mp hk)
    cases m <;> rfl
  | succ k ih =>
    cases ls with
    | nil => cases m <;> rfl
    | cons l ls =>
      obtain ⟨m, rfl⟩ : ∃ m', m = m' + 1 := ⟨m - 1, by simp at hm; omega⟩
      simp only [List.length_cons, Nat.add_le_add_iff_right] at hk hm
      cases l with
      | operator op =>
        refine Result.bind_congr_of_ok fun next hnext => ?_
        have hle := (operand_behind hinner hnext).1
        exact congrArg (· >>= _) (ih (Nat.le_trans hle hk) (Nat.le_trans hle hm))
      | _ => rfl

/-- The reader of the links of a chain takes what goes on every expression. -/
lemma chain_follows (hfaithful : Faithful n inner) (hinner : ∀ ls, Follows IsExpression inner ls)
    (ls : List Lexeme) : Follows IsContinuation (fun ls => chain inner ls.length ls) ls := by
  have hnone : IsContinuation [] := fun front hfront => by rwa [List.append_nil]
  induction hn : ls.length using Nat.strongRecOn generalizing ls with
  | ind k ih =>
    cases ls with
    | nil => exact .value hnone (forall_head_nil rfl)
    | cons l ls =>
      cases l with
      | operator op =>
        -- the bound counts the lexemes from the operator on, and those behind an operand are fewer
        have hop : ∀ ls, chain inner (Lexeme.operator op :: ls).length (.operator op :: ls) =
            operand inner ls >>= fun x =>
              (chain inner x.2.length x.2).map fun y => ((op, x.1) :: y.1, y.2) := by
          refine fun ls => Result.bind_congr_of_ok fun next hnext => ?_
          have hle := (operand_behind hfaithful hnext).1
          exact congrArg (· >>= _) (chain_eq hfaithful hle (Nat.le_refl _))
        refine .cons (Follows.congr ?_ fun ls' _ => hop ls')
        refine (operand_follows hfaithful hinner ls).bind (fun e rest hnext => ?_) ⟨_, hnone⟩
          fun front next hfront hnext => (hnext front hfront).isContinuation op
        have hle := (operand_behind hfaithful hnext).1
        exact (ih rest.length (by simp at hn; omega) rest rfl).map ((op, e) :: ·)
      | _ => exact .value hnone (forall_head_cons fun _ => rfl)

end

/-- The reader of expressions takes an expression, at every number of levels. -/
theorem expression_follows (n : Nat) (ls : List Lexeme) :
    Follows IsExpression (expression n) ls := by
  induction n generalizing ls with
  | zero => exact ⟨fun h => by simp [expression] at h, fun h => by simp [expression] at h⟩
  | succ n ih =>
    have hfaithful := expression_faithful n
    refine (operand_follows hfaithful ih ls).bind (M := IsContinuation) (fun first rest _ => ?_)
      ⟨[], fun front hfront => by rwa [List.append_nil]⟩ fun front next hfront hnext =>
        hnext front hfront
    exact (chain_follows hfaithful ih rest).map first.assemble

end Reader

end Abacus
