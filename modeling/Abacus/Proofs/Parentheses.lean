import Abacus.Proofs.Grammar.Inversion
import Abacus.Proofs.Places

/-!
# Parentheses that cannot be left out

The text of an expression has parentheses around an operand only where they are needed. If one
pair of them is left out, then the text is no expression any more, or another one. Only around a
lambda on the right of an operator they could be left out sometimes, where the lambda ends with
its group anyway.

From a text without such a pair the grammar would have to derive the same tree. The operators of
the tree are found again in the lexemes by counting (`Derives.operator_at`), slot by slot down to
the operator that the operand belongs to. The operand would then belong to a level that is too
tight for it, or be a lambda whose body ends in front of an operator.

## Main definitions

* `Abacus.Expr.Shaped` — lexemes as many and as balanced as those of an expression.
* `Abacus.Expr.Unread` — lexemes from which an expression is not derived.

## Main results

* `Abacus.Expr.shaped_lexemes` — the lexemes of an expression have its shape.
* `Abacus.Expr.Slot.derives_inside` — what is derived in a slot.
* `Abacus.Expr.unread_left`, `Abacus.Expr.unread_right` — operands without their parentheses.
* `Abacus.Expr.parentheses_needed` — no pair of parentheses can be left out.
-/

namespace Abacus

open Grammar

namespace Expr

variable {fits : List Lexeme → List Lexeme → Prop} {op : Operator} {e x a b f body : Expr}
  {es es' : List Expr} {name : String} {ps : List String} {ls ls' rest : List Lexeme} {p : Nat}
  {before behind : List Char}

/-! ## The shape of the lexemes of an expression -/

/-- Lexemes of which as many are no parentheses as the expression is wide, and that close what
they open. -/
structure Shaped (e : Expr) (ls : List Lexeme) : Prop where
  solid : solid ls = e.width
  balanced : ls.count .openParen = ls.count .closeParen
  closed : Closed ls

/-- Lexemes in the shape of arguments: a comma between them stands in the group that they are in. -/
structure ShapedArgs (es : List Expr) (ls : List Lexeme) : Prop where
  solid : Grammar.solid ls = widths es
  balanced : ls.count .openParen = ls.count .closeParen
  closed : ∀ depth rest, groupEnd (depth + 1) (ls ++ rest) = groupEnd (depth + 1) rest

namespace Shaped

/-- One lexeme that is neither a parenthesis nor a comma. -/
lemma single {l : Lexeme} (hwidth : e.width = 1) (hl : isParen l = false) (hcomma : l ≠ .comma) :
    Shaped e [l] where
  solid := by rw [hwidth, solid_cons, hl, solid_nil, if_neg Bool.false_ne_true]
  balanced := by cases l <;> first | rfl | cases hl
  closed depth rest := by
    cases l with
    | openParen | closeParen => cases hl
    | comma => exact absurd rfl hcomma
    | _ => simp [groupEnd]

/-- Parentheses make no difference to the shape. -/
lemma lexemesIf (h : Shaped e ls) (needed : Bool) : Shaped e (lexemesIf needed ls) := by
  cases needed with
  | false => exact h
  | true =>
    refine ⟨?_, ?_, fun depth rest => ?_⟩
    · simpa [Expr.lexemesIf, isParen] using h.solid
    · simpa [Expr.lexemesIf] using h.balanced
    · simp only [Expr.lexemesIf, if_true, List.cons_append, List.append_assoc, groupEnd]
      rw [h.closed]
      rfl

/-- An operator between two operands. -/
lemma binary (ha : Shaped a ls) (hb : Shaped b ls') (op : Operator) :
    Shaped (binary op a b) (ls ++ .operator op :: ls') := by
  refine ⟨?_, ?_, fun depth rest => ?_⟩
  · rw [solid_append, solid_cons, ha.solid, hb.solid, width]
    simp only [isParen, Bool.false_eq_true, if_false]
    omega
  · have := ha.balanced
    have := hb.balanced
    simp only [List.count_append, List.count_cons, beq_iff_eq, reduceCtorEq, if_false]
    omega
  · rw [List.append_assoc, ha.closed, List.cons_append]
    have hop : groupEnd depth (.operator op :: (ls' ++ rest)) = groupEnd depth (ls' ++ rest) := by
      simp [groupEnd]
    rw [hop, hb.closed]

/-- An operator between the shapes of two operands is the operator of their expression. -/
lemma operator_at (ha : Shaped a ls) (hb : Shaped b ls')
    (hpointed : OncePointed (ls ++ .operator op :: (ls' ++ rest)))
    (h : Derives fits (.level p (.binary op a b)) (ls ++ .operator op :: (ls' ++ rest)) rest) :
    p ≤ op.precedence ∧
      Derives fits (.level op.precedence a) (ls ++ .operator op :: (ls' ++ rest))
        (.operator op :: (ls' ++ rest)) ∧
      Derives fits (.level (op.precedence + 1) b) (ls' ++ rest) rest :=
  h.operator_at hpointed ha.balanced (by rw [solid_append, hb.solid])

/-- A lambda in front of its body. -/
lemma lambda (h : Shaped body ls) (ps : List String) : Shaped (lambda ps body)
    (.keyword .fnWord :: .openParen :: (parameters ps ++ .closeParen :: .arrow :: ls)) := by
  refine ⟨?_, ?_, fun depth rest => ?_⟩
  · simp only [solid_cons, solid_append, solid_parameters, h.solid, width, isParen,
      Bool.false_eq_true, if_false, if_true]
    omega
  · obtain ⟨hopen, hclose⟩ := count_parameters ps
    have := h.balanced
    simp only [List.count_cons, List.count_append, hopen, hclose, beq_iff_eq, reduceCtorEq,
      if_false, if_true]
    omega
  · simpa [groupEnd, groupEnd_parameters] using h.closed depth rest

/-- A name in front of its arguments. -/
lemma call (h : ShapedArgs es ls) (name : String) :
    Shaped (call name es) (.identifier name :: .openParen :: (ls ++ [.closeParen])) := by
  refine ⟨?_, ?_, fun depth rest => ?_⟩
  · simp only [solid_cons, solid_append, solid_nil, h.solid, width, isParen, Bool.false_eq_true,
      if_false, if_true]
    omega
  · simpa using h.balanced
  · simp only [List.cons_append, List.append_assoc, List.nil_append, groupEnd]
    rw [h.closed]
    simp [groupEnd]

/-- A function in parentheses in front of its arguments. -/
lemma invoke (hf : Shaped f ls) (h : ShapedArgs es ls') : Shaped (invoke f es)
    (.openParen :: (ls ++ .closeParen :: .openParen :: (ls' ++ [.closeParen]))) := by
  refine ⟨?_, ?_, fun depth rest => ?_⟩
  · simp only [solid_cons, solid_append, solid_nil, hf.solid, h.solid, width, isParen, if_true]
    omega
  · have := hf.balanced
    have := h.balanced
    simp only [List.count_append, List.count_cons, List.count_nil, beq_iff_eq, reduceCtorEq,
      if_false, if_true]
    omega
  · simp only [List.cons_append, List.append_assoc, List.nil_append, groupEnd]
    rw [hf.closed]
    simp only [groupEnd]
    rw [h.closed]
    rfl

end Shaped

namespace ShapedArgs

/-- No arguments. -/
lemma nil : ShapedArgs [] [] := ⟨rfl, rfl, fun _ _ => rfl⟩

/-- One argument. -/
lemma one (h : Shaped e ls) : ShapedArgs [e] ls :=
  ⟨h.solid, h.balanced, fun depth => h.closed (depth + 1)⟩

/-- One argument in front of others. -/
lemma cons {next : Expr} (h : Shaped e ls) (hes : ShapedArgs (next :: es) ls') :
    ShapedArgs (e :: next :: es) (ls ++ .comma :: ls') := by
  refine ⟨?_, ?_, fun depth rest => ?_⟩
  · simp only [solid_append, solid_cons, h.solid, hes.solid, widths, isParen, Bool.false_eq_true,
      if_false]
    omega
  · have := h.balanced
    have := hes.balanced
    simp only [List.count_append, List.count_cons, beq_iff_eq, reduceCtorEq, if_false]
    omega
  · rw [List.append_assoc, h.closed]
    simpa [groupEnd] using hes.closed depth rest

/-- Arguments in front of another one and behind it. -/
lemma around (hes : ∀ e ∈ es, Shaped e e.lexemes) (h : Shaped x ls)
    (hes' : ∀ e ∈ es', Shaped e e.lexemes) :
    ShapedArgs (es ++ x :: es') (Slot.frontArgLexemes es ++ (ls ++ Slot.backArgLexemes es')) := by
  induction es with
  | nil =>
    rw [List.nil_append, Slot.frontArgLexemes, List.flatMap_nil, List.nil_append]
    induction es' generalizing x ls with
    | nil => simpa [Slot.backArgLexemes] using one h
    | cons e' es' ih =>
      rw [List.forall_mem_cons] at hes'
      simpa [Slot.backArgLexemes] using cons h (ih hes'.1 hes'.2)
  | cons e es ih =>
    rw [List.forall_mem_cons] at hes
    have hothers := ih hes.2
    cases es with
    | nil => simpa [Slot.frontArgLexemes] using cons hes.1 hothers
    | cons e' es => simpa [Slot.frontArgLexemes] using cons hes.1 hothers

/-- Arguments as they are printed. -/
lemma lexemesAll (hes : ∀ e ∈ es, Shaped e e.lexemes) : ShapedArgs es (lexemesAll es) := by
  cases es with
  | nil => exact nil
  | cons e es =>
    rw [List.forall_mem_cons] at hes
    have h : ShapedArgs ([] ++ e :: es) _ := around (List.forall_mem_nil _) hes.1 hes.2
    rw [← Slot.lexemesAll_append] at h
    exact h

end ShapedArgs

/-- Readable expressions in which no number is shown with an exponent. -/
structure Decimal (e : Expr) : Prop where
  readable : Readable e
  plain : ∀ v ∈ e.literals, 'e' ∉ Number.numeral v

/-- What a decimal expression is made of is decimal. -/
lemma Decimal.child (h : Decimal e) (hx : x ∈ e.children) : Decimal x :=
  ⟨h.readable.child hx, fun v hv => h.plain v (mem_literals_of_child hx hv)⟩

/-- The operands of a decimal expression are decimal. -/
lemma Decimal.operands (h : Decimal (.binary op a b)) : Decimal a ∧ Decimal b :=
  ⟨h.child List.mem_cons_self, h.child (List.mem_cons_of_mem a (List.mem_singleton_self b))⟩

/-- What has a place in a decimal expression is decimal. -/
lemma PlacedIn.decimal (h : PlacedIn e x before behind) (he : Decimal e) : Decimal x := by
  induction h with
  | whole => exact he
  | @inside s x _ _ _ ih => exact ih.child (s.mem_children_fill x)

/-- **The lexemes of an expression have its shape.**

**Proof sketch.** Induction along what makes the expression readable. A decimal literal is printed
as a single lexeme, and each other expression around the lexemes of its parts, which may be in
parentheses. -/
theorem shaped_lexemes (h : Decimal e) : Shaped e e.lexemes := by
  obtain ⟨hreadable, hplain⟩ := h
  induction hreadable with
  | @number v hv =>
    rcases hv.lexemes_cases with ⟨-, -, hls⟩ | ⟨-, -, hls⟩ | ⟨hexponent, -⟩
    · rw [lexemes, hls]
      exact .single rfl rfl (by simp)
    · rw [lexemes, hls]
      exact .single rfl rfl (by simp)
    · exact absurd hexponent (hplain v (by simp [literals]))
  | var => exact .single rfl rfl (by simp)
  | binary _ _ iha ihb =>
    rw [literals, List.forall_mem_append] at hplain
    exact ((iha hplain.1).lexemesIf _).binary ((ihb hplain.2).lexemesIf _) _
  | lambda _ _ ih => exact (ih hplain).lambda _
  | call _ _ ih =>
    exact .call (.lexemesAll fun e he => ih e he (forall_literalsAll hplain he)) _
  | invoke _ _ ihf ih =>
    rw [literals, List.forall_mem_append] at hplain
    exact (ihf hplain.1).invoke (.lexemesAll fun e he => ih e he (forall_literalsAll hplain.2 he))

/-! ## What is derived in a slot -/

/-- An operand needs parentheses on the left of an operator that binds more tightly. -/
lemma needsParens_left : a.needsParens p false = true ↔ a.precedence < p := by
  simp [needsParens]

/-- An operand needs parentheses on the right of an operator that binds as tightly, too. -/
lemma needsParens_right : b.needsParens p true = true ↔ b.precedence < p + 1 := by
  simp only [needsParens, Bool.true_and, Bool.or_eq_true, decide_eq_true_eq, beq_iff_eq]
  omega

/-- An operand in parentheses, if they are needed, is derived inside of them. -/
lemma derives_unenclosed {needed : Bool}
    (h : Derives fits (.level p x) (lexemesIf needed ls ++ rest) rest)
    (hp : 0 < p) (hp' : p ≤ 4) (hneeded : needed = true → x.precedence < p) :
    Derives fits (.level 1 x) (ls ++ (parenIf needed .closeParen ++ rest))
      (parenIf needed .closeParen ++ rest) := by
  cases needed with
  | false => exact h.loosen hp' hp
  | true =>
    simp only [lexemesIf, if_true, List.cons_append, List.append_assoc, List.nil_append] at h
    exact h.inside (hneeded rfl) hp'

/-- An argument is derived at its place. -/
lemma derives_argument (hes : ∀ e ∈ es, Closed e.lexemes) (hls : Closed ls)
    (h : Derives fits (.args (es ++ x :: es'))
      (Slot.frontArgLexemes es ++ (ls ++ (Slot.backArgLexemes es' ++ .closeParen :: rest)))
      (.closeParen :: rest)) :
    Derives fits (.level 1 x) (ls ++ (Slot.backArgLexemes es' ++ .closeParen :: rest))
      (Slot.backArgLexemes es' ++ .closeParen :: rest) := by
  induction es with
  | nil =>
    cases es' with
    | nil =>
      cases h with
      | lastArg he => exact he
    | cons e' es' =>
      simp only [Slot.frontArgLexemes, Slot.backArgLexemes, List.nil_append, List.flatMap_nil,
        List.flatMap_cons, List.append_assoc, List.cons_append] at h ⊢
      exact (h.first_arg hls).1
  | cons e es ih =>
    rw [List.forall_mem_cons] at hes
    apply ih hes.2
    simp only [Slot.frontArgLexemes, List.flatMap_cons, List.append_assoc, List.cons_append,
      List.nil_append] at h
    cases es with
    | nil => exact (h.first_arg hes.1).2
    | cons e' es => exact (h.first_arg hes.1).2

/-- The expression that has an expression in a slot keeps its shape when other lexemes of the same
shape are put into the slot. -/
lemma Slot.shaped (s : Slot) (hs : Decimal (s.fill x)) (h : Shaped x ls) :
    Shaped (s.fill x) (s.frontLexemes ++ (lexemesIf (s.encloses x) ls ++ s.backLexemes)) := by
  have hchild : ∀ {y}, y ∈ (s.fill x).children → Shaped y y.lexemes :=
    fun hy => shaped_lexemes (hs.child hy)
  cases s with
  | left op b =>
    have hb : Shaped b b.lexemes := shaped_lexemes hs.operands.2
    exact (h.lexemesIf _).binary (hb.lexemesIf _) op
  | right op a =>
    have ha : Shaped a a.lexemes := shaped_lexemes hs.operands.1
    simpa [fill, frontLexemes, backLexemes] using (ha.lexemesIf _).binary (h.lexemesIf _) op
  | body ps => simpa [fill, frontLexemes, backLexemes, encloses, Expr.lexemesIf] using h.lambda ps
  | argument name es es' =>
    have hargs := ShapedArgs.around (fun e he => hchild (List.mem_append_left _ he)) h
      fun e he => hchild (List.mem_append_right es (List.mem_cons_of_mem x he))
    simpa [fill, frontLexemes, backLexemes, encloses, Expr.lexemesIf] using Shaped.call hargs name
  | function es =>
    have hargs := ShapedArgs.lexemesAll fun e he => hchild (List.mem_cons_of_mem x he)
    simpa [fill, frontLexemes, backLexemes, encloses, Expr.lexemesIf] using h.invoke hargs
  | passed f es es' =>
    have hf : Shaped f f.lexemes := hchild List.mem_cons_self
    have hargs := ShapedArgs.around
      (fun e he => hchild (List.mem_cons_of_mem f (List.mem_append_left _ he)))
      h fun e he =>
        hchild (List.mem_cons_of_mem f (List.mem_append_right es (List.mem_cons_of_mem x he)))
    simpa [fill, frontLexemes, backLexemes, encloses, Expr.lexemesIf] using hf.invoke hargs

/-- **What is derived in a slot.** From lexemes in the shape of an expression, in a slot, the
expression is derived if the whole is derived from all of them.

**Proof sketch.** The operator next to an operand is found by counting (`Derives.operator_at`),
and the parentheses around an operand that is too loose for its level are its own
(`Derives.inside`). An argument and a function called in place are found by the groups that are
closed in front of them. -/
theorem Slot.derives_inside (s : Slot) (hs : Decimal (s.fill x)) (hls : Shaped x ls)
    (hpointed : OncePointed
      (s.frontLexemes ++ (lexemesIf (s.encloses x) ls ++ (s.backLexemes ++ rest))))
    (h : Derives fits (.level 1 (s.fill x))
      (s.frontLexemes ++ (lexemesIf (s.encloses x) ls ++ (s.backLexemes ++ rest))) rest) :
    Derives fits (.level 1 x)
      (ls ++ (parenIf (s.encloses x) .closeParen ++ (s.backLexemes ++ rest)))
      (parenIf (s.encloses x) .closeParen ++ (s.backLexemes ++ rest)) := by
  have hchild : ∀ {y}, y ∈ (s.fill x).children → Shaped y y.lexemes :=
    fun hy => shaped_lexemes (hs.child hy)
  cases s with
  | left op b =>
    have hle := op.precedence_le
    have hb : Shaped b b.lexemes := shaped_lexemes hs.operands.2
    simp only [frontLexemes, backLexemes, List.nil_append, List.cons_append] at h hpointed ⊢
    obtain ⟨-, hx, -⟩ := (hls.lexemesIf _).operator_at (hb.lexemesIf _) hpointed h
    exact derives_unenclosed hx op.precedence_pos (by omega) needsParens_left.mp
  | right op a =>
    have hle := op.precedence_le
    have ha : Shaped a a.lexemes := shaped_lexemes hs.operands.1
    simp only [frontLexemes, backLexemes, List.append_assoc, List.cons_append, List.nil_append]
      at h hpointed ⊢
    obtain ⟨-, -, hx⟩ := (ha.lexemesIf _).operator_at (hls.lexemesIf _) hpointed h
    exact derives_unenclosed hx (by omega) (by omega) needsParens_right.mp
  | body ps =>
    simp only [frontLexemes, List.append_assoc, List.cons_append, List.nil_append] at h
    exact h.body_at.2
  | argument name es es' =>
    have hes : ∀ e ∈ es, Closed e.lexemes := fun e he => (hchild (List.mem_append_left _ he)).closed
    simp only [frontLexemes, backLexemes, List.append_assoc, List.cons_append,
      List.nil_append] at h ⊢
    exact derives_argument hes hls.closed h.args_of_call
  | function es =>
    simp only [frontLexemes, backLexemes, List.append_assoc, List.cons_append,
      List.nil_append] at h ⊢
    have hf :=
      (h.args_of_invoke hls.closed (by simp only [List.length_append, List.length_cons]; omega)).1
    exact (Derives.bare hf).loosen (by omega) (by omega)
  | passed f es es' =>
    have hf : Shaped f f.lexemes := hchild List.mem_cons_self
    have hes : ∀ e ∈ es, Closed e.lexemes :=
      fun e he => (hchild (List.mem_cons_of_mem f (List.mem_append_left _ he))).closed
    simp only [frontLexemes, backLexemes, List.append_assoc, List.cons_append,
      List.nil_append] at h ⊢
    have hargs :=
      (h.args_of_invoke hf.closed (by simp only [List.length_append, List.length_cons]; omega)).2
    exact derives_argument hes hls.closed hargs

/-! ## Lexemes from which an expression is not derived -/

/-- Lexemes from which an expression is not derived with the longest bodies, whatever follows. -/
def Unread (e : Expr) (ls : List Lexeme) : Prop :=
  ∀ rest, OncePointed (ls ++ rest) → ¬ Derives Longest (.level 1 e) (ls ++ rest) rest

/-- Nor is the whole derived with them in a slot. -/
lemma Unread.fill (s : Slot) (hs : Decimal (s.fill x)) (hls : Shaped x ls) (h : Unread x ls) :
    Unread (s.fill x) (s.frontLexemes ++ (lexemesIf (s.encloses x) ls ++ s.backLexemes)) := by
  intro rest hpointed hderives
  simp only [List.append_assoc] at hpointed hderives
  refine h _ (hpointed.suffix ?_) (s.derives_inside hs hls hpointed hderives)
  rw [lexemesIf_eq]
  exact ⟨s.frontLexemes ++ parenIf (s.encloses x) .openParen, by simp only [List.append_assoc]⟩

/-- What stands around a place is read as lexemes with which the whole is not derived if the part
is not derived from those at its place. -/
lemma PlacedIn.unread (h : PlacedIn e x before behind) (he : Decimal e) :
    ∃ fs bs, Opens before fs ∧ Closes behind bs ∧
      ∀ ls, Shaped x ls → Unread x ls → Unread e (fs ++ (ls ++ bs)) := by
  induction h with
  | whole => exact ⟨[], [], opens_nil, closes_nil, fun ls _ hls => by simpa using hls⟩
  | @inside s x before behind hplaced ih =>
    obtain ⟨fs, bs, hfs, hbs, hunread⟩ := ih
    have hs := hplaced.decimal he
    refine ⟨fs ++ (s.frontLexemes ++ parenIf (s.encloses x) .openParen),
      parenIf (s.encloses x) .closeParen ++ s.backLexemes ++ bs,
      hfs.append ((s.opens hs.readable).append (opens_parenIf _)),
      ((closes_parenIf _).append (s.closes hs.readable)).append hbs, fun ls hshaped hls => ?_⟩
    have hwhole := hunread _ (s.shaped hs hshaped) (hls.fill s hs hshaped)
    rw [lexemesIf_eq] at hwhole
    simpa only [List.append_assoc] using hwhole

/-! ## Operands without their parentheses -/

/-- A binary expression that is looser than a level is not derived there. -/
lemma not_derives_of_loose {op' : Operator} {a' b' : Expr} (hx : Decimal (.binary op' a' b'))
    (hlt : op'.precedence < p) (hpointed : OncePointed ((binary op' a' b').lexemes ++ rest)) :
    ¬ Derives fits (.level p (.binary op' a' b')) ((binary op' a' b').lexemes ++ rest) rest := by
  intro h
  obtain ⟨ha, hb⟩ := hx.operands
  simp only [lexemes, List.append_assoc, List.cons_append] at h hpointed
  obtain ⟨hle, -, -⟩ :=
    ((shaped_lexemes ha).lexemesIf _).operator_at ((shaped_lexemes hb).lexemesIf _) hpointed h
  omega

/-- A lambda is not derived in front of an operator and another operand, since these belong to its
body. -/
lemma not_derives_lambda {mid : List Lexeme} (hpointed : OncePointed
      ((lambda ps body).lexemes ++ .operator op :: mid))
    (hb : Derives Longest (.level (op.precedence + 1) b) mid rest) :
    ¬ Derives Longest (.level p (.lambda ps body)) ((lambda ps body).lexemes ++ .operator op :: mid)
      (.operator op :: mid) := by
  intro h
  simp only [lexemes, List.append_assoc, List.cons_append] at h hpointed
  obtain ⟨-, hends⟩ := h.body_at.1.readsPhrase hpointed
  have hmid : mid <:+ .keyword .fnWord :: .openParen ::
      (parameters ps ++ .closeParen :: .arrow :: (body.lexemes ++ .operator op :: mid)) :=
    ⟨.keyword .fnWord :: .openParen ::
      (parameters ps ++ .closeParen :: .arrow :: (body.lexemes ++ [.operator op])), by simp⟩
  obtain ⟨b', hb'⟩ := hb.readsSome (hpointed.suffix hmid)
  exact hends.not_operator hb'

/-- A binary expression is not derived if its left operand stands without the parentheses that it
needs.

**Proof sketch.** Its operator is still found by counting, so the left operand would be derived on
the level of the operator. An operator is too loose for that, and the body of a lambda would not
end there. -/
lemma unread_left (h : Decimal (.binary op a b)) (ha : a.needsParens op.precedence false = true) :
    Unread (.binary op a b)
      (a.lexemes ++ .operator op :: lexemesIf (b.needsParens op.precedence true) b.lexemes) := by
  intro rest hpointed hderives
  obtain ⟨hdecimal, hb⟩ := h.operands
  rw [List.append_assoc, List.cons_append] at hpointed hderives
  obtain ⟨-, hleft, hright⟩ :=
    (shaped_lexemes hdecimal).operator_at ((shaped_lexemes hb).lexemesIf _) hpointed hderives
  have hlt := needsParens_left.mp ha
  have hle := op.precedence_le
  cases a with
  | binary op' a' b' => exact not_derives_of_loose hdecimal hlt hpointed hleft
  | lambda ps body => exact not_derives_lambda hpointed hright hleft
  | number | var | call | invoke =>
    simp only [precedence] at hlt
    omega

/-- A binary expression is not derived if another one stands on its right without the parentheses
that it needs. -/
lemma unread_right {op' : Operator} {a' b' : Expr} (h : Decimal (.binary op a (.binary op' a' b')))
    (hb : (binary op' a' b').needsParens op.precedence true = true) :
    Unread (.binary op a (.binary op' a' b'))
      (lexemesIf (a.needsParens op.precedence false) a.lexemes ++
      .operator op :: (binary op' a' b').lexemes) := by
  intro rest hpointed hderives
  obtain ⟨ha, hdecimal⟩ := h.operands
  rw [List.append_assoc, List.cons_append] at hpointed hderives
  obtain ⟨-, -, hright⟩ :=
    ((shaped_lexemes ha).lexemesIf _).operator_at (shaped_lexemes hdecimal) hpointed hderives
  refine not_derives_of_loose hdecimal (needsParens_right.mp hb) (hpointed.suffix ?_) hright
  exact ⟨lexemesIf (a.needsParens op.precedence false) a.lexemes ++ [.operator op], by simp⟩

/-! ## Texts without a pair of parentheses -/

/-- A text whose lexemes are unread is not read as the expression. -/
lemma Unread.parse_ne {cs : List Char} (h : Unread e ls) (hcs : Spells cs ls) (limits : Limits) :
    parse limits (String.ofList cs) ≠ .ok e := by
  intro hparse
  obtain ⟨ls', hls', hreads⟩ := reads_of_parse hparse
  rw [String.toList_ofList, hcs.lexemes?_eq, Option.some.injEq] at hls'
  subst hls'
  have hpointed := hreads.pointed (by simp [OncePointed])
  have hderives := hreads.derives_longest ends_nil
  rw [← List.append_nil ls] at hpointed hderives
  exact h [] hpointed hderives

/-- **No pair of parentheses can be left out.** Let a binary expression have a place in a readable
expression in which no number is shown with an exponent. If its left operand needs parentheses,
then they stand around the operand in the text of the whole, and the text without them is not read
as the same expression. So it is with its right operand, if that is a binary expression.

**Proof sketch.** The text without the parentheses is read as the lexemes without them. From these
the operands of the expression are not derived (`unread_left`, `unread_right`), and so the whole
is not derived, one slot after another up to the root (`PlacedIn.unread`). -/
theorem parentheses_needed (he : Readable e) (hplain : ∀ v ∈ e.literals, 'e' ∉ Number.numeral v)
    (h : PlacedIn e (.binary op a b) before behind) :
    (a.needsParens op.precedence false = true →
      let behind' :=
        [' ', op.symbol, ' '] ++ encloseIf (b.needsParens op.precedence true) b.render ++ behind
      e.render = before ++ '(' :: (a.render ++ ')' :: behind') ∧
        ∀ limits, parse limits (String.ofList (before ++ (a.render ++ behind'))) ≠ .ok e) ∧
    (b.needsParens op.precedence true = true → (∃ op' b₁ b₂, b = .binary op' b₁ b₂) →
      let before' :=
        before ++ encloseIf (a.needsParens op.precedence false) a.render ++ [' ', op.symbol, ' ']
      e.render = before' ++ '(' :: (b.render ++ ')' :: behind) ∧
        ∀ limits, parse limits (String.ofList (before' ++ (b.render ++ behind))) ≠ .ok e) := by
  have hdecimal : Decimal (.binary op a b) := h.decimal ⟨he, hplain⟩
  obtain ⟨ha, hb⟩ := hdecimal.operands
  -- `hunread` carries what is not derived in the place up to the whole expression
  obtain ⟨fs, bs, hfs, hbs, hunread⟩ := h.unread ⟨he, hplain⟩
  constructor
  · intro hneeded behind'
    refine ⟨?_, fun limits => ?_⟩
    · rw [h.render_eq]
      simp [render, hneeded, encloseIf, behind']
    · have hback := (Slot.left op b).closes hdecimal.readable
      have hspells := hfs.spells hbs ((spells_render ha.readable).append hback.bounded hback.spells)
      have hshaped := (shaped_lexemes ha).binary
        ((shaped_lexemes hb).lexemesIf (b.needsParens op.precedence true)) op
      have hparse := (hunread _ hshaped (unread_left hdecimal hneeded)).parse_ne hspells limits
      simpa only [Slot.back, behind', List.append_assoc] using hparse
  · rintro hneeded ⟨op', b₁, b₂, rfl⟩ before'
    refine ⟨?_, fun limits => ?_⟩
    · rw [h.render_eq]
      simp [render, hneeded, encloseIf, before']
    · have hfront := (Slot.right op a).opens hdecimal.readable
      have hspells := hfront _ _ (spells_render hb.readable)
      simp only [Slot.front, Slot.frontLexemes, List.append_assoc, List.cons_append,
        List.nil_append]
        at hspells
      have hshaped := ((shaped_lexemes ha).lexemesIf (a.needsParens op.precedence false)).binary
        (shaped_lexemes hb) op
      have hparse := (hunread _ hshaped (unread_right hdecimal hneeded)).parse_ne
        (hfs.spells hbs hspells)
        limits
      simpa only [before', List.append_assoc, List.cons_append, List.nil_append] using hparse

/-- Both operands of a difference that is an argument in the body of a lambda need their
parentheses. -/
theorem parentheses_needed_difference :
    let a := lambda ["z"] (var "z")
    let b := binary .add (var "x") (var "y")
    let e := lambda ["x"] (call "f" [var "y", binary .sub a b])
    Readable e ∧ (∀ v ∈ e.literals, 'e' ∉ Number.numeral v) ∧
      e.source = "fn(x) => f(y, (fn(z) => z) - (x + y))" ∧ ∀ limits,
        parse limits "fn(x) => f(y, fn(z) => z - (x + y))" ≠ .ok e ∧
        parse limits "fn(x) => f(y, (fn(z) => z) - x + y)" ≠ .ok e := by
  intro a b e
  have hnames : ∀ name ∈ ["x", "y", "z"], isName name.toList = true := by decide
  have hvar : ∀ name ∈ ["x", "y", "z"], Readable (var name) :=
    fun name hname => .var (hnames name hname)
  have ha : Readable a := .lambda (by decide) (hvar "z" (by decide))
  have hb : Readable b := .binary (hvar "x" (by decide)) (hvar "y" (by decide))
  have hargs : ∀ x ∈ [var "y", binary .sub a b], Readable x := by
    rw [List.forall_mem_cons, List.forall_mem_singleton]
    exact ⟨hvar "y" (by decide), .binary ha hb⟩
  have he : Readable e := .lambda (by decide) (.call (by decide) hargs)
  have hplain : ∀ v ∈ e.literals, 'e' ∉ Number.numeral v := fun v hv => absurd hv List.not_mem_nil
  have hplaced := (PlacedIn.whole (e := e)).inside (s := .body ["x"])
    |>.inside (s := .argument "f" [var "y"] []) (x := binary .sub a b)
  obtain ⟨hleft, hright⟩ := parentheses_needed he hplain hplaced
  obtain ⟨-, hleft⟩ := hleft (by decide)
  obtain ⟨-, hright⟩ := hright (by decide) ⟨_, _, _, rfl⟩
  exact ⟨he, hplain, by decide, fun limits => ⟨hleft limits, hright limits⟩⟩

end Expr

end Abacus
