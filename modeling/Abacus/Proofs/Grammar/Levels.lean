import Abacus.Proofs.Grammar.Operands

/-!
# The two grammars agree

The grammar with levels and the grammar of chains derive the same sentences. The tree of a chain
is the tree that the levels give it, if every lambda extends as far to the right as possible.

## Main definitions

* `Abacus.Expr.groupDown` — a chain with the operators of the tightest precedences grouped.
* `Abacus.Grammar.Links` — the links of a chain whose operands belong to a level.

## Main results

* `Abacus.Grammar.Reads.derives` — what the chains read, the levels derive.
* `Abacus.Grammar.Reads.derives_longest` — if it is followed by the end of its group, with the
  longest bodies of lambdas.
* `Abacus.Grammar.reads_iff_derives` — the chains read the tree with the longest bodies.
* `Abacus.Grammar.sentence_iff` — the chains read every sentence.
-/

namespace Abacus

/-! ## Grouping a longer chain -/

/-- No operator binds more tightly than a power. -/
lemma Operator.precedence_le (op : Operator) : op.precedence ≤ 3 := by
  cases op <;> decide

/-- No operator is of the level below the loosest. -/
lemma Operator.precedence_pos (op : Operator) : 0 < op.precedence := by
  cases op <;> decide

namespace Expr

/-- Grouping leaves an operator of another precedence alone. -/
lemma group_append {p : Nat} {op : Operator} (hop : op.precedence ≠ p) (first e : Expr)
    (links links' : List (Operator × Expr)) :
    group p first (links ++ (op, e) :: links') =
      ((group p first links).1,
        (group p first links).2 ++ (op, (group p e links').1) :: (group p e links').2) := by
  induction links generalizing first with
  | nil => simp [group, hop]
  | cons l links ih =>
    obtain ⟨op', e'⟩ := l
    by_cases h : op'.precedence = p
    · simp [group, h, ih]
    · simp [group, h, ih]

/-- One more link of the precedence that was grouped takes the whole chain as its left operand. -/
lemma group_concat {p : Nat} {op : Operator} (hop : op.precedence = p) {first a : Expr} (b : Expr)
    {links : List (Operator × Expr)} (h : group p first links = (a, [])) :
    group p first (links ++ [(op, b)]) = (binary op a b, []) := by
  induction links generalizing first with
  | nil =>
    simp only [group, Prod.mk.injEq, and_true] at h
    simp [group, hop, h]
  | cons l links ih =>
    obtain ⟨op', e'⟩ := l
    by_cases h' : op'.precedence = p
    · simp only [group, h', if_true, List.cons_append] at h ⊢
      exact ih h
    · simp [group, h'] at h

/-- A chain with the operators of the `d` tightest precedences grouped. -/
def groupDown : Nat → Expr → List (Operator × Expr) → Expr × List (Operator × Expr)
  | 0, first, links => (first, links)
  | d + 1, first, links => group (3 - d) (groupDown d first links).1 (groupDown d first links).2

/-- The tree of a chain is what all three precedences group it to. -/
lemma groupDown_three (first : Expr) (links : List (Operator × Expr)) :
    (groupDown 3 first links).1 = first.assemble links := rfl

/-- Grouping the tighter operators leaves a looser one alone. -/
lemma groupDown_append {d : Nat} {op : Operator} (hop : op.precedence + d < 4) (first e : Expr)
    (links links' : List (Operator × Expr)) :
    groupDown d first (links ++ (op, e) :: links') =
      ((groupDown d first links).1,
        (groupDown d first links).2 ++ (op, (groupDown d e links').1) ::
        (groupDown d e links').2) := by
  induction d with
  | zero => rfl
  | succ d ih =>
    have hne : op.precedence ≠ 3 - d := by omega
    simp only [groupDown, ih (by omega), group_append hne]

/-- A chain that one precedence less groups to the two operands of an operator is grouped to the
operator between them. -/
lemma groupDown_binary {d : Nat} {op : Operator} (hop : op.precedence + (d + 1) = 4)
    {first next a b : Expr} {links links' : List (Operator × Expr)}
    (ha : groupDown (d + 1) first links = (a, [])) (hb : groupDown d next links' = (b, [])) :
    groupDown (d + 1) first (links ++ (op, next) :: links') = (binary op a b, []) := by
  have hp : op.precedence = 3 - d := by omega
  simp only [groupDown] at ha ⊢
  rw [groupDown_append (by omega), hb]
  exact group_concat hp b ha

end Expr

namespace Grammar

variable {fits : List Lexeme → List Lexeme → Prop} {part : Part} {φ : Phrase} {e first : Expr}
  {links : List (Operator × Expr)} {ls mid rest : List Lexeme}

/-- A condition on numerals that holds of a text holds of its end. -/
lemma OncePointed.suffix (h : OncePointed ls) (hrest : rest <:+ ls) : OncePointed rest :=
  fun numeral hmem => h numeral (hrest.subset hmem)

/-! ## From chains to levels -/

/-- The links of a chain whose operands belong to level `p`. -/
inductive Links (fits : List Lexeme → List Lexeme → Prop) (p : Nat) :
    List (Operator × Expr) → List Lexeme → List Lexeme → Prop where
  | nil {rest : List Lexeme} : Links fits p [] rest rest
  | cons {op : Operator} {e : Expr} {links : List (Operator × Expr)} {ls mid rest : List Lexeme}
      (he : Derives fits (.level p e) ls mid) (h : Links fits p links mid rest) :
      Links fits p ((op, e) :: links) (.operator op :: ls) rest

/-- Grouping the operators of precedence `p` in a chain of looser ones turns operands of the level
above into operands of level `p`. -/
lemma Links.group {p : Nat} (hp : p < 4) (hfirst : Derives fits (.level p first) ls mid)
    (h : Links fits (p + 1) links mid rest)
    (hlinks : ∀ op ∈ links.map Prod.fst, op.precedence ≤ p) :
    ∃ mid', Derives fits (.level p (Expr.group p first links).1) ls mid' ∧
      Links fits p (Expr.group p first links).2 mid' rest := by
  induction links generalizing first ls mid with
  | nil =>
    cases h
    exact ⟨_, hfirst, .nil⟩
  | cons l links ih =>
    cases h with
    | @cons op e _ _ _ _ he h =>
      simp only [List.map_cons, List.forall_mem_cons] at hlinks
      by_cases hop : op.precedence = p
      · subst hop
        simp only [Expr.group, if_true]
        exact ih (.binary hfirst he) h hlinks.2
      · simp only [Expr.group, hop, if_false]
        obtain ⟨mid', hnext, hothers⟩ := ih (.tighter hp he) h hlinks.2
        exact ⟨_, hfirst, .cons hnext hothers⟩

/-- The tree of a chain of primary expressions is derived from the level of all operators.

**Proof sketch.** Group the precedences 3, 2 and 1 one after another (`Links.group`). What is left
after each of them has only looser operators, and after the last one there are none. -/
lemma Links.assemble (hfirst : Derives fits (.level 4 first) ls mid)
    (h : Links fits 4 links mid rest) : Derives fits (.level 1 (first.assemble links)) ls rest := by
  obtain ⟨mid₃, h₃, hl₃⟩ :=
    Links.group (by omega) (.tighter (by omega) hfirst) h fun op _ => op.precedence_le
  have hle₃ : ∀ op ∈ (Expr.group 3 first links).2.map Prod.fst, op.precedence ≤ 2 := by
    intro op hmem
    have := (Expr.precedence_of_mem_group hmem).1
    have := op.precedence_le
    omega
  obtain ⟨mid₂, h₂, hl₂⟩ := Links.group (by omega) (.tighter (by omega) h₃) hl₃ hle₃
  have hle₂ : ∀ op ∈ (Expr.group 2 (Expr.group 3 first links).1
      (Expr.group 3 first links).2).2.map Prod.fst, op.precedence ≤ 1 := by
    intro op hmem
    obtain ⟨hne, hmem'⟩ := Expr.precedence_of_mem_group hmem
    have := hle₃ op hmem'
    omega
  obtain ⟨mid₁, h₁, hl₁⟩ := Links.group (by omega) (.tighter (by omega) h₂) hl₂ hle₂
  rw [Expr.group_all] at hl₁
  cases hl₁
  exact h₁

/-- What a part of an expression is in the grammar with levels. -/
def DerivesPart (fits : List Lexeme → List Lexeme → Prop) :
    Part → List Lexeme → List Lexeme → Prop
  | .expression e, ls, rest => Derives fits (.level 1 e) ls rest
  | .chain _ first links, ls, rest =>
    ∃ mid, Derives fits (.level 4 first) ls mid ∧ Links fits 4 links mid rest
  | .operand e, ls, rest => Derives fits (.level 4 e) ls rest
  | .lambda e, ls, rest => Derives fits (.lambda e) ls rest
  | .args es, ls, rest => Derives fits (.args es) ls rest

/-- What the chains read, the levels derive, if the bodies of lambdas fit that are followed by
what may end an expression. -/
lemma Reads.derivesPart (ends : List Lexeme → Prop)
    (hclose : ∀ rest, ends (.closeParen :: rest)) (hcomma : ∀ rest, ends (.comma :: rest))
    (hfits : ∀ {e ls rest}, Reads (.expression e) ls rest → ends rest → fits ls rest)
    (h : Reads part ls rest) (hends : (∀ e, part ≠ .operand e) → ends rest) :
    DerivesPart fits part ls rest := by
  induction h with
  | expression _ ih =>
    obtain ⟨mid, hfirst, hlinks⟩ := ih fun _ => hends (by simp)
    exact hlinks.assemble hfirst
  | last _ ih => exact ⟨_, ih (by simp), .nil⟩
  | lastLambda _ ih => exact ⟨_, .bare (ih fun _ => hends (by simp)), .nil⟩
  | link _ _ ihe ih =>
    obtain ⟨mid', hnext, hlinks⟩ := ih fun _ => hends (by simp)
    exact ⟨_, ihe (by simp), .cons hnext hlinks⟩
  | @number numeral value rest h =>
    have hcount : numeral.toList.count '.' ≤ 1 := by
      have hne : Number.literal? numeral.toList ≠ none := by simp [h]
      rw [Ne, Number.literal?_eq_none_iff] at hne
      omega
    rw [Number.literal?, if_pos hcount, Option.some.injEq] at h
    exact h ▸ .number
  | name => exact .name
  | call _ ih => exact .call (ih fun _ => hclose _)
  | enclosed _ ih => exact .enclosed (ih fun _ => hclose _)
  | invoke _ _ ihf ihes => exact .invoke (ihf fun _ => hclose _) (ihes fun _ => hclose _)
  | group _ _ ih => exact .group (ih fun _ => hclose _)
  | lambda hbody ih =>
    have hrest := hends (by simp)
    exact .lambda (ih fun _ => hrest) (hfits hbody hrest)
  | noArgs => exact .noArgs
  | lastArg _ ih => exact .lastArg (ih fun _ => hends (by simp))
  | nextArg _ _ ihe ihes =>
    exact .nextArg (ihe fun _ => hcomma _) (ihes fun _ => hends (by simp))

/-- What the chains read, the levels derive. -/
lemma Reads.derives (h : Reads (.expression e) ls rest) : Derives AnyEnd (.level 1 e) ls rest :=
  h.derivesPart (fun _ => True) (fun _ => trivial) (fun _ => trivial) (fun _ _ => trivial)
    fun _ => trivial

/-- What the chains read up to the end of a group, the levels derive with the longest bodies. -/
lemma Reads.derives_longest (h : Reads (.expression e) ls rest) (hends : Ends rest) :
    Derives Longest (.level 1 e) ls rest :=
  h.derivesPart Ends (fun _ => ends_closeParen) (fun _ => ends_comma)
    (fun h hends => longest_of_ends h.derives hends) fun _ => hends

/-! ## From levels to chains -/

/-- The body of some lambda ends here and extends as far to the right as possible. -/
def BodyEnds (rest : List Lexeme) : Prop :=
  ∃ body ls, Reads (.expression body) ls rest ∧ Longest ls rest

/-- What a phrase is in the grammar of chains. A level of precedence `p` is a chain that the
operators of the precedences from 3 down to `p` group to one expression. -/
def ReadsPhrase : Phrase → List Lexeme → List Lexeme → Prop
  | .level p e, ls, rest => ∃ c first links, Reads (.chain c first links) ls rest ∧
      (∀ d, p + d = 4 → Expr.groupDown d first links = (e, [])) ∧ (c = false → BodyEnds rest)
  | .lambda f, ls, rest => Reads (.lambda f) ls rest ∧ BodyEnds rest
  | .args es, ls, rest => Reads (.args es) ls rest

/-- A level of all operators is an expression. -/
lemma ReadsPhrase.expression (h : ReadsPhrase (.level 1 e) ls rest) :
    Reads (.expression e) ls rest := by
  obtain ⟨c, first, links, h, hgroup, -⟩ := h
  have he : first.assemble links = e := by rw [← Expr.groupDown_three, hgroup 3 rfl]
  exact he ▸ .expression h

/-- An operand is a primary expression. -/
lemma ReadsPhrase.ofOperand (h : Reads (.operand e) ls rest) :
    ReadsPhrase (.level 4 e) ls rest := by
  refine ⟨true, e, [], .last h, fun d hd => ?_, by simp⟩
  obtain rfl : d = 0 := by omega
  rfl

/-- Where the body of a lambda ends that extends as far as possible, no operator and expression
follow.

**Proof sketch.** The operator and the expression could be put behind the body (`Reads.splice`),
which would end later then. -/
lemma BodyEnds.not_operator {op : Operator} {b : Expr} (h : BodyEnds (.operator op :: mid))
    (hb : Reads (.expression b) mid rest) : False := by
  obtain ⟨body, ls, hbody, hlongest⟩ := h
  obtain ⟨e, he⟩ := hbody.splice hb
  have hlater := hlongest _ _ he.derives
  have hle := hb.length_le
  simp only [List.length_cons] at hlater
  omega

/-- What the levels derive with the longest bodies, the chains read, with the same trees. -/
lemma Derives.readsPhrase (h : Derives Longest φ ls rest) (hls : OncePointed ls) :
    ReadsPhrase φ ls rest := by
  induction h with
  | @tighter p e ls rest hp _ ih =>
    obtain ⟨c, first, links, h, hgroup, hc⟩ := ih hls
    refine ⟨c, first, links, h, fun d hd => ?_, hc⟩
    obtain ⟨d, rfl⟩ : ∃ d', d = d' + 1 := ⟨d - 1, by omega⟩
    simp [Expr.groupDown, hgroup d (by omega), Expr.group]
  | @binary op a b ls mid rest ha _ iha ihb =>
    obtain ⟨c, first, links, h, hgroup, hc⟩ := iha hls
    obtain ⟨c', next, links', h', hgroup', hc'⟩ :=
      ihb (hls.suffix ((List.suffix_cons _ _).trans ha.suffix))
    -- a chain that ends with a lambda takes the operator into its body, so `a` is no such chain
    cases c with
    | false => exact ((hc rfl).not_operator (.expression h')).elim
    | true =>
      refine ⟨c', first, _, h.append h', fun d hd => ?_, hc'⟩
      have hop := op.precedence_le
      obtain ⟨d, rfl⟩ : ∃ d', d = d' + 1 := ⟨d - 1, by omega⟩
      exact Expr.groupDown_binary hd (hgroup _ hd) (hgroup' d (by omega))
  | @number numeral rest =>
    refine .ofOperand (.number ?_)
    rw [Number.literal?, if_pos (hls numeral List.mem_cons_self)]
  | bare _ ih =>
    obtain ⟨hf, hends⟩ := ih hls
    refine ⟨false, _, [], .lastLambda hf, fun d hd => ?_, fun _ => hends⟩
    obtain rfl : d = 0 := by omega
    rfl
  | name => exact .ofOperand .name
  | call _ ih =>
    exact .ofOperand (.call (ih (hls.suffix ((List.suffix_cons _ _).trans (List.suffix_cons _ _)))))
  | enclosed _ ih => exact .ofOperand (.enclosed (ih (hls.suffix (List.suffix_cons _ _))).1)
  | invoke hf _ ihf ihes =>
    have hls := hls.suffix (List.suffix_cons _ _)
    have hmid := hls.suffix
      ((List.suffix_cons _ _).trans ((List.suffix_cons _ _).trans hf.suffix))
    exact .ofOperand (.invoke (ihf hls).1 (ihes hmid))
  | group _ ih =>
    exact .ofOperand (.parenthesized (ih (hls.suffix (List.suffix_cons _ _))).expression)
  | @lambda ps body ls rest hbody hfits ih =>
    have hbody := (ih (hls.suffix (suffix_lambda ps ls))).expression
    exact ⟨.lambda hbody, _, _, hbody, hfits⟩
  | noArgs => exact .noArgs
  | lastArg _ ih => exact .lastArg (ih hls).expression
  | nextArg he _ ihe ihes =>
    exact .nextArg (ihe hls).expression (ihes (hls.suffix ((List.suffix_cons _ _).trans he.suffix)))

/-- The chains read exactly the trees that the levels derive with the longest bodies. -/
lemma reads_iff_derives (hls : OncePointed ls) (hends : Ends rest) :
    Reads (.expression e) ls rest ↔ Derives Longest (.level 1 e) ls rest :=
  ⟨fun h => h.derives_longest hends, fun h => (h.readsPhrase hls).expression⟩

/-- Something of the kind of a phrase is read by the chains. -/
def ReadsSome : Phrase → List Lexeme → List Lexeme → Prop
  | .level _ _, ls, rest => ∃ e, Reads (.expression e) ls rest
  | .lambda _, ls, rest => ∃ f, Reads (.lambda f) ls rest
  | .args es, ls, rest => ∃ es', Reads (.args es') ls rest ∧ (es' = [] ↔ es = [])

/-- An operand is an expression of every level. -/
lemma ReadsSome.ofOperand {p : Nat} {e' : Expr} (h : Reads (.operand e) ls rest) :
    ReadsSome (.level p e') ls rest :=
  ⟨_, .expression (.last h)⟩

/-- Whatever the levels derive, the chains read, but maybe with longer bodies. -/
lemma Derives.readsSome (h : Derives fits φ ls rest) (hls : OncePointed ls) :
    ReadsSome φ ls rest := by
  induction h with
  | tighter _ _ ih => exact ih hls
  | binary ha _ iha ihb =>
    obtain ⟨a, hra⟩ := iha hls
    obtain ⟨b, hrb⟩ := ihb (hls.suffix ((List.suffix_cons _ _).trans ha.suffix))
    exact hra.splice hrb
  | @number numeral rest =>
    have hvalue : Number.literal? numeral.toList =
        some (Number.Decimal.ofNumeral numeral.toList).nearest := by
      rw [Number.literal?, if_pos (hls numeral List.mem_cons_self)]
    exact .ofOperand (.number hvalue)
  | bare _ ih =>
    obtain ⟨f, hf⟩ := ih hls
    exact ⟨_, .expression (.lastLambda hf)⟩
  | name => exact .ofOperand .name
  | call _ ih =>
    obtain ⟨es, hes, -⟩ := ih (hls.suffix ((List.suffix_cons _ _).trans (List.suffix_cons _ _)))
    exact .ofOperand (.call hes)
  | enclosed _ ih =>
    obtain ⟨f, hf⟩ := ih (hls.suffix (List.suffix_cons _ _))
    exact .ofOperand (.enclosed hf)
  | invoke hf _ ihf ihes =>
    have hls := hls.suffix (List.suffix_cons _ _)
    have hmid := (List.suffix_cons _ _).trans ((List.suffix_cons _ _).trans hf.suffix)
    obtain ⟨f, hrf⟩ := ihf hls
    obtain ⟨es, hes, -⟩ := ihes (hls.suffix hmid)
    exact .ofOperand (.invoke hrf hes)
  | group _ ih =>
    obtain ⟨e, he⟩ := ih (hls.suffix (List.suffix_cons _ _))
    exact .ofOperand he.parenthesized
  | lambda _ _ ih =>
    obtain ⟨body, hbody⟩ := ih (hls.suffix (suffix_lambda _ _))
    exact ⟨_, .lambda hbody⟩
  | noArgs => exact ⟨_, .noArgs, by simp⟩
  | lastArg _ ih =>
    obtain ⟨e, he⟩ := ih hls
    exact ⟨_, .lastArg he, by simp⟩
  | nextArg he _ ihe ihes =>
    obtain ⟨e, hre⟩ := ihe hls
    obtain ⟨es, hes, hnil⟩ := ihes (hls.suffix ((List.suffix_cons _ _).trans he.suffix))
    -- behind a comma the arguments do not end, or the list would be the empty one
    obtain ⟨next, es, rfl⟩ := List.exists_cons_of_ne_nil (fun h => by simpa using hnil.mp h)
    exact ⟨_, .nextArg hre hes, by simp⟩

/-- The chains read the sentences whose numerals have a value. -/
lemma sentence_iff : (∃ e, Reads (.expression e) ls []) ↔ Sentence ls ∧ OncePointed ls := by
  constructor
  · rintro ⟨e, he⟩
    exact ⟨⟨e, he.derives⟩, he.pointed (by simp [OncePointed])⟩
  · rintro ⟨⟨e, he⟩, hls⟩
    exact he.readsSome hls

end Grammar

end Abacus
