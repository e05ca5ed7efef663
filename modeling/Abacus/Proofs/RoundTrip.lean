import Abacus.Proofs.Grammar.Juxtaposed
import Abacus.Proofs.Grammar.Parsing
import Abacus.Proofs.Printing

/-!
# Reading what was printed

The text of an expression is read back as the same expression, up to infinity, which is printed as a
name. Only a number that is shown with an exponent is not read back: its numeral has a name next to
another numeral, which no expression has.

## Main definitions

* `Abacus.Expr.named` — an expression with a name in the place of every infinite number.
* `Abacus.Expr.Printed` — the lexemes of an expression have the expression as their tree.
* `Abacus.Expr.Shallow` — the lexemes of an expression do not nest more deeply than it is high.

## Main results

* `Abacus.Expr.derives_lexemes`, `Abacus.Expr.deepest_lexemes` — all readable expressions are such.
* `Abacus.Expr.parse_source` — what reading makes of the text of an expression.
-/

namespace Abacus

open Grammar

namespace Expr

/-! ## Infinite numbers -/

mutual

/-- The expression with the name of infinity in the place of every infinite number. -/
def named : Expr → Expr
  | number value =>
    if Number.pattern value = Number.infinitePattern then var "Infinity" else number value
  | var name => var name
  | binary op left right => binary op left.named right.named
  | lambda params body => lambda params body.named
  | call name args => call name (namedAll args)
  | invoke function args => invoke function.named (namedAll args)

/-- A list of expressions with the name of infinity in the place of every infinite number. -/
def namedAll : List Expr → List Expr
  | [] => []
  | e :: es => e.named :: namedAll es

end

variable {e : Expr} {es : List Expr} {rest : List Lexeme} {x : Float}

/-- An expression whose lexemes have it as their tree. -/
structure Printed (e : Expr) : Prop where
  level : e.precedence ≠ 0 →
    ∀ rest, Derives Longest (.level e.precedence e.named) (e.lexemes ++ rest) rest
  lambda : e.precedence = 0 →
    ∀ rest, Ends rest → Derives Longest (.lambda e.named) (e.lexemes ++ rest) rest

/-- No expression holds together more tightly than an operand. -/
lemma precedence_le (e : Expr) : e.precedence ≤ 4 := by
  cases e with
  | binary op => exact Nat.le_trans op.precedence_le (by omega)
  | _ => simp [precedence]

/-- A printed expression is derived up to the end of its group. -/
lemma Printed.expression (h : Printed e) (rest : List Lexeme) (hends : Ends rest) :
    Derives Longest (.level 1 e.named) (e.lexemes ++ rest) rest := by
  by_cases hprecedence : e.precedence = 0
  · exact (Derives.bare (h.lambda hprecedence rest hends)).loosen (by omega) (by omega)
  · exact (h.level hprecedence rest).loosen e.precedence_le (by omega)

/-- A printed operand is derived from its level. -/
lemma Printed.operand (h : Printed e) {p : Nat} (hp : 0 < p) (hp' : p ≤ 4) (needed : Bool)
    (hneeded : needed = false → p ≤ e.precedence) (rest : List Lexeme) :
    Derives Longest (.level p e.named) (lexemesIf needed e.lexemes ++ rest) rest := by
  cases needed with
  | false =>
    have hle := hneeded rfl
    exact (h.level (by omega) rest).loosen e.precedence_le hle
  | true =>
    have hgroup := Derives.group (h.expression (.closeParen :: rest) ends_closeParen)
    simpa [lexemesIf] using hgroup.loosen (by omega) hp'

/-- Printed arguments are derived up to the end of their group. -/
lemma derives_lexemesAll (h : ∀ e ∈ es, Printed e) (rest : List Lexeme) :
    Derives Longest (.args (namedAll es)) (lexemesAll es ++ .closeParen :: rest)
      (.closeParen :: rest) := by
  induction es with
  | nil => exact .noArgs
  | cons e es ih =>
    rw [List.forall_mem_cons] at h
    cases es with
    | nil => exact .lastArg (h.1.expression _ ends_closeParen)
    | cons e' es =>
      have he :=
        h.1.expression (.comma :: (lexemesAll (e' :: es) ++ .closeParen :: rest)) ends_comma
      simpa [lexemesAll, namedAll] using Derives.nextArg he (ih h.2)

/-- A number that is shown without an exponent is an operand. -/
lemma printed_number (hx : Number.IsLiteral x) (hplain : 'e' ∉ Number.numeral x) :
    Printed (.number x) := by
  refine ⟨fun _ rest => ?_, fun h => absurd h (by simp [precedence])⟩
  rcases hx.lexemes_cases with ⟨hinf, -, h⟩ | ⟨hfinite, hread, h⟩ | ⟨hexponent, -⟩
  · simpa [lexemes, named, precedence, hinf, h] using Derives.name
  · have hnumber : Derives Longest
        (.level 4
          (.number (Number.Decimal.ofNumeral (String.ofList (Number.numeral x)).toList).nearest))
        (.number (String.ofList (Number.numeral x)) :: rest) rest := .number
    rw [String.toList_ofList, hread.nearest hx] at hnumber
    simpa [lexemes, named, precedence, hfinite, h] using hnumber
  · exact absurd hexponent hplain

/-- The lexemes of an expression have the expression as their tree, if no number in it is shown
with an exponent.

**Proof sketch.** Induction on the expression. The printer puts an operand in parentheses exactly
where its level does not fit. A lambda that stands without parentheses ends with its group, so its
body is the longest one (`longest_of_ends`). -/
lemma derives_lexemes (h : Readable e) (hplain : ∀ x ∈ e.literals, 'e' ∉ Number.numeral x) :
    Printed e := by
  induction h with
  | number hx => exact printed_number hx (hplain _ (by simp [literals]))
  | var hname => exact ⟨fun _ rest => .name, fun h => absurd h (by simp [precedence])⟩
  | @binary op a b _ _ iha ihb =>
    simp only [literals, List.forall_mem_append] at hplain
    have hpos : 0 < op.precedence := by cases op <;> decide
    have hle := op.precedence_le
    refine ⟨fun _ rest => ?_, fun h => absurd h (by simp only [precedence]; omega)⟩
    have hb := (ihb hplain.2).operand (p := op.precedence + 1) (by omega) (by omega)
      (b.needsParens op.precedence true) (by simp [needsParens]; omega) rest
    have ha := (iha hplain.1).operand hpos (by omega)
      (a.needsParens op.precedence false) (by simp [needsParens])
      (.operator op :: (lexemesIf (b.needsParens op.precedence true) b.lexemes ++ rest))
    simpa [lexemes, named, precedence] using Derives.binary ha hb
  | @lambda ps body hps _ ih =>
    refine ⟨fun h => absurd rfl h, fun _ rest hends => ?_⟩
    have hbody := (ih hplain).expression rest hends
    simpa [lexemes, named] using Derives.lambda hbody (longest_of_ends hbody hends)
  | @call name es hname _ ih =>
    refine ⟨fun _ rest => ?_, fun h => absurd h (by simp [precedence])⟩
    have hes := derives_lexemesAll (fun e he => ih e he (forall_literalsAll hplain he)) rest
    simpa [lexemes, named, precedence] using Derives.call hes
  | @invoke ps body es _ _ ihf ih =>
    simp only [literals, List.forall_mem_append] at hplain
    refine ⟨fun _ rest => ?_, fun h => absurd h (by simp [precedence])⟩
    have hes := derives_lexemesAll (fun e he => ih e he (forall_literalsAll hplain.2 he)) rest
    have hf := (ihf hplain.1).lambda rfl
      (.closeParen :: .openParen :: (lexemesAll es ++ .closeParen :: rest)) ends_closeParen
    simpa [lexemes, named, precedence] using Derives.invoke hf hes

/-! ## Nesting -/

/-- An expression whose lexemes do not nest more deeply than it is high, as far as they do not go on
behind it. -/
def Shallow (e : Expr) : Prop :=
  ∀ depth groups rest, (e.precedence = 0 → Ends rest) →
    deepest depth groups (e.lexemes ++ rest) ≤ max (depth + e.height) (deepest depth groups rest)

/-- Where a group ends, the depth behind it does not matter to what stands inside. -/
lemma deepest_of_ends {depth depth' : Nat} (groups : List Group) (hends : Ends rest)
    (hdepth : depth ≤ depth') :
    deepest depth' groups rest ≤ max depth' (deepest depth groups rest) := by
  cases rest with
  | nil =>
    simp only [deepest]
    omega
  | cons l ls =>
    rcases hends with rfl | rfl
    · simp only [deepest]
      omega
    · simp only [deepest]
      omega

/-- Parentheses around an expression are one level around it. -/
lemma Shallow.group (h : Shallow e) (depth : Nat) (groups : List Group) (rest : List Lexeme) :
    deepest depth groups (.openParen :: (e.lexemes ++ .closeParen :: rest)) ≤
      max (depth + (e.height + 1)) (deepest depth groups rest) := by
  have hinside := h (depth + 1) (⟨depth + 1, depth⟩ :: groups) (.closeParen :: rest)
    fun _ => ends_closeParen
  simp only [deepest, Group.innermost, List.tail_cons] at hinside ⊢
  omega

/-- The lexemes of a literal do not nest. -/
lemma deepest_number (hx : Number.IsLiteral x) (depth : Nat) (groups : List Group)
    (rest : List Lexeme) :
    deepest depth groups (Number.lexemes x ++ rest) = deepest depth groups rest := by
  rcases hx.lexemes_cases with ⟨-, -, h⟩ | ⟨-, -, h⟩ | ⟨-, m, k, op, -, h⟩ <;> rw [h] <;>
    simp [deepest]

/-- Printed operands do not nest more deeply than they are high, and one level more if they need
parentheses. -/
lemma Shallow.operand (h : Shallow e) (needed : Bool) (hneeded : needed = false → e.precedence ≠ 0)
    (depth : Nat) (groups : List Group) (rest : List Lexeme) :
    deepest depth groups (lexemesIf needed e.lexemes ++ rest) ≤
      max (depth + (e.height + 1)) (deepest depth groups rest) := by
  cases needed with
  | false =>
    have hshallow := h depth groups rest fun hzero => absurd hzero (hneeded rfl)
    simp only [lexemesIf, Bool.false_eq_true, if_false]
    omega
  | true => simpa [lexemesIf] using h.group depth groups rest

/-- Printed arguments at the start of their group do not nest more deeply than they are high. -/
lemma deepest_lexemesAll (h : ∀ e ∈ es, Shallow e) {depth : Nat} {groups : List Group}
    (hg : (Group.innermost groups).inside = depth) (rest : List Lexeme) :
    deepest depth groups (lexemesAll es ++ .closeParen :: rest) ≤
      max (depth + heights es) (deepest depth groups (.closeParen :: rest)) := by
  induction es with
  | nil =>
    simp only [lexemesAll, List.nil_append, heights]
    omega
  | cons e es ih =>
    rw [List.forall_mem_cons] at h
    cases es with
    | nil =>
      have he := h.1 depth groups (.closeParen :: rest) fun _ => ends_closeParen
      simp only [lexemesAll, heights]
      omega
    | cons e' es =>
      have he := h.1 depth groups (.comma :: (lexemesAll (e' :: es) ++ .closeParen :: rest))
        fun _ => ends_comma
      have hes := ih h.2
      have hcomma : deepest depth groups
          (.comma :: (lexemesAll (e' :: es) ++ .closeParen :: rest)) =
            max depth (deepest depth groups (lexemesAll (e' :: es) ++ .closeParen :: rest)) := by
        simp only [deepest, hg]
      have hlexemes : lexemesAll (e :: e' :: es) ++ .closeParen :: rest =
          e.lexemes ++ .comma :: (lexemesAll (e' :: es) ++ .closeParen :: rest) := by
        simp [lexemesAll]
      rw [hlexemes, heights]
      omega

/-- Printed arguments in their parentheses are one level around them. -/
lemma deepest_arguments (h : ∀ e ∈ es, Shallow e) (depth : Nat) (groups : List Group)
    (rest : List Lexeme) :
    deepest depth groups (.openParen :: (lexemesAll es ++ .closeParen :: rest)) ≤
      max (depth + (heights es + 1)) (deepest depth groups rest) := by
  have hes := deepest_lexemesAll h
    (show (Group.innermost (⟨depth + 1, depth⟩ :: groups)).inside = depth + 1 from rfl) rest
  simp only [deepest, Group.innermost, List.tail_cons] at hes ⊢
  omega

/-- The lexemes of an expression do not nest more deeply than the expression is high.

**Proof sketch.** Induction on the expression. Every part is less high than the whole, and at most
one level of parentheses stands around it. -/
lemma deepest_lexemes (h : Readable e) : Shallow e := by
  induction h with
  | number hx =>
    intro depth groups rest _
    rw [lexemes, deepest_number hx]
    omega
  | var hname =>
    intro depth groups rest _
    simp only [lexemes, List.cons_append, List.nil_append, deepest]
    omega
  | @binary op a b _ _ iha ihb =>
    intro depth groups rest _
    have hpos : 0 < op.precedence := by cases op <;> decide
    have hb := ihb.operand (b.needsParens op.precedence true)
      (by simp [needsParens]; omega) depth groups rest
    have ha := iha.operand (a.needsParens op.precedence false) (by simp [needsParens]; omega) depth
      groups (.operator op :: (lexemesIf (b.needsParens op.precedence true) b.lexemes ++ rest))
    have hlexemes : (binary op a b).lexemes ++ rest =
        lexemesIf (a.needsParens op.precedence false) a.lexemes ++
          .operator op :: (lexemesIf (b.needsParens op.precedence true) b.lexemes ++ rest) := by
      simp [lexemes]
    rw [hlexemes, height]
    simp only [deepest] at ha
    omega
  | @lambda ps body hps _ ih =>
    intro depth groups rest hends
    -- the body counts for one level more, since `deepest` enters it as it enters parentheses
    have hbody := ih (depth + 1) groups rest fun _ => hends rfl
    have hbehind := deepest_of_ends groups (hends rfl) (Nat.le_add_right depth 1)
    have hlexemes : (lambda ps body).lexemes ++ rest = .keyword .fnWord :: .openParen ::
        (parameters ps ++ .closeParen :: .arrow :: (body.lexemes ++ rest)) := by
      simp [lexemes]
    rw [hlexemes, deepest_parameters, height]
    omega
  | @call name es hname _ ih =>
    intro depth groups rest _
    have hes := deepest_arguments ih depth groups rest
    simp only [lexemes, List.cons_append, List.append_assoc, List.nil_append, deepest, height]
      at hes ⊢
    omega
  | @invoke ps body es _ _ ihf ih =>
    intro depth groups rest _
    have hes := deepest_arguments ih depth groups rest
    have hf := ihf.group depth groups (.openParen :: (lexemesAll es ++ .closeParen :: rest))
    have hlexemes : (invoke (lambda ps body) es).lexemes ++ rest = .openParen ::
        ((lambda ps body).lexemes ++
          .closeParen :: .openParen :: (lexemesAll es ++ .closeParen :: rest)) := by
      simp [lexemes]
    rw [hlexemes, height]
    omega

/-! ## Exponents -/

/-- The lexemes of an expression with a number that is shown with an exponent are no sentence. -/
lemma not_sentence_of_exponent (h : Readable e) (hx : x ∈ e.literals)
    (hexponent : 'e' ∈ Number.numeral x) : ¬ Sentence e.lexemes := by
  refine fun hsentence => hsentence.not_juxtaposed ?_
  rcases (h.isLiteral hx).lexemes_cases with
    ⟨-, hno, -⟩ | ⟨-, hplain, -⟩ | ⟨-, m, k, op, -, hlexemes⟩
  · exact absurd hexponent hno
  · exact absurd hexponent hplain.no_exponent
  · refine ⟨m, "e", List.IsInfix.trans ?_ (infix_of_literal h hx)⟩
    rw [hlexemes]
    exact ⟨[], [.operator op, .number k], rfl⟩

/-- Numerals without exponents have at most one point. -/
lemma pointed_lexemes (h : Readable e) (hplain : ∀ x ∈ e.literals, 'e' ∉ Number.numeral x) :
    OncePointed e.lexemes := by
  intro numeral hmem
  obtain ⟨x, hx, hmem⟩ := exists_literal_of_mem h hmem
  rcases (h.isLiteral hx).lexemes_cases with ⟨-, -, hl⟩ | ⟨-, hread, hl⟩ | ⟨hexponent, -⟩
  · simp [hl] at hmem
  · rw [hl, List.mem_singleton, Lexeme.number.injEq] at hmem
    rw [hmem, String.toList_ofList]
    exact hread.points
  · exact absurd hexponent (hplain x hx)

/-! ## Reading a printed expression -/

/-- A literal that is shown by digits and points is not infinite. -/
lemma finite_of_digits (hx : Number.IsLiteral x)
    (h : ∀ c ∈ Number.numeral x, isNumeralChar c = true) :
    Number.pattern x ≠ Number.infinitePattern := by
  intro hinf
  rcases hx.numeral_cases with ⟨-, hnumeral⟩ | ⟨hfinite, -⟩ | ⟨m, k, op, -, -, hnumeral⟩
  · rw [hnumeral] at h
    exact absurd (h 'I' (by decide)) (by decide)
  · exact hfinite hinf
  · exact absurd (h 'e' (by simp [hnumeral])) (by decide)

/-- Expressions that do not change with a name for infinity do not change in a list, either. -/
lemma namedAll_eq_self (h : ∀ e ∈ es, e.named = e) : namedAll es = es := by
  induction es with
  | nil => rfl
  | cons e es ih =>
    rw [List.forall_mem_cons] at h
    rw [namedAll, h.1, ih h.2]

/-- An expression without infinite numbers does not change with a name for infinity. -/
lemma named_eq_self (he : Readable e)
    (h : ∀ x ∈ e.literals, Number.pattern x ≠ Number.infinitePattern) : e.named = e := by
  induction he with
  | number => rw [named, if_neg (h _ (by simp [literals]))]
  | var => rfl
  | binary _ _ iha ihb =>
    simp only [literals, List.forall_mem_append] at h
    rw [named, iha h.1, ihb h.2]
  | lambda _ _ ih => rw [named, ih h]
  | call _ _ ih =>
    rw [named, namedAll_eq_self fun e he => ih e he (forall_literalsAll h he)]
  | invoke _ _ ihf ih =>
    simp only [literals, List.forall_mem_append] at h
    rw [named, ihf h.1, namedAll_eq_self fun e he => ih e he (forall_literalsAll h.2 he)]

/-- The text of an expression is parsed by the lexemes of the expression. -/
lemma parse_source_eq (h : Readable e) (limits : Limits) :
    ∃ tokens, tokens.map (·.lexeme) = e.lexemes ∧
      parse limits e.source = ofTokens limits tokens e.source := by
  refine parse_eq_ofTokens ?_ limits
  rw [source, String.toList_ofList]
  exact (spells_render h).lexemes?_eq

/-- The text of an expression without exponents is read as the expression with a name for
infinity. -/
lemma parse_source_of_plain (h : Readable e) (hplain : ∀ x ∈ e.literals, 'e' ∉ Number.numeral x)
    (limits : Limits) :
    parse limits e.source = .error .tooNested ∨ parse limits e.source = .ok e.named := by
  obtain ⟨tokens, htokens, hparse⟩ := parse_source_eq h limits
  have hderives := (derives_lexemes h hplain).expression [] ends_nil
  rw [List.append_nil] at hderives
  have hreads := (reads_iff_derives (pointed_lexemes h hplain) ends_nil).mpr hderives
  rw [← htokens] at hreads
  rw [hparse]
  exact ofTokens_of_reads hreads limits e.source

/-- The text of an expression that is less high than the limit does not nest too deeply. -/
lemma parse_source_ne_tooNested {limits : Limits} (h : Readable e)
    (hlt : e.height < limits.nesting) :
    parse limits e.source ≠ .error .tooNested := by
  obtain ⟨tokens, htokens, hparse⟩ := parse_source_eq h limits
  have hdeepest := deepest_lexemes h 0 [] [] fun _ => ends_nil
  rw [List.append_nil, ← htokens] at hdeepest
  rw [hparse]
  refine ofTokens_ne_tooNested ?_ e.source
  simp only [deepest] at hdeepest
  rw [nesting]
  omega

/-- **Reading undoes printing, up to exponents and infinity.** Only readable trees are read. The
text of such a tree has a fault of syntax if a number in it is shown with an exponent. Otherwise
it is read as the same tree, node for node, with a name in the place of infinite numbers, so a
tree whose numbers are shown by digits and points is read as itself. Only texts that nest too
deeply are refused for another reason, and no tree does that is less high than the limit.

**Proof sketch.** The text of the tree is read as its lexemes (`spells_render`). Without exponents
they have the tree as their derivation with the longest bodies (`derives_lexemes`), and an exponent
puts a numeral in front of a name, which no sentence has (`not_sentence_of_exponent`). -/
theorem parse_source (limits : Limits) :
    (∀ text e, parse limits text = .ok e → Readable e) ∧
    ∀ e, Readable e →
      ((∃ x ∈ e.literals, 'e' ∈ Number.numeral x) →
        parse limits e.source = .error .tooNested ∨
          ∃ problem found, parse limits e.source = .error (.badSyntax problem found e.source)) ∧
      ((∀ x ∈ e.literals, 'e' ∉ Number.numeral x) →
        parse limits e.source = .error .tooNested ∨ parse limits e.source = .ok e.named) ∧
      ((∀ x ∈ e.literals, ∀ c ∈ Number.numeral x, isNumeralChar c = true) →
        parse limits e.source = .error .tooNested ∨ parse limits e.source = .ok e) ∧
      (e.height < limits.nesting → parse limits e.source ≠ .error .tooNested) := by
  refine ⟨fun text e h => readable_of_parse h,
    fun e he => ⟨?_, fun hplain => ?_, fun hdigits => ?_, fun hlt => ?_⟩⟩
  · rintro ⟨x, hx, hexponent⟩
    obtain ⟨tokens, htokens, hparse⟩ := parse_source_eq he limits
    have hno := not_sentence_of_exponent he hx hexponent
    rw [← htokens] at hno
    rw [hparse]
    exact ofTokens_of_not_sentence (fun h => hno h.1) limits e.source
  · exact parse_source_of_plain he hplain limits
  · have hplain : ∀ x ∈ e.literals, 'e' ∉ Number.numeral x :=
      fun x hx hexponent => absurd (hdigits x hx 'e' hexponent) (by decide)
    have hnamed := named_eq_self he fun x hx => finite_of_digits (he.isLiteral hx) (hdigits x hx)
    have hparse := parse_source_of_plain he hplain limits
    rw [hnamed] at hparse
    exact hparse
  · exact parse_source_ne_tooNested he hlt

end Expr

end Abacus
