import Abacus.Proofs.Leaves
import Abacus.Proofs.Number.ReadBack
import Abacus.Proofs.RoundTrip

/-!
# Texts that tell expressions apart

Two expressions without infinite numbers have the same text only if they are equal. Their texts
are not always read back, since a number with an exponent is printed as four lexemes that no
expression has. But these four lexemes stand next to each other nowhere else, so they can be
joined to one name, and what is then read is the expression with names in the place of its numbers
with exponents.

## Main definitions

* `Abacus.joinExponents` — lexemes with names in the place of numerals with exponents.
* `Abacus.Expr.withNames` — an expression with names in the place of its numbers with exponents.
* `Abacus.Expr.underscores` — a name for a numeral that is longer than a given bound.

## Main results

* `Abacus.Expr.joinExponents_lexemes` — the joined lexemes of an expression are those of the
  expression with names.
* `Abacus.Expr.eq_of_render_eq` — readable expressions without infinite numbers are told apart by
  their texts.
* `Abacus.Expr.sameText_iff_eq` — so are the expressions that texts have.
-/

namespace Abacus

open Grammar

variable {nick : List Char → String} {rest : List Lexeme} {x : Float}

/-! ## Joined exponents -/

/-- Lexemes with one name in the place of every numeral with an exponent. -/
def joinExponents (nick : List Char → String) : List Lexeme → List Lexeme
  | .number m :: .identifier letter :: .operator op :: .number k :: ls =>
    .identifier (nick (m.toList ++ letter.toList ++ op.symbol :: k.toList)) :: joinExponents nick ls
  | l :: ls => l :: joinExponents nick ls
  | [] => []

/-- Lexemes that do not start with a name, so that they do not go on with an exponent. -/
def Nameless (ls : List Lexeme) : Prop := ∀ name, ls.head? ≠ some (.identifier name)

/-- A lexeme that is no numeral stays as it is. -/
lemma joinExponents_cons {l : Lexeme} (hl : ∀ m, l ≠ .number m) (ls : List Lexeme) :
    joinExponents nick (l :: ls) = l :: joinExponents nick ls := by
  cases l with
  | number m => exact absurd rfl (hl m)
  | _ => rw [joinExponents]; simp

/-- A numeral without an exponent stays as it is. -/
lemma joinExponents_number (m : String) (hrest : Nameless rest) :
    joinExponents nick (.number m :: rest) = .number m :: joinExponents nick rest := by
  rw [joinExponents]
  rintro _ letter op k ls - rfl
  exact hrest letter rfl

/-- Parameters stay as they are. -/
lemma joinExponents_parameters (ps : List String) (ls : List Lexeme) :
    joinExponents nick (parameters ps ++ ls) = parameters ps ++ joinExponents nick ls := by
  fun_induction parameters ps with
  | case1 => rfl
  | case2 p => exact joinExponents_cons (by simp) ls
  | case3 p ps _ ih =>
    rw [List.cons_append, List.cons_append, joinExponents_cons (by simp),
      joinExponents_cons (by simp), ih, List.cons_append, List.cons_append]

namespace Expr

/-! ## Numbers with names -/

/-- An expression with names in the place of its numbers with exponents. -/
def withNames (nick : List Char → String) (e : Expr) : Expr :=
  e.onLeaves
    (fun x => if 'e' ∈ Number.numeral x then var (nick (Number.numeral x)) else number x) var

variable {e : Expr} {es : List Expr}

/-- A number is replaced if it is shown with an exponent. -/
lemma withNames_number (x : Float) : (number x).withNames nick =
    if 'e' ∈ Number.numeral x then var (nick (Number.numeral x)) else number x := rfl

@[simp] lemma withNames_binary (op : Operator) (a b : Expr) :
    (binary op a b).withNames nick = binary op (a.withNames nick) (b.withNames nick) := rfl

@[simp] lemma withNames_lambda (ps : List String) (body : Expr) :
    (lambda ps body).withNames nick = lambda ps (body.withNames nick) := rfl

@[simp] lemma withNames_call (name : String) (es : List Expr) :
    (call name es).withNames nick = call name (es.map (withNames nick)) := by
  rw [withNames, onLeaves, onLeavesAll_eq_map]
  rfl

@[simp] lemma withNames_invoke (f : Expr) (es : List Expr) :
    (invoke f es).withNames nick = invoke (f.withNames nick) (es.map (withNames nick)) := by
  rw [withNames, onLeaves, onLeavesAll_eq_map]
  rfl

/-- A name in the place of a number holds together as tightly. -/
lemma precedence_withNames (e : Expr) : (e.withNames nick).precedence = e.precedence := by
  cases e with
  | number x =>
    rw [withNames_number]
    split <;> rfl
  | _ => rfl

/-- A name in the place of a number needs parentheses where the number does. -/
lemma needsParens_withNames (p : Nat) (onRight : Bool) (e : Expr) :
    (e.withNames nick).needsParens p onRight = e.needsParens p onRight := by
  rw [needsParens, precedence_withNames, needsParens]

/-- Lexemes in parentheses are joined inside of them. -/
lemma joinExponents_lexemesIf {ls ls' : List Lexeme} (needed : Bool) (rest : List Lexeme)
    (hrest : Nameless rest)
    (h : ∀ rest, Nameless rest → joinExponents nick (ls ++ rest) = ls' ++ joinExponents nick rest) :
    joinExponents nick (lexemesIf needed ls ++ rest) =
      lexemesIf needed ls' ++ joinExponents nick rest := by
  cases needed with
  | false => exact h rest hrest
  | true =>
    have hinside := h (.closeParen :: rest) (by simp [Nameless])
    rw [joinExponents_cons (by simp)] at hinside
    simp only [lexemesIf, if_true, List.cons_append, List.append_assoc, List.nil_append]
    rw [joinExponents_cons (by simp), hinside]

/-- Arguments are joined one by one. -/
lemma joinExponents_lexemesAll (hrest : Nameless rest)
    (h : ∀ e ∈ es, ∀ rest, Nameless rest →
      joinExponents nick (e.lexemes ++ rest) =
        (e.withNames nick).lexemes ++ joinExponents nick rest) :
    joinExponents nick (lexemesAll es ++ rest) =
      lexemesAll (es.map (withNames nick)) ++ joinExponents nick rest := by
  induction es with
  | nil => rfl
  | cons e es ih =>
    rw [List.forall_mem_cons] at h
    cases es with
    | nil => exact h.1 rest hrest
    | cons e' es =>
      have hfirst := h.1 (.comma :: (lexemesAll (e' :: es) ++ rest)) (by simp [Nameless])
      rw [joinExponents_cons (by simp), ih h.2] at hfirst
      simpa only [lexemesAll, List.map_cons, List.append_assoc, List.cons_append] using hfirst

/-- A number with an exponent is joined to its name, and every other one stays as it is. -/
lemma joinExponents_literal (hx : Number.IsLiteral x) (hrest : Nameless rest) :
    joinExponents nick ((number x).lexemes ++ rest) =
      ((number x).withNames nick).lexemes ++ joinExponents nick rest := by
  rw [withNames_number, lexemes]
  rcases hx.lexemes_cases with ⟨-, hno, hl⟩ | ⟨-, hplain, hl⟩ | ⟨hexponent, m, k, op, hnumeral, hl⟩
  · rw [if_neg hno, lexemes, hl]
    exact joinExponents_cons (by simp) rest
  · rw [if_neg hplain.no_exponent, lexemes, hl]
    exact joinExponents_number _ hrest
  · rw [if_pos hexponent, lexemes, hl, hnumeral]
    simp [joinExponents]

/-- The joined lexemes of an expression are the lexemes of the expression with names.

**Proof sketch.** Induction on the expression. Behind every part of it stands an operator, a
comma, the end of a group or what follows the whole, so no numeral without an exponent has a name
behind it. -/
theorem joinExponents_lexemes (h : Readable e) : ∀ rest, Nameless rest →
    joinExponents nick (e.lexemes ++ rest) =
      (e.withNames nick).lexemes ++ joinExponents nick rest := by
  have hclose : ∀ ls : List Lexeme, Nameless (.closeParen :: ls) := by simp [Nameless]
  induction h with
  | number hx => exact fun rest hrest => joinExponents_literal hx hrest
  | var => exact fun rest _ => joinExponents_cons (by simp) rest
  | @binary op a b _ _ iha ihb =>
    intro rest hrest
    have hb := joinExponents_lexemesIf (b.needsParens op.precedence true) rest hrest ihb
    have ha := joinExponents_lexemesIf (a.needsParens op.precedence false)
      (.operator op :: (lexemesIf (b.needsParens op.precedence true) b.lexemes ++ rest))
      (by simp [Nameless]) iha
    rw [joinExponents_cons (by simp), hb] at ha
    simpa only [lexemes, withNames_binary, needsParens_withNames, List.append_assoc,
      List.cons_append] using ha
  | @lambda ps body _ _ ih =>
    intro rest hrest
    have hbody := ih rest hrest
    simp only [lexemes, withNames_lambda, List.cons_append, List.append_assoc]
    rw [joinExponents_cons (by simp), joinExponents_cons (by simp), joinExponents_parameters,
      joinExponents_cons (by simp), joinExponents_cons (by simp), hbody]
  | @call name es _ _ ih =>
    intro rest _
    have hes := joinExponents_lexemesAll (hclose rest) ih
    rw [joinExponents_cons (by simp)] at hes
    simp only [lexemes, withNames_call, List.cons_append, List.append_assoc, List.nil_append]
    rw [joinExponents_cons (by simp), joinExponents_cons (by simp), hes]
  | @invoke ps body es _ _ ihf ih =>
    intro rest _
    -- `f` as a whole, so that `simp` does not open its lexemes
    generalize lambda ps body = f at ihf ⊢
    have hes := joinExponents_lexemesAll (hclose rest) ih
    have hf := ihf (.closeParen :: .openParen :: (lexemesAll es ++ .closeParen :: rest)) (hclose _)
    rw [joinExponents_cons (by simp)] at hes
    rw [joinExponents_cons (by simp), joinExponents_cons (by simp), hes] at hf
    simp only [lexemes, withNames_invoke, List.cons_append, List.append_assoc, List.nil_append]
    rw [joinExponents_cons (by simp), hf]

/-! ## Names that are put back -/

/-- An expression with names in the place of numbers is readable. -/
lemma Readable.withNames (h : Readable e) (hnick : ∀ cs, isName (nick cs).toList = true) :
    Readable (e.withNames nick) := by
  refine h.onLeaves (fun x hx => ?_) fun name hname => .var hname
  split
  · exact .var (hnick _)
  · exact .number (h.isLiteral hx)

/-- The numbers that are left are those without exponents. -/
lemma literals_withNames (h : Readable e) :
    ∀ x ∈ (e.withNames nick).literals, x ∈ e.literals ∧ 'e' ∉ Number.numeral x := by
  refine forall_literals_onLeaves h
    (fun x hx y hy => ?_) fun name y hy => absurd hy List.not_mem_nil
  split at hy
  · cases hy
  · rename_i hplain
    rw [List.mem_singleton.mp hy]
    exact ⟨hx, hplain⟩

/-- The joined lexemes of an expression have the expression with names as their only tree. -/
lemma withNames_unique {a b : Expr} (ha : Readable a) (hb : Readable b)
    (hnick : ∀ cs, isName (nick cs).toList = true)
    (hfa : ∀ x ∈ a.literals, Number.pattern x ≠ Number.infinitePattern)
    (hfb : ∀ x ∈ b.literals, Number.pattern x ≠ Number.infinitePattern)
    (h : a.lexemes = b.lexemes) : a.withNames nick = b.withNames nick := by
  have hread : ∀ {e : Expr}, Readable e →
      (∀ x ∈ e.literals, Number.pattern x ≠ Number.infinitePattern) →
      Derives Longest (.level 1 (e.withNames nick)) (e.withNames nick).lexemes [] := by
    intro e he hfinite
    have hnames := he.withNames hnick
    have hprinted := derives_lexemes hnames fun x hx => (literals_withNames he x hx).2
    have hderives := hprinted.expression [] ends_nil
    rwa [List.append_nil,
      named_eq_self hnames fun x hx => hfinite x (literals_withNames he x hx).1] at hderives
  have hjoined : ∀ {e : Expr}, Readable e →
      joinExponents nick e.lexemes = (e.withNames nick).lexemes := by
    intro e he
    have hjoin : joinExponents nick (e.lexemes ++ []) = _ :=
      joinExponents_lexemes he [] (by simp [Nameless])
    rwa [List.append_nil, joinExponents, List.append_nil] at hjoin
  have hlexemes : (a.withNames nick).lexemes = (b.withNames nick).lexemes := by
    rw [← hjoined ha, ← hjoined hb, h]
  have hpointed := pointed_lexemes (ha.withNames hnick) fun x hx => (literals_withNames ha x hx).2
  have hderives := hread ha hfa
  rw [hlexemes] at hderives hpointed
  exact (hread hb hfb).unique hderives hpointed

/-- A name of underscores for a numeral, longer than the bound by one more than the pattern of the
number that the numeral shows. -/
def underscores (bound : Nat) (cs : List Char) : String :=
  String.ofList (List.replicate (bound + (Number.Decimal.ofDisplay cs).pattern + 1) '_')

/-- Underscores can be a name. -/
lemma isName_replicate (n : Nat) : isName (List.replicate (n + 1) '_') = true := by
  have hword : ∀ word : String, word.toList.head? ≠ some '_' →
      String.ofList (List.replicate (n + 1) '_') ≠ word := by
    rintro _ hhead rfl
    rw [String.toList_ofList] at hhead
    exact hhead rfl
  have hmem : ∀ c ∈ List.replicate n '_', isNameChar c = true := by
    intro c hc
    rw [List.eq_of_mem_replicate hc]
    decide
  rw [isName, Bool.and_eq_true]
  refine ⟨?_, ?_⟩
  · rw [List.replicate_succ, isWordText, Bool.and_eq_true]
    exact ⟨by decide, List.all_eq_true.mpr hmem⟩
  · rw [Keyword.ofText?, if_neg (hword _ (by decide)), if_neg (hword _ (by decide)),
      if_neg (hword _ (by decide))]
    rfl

/-- The name of underscores for a numeral is a name. -/
lemma isName_underscores (bound : Nat) (cs : List Char) :
    isName (underscores bound cs).toList = true := by
  rw [underscores, String.toList_ofList]
  exact isName_replicate _

/-- The length of a name of underscores tells the pattern. -/
lemma length_underscores (bound : Nat) (cs : List Char) :
    (underscores bound cs).length = bound + (Number.Decimal.ofDisplay cs).pattern + 1 := by
  rw [underscores, String.length_ofList, List.length_replicate]

/-- An expression with numbers in the place of names that are longer than the bound. -/
def withNumbers (bound : Nat) (e : Expr) : Expr :=
  e.onLeaves number fun name =>
    if bound < name.length then number (Number.ofPattern (name.length - bound - 1)) else var name

/-- Numbers are put back in the place of names that no name of the expression is as long as. -/
lemma withNumbers_withNames {bound : Nat} (h : Readable e)
    (hfinite : ∀ x ∈ e.literals, Number.pattern x ≠ Number.infinitePattern)
    (hbound : ∀ name ∈ e.names, name.length ≤ bound) :
    (e.withNames (underscores bound)).withNumbers bound = e := by
  refine onLeaves_onLeaves h (fun x hx => ?_) fun name hname => ?_
  · split
    · have hlength : (underscores bound (Number.numeral x)).length - bound - 1 =
          (Number.Decimal.ofDisplay (Number.numeral x)).pattern := by
        rw [length_underscores]
        omega
      rw [onLeaves, if_pos (by rw [length_underscores]; omega), hlength,
        (h.isLiteral hx).ofPattern_ofDisplay (hfinite x hx)]
    · rfl
  · rw [onLeaves, if_neg (Nat.not_lt.mpr (hbound name hname))]

/-! ## Texts -/

/-- Readable expressions without infinite numbers are told apart by their texts.

**Proof sketch.** Expressions with one text have the same lexemes (`spells_render`), so they are
the same with names in the place of their numbers with exponents (`withNames_unique`). With names
that are longer than all others the numbers can be put back (`withNumbers_withNames`). -/
theorem eq_of_render_eq {a b : Expr} (ha : Readable a) (hb : Readable b)
    (hfa : ∀ x ∈ a.literals, Number.pattern x ≠ Number.infinitePattern)
    (hfb : ∀ x ∈ b.literals, Number.pattern x ≠ Number.infinitePattern)
    (h : a.render = b.render) : a = b := by
  have hlexemes : a.lexemes = b.lexemes := by
    have hla := (spells_render ha).lexemes?_eq
    rw [h, (spells_render hb).lexemes?_eq, Option.some.injEq] at hla
    exact hla.symm
  obtain ⟨bound, hbound⟩ : ∃ bound, ∀ name ∈ a.names ++ b.names, name.length ≤ bound :=
    ⟨((a.names ++ b.names).map String.length).sum,
      fun name hname => List.le_sum_of_mem (List.mem_map_of_mem hname)⟩
  rw [List.forall_mem_append] at hbound
  have hnames := withNames_unique ha hb (isName_underscores bound) hfa hfb hlexemes
  rw [← withNumbers_withNames ha hfa hbound.1, hnames, withNumbers_withNames hb hfb hbound.2]

/-- **Expressions with one text are equal.** Let two texts be read as expressions without infinite
numbers. The two expressions count as the same, being of one kind and having one text, if and only
if they are equal, node for node and number for number. Already their texts are equal only if they
are.

**Proof sketch.** What texts have are readable expressions (`readable_of_parse`), and those are told
apart by their texts (`eq_of_render_eq`), which are the characters of the source. An expression has
the same kind and the same text as itself (`sameText_self`). -/
theorem sameText_iff_eq {limits : Limits} {text text' : String} {a b : Expr}
    (ha : parse limits text = .ok a) (hb : parse limits text' = .ok b)
    (hfa : ∀ x ∈ a.literals, Number.pattern x ≠ Number.infinitePattern)
    (hfb : ∀ x ∈ b.literals, Number.pattern x ≠ Number.infinitePattern) :
    (sameText a b = true ↔ a = b) ∧ (a.source = b.source ↔ a = b) := by
  have hrender : a.render = b.render → a = b :=
    eq_of_render_eq (readable_of_parse ha) (readable_of_parse hb) hfa hfb
  refine ⟨⟨fun h => ?_, ?_⟩, ⟨fun h => ?_, congrArg source⟩⟩
  · rw [sameText, Bool.and_eq_true] at h
    exact hrender (eq_of_beq h.2)
  · rintro rfl
    exact sameText_self a
  · exact hrender (String.ofList_injective h)

/-- Two texts with numbers that are shown with exponents have one expression. -/
theorem sameText_iff_eq_exponents :
    let text := "f(0.00001, fn(x) => x - (x - 1000000000000000000000))"
    let text' := "f(0.000010,(fn(x)=>x-(x-1000000000000000000000.0)))"
    ∃ a b, parse .standard text = .ok a ∧ parse .standard text' = .ok b ∧
      (∀ x ∈ a.literals, 'e' ∈ Number.numeral x ∧ Number.pattern x ≠ Number.infinitePattern) ∧
      (∀ x ∈ b.literals, Number.pattern x ≠ Number.infinitePattern) ∧ sameText a b = true ∧
        a = b := by
  intro text text'
  have hread : (match parse .standard text, parse .standard text' with
      | .ok a, .ok b =>
        a.literals.all (fun x =>
          decide ('e' ∈ Number.numeral x ∧ Number.pattern x ≠ Number.infinitePattern)) &&
        b.literals.all (fun x => decide (Number.pattern x ≠ Number.infinitePattern)) && sameText a b
      | _, _ => false) = true := by decide +kernel
  split at hread
  · rename_i a b ha hb
    simp only [Bool.and_eq_true, List.all_eq_true, decide_eq_true_eq] at hread
    obtain ⟨⟨hfa, hfb⟩, hsame⟩ := hread
    obtain ⟨hiff, -⟩ := sameText_iff_eq ha hb (fun x hx => (hfa x hx).2) hfb
    exact ⟨a, b, ha, hb, hfa, hfb, hsame, hiff.mp hsame⟩
  · cases hread

end Expr

end Abacus
