import Abacus.Expr.Render
import Abacus.Proofs.Readable

/-!
# The lexemes of a printed expression

The text of an expression is read as the lexemes that the expression is made of, since everything
that is printed next to a numeral or a word is a boundary.

## Main definitions

* `Abacus.Number.lexemes`, `Abacus.Expr.lexemes` — the lexemes of a printed number and expression.

## Main results

* `Abacus.Expr.spells_render` — the text of an expression is read as its lexemes.
* `Abacus.Expr.infix_of_literal`, `Abacus.Expr.exists_literal_of_mem` — the lexemes of an
  expression contain those of its numbers, and no other numerals.
-/

namespace Abacus

open Grammar

/-! ## Numbers -/

namespace Number

variable {cs : List Char} {p : Nat} {x : Float}

/-- The lexemes that a number is shown by. -/
def lexemes (x : Float) : List Lexeme := (lexemes? (numeral x)).getD []

/-- What characters spell is what the number that they show is made of. -/
lemma lexemes_eq {ls : List Lexeme} (h : Spells (numeral x) ls) : lexemes x = ls := by
  rw [lexemes, h.lexemes?_eq, Option.getD_some]

/-- Digits with at most one point are one lexeme. -/
lemma Plain.spells (h : Plain cs p) : Spells cs [.number (String.ofList cs)] := by
  obtain ⟨c, cs', rfl, hc⟩ := h.starts
  have hwritten := written_number hc fun d hd => h.all d (List.mem_cons_of_mem c hd)
  simpa [Lexeme.chars] using Spells.lexeme hwritten (by simp)

/-- A numeral with an exponent is four lexemes, of which the second is a name. -/
lemma Split.spells (h : Split cs) :
    ∃ m k op, cs = m.toList ++ 'e' :: op.symbol :: k.toList ∧
      Spells cs [.number m, .identifier "e", .operator op, .number k] := by
  obtain ⟨m, k, op, hm, hk, rfl⟩ := h
  have hname : (Lexeme.identifier "e").Written := show isName _ = true by decide
  have hpower : Spells k.toList [.number k] := Spells.lexeme hk (by simp)
  have hsign : Spells (op.symbol :: k.toList) [.operator op, .number k] :=
    hpower.cons (l := .operator op) trivial fun _ => trivial
  have hletter := (Spells.lexeme hname (by simp)).append (bounded_symbol op) hsign
  exact ⟨m, k, op, rfl, hletter.cons hm fun _ => show isNumeralChar 'e' = false by decide⟩

/-- Infinity is one lexeme. -/
lemma spells_infinity : Spells "Infinity".toList [.identifier "Infinity"] :=
  Spells.lexeme (l := .identifier "Infinity") (show isName _ = true by decide) (by simp)

/-- The lexemes of a literal: a name for infinity, one numeral, or a numeral with an exponent. -/
lemma IsLiteral.lexemes_cases (hx : IsLiteral x) :
    (pattern x = infinitePattern ∧ 'e' ∉ numeral x ∧ lexemes x = [.identifier "Infinity"]) ∨
      (pattern x ≠ infinitePattern ∧ Plain (numeral x) (pattern x) ∧
        lexemes x = [.number (String.ofList (numeral x))]) ∨
      ('e' ∈ numeral x ∧ ∃ m k op, numeral x = m.toList ++ 'e' :: op.symbol :: k.toList ∧
        lexemes x = [.number m, .identifier "e", .operator op, .number k]) := by
  rcases hx.numeral_cases with ⟨hinf, h⟩ | ⟨hfinite, h⟩ | h
  · exact .inl ⟨hinf, h ▸ by decide, lexemes_eq (h ▸ spells_infinity)⟩
  · exact .inr (.inl ⟨hfinite, h, lexemes_eq h.spells⟩)
  · obtain ⟨m, k, op, hnumeral, hspells⟩ := h.spells
    exact .inr (.inr ⟨by simp [hnumeral], m, k, op, hnumeral, lexemes_eq hspells⟩)

/-- A literal is shown by the same lexemes in front of every boundary. -/
lemma IsLiteral.spells (hx : IsLiteral x) : Spells (numeral x) (lexemes x) := by
  have hspells : ∃ ls, Spells (numeral x) ls := by
    rcases hx.numeral_cases with ⟨-, h⟩ | ⟨-, h⟩ | h
    · exact ⟨_, h ▸ spells_infinity⟩
    · exact ⟨_, h.spells⟩
    · obtain ⟨m, k, op, -, hspells⟩ := h.spells
      exact ⟨_, hspells⟩
  obtain ⟨ls, hls⟩ := hspells
  rw [lexemes_eq hls]
  exact hls

end Number

/-! ## Expressions -/

namespace Expr

/-- Lexemes in parentheses, if they are needed. -/
def lexemesIf (needed : Bool) (ls : List Lexeme) : List Lexeme :=
  if needed then .openParen :: (ls ++ [.closeParen]) else ls

mutual

/-- The lexemes of an expression. -/
def lexemes : Expr → List Lexeme
  | number value => Number.lexemes value
  | var name => [.identifier name]
  | binary op left right =>
    lexemesIf (left.needsParens op.precedence false) left.lexemes ++
      .operator op :: lexemesIf (right.needsParens op.precedence true) right.lexemes
  | lambda params body =>
    .keyword .fnWord :: .openParen :: (parameters params ++ .closeParen :: .arrow :: body.lexemes)
  | call name args => .identifier name :: .openParen :: (lexemesAll args ++ [.closeParen])
  | invoke function args =>
    .openParen :: (function.lexemes ++
      .closeParen :: .openParen :: (lexemesAll args ++ [.closeParen]))

/-- The lexemes of a list of expressions, with commas between them. -/
def lexemesAll : List Expr → List Lexeme
  | [] => []
  | [e] => e.lexemes
  | e :: es => e.lexemes ++ .comma :: lexemesAll es

end

variable {e : Expr} {es : List Expr} {cs : List Char} {ls : List Lexeme} {x : Float}

/-! ## What is printed -/

/-- The start of a group may stand in front of anything. -/
lemma spells_openParen (h : Spells cs ls) : Spells ('(' :: cs) (.openParen :: ls) :=
  h.cons (l := .openParen) trivial fun _ => trivial

/-- The end of a group may stand in front of anything. -/
lemma spells_closeParen (h : Spells cs ls) : Spells (')' :: cs) (.closeParen :: ls) :=
  h.cons (l := .closeParen) trivial fun _ => trivial

/-- The end of a group may stand behind anything. -/
lemma spells_append_closeParen (h : Spells cs ls) : Spells (cs ++ [')']) (ls ++ [.closeParen]) :=
  h.append (bounded_cons.mpr (by decide)) (spells_closeParen .nil)

/-- A comma and a blank may stand between any two texts. -/
lemma spells_comma {cs' : List Char} {ls' : List Lexeme} (h : Spells cs ls) (h' : Spells cs' ls') :
    Spells (cs ++ ',' :: ' ' :: cs') (ls ++ .comma :: ls') := by
  have hblank : Spells (' ' :: cs') ls' := h'.blank (by decide)
  exact h.append (bounded_cons.mpr (by decide)) (hblank.cons (l := .comma) trivial fun _ => trivial)

/-- Parentheses around a text are parentheses around its lexemes. -/
lemma spells_encloseIf (needed : Bool) (h : Spells cs ls) :
    Spells (encloseIf needed cs) (lexemesIf needed ls) := by
  cases needed with
  | false => exact h
  | true => exact spells_openParen (spells_append_closeParen h)

/-- A name is one lexeme. -/
lemma spells_name {name : String} (h : isName name.toList = true) :
    Spells name.toList [.identifier name] :=
  Spells.lexeme (l := .identifier name) h (by simp)

/-- Parameters are read as they are printed. -/
lemma spells_renderParams {ps : List String} (h : ∀ p ∈ ps, isName p.toList = true) :
    Spells (renderParams ps) (parameters ps) := by
  fun_induction renderParams ps with
  | case1 => exact .nil
  | case2 p => exact spells_name (h p List.mem_cons_self)
  | case3 p ps hps ih =>
    rw [parameters]
    · rw [List.forall_mem_cons] at h
      exact spells_comma (spells_name h.1) (ih h.2)
    · exact hps

/-- Arguments are read as they are printed, if each of them is. -/
lemma spells_renderAll (h : ∀ e ∈ es, Spells e.render e.lexemes) :
    Spells (renderAll es) (lexemesAll es) := by
  induction es with
  | nil => exact .nil
  | cons e es ih =>
    rw [List.forall_mem_cons] at h
    cases es with
    | nil => exact h.1
    | cons e' es => exact spells_comma h.1 (ih h.2)

/-- The text of an expression is read as the lexemes of the expression. -/
theorem spells_render (h : Readable e) : Spells e.render e.lexemes := by
  induction h with
  | number hx => exact hx.spells
  | var hname => exact spells_name hname
  | @binary op a b _ _ iha ihb =>
    have hb := (spells_encloseIf (b.needsParens op.precedence true) ihb).blank
      (show Text.isBlank ' ' = true by decide)
    have hop := (hb.cons (l := .operator op) trivial fun _ => trivial).blank
      (show Text.isBlank ' ' = true by decide)
    have ha := (spells_encloseIf (a.needsParens op.precedence false) iha).append
      (bounded_cons.mpr (by decide)) hop
    simpa [render, lexemes, Lexeme.chars] using ha
  | @lambda ps body hps _ ih =>
    have hblank : Text.isBlank ' ' = true := by decide
    have harrow := ((ih.blank hblank).cons (l := .arrow) trivial fun _ => trivial).blank hblank
    have hps := (spells_renderParams hps).append (bounded_cons.mpr (by decide))
      (spells_closeParen harrow)
    have hword : Spells "fn".toList [.keyword .fnWord] :=
      Spells.lexeme (l := .keyword .fnWord) trivial (by simp)
    have hfn := hword.append (bounded_cons.mpr (by decide)) (spells_openParen hps)
    simpa [render, lexemes, Lexeme.chars] using hfn
  | call hname _ ih =>
    have hes := spells_openParen (spells_append_closeParen (spells_renderAll ih))
    exact (spells_name hname).append (bounded_cons.mpr (by decide)) hes
  | invoke _ _ ihf ih =>
    have hes := spells_openParen (spells_append_closeParen (spells_renderAll ih))
    have hf := spells_openParen (ihf.append (bounded_cons.mpr (by decide)) (spells_closeParen hes))
    simpa [render, lexemes] using hf

/-! ## The lexemes of numbers -/

/-- The lexemes of a list of expressions contain those of each of them. -/
lemma lexemes_infix_lexemesAll (he : e ∈ es) : e.lexemes <:+: lexemesAll es := by
  induction es with
  | nil => cases he
  | cons e' es ih =>
    cases es with
    | nil =>
      rw [List.mem_singleton.mp he]
      exact List.infix_rfl
    | cons e'' es =>
      rcases List.mem_cons.mp he with rfl | he
      · exact ⟨[], .comma :: lexemesAll (e'' :: es), by simp [lexemesAll]⟩
      · exact (ih he).trans ⟨e'.lexemes ++ [.comma], [], by simp [lexemesAll]⟩

/-- Parentheses contain what is inside of them. -/
lemma infix_lexemesIf (needed : Bool) (ls : List Lexeme) : ls <:+: lexemesIf needed ls := by
  cases needed with
  | false => exact List.infix_rfl
  | true => exact ⟨[.openParen], [.closeParen], by simp [lexemesIf]⟩

/-- The lexemes of an expression contain those of each of its numbers. -/
lemma infix_of_literal (h : Readable e) (hx : x ∈ e.literals) :
    Number.lexemes x <:+: e.lexemes := by
  induction h with
  | number =>
    rw [List.mem_singleton.mp hx]
    exact List.infix_rfl
  | var => cases hx
  | @binary op a b _ _ iha ihb =>
    rw [literals, List.mem_append] at hx
    rcases hx with hx | hx
    · exact ((iha hx).trans (infix_lexemesIf _ _)).trans ⟨[], _, rfl⟩
    · refine ((ihb hx).trans (infix_lexemesIf (b.needsParens op.precedence true) _)).trans ?_
      exact ⟨lexemesIf (a.needsParens op.precedence false) a.lexemes ++ [.operator op], [], by
        simp [lexemes]⟩
  | @lambda ps body _ _ ih =>
    refine (ih hx).trans ⟨.keyword .fnWord :: .openParen ::
      (parameters ps ++ [.closeParen, .arrow]), [], ?_⟩
    simp [lexemes]
  | @call name es _ _ ih =>
    obtain ⟨e, he, hx⟩ := mem_literalsAll.mp hx
    refine ((ih e he hx).trans (lexemes_infix_lexemesAll he)).trans ?_
    exact ⟨[.identifier name, .openParen], [.closeParen], by simp [lexemes]⟩
  | @invoke ps body es _ _ ihf ih =>
    rw [literals, List.mem_append] at hx
    rcases hx with hx | hx
    · refine (ihf hx).trans
        ⟨[.openParen], .closeParen :: .openParen :: (lexemesAll es ++ [.closeParen]), ?_⟩
      simp [lexemes]
    · obtain ⟨e, he, hx⟩ := mem_literalsAll.mp hx
      refine ((ih e he hx).trans (lexemes_infix_lexemesAll he)).trans ?_
      exact ⟨.openParen :: ((lambda ps body).lexemes ++ [.closeParen, .openParen]),
        [.closeParen], by
        simp [lexemes]⟩

/-- The numerals in the lexemes of a list of expressions are those of the expressions. -/
lemma mem_lexemesAll {numeral : String} (hmem : Lexeme.number numeral ∈ lexemesAll es) :
    ∃ e ∈ es, Lexeme.number numeral ∈ e.lexemes := by
  induction es with
  | nil => cases hmem
  | cons e es ih =>
    cases es with
    | nil => exact ⟨e, List.mem_cons_self, hmem⟩
    | cons e' es =>
      rcases List.mem_append.mp hmem with hmem | hmem
      · exact ⟨e, List.mem_cons_self, hmem⟩
      · obtain ⟨e'', he'', hmem⟩ := ih (by simpa using hmem)
        exact ⟨e'', List.mem_cons_of_mem e he'', hmem⟩

/-- The numerals in the lexemes of an expression are those of its numbers. -/
lemma exists_literal_of_mem (h : Readable e) {numeral : String}
    (hmem : Lexeme.number numeral ∈ e.lexemes) :
    ∃ x ∈ e.literals, Lexeme.number numeral ∈ Number.lexemes x := by
  have hif : ∀ needed ls, Lexeme.number numeral ∈ lexemesIf needed ls →
      Lexeme.number numeral ∈ ls := by
    intro needed ls hmem
    cases needed <;> simpa [lexemesIf] using hmem
  induction h with
  | @number x _ => exact ⟨x, List.mem_singleton_self x, hmem⟩
  | var => simp [lexemes] at hmem
  | binary _ _ iha ihb =>
    simp only [lexemes, List.mem_append, List.mem_cons, reduceCtorEq, false_or] at hmem
    simp only [literals, List.mem_append]
    rcases hmem with hmem | hmem
    · obtain ⟨x, hx, hmem⟩ := iha (hif _ _ hmem)
      exact ⟨x, .inl hx, hmem⟩
    · obtain ⟨x, hx, hmem⟩ := ihb (hif _ _ hmem)
      exact ⟨x, .inr hx, hmem⟩
  | lambda _ _ ih =>
    exact ih (by simpa [lexemes, number_notMem_parameters] using hmem)
  | call _ _ ih =>
    obtain ⟨e, he, hmem⟩ := mem_lexemesAll (by simpa [lexemes] using hmem)
    obtain ⟨x, hx, hmem⟩ := ih e he hmem
    exact ⟨x, mem_literalsAll.mpr ⟨e, he, hx⟩, hmem⟩
  | @invoke ps body es _ _ ihf ih =>
    have hmem' : Lexeme.number numeral ∈ (lambda ps body).lexemes ∨
        Lexeme.number numeral ∈ lexemesAll es := by
      simpa only [lexemes, List.mem_append, List.mem_cons, reduceCtorEq, false_or, or_false,
        List.not_mem_nil] using hmem
    simp only [literals, List.mem_append]
    rcases hmem' with hmem | hmem
    · obtain ⟨x, hx, hmem⟩ := ihf hmem
      exact ⟨x, .inl hx, hmem⟩
    · obtain ⟨e, he, hmem⟩ := mem_lexemesAll hmem
      obtain ⟨x, hx, hmem⟩ := ih e he hmem
      exact ⟨x, .inr (mem_literalsAll.mpr ⟨e, he, hx⟩), hmem⟩

end Expr

end Abacus
