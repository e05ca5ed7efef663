import Abacus.Proofs.Grammar

/-!
# Numerals in front of names

No expression has a numeral right in front of a name, since something stands between any two
operands.

## Main definitions

* `Abacus.Grammar.Juxtaposed` — lexemes with a numeral in front of a name.

## Main results

* `Abacus.Grammar.Sentence.not_juxtaposed` — no sentence has a numeral in front of a name.
-/

namespace Abacus.Grammar

variable {fits : List Lexeme → List Lexeme → Prop} {φ : Phrase} {ls rest : List Lexeme}

/-- Lexemes among which a numeral stands right in front of a name. -/
def Juxtaposed (ls : List Lexeme) : Prop :=
  ∃ numeral name, [.number numeral, .identifier name] <:+: ls

/-- Whatever starts with a numeral in front of a name, or goes on with it. -/
lemma juxtaposed_cons {l : Lexeme} : Juxtaposed (l :: ls) ↔
    (∃ numeral name rest, l = .number numeral ∧ ls = .identifier name :: rest) ∨ Juxtaposed ls := by
  simp only [Juxtaposed, List.infix_cons_iff]
  constructor
  · rintro ⟨numeral, name, ⟨rest, h⟩ | h⟩
    · simp only [List.cons_append, List.nil_append, List.cons.injEq] at h
      exact .inl ⟨numeral, name, rest, h.1.symm, h.2.symm⟩
    · exact .inr ⟨numeral, name, h⟩
  · rintro (⟨numeral, name, rest, rfl, rfl⟩ | ⟨numeral, name, h⟩)
    · exact ⟨numeral, name, .inl ⟨rest, rfl⟩⟩
    · exact ⟨numeral, name, .inr h⟩

/-- A lexeme that is no numeral adds no numeral in front of a name. -/
lemma juxtaposed_cons_of_ne {l : Lexeme} (h : ∀ numeral, l ≠ .number numeral) :
    Juxtaposed (l :: ls) ↔ Juxtaposed ls := by
  rw [juxtaposed_cons, or_iff_right]
  rintro ⟨numeral, name, rest, hl, -⟩
  exact h numeral hl

/-- Parameters add no numeral in front of a name. -/
lemma juxtaposed_parameters (ps : List String) (ls : List Lexeme) :
    Juxtaposed (parameters ps ++ ls) ↔ Juxtaposed ls := by
  fun_induction parameters ps with
  | case1 => rfl
  | case2 p => exact juxtaposed_cons_of_ne (by simp)
  | case3 p ps _ ih =>
    rw [List.cons_append, juxtaposed_cons_of_ne (by simp), List.cons_append,
      juxtaposed_cons_of_ne (by simp), ih]

/-- A phrase has no numeral in front of a name, unless the phrase ends with the numeral.

**Proof sketch.** Induction on the phrase. The only phrase that ends with a numeral that it starts
with is the numeral itself. Every other lexeme next to a part of a phrase is neither numeral nor
name. -/
lemma Derives.juxtaposed (h : Derives fits φ ls rest) (hls : Juxtaposed ls) :
    Juxtaposed rest ∨ ∃ name rest', rest = .identifier name :: rest' := by
  induction h with
  | tighter _ _ ih | bare _ ih | lastArg _ ih => exact ih hls
  | binary _ _ iha ihb =>
    rcases iha hls with h | ⟨name, rest', h⟩
    · exact ihb ((juxtaposed_cons_of_ne (by simp)).mp h)
    · cases h
  | number =>
    rcases juxtaposed_cons.mp hls with ⟨numeral, name, rest', -, h⟩ | h
    · exact .inr ⟨name, rest', h⟩
    · exact .inl h
  | name => exact .inl ((juxtaposed_cons_of_ne (by simp)).mp hls)
  | call _ ih =>
    rw [juxtaposed_cons_of_ne (by simp), juxtaposed_cons_of_ne (by simp)] at hls
    rcases ih hls with h | ⟨name, rest', h⟩
    · exact .inl ((juxtaposed_cons_of_ne (by simp)).mp h)
    · cases h
  | enclosed _ ih | group _ ih =>
    rw [juxtaposed_cons_of_ne (by simp)] at hls
    rcases ih hls with h | ⟨name, rest', h⟩
    · exact .inl ((juxtaposed_cons_of_ne (by simp)).mp h)
    · cases h
  | invoke _ _ ihf ihes =>
    rw [juxtaposed_cons_of_ne (by simp)] at hls
    rcases ihf hls with h | ⟨name, rest', h⟩
    · rw [juxtaposed_cons_of_ne (by simp), juxtaposed_cons_of_ne (by simp)] at h
      rcases ihes h with h | ⟨name, rest', h⟩
      · exact .inl ((juxtaposed_cons_of_ne (by simp)).mp h)
      · cases h
    · cases h
  | lambda _ _ ih =>
    rw [juxtaposed_cons_of_ne (by simp), juxtaposed_cons_of_ne (by simp), juxtaposed_parameters,
      juxtaposed_cons_of_ne (by simp), juxtaposed_cons_of_ne (by simp)] at hls
    exact ih hls
  | noArgs => exact .inl hls
  | nextArg _ _ ihe ihes =>
    rcases ihe hls with h | ⟨name, rest', h⟩
    · exact ihes ((juxtaposed_cons_of_ne (by simp)).mp h)
    · cases h

/-- No sentence has a numeral in front of a name. -/
theorem Sentence.not_juxtaposed (h : Sentence ls) : ¬ Juxtaposed ls := by
  intro hls
  obtain ⟨e, he⟩ := h
  rcases he.juxtaposed hls with ⟨numeral, name, h⟩ | ⟨name, rest', h⟩
  · simp at h
  · cases h

end Abacus.Grammar
