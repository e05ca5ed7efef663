import Abacus.Proofs.Grammar.Lookahead
import Abacus.Proofs.Grammar.Parsing
import Abacus.Proofs.Tokens.Scanning

/-!
# Where faults of syntax point at

A text that is no expression is refused at the first token that cannot stand where it stands: what
is in front of it can be gone on to an expression, and together with it no more. If all tokens can
be gone on, the fault is at the end of the text.

## Main definitions

* `Abacus.Grammar.Viable` — lexemes that can be gone on to an expression.

## Main results

* `Abacus.Expr.viable_of_stuck` — where the reader of expressions is stuck.
* `Abacus.Expr.parse_locates_fault` — where the fault of a text points at.
-/

namespace Abacus

open Grammar

namespace Grammar

variable {ls rest : List Lexeme}

/-- `Viable ls` states that the lexemes `ls` can be gone on to a sentence whose numerals have
values. -/
def Viable (ls : List Lexeme) : Prop := ∃ tail, Sentence (ls ++ tail) ∧ OncePointed (ls ++ tail)

/-- Lexemes can be gone on exactly if they can be gone on to an expression. -/
lemma viable_iff : Viable ls ↔ ∃ tail, IsExpression (ls ++ tail) := by
  simp only [Viable, IsExpression, sentence_iff]

/-- What viable lexemes start with is viable. -/
lemma Viable.of_append (h : Viable (ls ++ rest)) : Viable ls := by
  obtain ⟨tail, h⟩ := h
  rw [List.append_assoc] at h
  exact ⟨rest ++ tail, h⟩

/-- The first of viable lexemes are viable. -/
lemma Viable.take (h : Viable ls) (i : Nat) : Viable (ls.take i) := by
  rw [← List.take_append_drop i ls] at h
  exact h.of_append

end Grammar

namespace Expr

variable {limits : Limits} {n : Nat} {ls front rest : List Lexeme} {problem : SyntaxProblem}
  {tokens : List Token} {text : String}

/-! ## Lexemes -/

/-- Where reading is stuck, it has taken lexemes that can be gone on to an expression, and it is
stuck there whatever stands behind the next lexeme.

**Proof sketch.** The reader of expressions is stuck itself, with one lexeme of lookahead
(`Reader.expression_follows`), or it has read an expression and something else follows. -/
lemma exists_front_of_stuck (h : ofLexemes n ls = .error (.on problem rest)) :
    ∃ front, ls = front ++ rest ∧ Viable front ∧
      ∀ rest', rest'.head? = rest.head? →
        ofLexemes n (front ++ rest') = .error (.on problem rest') := by
  rw [ofLexemes, Result.bind_eq_error_iff] at h
  rcases h with h | ⟨⟨e, rest'⟩, he, h⟩
  · obtain ⟨front, htail, hls, hlocal⟩ := (Reader.expression_follows n ls).stuck h
    refine ⟨front, hls, viable_iff.mpr htail, fun rest' hrest' => ?_⟩
    rw [ofLexemes, hlocal rest' hrest']
    rfl
  · obtain ⟨front, hfront, hls, hlocal⟩ := (Reader.expression_follows n ls).ok he
    cases rest' with
    | nil => exact absurd h Result.pure_ne_error
    | cons l behind =>
      cases h
      refine ⟨front, hls, viable_iff.mpr ⟨[], by rwa [List.append_nil]⟩, fun rest' hrest' => ?_⟩
      obtain ⟨behind', rfl⟩ := List.head?_eq_some_iff.mp hrest'
      rw [ofLexemes, hlocal _ hrest']
      rfl

/-- **Reading is stuck at the first lexeme with which it cannot go on**: what is in front of it
can be gone on to an expression, and together with it not.

**Proof sketch.** A reader looks at one lexeme, so it is stuck in the same way on every text that
starts like this one up to that lexeme (`exists_front_of_stuck`). If one of them were an expression
it would be read (`ofLexemes_settles`), which it is not. -/
theorem viable_of_stuck (h : ofLexemes n ls = .error (.on problem rest)) :
    ∃ front, ls = front ++ rest ∧ Viable front ∧
      ∀ l behind, rest = l :: behind → ¬ Viable (front ++ [l]) := by
  obtain ⟨front, hls, hfront, hlocal⟩ := exists_front_of_stuck h
  refine ⟨front, hls, hfront, ?_⟩
  rintro l behind rfl hviable
  obtain ⟨tail, e, he⟩ := viable_iff.mp hviable
  rw [List.append_assoc] at he
  -- the same lexemes with another end would be an expression that is not read
  have hstuck := hlocal (l :: tail) rfl
  rcases ofLexemes_settles (n := n) he with hread | hread
  · exact absurd (hread.symm.trans hstuck) (by simp)
  · exact absurd (hread.symm.trans hstuck) (by simp)

/-! ## Tokens -/

/-- The token at which reading is stuck is the first one that was not taken. -/
lemma getElem?_of_append (h : tokens.map (·.lexeme) = front ++ rest) :
    tokens.length - rest.length = front.length ∧
      (tokens[front.length]?).map (·.lexeme) = rest.head? := by
  have hlength : tokens.length = front.length + rest.length := by
    rw [← List.length_append, ← h, List.length_map]
  refine ⟨by omega, ?_⟩
  rw [← List.getElem?_map, h, List.getElem?_append_right (Nat.le_refl _), Nat.sub_self,
    List.head?_eq_getElem?]

/-- Tokens that form no expression have a fault of syntax, unless they nest too deeply. It is at
the end if the tokens can be gone on to an expression, and else at the first one up to which they
cannot. -/
lemma fault_of_ofTokens
    (hno : ¬ (Sentence (tokens.map (·.lexeme)) ∧ OncePointed (tokens.map (·.lexeme))))
    (limits : Limits) (text : String) :
    ofTokens limits tokens text = .error .tooNested ∨
      ∃ problem found, ofTokens limits tokens text = .error (.badSyntax problem found text) ∧
        (Viable (tokens.map (·.lexeme)) → found = none) ∧
        (¬ Viable (tokens.map (·.lexeme)) → ∃ i token, tokens[i]? = some token ∧
          found = some token ∧
          (∀ j ≤ i, Viable ((tokens.take j).map (·.lexeme))) ∧
          ¬ Viable ((tokens.take (i + 1)).map (·.lexeme))) := by
  cases hresult : ofLexemes limits.nesting (tokens.map (·.lexeme)) with
  | ok e => exact absurd (sentence_iff.mp ⟨e, reads_of_ofLexemes hresult⟩) hno
  | error stuck =>
    cases stuck with
    | tooNested => exact .inl (ofTokens_eq_tooNested_iff.mpr hresult)
    | on problem rest =>
      obtain ⟨front, hls, hfront, hhopeless⟩ := viable_of_stuck hresult
      obtain ⟨hplace, hnext⟩ := getElem?_of_append hls
      refine .inr ⟨problem, tokens[front.length]?, ?_, fun hviable => ?_, fun hviable => ?_⟩
      · rw [ofTokens, hresult, ← hplace]
        rfl
      · cases rest with
        | nil => exact Option.map_eq_none_iff.mp hnext
        | cons l behind =>
          rw [hls, List.append_cons] at hviable
          exact absurd hviable.of_append (hhopeless l behind rfl)
      · cases rest with
        | nil =>
          rw [hls, List.append_nil] at hviable
          exact absurd hfront hviable
        | cons l behind =>
          obtain ⟨token, htoken, -⟩ := Option.map_eq_some_iff.mp hnext
          refine ⟨front.length, token, htoken, htoken, fun j hj => ?_, ?_⟩
          · rw [List.map_take, hls, List.take_append_of_le_length hj]
            exact hfront.take j
          · rw [List.map_take, hls, List.take_length_add_append]
            exact hhopeless l behind rfl

/-! ## Texts -/

/-- **A fault of syntax points at the first token that cannot stand where it stands.** Let a text
have tokens that are no expression. Unless they nest too deeply, which they do not if their
parentheses, calls and lambdas nest less deeply than the limit, the text is refused with a fault
of syntax about that text. If all tokens together can be gone on to an expression, the fault spans
the whole text and is not located. Otherwise it is located at the first token up to which the
tokens cannot be gone on: it spans the characters of that token. A numeral with two points is no
part of an expression, so it is such a token wherever it stands.

**Proof sketch.** The readers look at one lexeme behind what they have taken, and what they have
taken can be gone on to an expression (`viable_of_stuck`). The lexeme that they look at is the one
at which they are stuck, and its token is the slice of the text at its position
(`slice_of_tokensOf`). -/
theorem parse_locates_fault (limits : Limits) (htokens : tokensOf text = .ok tokens)
    (hno : ¬ (Sentence (tokens.map (·.lexeme)) ∧ OncePointed (tokens.map (·.lexeme)))) :
    (nesting (tokens.map (·.lexeme)) < limits.nesting → parse limits text ≠ .error .tooNested) ∧
    (parse limits text = .error .tooNested ∨
      ∃ problem found, parse limits text = .error (.badSyntax problem found text) ∧
        let report := (Fault.badSyntax problem found text).report
        report.subject = text ∧
        (Viable (tokens.map (·.lexeme)) → found = none ∧ report.isLocated = false ∧
          report.start = 0 ∧ report.stop = text.length) ∧
        (¬ Viable (tokens.map (·.lexeme)) → ∃ i token, tokens[i]? = some token ∧
          found = some token ∧
          (∀ j ≤ i, Viable ((tokens.take j).map (·.lexeme))) ∧
          ¬ Viable ((tokens.take (i + 1)).map (·.lexeme)) ∧
          report.isLocated = true ∧ report.start = token.position ∧
          report.stop = token.position + token.lexeme.chars.length ∧
          Text.slice report.start report.stop text.toList = token.lexeme.chars)) := by
  have hparse : parse limits text = ofTokens limits tokens text := by
    rw [parse, htokens]
    rfl
  rw [hparse]
  refine ⟨fun hlt => ofTokens_ne_tooNested hlt text,
    (fault_of_ofTokens hno limits text).imp_right ?_⟩
  rintro ⟨problem, found, hfault, hend, hplace⟩
  refine ⟨problem, found, hfault, ?_, fun hviable => ?_, fun hviable => ?_⟩
  · cases found <;> rfl
  · rw [hend hviable]
    exact ⟨rfl, rfl, rfl, rfl⟩
  · obtain ⟨i, token, htoken, rfl, hbefore, hhopeless⟩ := hplace hviable
    have hslice := slice_of_tokensOf htokens (List.mem_of_getElem? htoken)
    exact ⟨i, token, htoken, rfl, hbefore, hhopeless, rfl, rfl, Int.natCast_add _ _, hslice⟩

/-- In a group inside of a lambda that is an argument, a name stands next to another one. -/
theorem parse_locates_fault_in_lambda :
    let text := "f(1, fn(x) => (x + y z), 2)"
    ∃ tokens i token, tokensOf text = .ok tokens ∧ tokens[i]? = some token ∧
      (∃ problem, parse .standard text = .error (.badSyntax problem (some token) text)) ∧
      Viable ((tokens.take i).map (·.lexeme)) ∧ ¬ Viable ((tokens.take (i + 1)).map (·.lexeme)) ∧
      Text.slice token.position token.stop text.toList = token.lexeme.chars := by
  intro text
  let front : List Lexeme := [.identifier "f", .openParen, .number "1", .comma, .keyword .fnWord,
    .openParen, .identifier "x", .closeParen, .arrow, .openParen, .identifier "x", .operator .add,
    .identifier "y"]
  let rest : List Lexeme := [.identifier "z", .closeParen, .comma, .number "2", .closeParen]
  have hlexemes : lexemes? text.toList = some (front ++ rest) := by decide +kernel
  obtain ⟨tokens, htokens, hls⟩ := tokensOf_of_lexemes? hlexemes
  have hstuck : ofLexemes 100 (front ++ rest) = .error (.on (.expected .closeParen) rest) := by rfl
  have hviable : ¬ Viable (front ++ rest) := by
    obtain ⟨taken, heq, -, hhopeless⟩ := viable_of_stuck hstuck
    rw [heq, List.append_cons]
    exact fun h => hhopeless _ _ rfl h.of_append
  have hno : ¬ (Sentence (tokens.map (·.lexeme)) ∧ OncePointed (tokens.map (·.lexeme))) := by
    rw [hls]
    exact fun h => hviable ⟨[], by rwa [List.append_nil]⟩
  obtain ⟨hnested, hfault⟩ := parse_locates_fault .standard htokens hno
  rw [hls] at hnested hfault
  obtain ⟨problem, found, hparse, -, -, hplace⟩ := hfault.resolve_left (hnested (by decide))
  obtain ⟨i, token, htoken, rfl, hbefore, hhopeless, -, -, -, hslice⟩ := hplace hviable
  exact ⟨tokens, i, token, htokens, htoken, ⟨problem, hparse⟩, hbefore i (Nat.le_refl i), hhopeless,
    hslice⟩

end Expr

end Abacus
