import Abacus.Proofs.Fault
import Abacus.Proofs.Grammar.Parsing
import Abacus.Proofs.Statement.Splitting

/-!
# Statements by their tokens

The parts of a statement are cut out of its text before any of them is read. This module proves
that the statement is nevertheless the one that the tokens of the whole text say, so that nothing
about the text matters but its lexemes.

## Main definitions

* `Abacus.Statement.Denotes` — the grammar of statements over lexemes.

## Main results

* `Abacus.Statement.readBinding_eq_ok_iff`, `Abacus.Statement.readDefinition_eq_ok_iff` — the
  lexemes of bindings and definitions.
* `Abacus.Statement.ofLine_agrees_with_tokens` — the statement of a line is the one of its tokens.
-/

namespace Abacus

open Grammar Text

namespace Statement

variable {limits : Limits} {cs : List Char} {ls : List Lexeme} {term : Expr} {form : Form}
  {nesting : Nat} {line subject : String} {fault : Fault}

/-! ## The grammar of statements -/

/-- `Denotes nesting ls form` states that the lexemes `ls` are the statement `form`, whose
expression is read within the given depth of nesting. -/
inductive Denotes (nesting : Nat) : List Lexeme → Form → Prop where
  | binding {name : String} {term : Expr} {ls : List Lexeme}
      (hterm : Expr.ofLexemes nesting ls = .ok term) :
      Denotes nesting (.keyword .letWord :: .identifier name :: .equals :: ls) (.binding name term)
  | definition {name : String} {ps : List String} {term : Expr} {ls : List Lexeme} (hps : ps.Nodup)
      (hterm : Expr.ofLexemes nesting ls = .ok term) :
      Denotes nesting
        (.keyword .defWord :: .identifier name :: .openParen ::
          (parameters ps ++ .closeParen :: .equals :: ls))
        (.definition name ps term)
  | expression {term : Expr} {ls : List Lexeme} (hterm : Expr.ofLexemes nesting ls = .ok term) :
      Denotes nesting ls (.expression term)

/-- No expression starts with the words that open the other statements. -/
lemma ofLexemes_keyword {k : Keyword} (hk : k ≠ .fnWord) :
    Expr.ofLexemes nesting (.keyword k :: ls) ≠ .ok term := by
  intro h
  cases nesting with
  | zero =>
    have herror : Expr.ofLexemes 0 (.keyword k :: ls) = .error .tooNested := rfl
    rw [herror] at h
    cases h
  | succ n =>
    have herror : Expr.ofLexemes (n + 1) (.keyword k :: ls) =
        .error (.on .unexpected (.keyword k :: ls)) := by
      cases k with
      | letWord | defWord => rfl
      | fnWord => exact absurd rfl hk
    rw [herror] at h
    cases h

/-! ## The parts of a statement -/

/-- The expression in a part of a text is the one that its lexemes form. -/
lemma readTerm_eq_ok_iff : readTerm limits cs = .ok term ↔
    ∃ ls, lexemes? cs = some ls ∧ Expr.ofLexemes limits.nesting ls = .ok term := by
  rw [readTerm, Expr.parse_eq_ok_iff, String.toList_ofList, lexemes?_strip]

/-- What follows an equals sign does not make an arrow of it. -/
lemma endsBefore_equals_iff : Lexeme.equals.EndsBefore cs ↔ cs.head? ≠ some '>' := by
  cases cs <;> simp [Lexeme.EndsBefore]

/-- An equals sign in front of a text is its first lexeme. -/
lemma lexemes?_equals (hcs : cs.head? ≠ some '>') :
    lexemes? ('=' :: cs) = (lexemes? cs).map (.equals :: ·) :=
  lexemes?_append (l := .equals) trivial (endsBefore_equals_iff.mpr hcs)

/-- An opening parenthesis in front of a text is its first lexeme. -/
lemma lexemes?_openParen : lexemes? ('(' :: cs) = (lexemes? cs).map (.openParen :: ·) :=
  lexemes?_append (l := .openParen) trivial (by cases cs <;> trivial)

/-- A closing parenthesis in front of a text is its first lexeme. -/
lemma lexemes?_closeParen : lexemes? (')' :: cs) = (lexemes? cs).map (.closeParen :: ·) :=
  lexemes?_append (l := .closeParen) trivial (by cases cs <;> trivial)

/-- A text is read as a binding exactly if a name, an equals sign and an expression follow the word
that opens it. -/
theorem readBinding_eq_ok_iff : readBinding limits cs subject = .ok form ↔
    ∃ name ls term, lexemes? (cs.drop 3) = some (.identifier name :: .equals :: ls) ∧
      Expr.ofLexemes limits.nesting ls = .ok term ∧ form = .binding name term := by
  constructor
  · intro h
    unfold readBinding at h
    split at h
    · cases h
    · rename_i left right hparts
      simp only [Result.bind_eq_ok_iff, admitName_eq_ok_iff, readTerm_eq_ok_iff,
        Result.pure_eq_ok_iff, String.toList_ofList] at h
      obtain ⟨name, ⟨hname, rfl⟩, term, ⟨ls, hls, hterm⟩, rfl⟩ := h
      obtain ⟨hcs, hright⟩ := eq_of_splitBinding hparts
      refine ⟨_, ls, term, ?_, hterm, rfl⟩
      have hleft : Spells left [.identifier (String.ofList (strip left))] :=
        spells_of_strip String.toList_ofList.symm (by rwa [String.toList_ofList])
      rw [hcs, hleft _ (bounded_cons.mpr (by decide)), lexemes?_equals hright, hls]
      rfl
  · rintro ⟨name, ls, term, hls, hterm, rfl⟩
    rw [lexemes?_eq_some_iff] at hls
    obtain ⟨left, right, hcs, hleft, hname, hmark, hends, hright⟩ := hls.exists_name
    have hparts : splitBinding (cs.drop 3) = some (left, right) := by
      rw [hcs]
      exact splitBinding_append (hmark _ (by decide) (by decide)) (endsBefore_equals_iff.mp hends)
    have hread : readTerm limits right = .ok term :=
      readTerm_eq_ok_iff.mpr ⟨ls, lexemes?_eq_some_iff.mpr hright, hterm⟩
    rw [readBinding, hparts]
    simp only [Result.bind_eq_ok_iff, admitName_eq_ok_iff, Result.pure_eq_ok_iff, hleft,
      String.ofList_toList]
    exact ⟨name, ⟨hname, rfl⟩, term, hread, rfl⟩

/-- The lexemes of a definition are those of its parts and the marks between them. -/
lemma lexemes?_definition {left inside bs right : List Char} {name : String} {ps : List String}
    (hleft : Spells left [.identifier name]) (hinside : Spells inside (parameters ps))
    (hbs : Blank bs) (hright : right.head? ≠ some '>') :
    lexemes? (left ++ '(' :: (inside ++ ')' :: (bs ++ '=' :: right))) =
      (lexemes? right).map fun ls =>
        .identifier name :: .openParen :: (parameters ps ++ .closeParen :: .equals :: ls) := by
  rw [hleft _ (bounded_cons.mpr (by decide)), lexemes?_openParen,
    hinside _ (bounded_cons.mpr (by decide)), lexemes?_closeParen, lexemes?_blanks hbs,
    lexemes?_equals hright]
  cases lexemes? right <;> rfl

/-- A text that opens with the word for it is read as a definition exactly if a name, distinct names
in parentheses, an equals sign and an expression follow that word. -/
theorem readDefinition_eq_ok_iff (hcs : opensWith "def".toList cs = true) :
    readDefinition limits cs subject = .ok form ↔
      ∃ name ps ls term, lexemes? (cs.drop 3) = some (.identifier name :: .openParen ::
          (parameters ps ++ .closeParen :: .equals :: ls)) ∧
        ps.Nodup ∧ Expr.ofLexemes limits.nesting ls = .ok term ∧
          form = .definition name ps term := by
  obtain ⟨rest, rfl, -⟩ := opensWith_eq_true_iff.mp hcs
  have hdrop : ("def".toList ++ rest).drop 3 = rest := rfl
  rw [hdrop]
  constructor
  · intro h
    unfold readDefinition at h
    split at h
    · cases h
    · rename_i left inside right hparts
      simp only [Result.bind_eq_ok_iff, admitName_eq_ok_iff, readTerm_eq_ok_iff,
        Result.pure_eq_ok_iff, String.toList_ofList] at h
      obtain ⟨name, ⟨hname, rfl⟩, ps, hadmit, term, ⟨ls, hls, hterm⟩, rfl⟩ := h
      obtain ⟨bs, hbs, -, -, hright, hrest⟩ := splitDefinition_eq_some_iff.mp hparts
      have hleft : Spells left [.identifier (String.ofList (strip left))] :=
        spells_of_strip String.toList_ofList.symm (by rwa [String.toList_ofList])
      obtain ⟨hinside, hnodup⟩ := spells_of_admitParams hadmit
      refine ⟨_, ps, ls, term, ?_, hnodup, hterm, rfl⟩
      rw [List.append_cancel_left hrest, lexemes?_definition hleft hinside hbs hright, hls]
      rfl
  · rintro ⟨name, ps, ls, term, hls, hnodup, hterm, rfl⟩
    rw [lexemes?_eq_some_iff] at hls
    obtain ⟨left, behind, rfl, hleft, hname, hmark, -, hbehind⟩ := hls.exists_name
    obtain ⟨inside, behind, rfl, hinside, hpieces, hnames, hbehind⟩ := exists_paramPieces hbehind
    obtain ⟨bs, right, rfl, hbs, -, hends, hright⟩ := spelling_cons_iff.mp hbehind
    have hparts : splitDefinition ("def".toList ++ (left ++ (Lexeme.openParen.chars ++
        (inside ++ ')' :: (bs ++ (Lexeme.equals.chars ++ right)))))) = some (left, inside, right) :=
      splitDefinition_eq_some_iff.mpr ⟨bs, hbs, hmark '(' (by decide) (by decide), hinside,
        endsBefore_equals_iff.mp hends, rfl⟩
    have hread : readTerm limits right = .ok term :=
      readTerm_eq_ok_iff.mpr ⟨ls, lexemes?_eq_some_iff.mpr hright, hterm⟩
    have hadmit : admitParams subject [] (paramPieces inside) = .ok ps :=
      admitParams_of_names hpieces hnames hnodup
    rw [readDefinition, hparts]
    simp only [Result.bind_eq_ok_iff, admitName_eq_ok_iff, Result.pure_eq_ok_iff, hleft,
      String.ofList_toList]
    exact ⟨name, ⟨hname, rfl⟩, ps, hadmit, term, hread, rfl⟩

/-! ## Faults -/

/-- A text that is no expression has a fault of reading. -/
lemma ofReading_of_parse {text : String} (h : Expr.parse limits text = .error fault) :
    fault.OfReading := by
  rw [Expr.parse, Result.bind_eq_error_iff] at h
  rcases h with h | ⟨tokens, -, h⟩
  · rw [tokensOf, Result.mapError_eq_error_iff] at h
    obtain ⟨position, -, rfl⟩ := h
    exact .badCharacter _ _ _
  · rw [Expr.ofTokens, Result.mapError_eq_error_iff] at h
    obtain ⟨stuck, -, rfl⟩ := h
    cases stuck with
    | tooNested => exact .tooNested
    | on problem rest => exact .badSyntax _ _ _

/-- A name that is not let through has a fault of reading. -/
lemma ofReading_of_admitName {role : NameRole} {name : String}
    (h : admitName role name subject = .error fault) : fault.OfReading := by
  rw [admitName] at h
  split at h
  · cases h
  · cases h
    exact .invalidName _ _ _

/-- Parameters that are not let through have a fault of reading. -/
lemma ofReading_of_admitParams {seen : List String} {pieces : List (List Char)}
    (h : admitParams subject seen pieces = .error fault) : fault.OfReading := by
  induction pieces generalizing seen with
  | nil => cases h
  | cons piece pieces ih =>
    rw [admitParams, Result.bind_eq_error_iff] at h
    rcases h with h | ⟨name, -, h⟩
    · exact ofReading_of_admitName h
    · split at h
      · cases h
        exact .duplicateParameter _ _
      · exact ih h

/-- A text that is no statement has a fault of reading. -/
lemma ofReading_of_readForm {opening : Opening}
    (h : readForm limits opening cs subject = .error fault) : fault.OfReading := by
  cases opening with
  | binding =>
    rw [readForm, readBinding] at h
    split at h
    · cases h
      exact .missingEquals _
    · simp only [Result.bind_eq_error_iff, Result.pure_ne_error, and_false, exists_false,
        or_false] at h
      rcases h with h | ⟨name, -, h⟩
      · exact ofReading_of_admitName h
      · exact ofReading_of_parse h
  | definition =>
    rw [readForm, readDefinition] at h
    split at h
    · cases h
      exact .malformedDefinition _
    · simp only [Result.bind_eq_error_iff, Result.pure_ne_error, and_false, exists_false,
        or_false] at h
      rcases h with h | ⟨name, -, h | ⟨ps, -, h⟩⟩
      · exact ofReading_of_admitName h
      · exact ofReading_of_admitParams h
      · exact ofReading_of_parse h
  | expression =>
    rw [readForm, Result.map_eq_error_iff] at h
    exact ofReading_of_parse h

/-- A line that is no statement has a fault of reading. -/
lemma ofReading_of_ofLine (h : ofLine limits line = .error fault) : fault.OfReading := by
  unfold ofLine read at h
  rw [Result.bind_eq_error_iff] at h
  rcases h with h | ⟨form, -, h⟩
  · exact ofReading_of_readForm h
  · exact absurd h Result.pure_ne_error

/-! ## Whole lines -/

/-- What a line says is what is read from it without the blanks around it. -/
lemma exists_ofLine_iff :
    (∃ statement, ofLine limits line = .ok statement ∧ statement.form = form) ↔
    readForm limits (opening (strip line.toList)) (strip line.toList) line = .ok form := by
  simp only [ofLine, read, Result.bind_eq_ok_iff, Result.pure_eq_ok_iff]
  constructor
  · rintro ⟨_, ⟨form, h, rfl⟩, rfl⟩
    exact h
  · intro h
    exact ⟨_, ⟨form, h, rfl⟩, rfl⟩

/-- A text without blanks around it says what its lexemes denote.

**Proof sketch.** The word that decides how the text is read is its first lexeme
(`lexemes?_of_opensWith`, `opensWith_of_lexemes?`), and no expression starts with that word. The
rest is what the parts of the text are. -/
theorem readForm_eq_ok_iff (hcs : ∀ c ∈ cs.head?, isBlank c = false) :
    readForm limits (opening cs) cs subject = .ok form ↔
      ∃ ls, lexemes? cs = some ls ∧ Denotes limits.nesting ls form := by
  -- one case for each word that decides how the text is read, in the order they are looked for
  by_cases hlet : opensWith Keyword.letWord.text.toList cs = true
  · have hopening : opening cs = .binding := if_pos hlet
    have hfirst := lexemes?_of_opensWith hlet
    rw [hopening, readForm, readBinding_eq_ok_iff]
    constructor
    · rintro ⟨name, ls, term, hls, hterm, rfl⟩
      refine ⟨_, ?_, .binding hterm⟩
      rw [hfirst]
      exact congrArg _ hls
    · rintro ⟨ls, hls, hdenotes⟩
      rw [hls] at hfirst
      obtain ⟨ls, hrest, rfl⟩ := Option.map_eq_some_iff.mp hfirst.symm
      cases hdenotes with
      | binding hterm => exact ⟨_, _, _, hrest, hterm, rfl⟩
      | expression hterm => exact absurd hterm (ofLexemes_keyword (by decide))
  by_cases hdef : opensWith Keyword.defWord.text.toList cs = true
  · have hopening : opening cs = .definition := (if_neg hlet).trans (if_pos hdef)
    have hfirst := lexemes?_of_opensWith hdef
    rw [hopening, readForm, readDefinition_eq_ok_iff hdef]
    constructor
    · rintro ⟨name, ps, ls, term, hls, hnodup, hterm, rfl⟩
      refine ⟨_, ?_, .definition hnodup hterm⟩
      rw [hfirst]
      exact congrArg _ hls
    · rintro ⟨ls, hls, hdenotes⟩
      rw [hls] at hfirst
      obtain ⟨ls, hrest, rfl⟩ := Option.map_eq_some_iff.mp hfirst.symm
      cases hdenotes with
      | definition hnodup hterm => exact ⟨_, _, _, _, hrest, hnodup, hterm, rfl⟩
      | expression hterm => exact absurd hterm (ofLexemes_keyword (by decide))
  · have hopening : opening cs = .expression := (if_neg hlet).trans (if_neg hdef)
    rw [hopening, readForm, Result.map_eq_ok_iff]
    simp only [readTerm_eq_ok_iff]
    constructor
    · rintro ⟨term, ⟨ls, hls, hterm⟩, rfl⟩
      exact ⟨ls, hls, .expression hterm⟩
    · rintro ⟨ls, hls, hdenotes⟩
      cases hdenotes with
      | binding => exact absurd (opensWith_of_lexemes? hcs hls) hlet
      | definition => exact absurd (opensWith_of_lexemes? hcs hls) hdef
      | expression hterm => exact ⟨_, ⟨ls, hls, hterm⟩, rfl⟩

/-- A line says what the lexemes of its tokens denote. -/
lemma exists_ofLine_iff_denotes :
    (∃ statement, ofLine limits line = .ok statement ∧ statement.form = form) ↔
      ∃ tokens, tokensOf line = .ok tokens ∧
        Denotes limits.nesting (tokens.map (·.lexeme)) form := by
  have hstrip : ∀ c ∈ (strip line.toList).head?, isBlank c = false := by
    intro c hc
    obtain ⟨cs, hcs⟩ := List.head?_eq_some_iff.mp hc
    exact isBlank_of_strip hcs
  rw [exists_ofLine_iff, readForm_eq_ok_iff hstrip, lexemes?_strip]
  constructor
  · rintro ⟨ls, hls, hdenotes⟩
    obtain ⟨tokens, htokens, rfl⟩ := Expr.tokensOf_of_lexemes? hls
    exact ⟨tokens, htokens, hdenotes⟩
  · rintro ⟨tokens, htokens, hdenotes⟩
    exact ⟨_, Expr.lexemes?_of_tokensOf htokens, hdenotes⟩

/-- **Cutting the text of a statement agrees with the grammar over its tokens.** A line is a
binding, a definition or an expression exactly if the lexemes of its tokens are one by the grammar
of statements, with the same names and the same tree. Every other line is refused with a fault
that is not one of the program. So lines with the same lexemes are the same statement.

**Proof sketch.** The blanks around the line make no difference to its lexemes (`lexemes?_strip`),
and without them the text says what its lexemes denote (`readForm_eq_ok_iff`). -/
theorem ofLine_agrees_with_tokens (limits : Limits) (line : String) :
    (∀ form, (∃ statement, ofLine limits line = .ok statement ∧ statement.form = form) ↔
      ∃ tokens, tokensOf line = .ok tokens ∧
        Denotes limits.nesting (tokens.map (·.lexeme)) form) ∧
    ((¬ ∃ form tokens, tokensOf line = .ok tokens ∧
        Denotes limits.nesting (tokens.map (·.lexeme)) form) →
      ∃ fault, ofLine limits line = .error fault ∧ fault.report.isInternal = false) ∧
    (∀ line' tokens tokens', tokensOf line = .ok tokens → tokensOf line' = .ok tokens' →
      tokens.map (·.lexeme) = tokens'.map (·.lexeme) →
      ∀ form, (∃ statement, ofLine limits line = .ok statement ∧ statement.form = form) ↔
        ∃ statement, ofLine limits line' = .ok statement ∧ statement.form = form) := by
  refine ⟨fun form => exists_ofLine_iff_denotes, fun hnone => ?_, ?_⟩
  · cases hresult : ofLine limits line with
    | error fault => exact ⟨fault, rfl, (ofReading_of_ofLine hresult).isInternal⟩
    | ok statement =>
      obtain ⟨tokens, hdenotes⟩ := exists_ofLine_iff_denotes.mp ⟨statement, hresult, rfl⟩
      exact absurd ⟨statement.form, tokens, hdenotes⟩ hnone
  · intro line' tokens tokens' htokens htokens' heq form
    rw [exists_ofLine_iff_denotes, exists_ofLine_iff_denotes, htokens, htokens']
    simp only [Except.ok.injEq, exists_eq_left', heq]

end Statement

end Abacus
