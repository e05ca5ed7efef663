import Abacus.Proofs.Session
import Abacus.Proofs.Statement
import Abacus.Proofs.Text.Respaced

/-!
# Blanks inside statements

Two lines that differ in their blanks only have the same lexemes, are the same statement, and lead
to the same answer in the same world. If they are no statement, or are refused, it is for faults
of the same kind, although the parts of a statement are cut out of its text before they are read.

## Main results

* `Abacus.Text.Respaced.lexemes?_eq` — the lexemes of such lines.
* `Abacus.Statement.readForm_sameKind` — how such lines are read.
* `Abacus.Run.ofLine_sameKind` — what such lines lead to.
-/

namespace Abacus

open Text
open Fault (SameKind)

variable {a b cs : List Char} {l : Lexeme} {ls : List Lexeme} {limits : Limits}
    {subject subject' : String}

/-! ## Lexemes -/

/-- What can follow a lexeme starts with another character that can, or with a blank. -/
lemma Lexeme.EndsBefore.respaced (hends : l.EndsBefore a) (h : Respaced a b) : l.EndsBefore b := by
  cases a with
  | nil =>
    rw [h.eq_nil_iff.mp rfl]
    exact hends
  | cons c a =>
    rcases h.cons_cases with ⟨b', rfl, -⟩ | ⟨-, d, b', rfl, hd⟩
    · cases l <;> exact hends
    · exact l.endsBefore_blank hd

/-- Texts that differ in their blanks only consist of the same lexemes.

**Proof sketch.** Induction on the lexemes of the first text. There is no blank in a lexeme, so
the other text has it in the same place. Where the first text has blanks, their last one is where
the texts meet again. -/
lemma Spelling.respaced (hcs : Spelling cs ls) (h : Respaced cs b) : Spelling b ls := by
  induction hcs generalizing b with
  | nil =>
    rw [h.eq_nil_iff.mp rfl]
    exact .nil
  | @blank c cs ls hc hcs ih =>
    generalize htext : c :: cs = text at h
    cases h with
    | nil => cases htext
    | cons d h =>
      cases htext
      exact .blank hc (ih h)
    | @blanks bs bs' a b hbs hbs' hne hne' h =>
      obtain ⟨d, bs, rfl⟩ := List.exists_cons_of_ne_nil hne
      cases htext
      cases bs with
      | nil =>
        have hrest : Spelling b ls := ih h
        rwa [← lexemes?_eq_some_iff, lexemes?_blanks hbs', lexemes?_eq_some_iff]
      | cons d' bs =>
        have hbs'' : Blank (d' :: bs) := fun x hx => hbs x (List.mem_cons_of_mem _ hx)
        exact ih (.blanks hbs'' hbs' (List.cons_ne_nil _ _) hne' h)
  | lexeme hwritten hends _ ih =>
    obtain ⟨rest, rfl, hrest⟩ := h.exists_append hwritten.isBlank_of_mem
    exact .lexeme hwritten (hends.respaced hrest) (ih hrest)

/-- **Texts that differ in their blanks only have the same lexemes.** -/
theorem Text.Respaced.lexemes?_eq (h : Respaced a b) : lexemes? a = lexemes? b := by
  ext ls
  rw [lexemes?_eq_some_iff, lexemes?_eq_some_iff]
  exact ⟨fun ha => ha.respaced h, fun hb => hb.respaced h.symm⟩

/-! ## Expressions -/

/-- Texts with the same lexemes form the same expression, or have faults of the same kind. -/
lemma Expr.parse_sameKind {text text' : String} (h : lexemes? text.toList = lexemes? text'.toList) :
    SameKind (parse limits text) (parse limits text') := by
  have hnone : ∀ text : String, lexemes? text.toList = none → ∃ position c,
      parse limits text = .error (.badCharacter text position c) := by
    intro text htext
    cases htokens : tokensOf text with
    | ok tokens =>
      rw [lexemes?_of_tokensOf htokens] at htext
      cases htext
    | error fault =>
      have hparse : parse limits text = .error fault := by
        rw [parse, htokens]
        rfl
      rw [tokensOf, Result.mapError_eq_error_iff] at htokens
      obtain ⟨position, -, rfl⟩ := htokens
      exact ⟨position, _, hparse⟩
  cases hls : lexemes? text.toList with
  | none =>
    obtain ⟨position, c, hparse⟩ := hnone text hls
    obtain ⟨position', c', hparse'⟩ := hnone text' (h.symm.trans hls)
    rw [hparse, hparse']
    exact .error rfl
  | some ls =>
    obtain ⟨tokens, htokens, hparse⟩ := parse_eq_ofTokens hls limits
    obtain ⟨tokens', htokens', hparse'⟩ := parse_eq_ofTokens (h.symm.trans hls) limits
    rw [hparse, hparse', ofTokens, ofTokens, htokens, htokens']
    cases ofLexemes limits.nesting ls with
    | ok e => exact .ok e
    | error stuck => cases stuck <;> exact .error rfl

namespace Statement

/-- The expression in a part of a statement. -/
lemma readTerm_sameKind (h : Respaced a b) : SameKind (readTerm limits a) (readTerm limits b) := by
  apply Expr.parse_sameKind
  rw [String.toList_ofList, String.toList_ofList]
  exact h.strip.lexemes?_eq

/-! ## Names -/

/-- A name in a part of a statement. -/
lemma admitName_sameKind (role : NameRole) (h : Respaced a b) :
    SameKind (admitName role (String.ofList (strip a)) subject)
      (admitName role (String.ofList (strip b)) subject') := by
  have hname : ∀ {a b}, Respaced a b → isName (strip a) = true → strip a = strip b := fun h hname =>
    h.strip.eq_of_solid fun c hc => isBlank_of_goesOn (.inl (isNameChar_of_isName hname c hc))
  rw [admitName, admitName, String.toList_ofList, String.toList_ofList]
  by_cases ha : isName (strip a) = true
  · rw [← hname h ha, if_pos ha, if_pos ha]
    exact .ok _
  · have hb : ¬ isName (strip b) = true := fun hb => ha (hname h.symm hb ▸ hb)
    rw [if_neg ha, if_neg hb]
    exact .error rfl

/-- The names in the pieces of a part of a statement. -/
lemma admitParams_sameKind {pieces pieces' : List (List Char)}
    (h : List.Forall₂ Respaced pieces pieces') (seen : List String) :
    SameKind (admitParams subject seen pieces) (admitParams subject' seen pieces') := by
  induction h generalizing seen with
  | nil => exact .ok seen
  | cons hpiece _ ih =>
    refine (admitName_sameKind .aParameter hpiece).bind fun name => ?_
    split
    · exact .error rfl
    · exact ih _

/-- The pieces between the parentheses of a definition. -/
lemma forall₂_paramPieces (h : Respaced a b) :
    List.Forall₂ Respaced (paramPieces a) (paramPieces b) := by
  have hempty : (strip a).isEmpty = (strip b).isEmpty := by
    rw [Bool.eq_iff_iff, List.isEmpty_iff, List.isEmpty_iff]
    exact h.strip.eq_nil_iff
  rw [paramPieces, paramPieces, hempty]
  split
  · exact .nil
  · exact h.splitOn (by decide)

/-! ## Bindings -/

/-- An equals sign that starts no arrow is where a text is cut. -/
lemma splitBinding_equals (h : cs.head? ≠ some '>') : splitBinding ('=' :: cs) = some ([], cs) :=
  splitBinding_append List.not_mem_nil h

/-- Other characters stand on the left of where a text is cut. -/
lemma splitBinding_cons {c : Char} (h : c ≠ '=' ∨ cs.head? = some '>') :
    splitBinding (c :: cs) = (splitBinding cs).map fun parts => (c :: parts.1, parts.2) := by
  have hsign : equalsSign? (c :: cs) = (equalsSign? cs).map (· + 1) := by
    by_cases hc : c = '='
    · obtain ⟨cs', rfl⟩ := List.head?_eq_some_iff.mp (h.resolve_left (not_not.mpr hc))
      rw [hc, equalsSign?, equalsSign?_cons (by decide), Option.map_map]
      rfl
    · exact equalsSign?_cons hc
  rw [splitBinding, splitBinding, hsign, Option.map_map, Option.map_map]
  rfl

/-- Characters that are no equals signs stand on the left of where a text is cut. -/
lemma splitBinding_append_of_notMem {xs : List Char} (h : '=' ∉ xs) :
    splitBinding (xs ++ cs) = (splitBinding cs).map fun parts => (xs ++ parts.1, parts.2) := by
  induction xs with
  | nil => simp
  | cons c xs ih =>
    rw [List.mem_cons, not_or] at h
    rw [List.cons_append, splitBinding_cons (.inl (Ne.symm h.1)), ih h.2, Option.map_map]
    rfl

/-- No blank is an arrow head. -/
lemma bne_of_isBlank : ∀ c, isBlank c = true → (c == '>') = false := by
  intro c hc
  rw [beq_eq_false_iff_ne]
  rintro rfl
  cases hc

/-- Behind no arrow head, and behind blanks, there is no arrow. -/
lemma head?_ne_of_respaced (h : Respaced a b) (ha : a.head? ≠ some '>') : b.head? ≠ some '>' := by
  have hb := h.head_of_head (p := (· == '>')) bne_of_isBlank fun c hc => by
    rw [beq_eq_false_iff_ne]
    rintro rfl
    exact ha hc
  intro hhead
  have := hb '>' hhead
  simp at this

/-- The parts of bindings. -/
lemma rel_splitBinding (h : Respaced a b) :
    Option.Rel (fun parts parts' => Respaced parts.1 parts'.1 ∧ Respaced parts.2 parts'.2)
      (splitBinding a) (splitBinding b) := by
  -- What is no equals sign stands on the left of both.
  have hleft : ∀ {xs xs' : List Char} {o o' : Option (List Char × List Char)}, Respaced xs xs' →
      Option.Rel (fun parts parts' => Respaced parts.1 parts'.1 ∧ Respaced parts.2 parts'.2) o o' →
      Option.Rel (fun parts parts' => Respaced parts.1 parts'.1 ∧ Respaced parts.2 parts'.2)
        (o.map fun parts => (xs ++ parts.1, parts.2))
          (o'.map fun parts => (xs' ++ parts.1, parts.2)) := by
    intro xs xs' o o' hxs ho
    cases ho with
    | none => exact .none
    | some h => exact .some ⟨hxs.append h.1, h.2⟩
  induction h with
  | nil => exact .none
  | @cons c a b h ih =>
    by_cases hc : c ≠ '=' ∨ a.head? = some '>'
    · have hc' : c ≠ '=' ∨ b.head? = some '>' :=
        hc.imp_right fun ha => by_contra fun hb => head?_ne_of_respaced h.symm hb ha
      rw [splitBinding_cons hc, splitBinding_cons hc']
      exact hleft (.refl [c]) ih
    · rw [not_or, not_not] at hc
      obtain ⟨rfl, hhead⟩ := hc
      rw [splitBinding_equals hhead, splitBinding_equals (head?_ne_of_respaced h hhead)]
      exact .some ⟨.nil, h⟩
  | blanks hbs hbs' hne hne' _ ih =>
    have hmem : ∀ {bs : List Char}, Blank bs → '=' ∉ bs := fun hbs hin => by
      cases hbs _ hin
    have hblanks := Respaced.blanks hbs hbs' hne hne' .nil
    rw [List.append_nil, List.append_nil] at hblanks
    rw [splitBinding_append_of_notMem (hmem hbs), splitBinding_append_of_notMem (hmem hbs')]
    exact hleft hblanks ih

/-- Bindings. -/
lemma readBinding_sameKind (h : Respaced (a.drop 3) (b.drop 3)) :
    SameKind (readBinding limits a subject) (readBinding limits b subject') := by
  have hparts := rel_splitBinding h
  rw [readBinding, readBinding]
  generalize splitBinding (a.drop 3) = parts, splitBinding (b.drop 3) = parts' at hparts
  cases hparts with
  | none => exact .error rfl
  | some h =>
    refine (admitName_sameKind .aVariable h.1).bind fun name => ?_
    exact (readTerm_sameKind h.2).bind fun term => .ok _

/-! ## Definitions -/

/-- The parts of definitions. -/
lemma exists_splitDefinition {left inside right : List Char} (h : Respaced a b)
    (hparts : splitDefinition a = some (left, inside, right)) :
    ∃ left' inside' right', splitDefinition b = some (left', inside', right') ∧
      Respaced left left' ∧ Respaced inside inside' ∧ Respaced right right' := by
  obtain ⟨bs, hbs, hleft, hinside, hright, rfl⟩ := splitDefinition_eq_some_iff.mp hparts
  obtain ⟨b₁, rfl, h₁⟩ := h.exists_append Keyword.defWord.isBlank_of_mem
  obtain ⟨left', b₂, rfl, hleft', h₂⟩ := h₁.exists_split rfl (by decide)
  obtain ⟨inside', b₃, rfl, hinside', h₃⟩ := h₂.exists_split rfl (by decide)
  obtain ⟨bs', right', rfl, hbs', hright'⟩ := h₃.exists_split rfl (by decide)
  refine ⟨left', inside', right', ?_, hleft', hinside', hright'⟩
  rw [splitDefinition_eq_some_iff]
  exact ⟨bs', hbs'.blank hbs, mt (hleft'.mem_iff (by decide)).mpr hleft,
    mt (hinside'.mem_iff (by decide)).mpr hinside, head?_ne_of_respaced hright' hright, rfl⟩

/-- Definitions. -/
lemma readDefinition_sameKind (h : Respaced a b) :
    SameKind (readDefinition limits a subject) (readDefinition limits b subject') := by
  rw [readDefinition, readDefinition]
  cases ha : splitDefinition a with
  | none =>
    cases hb : splitDefinition b with
    | none => exact .error rfl
    | some parts =>
      obtain ⟨left, inside, right, hparts, -⟩ := exists_splitDefinition h.symm hb
      rw [ha] at hparts
      cases hparts
  | some parts =>
    obtain ⟨left, inside, right, hb, hleft, hinside, hright⟩ := exists_splitDefinition h ha
    rw [hb]
    refine (admitName_sameKind .aFunction hleft).bind fun name => ?_
    refine (admitParams_sameKind (forall₂_paramPieces hinside) []).bind fun params => ?_
    exact (readTerm_sameKind hright).bind fun term => .ok _

/-! ## Statements -/

/-- A reserved word opens both texts or none. -/
lemma opensWith_of_respaced (k : Keyword) (h : Respaced a b) :
    opensWith k.text.toList a = opensWith k.text.toList b := by
  have himp : ∀ {a b}, Respaced a b → opensWith k.text.toList a = true →
      opensWith k.text.toList b = true := by
    intro a b h ha
    obtain ⟨rest, rfl, hrest⟩ := opensWith_eq_true_iff.mp ha
    obtain ⟨rest', rfl, h'⟩ := h.exists_append k.isBlank_of_mem
    exact opensWith_eq_true_iff.mpr ⟨rest', rfl, h'.head_of_head (fun c => isWord_of_isBlank) hrest⟩
  exact Bool.eq_iff_iff.mpr ⟨himp h, himp h.symm⟩

/-- **Texts that differ in their blanks only are read as the same statement**, or have faults of
the same kind.

**Proof sketch.** They open with the same word, since a blank ends a word. The marks at which they
are cut into parts are not blank, so the parts differ in their blanks only (`rel_splitBinding`,
`exists_splitDefinition`). Names have no blanks in them, and expressions are read from their
lexemes. -/
theorem readForm_sameKind (h : Respaced a b) :
    SameKind (readForm limits (opening a) a subject) (readForm limits (opening b) b subject') := by
  have hlet : opensWith ['l', 'e', 't'] a = opensWith ['l', 'e', 't'] b :=
    opensWith_of_respaced .letWord h
  have hdef : opensWith ['d', 'e', 'f'] a = opensWith ['d', 'e', 'f'] b :=
    opensWith_of_respaced .defWord h
  have hopening : opening b = opening a := by
    rw [opening, opening, hlet, hdef]
  rw [hopening]
  cases hcase : opening a with
  | definition => exact readDefinition_sameKind h
  | expression => exact (readTerm_sameKind h).map Form.expression
  | binding =>
    have ha : opensWith ['l', 'e', 't'] a = true := by
      by_contra hnot
      rw [opening, if_neg hnot] at hcase
      split at hcase <;> cases hcase
    obtain ⟨rest, rfl, -⟩ := opensWith_eq_true_iff.mp ha
    obtain ⟨rest', rfl, hrest⟩ := h.exists_append Keyword.letWord.isBlank_of_mem
    exact readBinding_sameKind hrest

/-- Lines that differ in their blanks only are the same statement, or have faults of the same
kind. -/
lemma ofLine_sameKind {line line' : String}
    (h : Respaced (strip line.toList) (strip line'.toList)) :
    SameKind ((ofLine limits line).map form) ((ofLine limits line').map form) := by
  have hform : ∀ line : String, (ofLine limits line).map form =
      readForm limits (opening (strip line.toList)) (strip line.toList) line := by
    intro line
    rw [ofLine, read]
    cases readForm limits (opening (strip line.toList)) (strip line.toList) line <;> rfl
  rw [hform, hform]
  exact readForm_sameKind h

end Statement

/-! ## What statements lead to -/

/-- **Lines that differ in their blanks only lead to the same answer and to the same world**, or
to faults of the same kind.

**Proof sketch.** The two lines are read as the same statement or refused for the same kind of fault
(`Statement.ofLine_sameKind`), and what is carried out depends on the statement only. -/
theorem Run.ofLine_sameKind {line line' : String}
    (h : Respaced (strip line.toList) (strip line'.toList)) (w : World) :
    SameKind ((Run.ofLine line).on w).1 ((Run.ofLine line').on w).1 ∧
      ((Run.ofLine line).on w).2 = ((Run.ofLine line').on w).2 := by
  have hrun : ∀ line : String, (Run.ofLine line).on w =
      match (Statement.ofLine w.limits line).map Statement.form with
      | .ok form => form.execute.on w
      | .error fault => (.error fault, w) := by
    intro line
    rw [Run.ofLine, Run.on_get, Run.on_bind]
    cases Statement.ofLine w.limits line <;> rfl
  rw [hrun, hrun]
  have hform : SameKind ((Statement.ofLine w.limits line).map Statement.form)
      ((Statement.ofLine w.limits line').map Statement.form) := Statement.ofLine_sameKind h
  generalize (Statement.ofLine w.limits line).map Statement.form = form,
    (Statement.ofLine w.limits line').map Statement.form = form' at hform ⊢
  cases hform with
  | ok form =>
    refine ⟨?_, rfl⟩
    generalize (form.execute.on w).1 = result
    cases result with
    | ok reply => exact .ok reply
    | error fault => exact .error rfl
  | error hkind => exact ⟨.error hkind, rfl⟩

end Abacus
