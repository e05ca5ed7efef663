import Abacus.Proofs.Result
import Abacus.Token.Scan

/-!
# The lexemes of a text

The lexemes of a text without their positions. A lexeme is found at the start of a text exactly if
the text starts with its characters and goes on with a character that cannot belong to it, so the
lexemes of a text are known from how it is put together.

## Main definitions

* `Abacus.Lexeme.Written` — the lexemes that texts have.
* `Abacus.Lexeme.EndsBefore` — the texts that can follow a lexeme.
* `Abacus.lexemes?` — the lexemes of a text, if it has no bad character.
* `Abacus.Spells` — the characters that are always read as the same lexemes.

## Main results

* `Abacus.nextLexeme?_eq_some_iff` — when a lexeme is found.
* `Abacus.Spells.append` — texts that stand one after another have the lexemes of both.
-/

namespace Abacus

/-! ## One lexeme -/

/-- The lexemes that texts have: numerals that start with a digit, and names that are not
reserved. -/
def Lexeme.Written : Lexeme → Prop
  | .number numeral =>
    ∃ c cs, numeral.toList = c :: cs ∧ c.isDigit = true ∧ cs.all isNumeralChar = true
  | .identifier name => isName name.toList = true
  | _ => True

/-- The texts that can follow a lexeme: they do not start with a character that goes on the
lexeme. -/
def Lexeme.EndsBefore : Lexeme → List Char → Prop
  | .number _, c :: _ => isNumeralChar c = false
  | .identifier _, c :: _ => isNameChar c = false
  | .keyword _, c :: _ => isNameChar c = false
  | .equals, c :: _ => c ≠ '>'
  | _, _ => True

variable {c : Char} {cs rest : List Char} {l : Lexeme} {ls ls' : List Lexeme}

/-- The characters of a class at the start of a text end where one of another class stands. -/
lemma head_dropWhile {p : Char → Bool} (h : cs.dropWhile p = c :: rest) : p c = false := by
  have hhead := List.head?_dropWhile_not p cs
  rw [h] at hhead
  simpa using hhead

/-- A text whose first part is of a class and whose second part does not start with it falls apart
into the two. -/
lemma takeWhile_append_of_all {p : Char → Bool} (hcs : cs.all p = true)
    (hrest : ∀ c cs', rest = c :: cs' → p c = false) :
    (cs ++ rest).takeWhile p = cs ∧ (cs ++ rest).dropWhile p = rest := by
  have hnil : rest.takeWhile p = [] ∧ rest.dropWhile p = rest := by
    cases rest with
    | nil => simp
    | cons c cs' => simp [hrest c cs' rfl]
  rw [List.all_eq_true] at hcs
  rw [List.takeWhile_append_of_pos hcs, List.dropWhile_append_of_pos hcs, hnil.1, hnil.2]
  simp

/-- Characters without a mark are what stands in front of the mark, or of the end. -/
lemma takeWhile_append_of_notMem {mark : Char} (hcs : mark ∉ cs)
    (hrest : ∀ c cs', rest = c :: cs' → c = mark) :
    (cs ++ rest).takeWhile (· != mark) = cs ∧ (cs ++ rest).dropWhile (· != mark) = rest := by
  apply takeWhile_append_of_all
  · rw [List.all_eq_true]
    intro c hc
    rw [bne_iff_ne]
    rintro rfl
    exact hcs hc
  · intro c cs' h
    rw [hrest c cs' h]
    exact bne_self_eq_false mark

/-! ## Character classes -/

/-- The digits are a range of characters. -/
lemma isDigit_iff : c.isDigit = true ↔ 48 ≤ c.toNat ∧ c.toNat ≤ 57 := by
  have hdigit : c.isDigit = (decide (48 ≤ c.val) && decide (c.val ≤ 57)) := rfl
  simp only [hdigit, Bool.and_eq_true, decide_eq_true_eq, UInt32.le_iff_toNat_le]
  rfl

/-- The characters that start a name are two ranges and the underscore. -/
lemma isNameStart_iff : isNameStart c = true ↔
    (65 ≤ c.toNat ∧ c.toNat ≤ 90) ∨ (97 ≤ c.toNat ∧ c.toNat ≤ 122) ∨ c.toNat = 95 := by
  have hunderscore : c = '_' ↔ c.toNat = 95 := Char.toNat_inj.symm
  have hupper : c.isUpper = decide (65 ≤ c.val ∧ c.val ≤ 90) := rfl
  have hlower : c.isLower = (decide (97 ≤ c.val) && decide (c.val ≤ 122)) := rfl
  have halpha : c.isAlpha = (c.isUpper || c.isLower) := rfl
  simp only [isNameStart, halpha, hupper, hlower, Bool.or_eq_true, Bool.and_eq_true,
    decide_eq_true_eq, UInt32.le_iff_toNat_le, beq_iff_eq, hunderscore, or_assoc]
  rfl

/-- Names go on with the characters that start them and with digits. -/
lemma isNameChar_iff : isNameChar c = true ↔ isNameStart c = true ∨ c.isDigit = true := by
  simp only [isNameChar, isNameStart, Char.isAlphanum, Bool.or_eq_true]
  rw [or_right_comm]

/-- Numerals go on with digits and the point. -/
lemma isNumeralChar_iff : isNumeralChar c = true ↔ c.isDigit = true ∨ c.toNat = 46 := by
  have hpoint : c = '.' ↔ c.toNat = 46 := Char.toNat_inj.symm
  simp only [isNumeralChar, Bool.or_eq_true, beq_iff_eq, hpoint]

/-- No character that starts a name is a digit. -/
lemma isDigit_of_isNameStart (h : isNameStart c = true) : c.isDigit = false := by
  rw [Bool.eq_false_iff, ne_eq, isDigit_iff]
  rw [isNameStart_iff] at h
  omega

/-! ## One lexeme -/

/-- A digit starts a numeral. -/
lemma nextLexeme?_of_isDigit (h : c.isDigit = true) :
    nextLexeme? (c :: cs) = some (.number (String.ofList (c :: cs.takeWhile isNumeralChar)),
      cs.dropWhile isNumeralChar) := by
  simp [nextLexeme?, h]

/-- A letter or an underscore starts a word. -/
lemma nextLexeme?_of_isNameStart (h : isNameStart c = true) :
    nextLexeme? (c :: cs) = some (.ofWord (String.ofList (c :: cs.takeWhile isNameChar)),
      cs.dropWhile isNameChar) := by
  simp [nextLexeme?, h, isDigit_of_isNameStart h]

/-- A word is found in front of anything that does not go it on. -/
lemma nextLexeme?_word {word : String} (hword : isWordText word.toList = true)
    (hrest : ∀ c cs', rest = c :: cs' → isNameChar c = false) :
    nextLexeme? (word.toList ++ rest) = some (.ofWord word, rest) := by
  cases hcs : word.toList with
  | nil => simp [hcs, isWordText] at hword
  | cons c cs =>
    simp only [hcs, isWordText, Bool.and_eq_true] at hword
    obtain ⟨htake, hdrop⟩ := takeWhile_append_of_all hword.2 hrest
    rw [List.cons_append, nextLexeme?_of_isNameStart hword.1, htake, hdrop, ← hcs,
      String.ofList_toList]

/-- A word is an identifier that can be a name, or it is reserved. -/
lemma written_ofWord {word : String} (hword : isWordText word.toList = true) :
    (Lexeme.ofWord word).Written := by
  rw [Lexeme.ofWord]
  cases hkeyword : Keyword.ofText? word with
  | none => simp [Lexeme.Written, isName, hword, hkeyword]
  | some k => trivial

/-- What does not go on with a name character can follow any word. -/
lemma endsBefore_ofWord (word : String) (hrest : ∀ c cs', rest = c :: cs' → isNameChar c = false) :
    (Lexeme.ofWord word).EndsBefore rest := by
  cases rest with
  | nil =>
    rw [Lexeme.ofWord]
    split <;> trivial
  | cons c cs =>
    rw [Lexeme.ofWord]
    split <;> exact hrest c cs rfl

/-- A lexeme that is found is one that texts have, and the text goes on with something else. -/
lemma written_of_nextLexeme? (h : nextLexeme? cs = some (l, rest)) :
    l.Written ∧ l.EndsBefore rest := by
  cases cs with
  | nil => simp [nextLexeme?] at h
  | cons c cs =>
    by_cases hdigit : c.isDigit = true
    · rw [nextLexeme?_of_isDigit hdigit] at h
      cases h
      refine ⟨⟨c, cs.takeWhile isNumeralChar, by simp, hdigit, List.all_takeWhile⟩, ?_⟩
      cases hrest : cs.dropWhile isNumeralChar with
      | nil => trivial
      | cons d ds => exact head_dropWhile hrest
    by_cases hstart : isNameStart c = true
    · rw [nextLexeme?_of_isNameStart hstart] at h
      cases h
      refine ⟨written_ofWord ?_, endsBefore_ofWord _ fun _ _ => head_dropWhile⟩
      simp only [String.toList_ofList, isWordText, hstart, List.all_takeWhile, Bool.and_self]
    · simp only [nextLexeme?, hdigit, hstart, Bool.false_eq_true, if_false] at h
      split at h
      · cases h
        exact ⟨trivial, trivial⟩
      · rename_i hds
        cases h
        refine ⟨trivial, ?_⟩
        cases rest with
        | nil => trivial
        | cons d ds =>
          rintro rfl
          exact hds ds rfl
      · cases h
        exact ⟨trivial, trivial⟩
      · cases h
        exact ⟨trivial, trivial⟩
      · cases h
        exact ⟨trivial, trivial⟩
      · simp only [Option.map_eq_some_iff, Prod.mk.injEq] at h
        obtain ⟨op, -, rfl, rfl⟩ := h
        exact ⟨trivial, trivial⟩

/-- A lexeme is found at the start of a text exactly if the text is that lexeme and something that
can follow it. -/
theorem nextLexeme?_eq_some_iff :
    nextLexeme? cs = some (l, rest) ↔ cs = l.chars ++ rest ∧ l.Written ∧ l.EndsBefore rest := by
  constructor
  · intro h
    exact ⟨eq_append_of_nextLexeme? h, written_of_nextLexeme? h⟩
  · rintro ⟨rfl, hwritten, hends⟩
    cases l with
    | number numeral =>
      obtain ⟨c, cs, hcs, hdigit, hall⟩ := hwritten
      have hrest : ∀ c cs', rest = c :: cs' → isNumeralChar c = false := by
        rintro c cs' rfl
        exact hends
      obtain ⟨htake, hdrop⟩ := takeWhile_append_of_all hall hrest
      rw [Lexeme.chars, hcs, List.cons_append, nextLexeme?_of_isDigit hdigit, htake, hdrop, ← hcs,
        String.ofList_toList]
    | identifier name =>
      have hname : isWordText name.toList = true ∧ Keyword.ofText? name = none := by
        simpa [Lexeme.Written, isName] using hwritten
      have hrest : ∀ c cs', rest = c :: cs' → isNameChar c = false := by
        rintro c cs' rfl
        exact hends
      rw [Lexeme.chars, nextLexeme?_word hname.1 hrest, Lexeme.ofWord, hname.2]
    | keyword word =>
      have hword : isWordText word.text.toList = true := by
        cases word <;> decide
      have hrest : ∀ c cs', rest = c :: cs' → isNameChar c = false := by
        rintro c cs' rfl
        exact hends
      rw [Lexeme.chars, nextLexeme?_word hword hrest, Lexeme.ofWord, Keyword.ofText?_text]
    | equals =>
      cases rest with
      | nil => rfl
      | cons c cs =>
        have hstart : isNameStart '=' = false := by decide
        simp only [Lexeme.EndsBefore] at hends
        simp [Lexeme.chars, nextLexeme?, hends, hstart]
    | operator op => cases op <;> rfl
    | openParen | closeParen | comma | arrow => rfl

/-! ## All lexemes -/

/-- The lexemes of a text, if every character is a blank or belongs to one. -/
def lexemes? (cs : List Char) : Option (List Lexeme) :=
  (scanFrom 0 cs).toOption.map fun tokens => tokens.map (·.lexeme)

/-- Where a text stands makes no difference to its lexemes. -/
lemma lexemes?_eq (p : Nat) (cs : List Char) :
    ((scanFrom p cs).toOption.map fun tokens => tokens.map (·.lexeme)) = lexemes? cs := by
  rw [lexemes?]
  generalize 0 = q
  fun_induction scanFrom p cs generalizing q with
  | case1 p => simp [Except.toOption]
  | case2 p c cs hblank ih => rw [ih (q + 1), scanFrom_of_isBlank q cs hblank]
  | case3 p c cs hblank hnone =>
    rw [scanFrom_of_eq_none q (by simpa using hblank) hnone]
    rfl
  | case4 p c cs hblank l rest hsome ih =>
    rw [scanFrom_of_eq_some q (by simpa using hblank) hsome]
    have hrest := ih (q + l.chars.length)
    cases hp : scanFrom (p + l.chars.length) rest <;>
      cases hq : scanFrom (q + l.chars.length) rest <;>
      simp_all [Except.toOption, Except.map]

/-- A numeral or a name does not start with a blank. -/
lemma isBlank_of_starts (h : c.isDigit = true ∨ isNameStart c = true) :
    Text.isBlank c = false := by
  rw [isDigit_iff, isNameStart_iff] at h
  simp only [Text.isBlank, Bool.or_eq_false_iff, Bool.and_eq_false_iff, decide_eq_false_iff_not,
    beq_eq_false_iff_ne]
  omega

/-- A lexeme starts with a character that is not blank. -/
lemma Lexeme.Written.exists_cons (h : l.Written) :
    ∃ c cs, l.chars = c :: cs ∧ Text.isBlank c = false := by
  cases l with
  | number numeral =>
    obtain ⟨c, cs, hcs, hdigit, -⟩ := h
    exact ⟨c, cs, hcs, isBlank_of_starts (.inl hdigit)⟩
  | identifier name =>
    cases hcs : name.toList with
    | nil => simp [Lexeme.Written, isName, hcs, isWordText] at h
    | cons c cs =>
      simp only [Lexeme.Written, isName, hcs, isWordText, Bool.and_eq_true] at h
      exact ⟨c, cs, hcs, isBlank_of_starts (.inr h.1.1)⟩
  | keyword word => cases word <;> exact ⟨_, _, rfl, by decide⟩
  | operator op => cases op <;> exact ⟨_, _, rfl, by decide⟩
  | openParen | closeParen | comma | equals | arrow => exact ⟨_, _, rfl, by decide⟩

/-- The empty text has no lexemes. -/
@[simp] lemma lexemes?_nil : lexemes? [] = some [] := by
  simp [lexemes?, Except.toOption]

/-- Blanks in front of a text have no lexemes. -/
lemma lexemes?_blank (h : Text.isBlank c = true) : lexemes? (c :: cs) = lexemes? cs := by
  rw [lexemes?, scanFrom_of_isBlank 0 cs h, lexemes?_eq]

/-- A lexeme at the start of a text is the first one. -/
lemma lexemes?_append (hwritten : l.Written) (hends : l.EndsBefore rest) :
    lexemes? (l.chars ++ rest) = (lexemes? rest).map (l :: ·) := by
  have hnext := nextLexeme?_eq_some_iff.mpr ⟨rfl, hwritten, hends⟩
  obtain ⟨c, cs, hcs, hblank⟩ := hwritten.exists_cons
  rw [hcs, List.cons_append] at hnext ⊢
  rw [lexemes?, scanFrom_of_eq_some 0 hblank hnext, ← lexemes?_eq (0 + l.chars.length)]
  cases scanFrom (0 + l.chars.length) rest <;> rfl

/-- A character that is neither blank nor starts a lexeme leaves a text without lexemes. -/
lemma lexemes?_bad (hblank : Text.isBlank c = false) (h : nextLexeme? (c :: cs) = none) :
    lexemes? (c :: cs) = none := by
  rw [lexemes?, scanFrom_of_eq_none 0 hblank h]
  rfl

/-! ## How texts are put together -/

/-- `Spelling cs ls` states that the text `cs` consists of the lexemes `ls`, with blanks between
them. -/
inductive Spelling : List Char → List Lexeme → Prop where
  | nil : Spelling [] []
  | blank {c : Char} {cs : List Char} {ls : List Lexeme} (hc : Text.isBlank c = true)
      (h : Spelling cs ls) : Spelling (c :: cs) ls
  | lexeme {l : Lexeme} {rest : List Char} {ls : List Lexeme} (hwritten : l.Written)
      (hends : l.EndsBefore rest) (h : Spelling rest ls) : Spelling (l.chars ++ rest) (l :: ls)

/-- A text has exactly the lexemes that it consists of. -/
theorem lexemes?_eq_some_iff : lexemes? cs = some ls ↔ Spelling cs ls := by
  constructor
  · intro h
    induction hn : cs.length using Nat.strongRecOn generalizing cs ls with
    | ind n ih =>
      subst hn
      cases cs with
      | nil =>
        rw [lexemes?_nil, Option.some.injEq] at h
        exact h ▸ .nil
      | cons c cs =>
        by_cases hblank : Text.isBlank c = true
        · rw [lexemes?_blank hblank] at h
          exact .blank hblank (ih _ (by simp) h rfl)
        cases hnext : nextLexeme? (c :: cs) with
        | none => simp [lexemes?_bad (by simpa using hblank) hnext] at h
        | some found =>
          obtain ⟨l, rest⟩ := found
          have hlt := length_lt_of_nextLexeme? hnext
          obtain ⟨hcs, hwritten, hends⟩ := nextLexeme?_eq_some_iff.mp hnext
          rw [hcs, lexemes?_append hwritten hends, Option.map_eq_some_iff] at h
          obtain ⟨ls, hls, rfl⟩ := h
          rw [hcs]
          exact .lexeme hwritten hends (ih _ hlt hls rfl)
  · intro h
    induction h with
    | nil => exact lexemes?_nil
    | blank hc _ ih => rw [lexemes?_blank hc, ih]
    | lexeme hwritten hends _ ih => rw [lexemes?_append hwritten hends, ih, Option.map_some]

/-- All lexemes of a text are ones that texts have. -/
lemma Spelling.written (h : Spelling cs ls) : ∀ l ∈ ls, l.Written := by
  induction h with
  | nil => simp
  | blank _ _ ih => exact ih
  | lexeme hwritten _ _ ih => exact List.forall_mem_cons.mpr ⟨hwritten, ih⟩

/-! ## Texts with the same lexemes everywhere -/

/-- A text that goes on no numeral and no word in front of it. -/
def Bounded (cs : List Char) : Prop :=
  ∀ c cs', cs = c :: cs' → isNumeralChar c = false ∧ isNameChar c = false

/-- Characters that are read as the same lexemes wherever they stand in front of a boundary. -/
def Spells (cs : List Char) (ls : List Lexeme) : Prop :=
  ∀ rest, Bounded rest → lexemes? (cs ++ rest) = (lexemes? rest).map (ls ++ ·)

/-- No text is a boundary, too. -/
@[simp] lemma bounded_nil : Bounded [] := by
  rintro c cs h
  cases h

/-- Only the first character decides whether a text is a boundary. -/
@[simp] lemma bounded_cons :
    Bounded (c :: cs) ↔ isNumeralChar c = false ∧ isNameChar c = false := by
  simp [Bounded]

/-- An operator is a boundary. -/
@[simp] lemma bounded_symbol (op : Operator) : Bounded (op.symbol :: cs) := by
  cases op <;> exact bounded_cons.mpr (by decide)

/-- A boundary in front of a boundary is one. -/
lemma Bounded.append (h : Bounded cs) (hrest : Bounded rest) : Bounded (cs ++ rest) := by
  cases cs with
  | nil => exact hrest
  | cons c cs => simpa using h

/-- What characters spell is what the whole text of them consists of. -/
lemma Spells.lexemes?_eq (h : Spells cs ls) : lexemes? cs = some ls := by
  simpa using h [] bounded_nil

/-- No characters spell no lexemes. -/
lemma Spells.nil : Spells [] [] := by
  intro rest _
  simp

/-- Blanks in front of what is spelt make no difference. -/
lemma Spells.blank (hc : Text.isBlank c = true) (h : Spells cs ls) : Spells (c :: cs) ls := by
  intro rest hrest
  rw [List.cons_append, lexemes?_blank hc, h rest hrest]

/-- Texts that stand one after another have the lexemes of both, if there is a boundary between. -/
lemma Spells.append {cs' : List Char} (h : Spells cs ls) (hbound : Bounded cs')
    (h' : Spells cs' ls') :
    Spells (cs ++ cs') (ls ++ ls') := by
  intro rest hrest
  rw [List.append_assoc, h _ (hbound.append hrest), h' rest hrest, Option.map_map]
  simp [Function.comp_def]

/-- A lexeme in front of what cannot go it on needs no boundary. -/
lemma Spells.cons (hwritten : l.Written) (hends : ∀ rest, l.EndsBefore (cs ++ rest))
    (h : Spells cs ls) : Spells (l.chars ++ cs) (l :: ls) := by
  intro rest hrest
  rw [List.append_assoc, lexemes?_append hwritten (hends rest), h rest hrest, Option.map_map]
  rfl

/-- Numerals, names and reserved words spell themselves. -/
lemma Spells.lexeme (hwritten : l.Written) (hl : l ≠ .equals) : Spells l.chars [l] := by
  intro rest hrest
  rw [lexemes?_append hwritten]
  · rfl
  · cases rest with
    | nil => cases l <;> trivial
    | cons c cs =>
      rw [bounded_cons] at hrest
      cases l with
      | number => exact hrest.1
      | identifier | keyword => exact hrest.2
      | equals => exact absurd rfl hl
      | _ => trivial

end Abacus
