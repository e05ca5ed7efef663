import Abacus.Expr.Parse
import Abacus.Proofs.Spelling

/-!
# Scanning a part of a text

A scan looks at one character behind a lexeme. So what it makes of the front of a text depends on
the first character behind that front only, and not on what comes after it.

## Main definitions

* `Abacus.Scans` — what a scan makes of a text in front of another one.
* `Abacus.Token.shift` — a token further on.

## Main results

* `Abacus.Scans.scanFrom_append` — a scan goes on behind the front of a text.
* `Abacus.Scans.exists_place`, `Abacus.Scans.exists_token` — where tokens stand, and that nothing
  but blanks stands outside of them.
* `Abacus.scanFrom_eq_ok_iff`, `Abacus.scanFrom_eq_error_iff` — when a scan reaches the end of a
  text, and where it stops otherwise.
* `Abacus.Scans.shift`, `Abacus.Scans.append` — texts at other positions and one behind another.
* `Abacus.slice_of_tokensOf` — the slice of a text at one of its tokens.
-/

namespace Abacus

variable {c : Char} {cs cs' rest rest' : List Char} {l : Lexeme} {p q : Nat} {t : Token}
  {tokens tokens' : List Token}

/-! ## The character behind a lexeme -/

/-- Only the first character of a text decides which lexemes it can follow. -/
lemma Lexeme.endsBefore_cons_iff (l : Lexeme) :
    l.EndsBefore (c :: cs) ↔ l.EndsBefore (c :: cs') := by
  cases l <;> exact Iff.rfl

/-- What can follow a lexeme in front of a text can also do so in front of another one that
follows all the lexemes that the first one does. -/
lemma Lexeme.EndsBefore.of_rest (hrest : ∀ l : Lexeme, l.EndsBefore rest → l.EndsBefore rest')
    (h : l.EndsBefore (cs ++ rest)) : l.EndsBefore (cs ++ rest') := by
  cases cs with
  | nil => exact hrest l h
  | cons c cs => exact l.endsBefore_cons_iff.mp h

/-- Whether a text starts with a lexeme depends on its first character only. -/
lemma nextLexeme?_eq_none_of_cons (h : nextLexeme? (c :: cs) = none) :
    nextLexeme? (c :: cs') = none := by
  by_cases hdigit : c.isDigit = true
  · rw [nextLexeme?_of_isDigit hdigit] at h
    cases h
  by_cases hstart : isNameStart c = true
  · rw [nextLexeme?_of_isNameStart hstart] at h
    cases h
  · simp only [nextLexeme?, hdigit, hstart, Bool.false_eq_true, if_false] at h ⊢
    split at h
    · cases h
    · cases h
    · cases h
    · cases h
    · cases h
    · rename_i hequals hopen hclose hcomma _
      split
      · exact absurd rfl hequals
      · exact absurd rfl hequals
      · exact absurd rfl hopen
      · exact absurd rfl hclose
      · exact absurd rfl hcomma
      · simpa using h

/-! ## The front of a text -/

/-- `Scans rest p cs tokens` states that a text `cs` that stands at the position `p` in front of
`rest` consists of the tokens `tokens`, with blanks between them. -/
inductive Scans (rest : List Char) : Nat → List Char → List Token → Prop where
  | nil {p : Nat} : Scans rest p [] []
  | blank {p : Nat} {c : Char} {cs : List Char} {tokens : List Token} (hc : Text.isBlank c = true)
      (h : Scans rest (p + 1) cs tokens) : Scans rest p (c :: cs) tokens
  | token {p : Nat} {l : Lexeme} {cs : List Char} {tokens : List Token} (hwritten : l.Written)
      (hends : l.EndsBefore (cs ++ rest)) (h : Scans rest (p + l.chars.length) cs tokens) :
      Scans rest p (l.chars ++ cs) (⟨l, p⟩ :: tokens)

/-- A token that stands further on. -/
def Token.shift (k : Nat) (t : Token) : Token := ⟨t.lexeme, k + t.position⟩

/-- A lexeme is the first token, and the scan goes on behind it. -/
lemma scanFrom_token (hwritten : l.Written) (hends : l.EndsBefore cs) (p : Nat) :
    scanFrom p (l.chars ++ cs) = (scanFrom (p + l.chars.length) cs).map (⟨l, p⟩ :: ·) := by
  have hnext := nextLexeme?_eq_some_iff.mpr ⟨rfl, hwritten, hends⟩
  obtain ⟨c, cs', hcs, hblank⟩ := hwritten.exists_cons
  rw [hcs, List.cons_append] at hnext ⊢
  rw [scanFrom_of_eq_some p hblank hnext, hcs]

namespace Scans

/-- What a scan makes of a text does not change if another text is put behind it that follows the
same lexemes. -/
lemma of_rest (h : Scans rest p cs tokens)
    (hrest : ∀ l : Lexeme, l.EndsBefore rest → l.EndsBefore rest') : Scans rest' p cs tokens := by
  induction h with
  | nil => exact .nil
  | blank hc _ ih => exact .blank hc ih
  | token hwritten hends _ ih => exact .token hwritten (hends.of_rest hrest) ih

/-- Blanks have no tokens. -/
lemma blanks (hcs : Text.Blank cs) (rest : List Char) (p : Nat) : Scans rest p cs [] := by
  induction cs generalizing p with
  | nil => exact .nil
  | cons c cs ih =>
    rw [Text.Blank, List.forall_mem_cons] at hcs
    exact .blank hcs.1 (ih hcs.2 (p + 1))

/-- Texts one behind another have the tokens of both. -/
lemma append (h : Scans (cs' ++ rest) p cs tokens) (h' : Scans rest (p + cs.length) cs' tokens') :
    Scans rest p (cs ++ cs') (tokens ++ tokens') := by
  induction h with
  | nil => exact h'
  | @blank p c cs tokens hc _ ih =>
    rw [List.length_cons, Nat.add_comm cs.length, ← Nat.add_assoc] at h'
    exact .blank hc (ih h')
  | @token p l cs tokens hwritten hends _ ih =>
    rw [List.length_append, ← Nat.add_assoc] at h'
    rw [List.append_assoc]
    exact .token hwritten (by rwa [List.append_assoc]) (ih h')

/-- Where a text stands only moves its tokens. -/
lemma shift (h : Scans rest p cs tokens) (k : Nat) :
    Scans rest (k + p) cs (tokens.map (Token.shift k)) := by
  induction h with
  | nil => exact .nil
  | blank hc _ ih => exact .blank hc ih
  | token hwritten hends _ ih =>
    rw [← Nat.add_assoc] at ih
    exact .token hwritten hends ih

/-- A scan goes on behind the front of a text. -/
theorem scanFrom_append (h : Scans rest p cs tokens) :
    scanFrom p (cs ++ rest) = (scanFrom (p + cs.length) rest).map (tokens ++ ·) := by
  induction h with
  | nil =>
    simp only [List.nil_append, List.length_nil, Nat.add_zero]
    cases scanFrom _ rest <;> rfl
  | blank hc _ ih =>
    rw [List.cons_append, scanFrom_of_isBlank _ _ hc, ih, List.length_cons, Nat.add_assoc,
      Nat.add_comm 1]
  | token hwritten hends _ ih =>
    rw [List.append_assoc, scanFrom_token hwritten hends, ih, List.length_append, Nat.add_assoc]
    cases scanFrom _ rest <;> rfl

end Scans

namespace Scans

/-! ## The tokens of a text -/

/-- A token stands at its position, and goes no further than its lexeme does. -/
lemma exists_place (h : Scans rest p cs tokens) (ht : t ∈ tokens) :
    ∃ before behind, cs = before ++ t.lexeme.chars ++ behind ∧ t.position = p + before.length ∧
      t.lexeme.Written ∧ t.lexeme.EndsBefore (behind ++ rest) := by
  induction h with
  | nil => cases ht
  | @blank p c cs tokens hc _ ih =>
    obtain ⟨before, behind, rfl, hposition, hlexeme⟩ := ih ht
    exact ⟨c :: before, behind, rfl, by rw [hposition, List.length_cons]; omega, hlexeme⟩
  | @token p l cs tokens hwritten hends _ ih =>
    rcases List.mem_cons.mp ht with rfl | ht
    · exact ⟨[], cs, rfl, rfl, hwritten, hends⟩
    · obtain ⟨before, behind, rfl, hposition, hlexeme⟩ := ih ht
      refine ⟨l.chars ++ before, behind, by simp only [List.append_assoc], ?_, hlexeme⟩
      rw [hposition, List.length_append]
      omega

/-- Every token ends before the next one starts. -/
lemma pairwise_stop_le (h : Scans rest p cs tokens) :
    tokens.Pairwise fun t t' => t.stop ≤ t'.position := by
  induction h with
  | nil => exact .nil
  | blank _ _ ih => exact ih
  | token _ _ h ih =>
    refine .cons (fun t ht => ?_) ih
    obtain ⟨before, -, -, hposition, -⟩ := h.exists_place ht
    rw [hposition]
    exact Nat.le_add_right _ before.length

/-- A character that is not blank belongs to a token. -/
lemma exists_token (h : Scans rest p cs tokens) {i : Nat} (hi : cs[i]? = some c)
    (hc : Text.isBlank c = false) :
    ∃ t ∈ tokens, t.position ≤ p + i ∧ p + i < t.stop := by
  induction h generalizing i with
  | nil => cases hi
  | @blank p d cs tokens hd _ ih =>
    cases i with
    | zero =>
      cases hi
      simp [hd] at hc
    | succ i =>
      obtain ⟨t, ht, hle, hlt⟩ := ih hi
      exact ⟨t, ht, by omega, by omega⟩
  | @token p l cs tokens _ _ _ ih =>
    rcases Nat.lt_or_ge i l.chars.length with hlt | hge
    · exact ⟨⟨l, p⟩, List.mem_cons_self, Nat.le_add_right p i, Nat.add_lt_add_left hlt p⟩
    · rw [List.getElem?_append_right hge] at hi
      obtain ⟨t, ht, hle, hlt⟩ := ih hi
      exact ⟨t, List.mem_cons_of_mem _ ht, by omega, by omega⟩

end Scans

/-! ## The end of a scan -/

/-- A scan reaches the end of a text exactly if the text consists of tokens. -/
theorem scanFrom_eq_ok_iff : scanFrom p cs = .ok tokens ↔ Scans [] p cs tokens := by
  constructor
  · intro h
    fun_induction scanFrom p cs generalizing tokens with
    | case1 p =>
      cases h
      exact .nil
    | case2 p c cs hblank ih => exact .blank hblank (ih h)
    | case3 => cases h
    | case4 p c cs hblank l rest hnext ih =>
      rw [Result.map_eq_ok_iff] at h
      obtain ⟨others, h, rfl⟩ := h
      obtain ⟨hcs, hwritten, hends⟩ := nextLexeme?_eq_some_iff.mp hnext
      rw [hcs]
      exact .token hwritten (by rwa [List.append_nil]) (ih h)
  · intro h
    have hscan := h.scanFrom_append
    rw [List.append_nil, scanFrom_nil] at hscan
    rw [hscan]
    exact congrArg Except.ok (List.append_nil tokens)

/-- A scan stops exactly where a character that starts no lexeme stands behind tokens.

**Proof sketch.** From left to right by induction along the scan: the lexeme in front of the place
still ends there. From right to left the scan takes the tokens and comes to the character. -/
theorem scanFrom_eq_error_iff : scanFrom p cs = .error q ↔
    ∃ before c behind tokens, cs = before ++ c :: behind ∧ q = p + before.length ∧
      Scans (c :: behind) p before tokens ∧ Text.isBlank c = false ∧
      nextLexeme? (c :: behind) = none := by
  constructor
  · intro h
    fun_induction scanFrom p cs with
    | case1 => cases h
    | case2 p c cs hblank ih =>
      obtain ⟨before, d, behind, tokens, rfl, rfl, hscans, hd⟩ := ih h
      exact ⟨c :: before, d, behind, tokens, rfl, by rw [List.length_cons]; omega,
        .blank hblank hscans, hd⟩
    | case3 p c cs hblank hnone =>
      cases h
      exact ⟨[], c, cs, [], rfl, rfl, .nil, by simpa using hblank, hnone⟩
    | case4 p c cs hblank l rest hnext ih =>
      rw [Result.map_eq_error_iff] at h
      obtain ⟨before, d, behind, tokens, rfl, rfl, hscans, hd⟩ := ih h
      obtain ⟨hcs, hwritten, hends⟩ := nextLexeme?_eq_some_iff.mp hnext
      rw [hcs]
      exact ⟨l.chars ++ before, d, behind, ⟨l, p⟩ :: tokens, (List.append_assoc _ _ _).symm,
        by rw [List.length_append]; omega, .token hwritten hends hscans, hd⟩
  · rintro ⟨before, c, behind, tokens, rfl, rfl, hscans, hblank, hnone⟩
    rw [hscans.scanFrom_append, scanFrom_of_eq_none _ hblank hnone]
    rfl

/-! ## The slice at a token -/

/-- The part of a text that stands between two others is the slice between their places. -/
lemma Text.slice_append (before cs behind : List Char) :
    Text.slice before.length (before.length + cs.length) (before ++ cs ++ behind) = cs := by
  have hstop : ((before.length + cs.length : Nat) : Int) = before.length + cs.length := by simp
  rw [Text.slice, ← hstop, Text.upTo_natCast, Text.place_natCast, ← List.length_append,
    List.take_left, List.length_append, Nat.min_eq_left (by rw [List.length_append]; omega),
    List.drop_left]

/-- **A token of a text is the slice of the text at its position.**

**Proof sketch.** A scan takes a token where its lexeme stands in the text (`Scans.exists_place`),
and its end is that many characters further on. -/
theorem slice_of_tokensOf {text : String} (h : tokensOf text = .ok tokens) (ht : t ∈ tokens) :
    Text.slice t.position t.stop text.toList = t.lexeme.chars := by
  rw [tokensOf, scan, Result.mapError_eq_ok_iff, scanFrom_eq_ok_iff] at h
  obtain ⟨before, behind, htext, hposition, -⟩ := h.exists_place ht
  rw [Nat.zero_add] at hposition
  have hstop : (t.stop : Int) = before.length + t.lexeme.chars.length := by
    rw [Token.stop, hposition]
    omega
  rw [htext, hstop, hposition]
  exact Text.slice_append before t.lexeme.chars behind

end Abacus
