import Abacus.Text
import Abacus.Token

/-!
# Scanning a text

A text falls apart into the longest lexemes that stand one after another, with blanks between them.
The scan stops at the first character that starts no lexeme.

## Main definitions

* `Abacus.nextLexeme?` — the longest lexeme at the start of a text, and what follows it.
* `Abacus.scanFrom`, `Abacus.scan` — all tokens of a text, or the position of the first bad
  character.
-/

namespace Abacus

/-- The lexeme at the start of a text, as long as possible, and the text after it. An equals sign
with `>` behind it is an arrow. What starts no lexeme, as a point does, gives nothing. -/
def nextLexeme? : List Char → Option (Lexeme × List Char)
  | [] => none
  | c :: cs =>
    if c.isDigit then
      some (.number (String.ofList (c :: cs.takeWhile isNumeralChar)), cs.dropWhile isNumeralChar)
    else if isNameStart c then
      some (.ofWord (String.ofList (c :: cs.takeWhile isNameChar)), cs.dropWhile isNameChar)
    else
      match c, cs with
      | '=', '>' :: rest => some (.arrow, rest)
      | '=', rest => some (.equals, rest)
      | '(', rest => some (.openParen, rest)
      | ')', rest => some (.closeParen, rest)
      | ',', rest => some (.comma, rest)
      | d, rest => (Operator.ofChar? d).map fun op => (.operator op, rest)

/-- A word is written as it was read, whether it is reserved or not. -/
theorem Lexeme.chars_ofWord (s : String) : (Lexeme.ofWord s).chars = s.toList := by
  simp only [Lexeme.ofWord, Keyword.ofText?]
  split
  · rename_i k h
    split at h
    · simp_all [Lexeme.chars, Keyword.text]; subst h; rfl
    split at h
    · simp_all [Lexeme.chars, Keyword.text]; subst h; rfl
    split at h
    · simp_all [Lexeme.chars, Keyword.text]; subst h; rfl
    · simp at h
  · rfl

/-- A lexeme and the text after it are the whole text: a scan drops no character but blanks. -/
theorem eq_append_of_nextLexeme? {cs rest : List Char} {l : Lexeme}
    (h : nextLexeme? cs = some (l, rest)) : cs = l.chars ++ rest := by
  unfold nextLexeme? at h
  split at h
  · simp at h
  split at h
  · simp only [Option.some.injEq, Prod.mk.injEq] at h
    obtain ⟨rfl, rfl⟩ := h
    simp [Lexeme.chars]
  split at h
  · simp only [Option.some.injEq, Prod.mk.injEq] at h
    obtain ⟨rfl, rfl⟩ := h
    simp [Lexeme.chars_ofWord]
  split at h
  all_goals try
    simp only [Option.some.injEq, Prod.mk.injEq] at h
    obtain ⟨rfl, rfl⟩ := h
    simp [Lexeme.chars]
  simp only [Option.map_eq_some_iff, Prod.mk.injEq] at h
  obtain ⟨op, hop, rfl, rfl⟩ := h
  simp [Lexeme.chars, Operator.symbol_of_ofChar? hop]

/-- Only a lexeme that has characters is found, so the text after it is shorter, and the scan of a
text comes to an end. -/
theorem length_lt_of_nextLexeme? {cs rest : List Char} {l : Lexeme}
    (h : nextLexeme? cs = some (l, rest)) : rest.length < cs.length := by
  unfold nextLexeme? at h
  split at h
  · simp at h
  split at h
  · simp only [Option.some.injEq, Prod.mk.injEq] at h
    exact h.2 ▸ Nat.lt_succ_of_le (List.dropWhile_sublist _).length_le
  split at h
  · simp only [Option.some.injEq, Prod.mk.injEq] at h
    exact h.2 ▸ Nat.lt_succ_of_le (List.dropWhile_sublist _).length_le
  split at h
  all_goals simp only [Option.some.injEq, Option.map_eq_some_iff, Prod.mk.injEq] at h
  case h_6 =>
    obtain ⟨-, -, -, rfl⟩ := h
    exact Nat.lt_succ_self _
  all_goals
    obtain ⟨-, rfl⟩ := h
    simp only [List.length_cons]
    omega

/-- The tokens of a text that stands at the given position, or the position of the first character
that starts no lexeme. The position is the number of characters before the text, so that tokens
have their places in the whole text. -/
def scanFrom (position : Nat) (cs : List Char) : Except Nat (List Token) :=
  match cs with
  | [] => .ok []
  | c :: rest =>
    if Text.isBlank c then
      scanFrom (position + 1) rest
    else
      match _h : nextLexeme? (c :: rest) with
      | none => .error position
      | some (lexeme, after) =>
        (scanFrom (position + lexeme.chars.length) after).map (⟨lexeme, position⟩ :: ·)
termination_by cs.length
decreasing_by
  · simp
  · exact length_lt_of_nextLexeme? (by assumption)

/-- The tokens of a text, or the position of its first character that starts no lexeme. -/
def scan (text : String) : Except Nat (List Token) := scanFrom 0 text.toList

/-! ## One step of the scan -/

/-- The empty text has no tokens. -/
@[simp]
theorem scanFrom_nil (p : Nat) : scanFrom p [] = .ok [] := by
  rw [scanFrom]

/-- A blank is skipped, and what follows stands one place further on. -/
theorem scanFrom_of_isBlank {c : Char} (p : Nat) (cs : List Char) (h : Text.isBlank c = true) :
    scanFrom p (c :: cs) = scanFrom (p + 1) cs := by
  rw [scanFrom, if_pos h]

/-- A character that is not blank and starts no lexeme ends the scan. -/
theorem scanFrom_of_eq_none {c : Char} {cs : List Char} (p : Nat) (h : Text.isBlank c = false)
    (hn : nextLexeme? (c :: cs) = none) : scanFrom p (c :: cs) = .error p := by
  rw [scanFrom, if_neg (by simp [h])]
  split
  · rfl
  · simp_all

/-- A lexeme is the first token, and the scan goes on behind it. -/
theorem scanFrom_of_eq_some {c : Char} {cs rest : List Char} {l : Lexeme} (p : Nat)
    (h : Text.isBlank c = false) (hs : nextLexeme? (c :: cs) = some (l, rest)) :
    scanFrom p (c :: cs) = (scanFrom (p + l.chars.length) rest).map (⟨l, p⟩ :: ·) := by
  rw [scanFrom, if_neg (by simp [h])]
  split
  · simp_all
  · rename_i lexeme after hs'
    rw [hs] at hs'
    cases hs'
    rfl

end Abacus
