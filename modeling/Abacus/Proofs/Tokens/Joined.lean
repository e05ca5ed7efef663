import Abacus.Proofs.Grammar.Parsing
import Abacus.Proofs.Tokens.Layout

/-!
# The tokens of texts with blanks between them

Where blanks stand a text falls apart: what a scan makes of the part in front of them and of the
part behind them does not depend on the other part.

## Main definitions

* `Abacus.Item.shift` — an item further on.

## Main results

* `Abacus.Scans.join` — the tokens of two texts with blanks between them.
* `Abacus.lexemes?_intercalate` — lexemes with one blank between any two of them are read as they
  are.
* `Abacus.itemsOf_join` — what a scan makes of two texts with blanks between them, and of its own
  lexemes.
-/

namespace Abacus

open Text

variable {a w cs rest : List Char} {tokens tokens' : List Token} {ls : List Lexeme} {text : String}

/-! ## Two texts -/

/-- An item that stands further on. -/
def Item.shift (k : Nat) (i : Item) : Item := ⟨i.lexeme, k + i.position⟩

/-- The end of a text further on. -/
lemma Item.shift_ending (k n : Nat) : (Item.ending n).shift k = .ending (k + n) := rfl

/-- A token further on is an item further on. -/
lemma map_item_shift (k : Nat) (tokens : List Token) :
    (tokens.map (Token.shift k)).map Token.item = (tokens.map Token.item).map (Item.shift k) := by
  rw [List.map_map, List.map_map]
  rfl

/-- What starts with a blank can follow every lexeme. -/
lemma Lexeme.endsBefore_blanks (l : Lexeme) (hne : w ≠ []) (hw : Blank w) :
    l.EndsBefore (w ++ rest) := by
  obtain ⟨c, cs, rfl⟩ := List.exists_cons_of_ne_nil hne
  exact l.endsBefore_blank (hw c List.mem_cons_self)

/-- Two texts with blanks between them have the tokens of both, those of the second one behind the
first one and the blanks. -/
theorem Scans.join (ha : Scans [] 0 a tokens) (hne : w ≠ []) (hw : Blank w)
    (h : Scans rest 0 cs tokens') :
    Scans rest 0 (a ++ w ++ cs) (tokens ++ tokens'.map (Token.shift (a.length + w.length))) := by
  have hfront : Scans (w ++ (cs ++ rest)) 0 a tokens :=
    ha.of_rest fun l _ => l.endsBefore_blanks hne hw
  have hbehind := h.shift (a.length + w.length)
  rw [Nat.add_zero] at hbehind
  have hmiddle : Scans rest (0 + a.length) (w ++ cs)
      ([] ++ tokens'.map (Token.shift (a.length + w.length))) := by
    rw [Nat.zero_add]
    exact (Scans.blanks hw (cs ++ rest) a.length).append hbehind
  rw [List.append_assoc]
  exact Scans.append (by rwa [List.append_assoc]) hmiddle

/-! ## Lexemes with blanks between them -/

/-- Lexemes with one blank between any two of them are read as they are. -/
theorem lexemes?_intercalate (h : ∀ l ∈ ls, l.Written) :
    lexemes? ([' '].intercalate (ls.map Lexeme.chars)) = some ls := by
  have hblank : isBlank ' ' = true := by decide
  induction ls with
  | nil => exact lexemes?_nil
  | cons l ls ih =>
    rw [List.forall_mem_cons] at h
    cases ls with
    | nil =>
      have hlast := lexemes?_append h.1 l.endsBefore_nil
      rw [List.append_nil, lexemes?_nil] at hlast
      rw [List.map_singleton, List.intercalate_singleton, hlast, Option.map_some]
    | cons l' ls =>
      rw [List.map_cons, List.map_cons, List.intercalate_cons_cons, List.append_assoc,
        List.singleton_append, lexemes?_append h.1 (l.endsBefore_blank hblank),
        lexemes?_blank hblank, ← List.map_cons,
        ih h.2, Option.map_some]

/-- The empty text behind others adds nothing but a blank in front of it. -/
lemma exists_intercalate_concat_nil (pieces : List (List Char)) :
    ∃ bs, Blank bs ∧ [' '].intercalate (pieces ++ [[]]) = [' '].intercalate pieces ++ bs := by
  cases pieces with
  | nil => exact ⟨[], blank_nil, rfl⟩
  | cons piece pieces =>
    refine ⟨[' '], blank_space, ?_⟩
    induction pieces generalizing piece with
    | nil => simp
    | cons next pieces ih =>
      rw [List.cons_append, List.cons_append, List.intercalate_cons_cons, ← List.cons_append, ih,
        List.intercalate_cons_cons, ← List.append_assoc]

/-- The texts of items are the characters of their lexemes. -/
lemma toList_intercalate_items (tokens : List Token) :
    (" ".intercalate ((tokens.map Token.item).map Item.text)).toList =
      [' '].intercalate ((tokens.map (·.lexeme)).map Lexeme.chars) := by
  rw [String.toList_intercalate, List.map_map, List.map_map, List.map_map]
  congr 1
  refine List.map_congr_left fun t _ => ?_
  exact String.toList_ofList

/-- The items of a text whose lexemes are known. -/
lemma exists_items_of_lexemes? (h : lexemes? text.toList = some ls) :
    ∃ items, itemsOf text = .ok items ∧ items.map Item.lexeme = ls.map some ++ [none] := by
  obtain ⟨tokens, htokens, rfl⟩ := Expr.tokensOf_of_lexemes? h
  refine ⟨_, by rw [itemsOf, htokens]; rfl, ?_⟩
  rw [List.map_append, List.map_map, List.map_map]
  rfl

/-! ## Items of texts -/

variable {p : Nat} {c : Char} {items items' : List Item}

/-- A bad character stays where it is, whatever stands behind the text. -/
lemma itemsOf_append_of_error (ha : itemsOf text = .error (.badCharacter text p c))
    (behind : String) :
    itemsOf (text ++ behind) = .error (.badCharacter (text ++ behind) p c) := by
  obtain ⟨before, d, rest, tokens, htext, hfault, hscans, hblank, hnone⟩ :=
    itemsOf_eq_error_iff.mp ha
  cases hfault
  refine itemsOf_eq_error_iff.mpr ⟨before, c, rest ++ behind.toList, tokens, ?_, rfl, ?_, hblank,
    nextLexeme?_eq_none_of_cons hnone⟩
  · rw [String.toList_append, htext, List.append_assoc, List.cons_append]
  · exact hscans.of_rest fun l => l.endsBefore_cons_iff.mp

variable {b : String} {blanks : String}

/-- A bad character behind blanks is one of the whole text, if there is none in front of them. -/
lemma itemsOf_join_of_ok_of_error (hne : blanks ≠ "") (hblanks : Blank blanks.toList)
    (ha : itemsOf text = .ok items) (hb : itemsOf b = .error (.badCharacter b p c)) :
    itemsOf (text ++ blanks ++ b) =
      .error (.badCharacter (text ++ blanks ++ b) (text.length + blanks.length + p) c) := by
  obtain ⟨tokens, hscans, rfl⟩ := itemsOf_eq_ok_iff.mp ha
  obtain ⟨before, d, behind, tokens', hbehind, hfault, hscans', hd⟩ := itemsOf_eq_error_iff.mp hb
  cases hfault
  have hjoined := hscans.join (mt String.toList_eq_nil_iff.mp hne) hblanks hscans'
  refine itemsOf_eq_error_iff.mpr ⟨_, c, behind, _, ?_, ?_, hjoined, hd⟩
  · rw [String.toList_append, String.toList_append, hbehind]
    simp only [List.append_assoc]
  · simp only [List.length_append, String.length_toList]

/-- The items of two texts with blanks between them. -/
lemma itemsOf_join_of_ok (hne : blanks ≠ "") (hblanks : Blank blanks.toList)
    (ha : itemsOf text = .ok items) (hb : itemsOf b = .ok items') :
    itemsOf (text ++ blanks ++ b) =
      .ok (items.dropLast ++ items'.map (Item.shift (text.length + blanks.length))) := by
  obtain ⟨tokens, hscans, rfl⟩ := itemsOf_eq_ok_iff.mp ha
  obtain ⟨tokens', hscans', rfl⟩ := itemsOf_eq_ok_iff.mp hb
  have hjoined := hscans.join (mt String.toList_eq_nil_iff.mp hne) hblanks hscans'
  have htext : (text ++ blanks ++ b).toList = text.toList ++ blanks.toList ++ b.toList := by
    rw [String.toList_append, String.toList_append]
  rw [← htext] at hjoined
  refine itemsOf_eq_ok_iff.mpr ⟨_, hjoined, ?_⟩
  rw [List.dropLast_concat, htext]
  simp only [List.map_append, map_item_shift, List.append_assoc, List.length_append,
    String.length_toList, List.map_singleton, Item.shift_ending, Nat.add_assoc]

/-- The texts of all items with a blank between any two of them, or of all but the end of the
text, have the lexemes of the items. -/
lemma lexemes?_intercalate_items (h : itemsOf text = .ok items) {parts : List Item}
    (hparts : parts = items ∨ parts = items.dropLast) :
    ∃ ls, lexemes? (" ".intercalate (parts.map Item.text)).toList = some ls ∧
      items.map Item.lexeme = ls.map some ++ [none] := by
  obtain ⟨tokens, hscans, rfl⟩ := itemsOf_eq_ok_iff.mp h
  have hwritten : ∀ l ∈ tokens.map (·.lexeme), l.Written := by
    intro l hl
    obtain ⟨t, ht, rfl⟩ := List.mem_map.mp hl
    obtain ⟨-, -, -, -, hl, -⟩ := hscans.exists_place ht
    exact hl
  have hread := lexemes?_intercalate hwritten
  rw [← toList_intercalate_items] at hread
  refine ⟨tokens.map (·.lexeme), ?_, ?_⟩
  · rcases hparts with rfl | rfl
    · obtain ⟨bs, hbs, hend⟩ := exists_intercalate_concat_nil
        (((tokens.map Token.item).map Item.text).map String.toList)
      have hspelling := (lexemes?_eq_some_iff.mp hread).append_blanks hbs
      rw [String.toList_intercalate] at hspelling ⊢
      rw [List.map_append, List.map_append]
      exact lexemes?_eq_some_iff.mpr (hend ▸ hspelling)
    · rw [List.dropLast_concat, hread]
  · simp only [List.map_append, List.map_map]
    rfl

/-- **Blanks cut a text.** Let blanks stand between two texts. If the first one has a bad
character, then so has the whole, at the same position. If the first one has none and the second
one does, then the whole has it behind the first text and the blanks. If neither has one, then the
items of the whole are the tokens of the first text, and the items of the second one that much
further on. So the lexemes of a text with one blank between any two of them, and perhaps one in
front of its end, are read as the same lexemes again.

**Proof sketch.** A blank can follow every lexeme, so the tokens in front of it do not change with
what is behind it (`Scans.join`). What stands in front of a bad character only ends before that
character (`itemsOf_eq_error_iff`). -/
theorem itemsOf_join :
    (∀ a w b : String, w ≠ "" → Blank w.toList →
      (∀ p c, itemsOf a = .error (.badCharacter a p c) →
        itemsOf (a ++ w ++ b) = .error (.badCharacter (a ++ w ++ b) p c)) ∧
      (∀ items p c, itemsOf a = .ok items → itemsOf b = .error (.badCharacter b p c) →
        itemsOf (a ++ w ++ b) =
          .error (.badCharacter (a ++ w ++ b) (a.length + w.length + p) c)) ∧
      ∀ items items', itemsOf a = .ok items → itemsOf b = .ok items' →
        itemsOf (a ++ w ++ b) =
          .ok (items.dropLast ++ items'.map (Item.shift (a.length + w.length)))) ∧
    ∀ text items, itemsOf text = .ok items → ∀ parts, parts = items ∨ parts = items.dropLast →
      ∃ items', itemsOf (" ".intercalate (parts.map Item.text)) = .ok items' ∧
        items'.map Item.lexeme = items.map Item.lexeme := by
  refine ⟨fun a w b hne hw =>
    ⟨fun p c ha => ?_, fun items p c => itemsOf_join_of_ok_of_error hne hw,
    fun items items' => itemsOf_join_of_ok hne hw⟩, fun text items h parts hparts => ?_⟩
  · rw [String.append_assoc]
    exact itemsOf_append_of_error ha (w ++ b)
  · obtain ⟨ls, hread, hlexemes⟩ := lexemes?_intercalate_items h hparts
    obtain ⟨items', hitems', hlexemes'⟩ := exists_items_of_lexemes? hread
    exact ⟨items', hitems', hlexemes'.trans hlexemes.symm⟩

/-- Two texts without a bad character and one with it, joined by blanks in both orders. -/
theorem itemsOf_join_pieces :
    let a := "2x="
    let w := " \n"
    let b := "=> 1.5"
    (∃ items items', itemsOf a = .ok items ∧ itemsOf b = .ok items' ∧
      itemsOf (a ++ w ++ b) =
        .ok (items.dropLast ++ items'.map (Item.shift (a.length + w.length))) ∧
      ∃ again, itemsOf (" ".intercalate (items.map Item.text)) = .ok again ∧
        again.map Item.lexeme = items.map Item.lexeme) ∧
    ∃ p c, itemsOf "1 $ 2" = .error (.badCharacter "1 $ 2" p c) ∧
      itemsOf ("1 $ 2" ++ w ++ b) = .error (.badCharacter ("1 $ 2" ++ w ++ b) p c) ∧
      itemsOf (a ++ w ++ "1 $ 2") =
        .error (.badCharacter (a ++ w ++ "1 $ 2") (a.length + w.length + p) c) := by
  intro a w b
  obtain ⟨hjoin, hagain⟩ := itemsOf_join
  have hw : Blank w.toList := List.all_eq_true.mp (by decide +kernel)
  have hne : w ≠ "" := by decide
  obtain ⟨items, hitems⟩ := Result.exists_of_isOk (x := itemsOf a) (by decide +kernel)
  obtain ⟨items', hitems'⟩ := Result.exists_of_isOk (x := itemsOf b) (by decide +kernel)
  obtain ⟨fault, hfault⟩ :=
    Result.exists_of_isOk_eq_false (x := itemsOf "1 $ 2") (by decide +kernel)
  obtain ⟨before, c, -, -, -, rfl, -⟩ := itemsOf_eq_error_iff.mp hfault
  exact ⟨⟨items, items', hitems, hitems', (hjoin a w b hne hw).2.2 items items' hitems hitems',
    hagain a items hitems items (.inl rfl)⟩, before.length, c, hfault,
    (hjoin "1 $ 2" w b hne hw).1 _ c hfault, (hjoin a w "1 $ 2" hne hw).2.1 items _ c hitems hfault⟩

end Abacus
