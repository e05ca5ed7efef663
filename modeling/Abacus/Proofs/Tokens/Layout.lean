import Abacus.Proofs.Tokens.Scanning

/-!
# How tokens lie in a text

The tokens of a text stand one behind another with nothing but blanks between them, and each is as
long as it can be. If a text has no tokens, then the scan stops at the first character that no
text can have in its place.

## Main definitions

* `Abacus.Item.IsRun` — an item that is a run of characters of a class, as long as possible.
* `Abacus.Tiles` — how the items of a text lie in it.

## Main results

* `Abacus.Scans.tiles` — the tokens of a text and its end lie in it like that.
* `Abacus.itemsOf_lossless` — what a scan finds, and where it stops.
-/

namespace Abacus

variable {c : Char} {cs : List Char} {l : Lexeme} {p i : Nat} {t t' : Token} {tokens : List Token}
  {text : String}

/-! ## Items in a text -/

/-- An item that is a run of characters in a text: it starts with a character of one class and
goes on with ones of another class, and the character behind it is not of that class. -/
structure Item.IsRun (starts goesOn : Char → Bool) (cs : List Char) (item : Item) : Prop where
  run : ∃ d ds, item.chars = d :: ds ∧ starts d = true ∧ ∀ x ∈ ds, goesOn x = true
  behind : ∀ c, cs[item.stop]? = some c → goesOn c = false

/-- `Tiles items cs` states how the tokens of a text and its end lie in the text `cs`. -/
structure Tiles (items : List Item) (cs : List Char) : Prop where
  /-- The last item, and no other one, is the end of the text. -/
  ending : ∃ tokens : List Token, items = tokens.map Token.item ++ [.ending cs.length]
  /-- Every item starts behind the start of the one before it and not in front of its end. -/
  ordered : items.Pairwise fun item next =>
    item.position < next.position ∧ item.stop ≤ next.position
  /-- An item is the slice of the text at its position. -/
  slice : ∀ item ∈ items, Text.slice item.position item.stop cs = item.chars
  /-- Outside of the items there are blanks only. -/
  blank : ∀ i c, cs[i]? = some c → (∀ item ∈ items, ¬ (item.position ≤ i ∧ i < item.stop)) →
    Text.isBlank c = true
  /-- A numeral is a run of digits and points that starts with a digit, as long as possible on both
  sides. -/
  numeral : ∀ item ∈ items, (∃ s, item.lexeme = some (.number s)) →
    item.IsRun Char.isDigit isNumeralChar cs ∧
      ∀ i c, i + 1 = item.position → cs[i]? = some c → isNumeralChar c = false
  /-- An identifier or a reserved word is a run of letters, digits and underscores that does not
  start with a digit, as long as possible from where it starts. -/
  word : ∀ item ∈ items,
    (∃ s, item.lexeme = some (.identifier s)) ∨ (∃ k, item.lexeme = some (.keyword k)) →
      item.IsRun isNameStart isNameChar cs
  /-- The reserved words are exactly these three. -/
  keyword : ∀ item ∈ items,
    (∃ k, item.lexeme = some (.keyword k)) ↔ item.text ∈ ["let", "def", "fn"]
  /-- An equals sign is not the start of an arrow. -/
  equals : ∀ item ∈ items, item.lexeme = some .equals → cs[item.stop]? ≠ some '>'

@[simp] lemma Token.item_chars (t : Token) : t.item.chars = t.lexeme.chars := rfl

@[simp] lemma Token.item_stop (t : Token) : t.item.stop = t.stop := rfl

@[simp] lemma Item.ending_chars (length : Nat) : (ending length).chars = [] := rfl

@[simp] lemma Item.ending_position (length : Nat) : (ending length).position = length := rfl

@[simp] lemma Item.ending_stop (length : Nat) : (ending length).stop = length := rfl

/-! ## Lexemes -/

/-- A lexeme has characters. -/
lemma Lexeme.Written.length_pos (h : l.Written) : 0 < l.chars.length := by
  obtain ⟨c, cs, hcs, -⟩ := h.exists_cons
  rw [hcs]
  exact Nat.zero_lt_succ _

/-- Only the first character of a text decides whether a lexeme can stand in front of it. -/
lemma Lexeme.EndsBefore.singleton (h : l.EndsBefore cs) (hc : cs[0]? = some c) :
    l.EndsBefore [c] := by
  cases cs with
  | nil => cases hc
  | cons d ds =>
    cases hc
    exact l.endsBefore_cons_iff.mp h

/-- The words that texts have are made of name characters. -/
lemma Lexeme.Written.isWordText (h : l.Written)
    (hword : (∃ s, l = .identifier s) ∨ ∃ k, l = .keyword k) : isWordText l.chars = true := by
  rcases hword with ⟨s, rfl⟩ | ⟨k, rfl⟩
  · simp only [Lexeme.Written, isName, Bool.and_eq_true] at h
    exact h.1
  · cases k <;> decide

/-- A text is a reserved word exactly if it is one of the three. -/
lemma Keyword.ofText?_eq_none_iff {s : String} :
    Keyword.ofText? s = none ↔ s ∉ ["let", "def", "fn"] := by
  simp only [Keyword.ofText?, List.mem_cons, List.not_mem_nil, or_false, not_or]
  split
  · simp_all
  split
  · simp_all
  split <;> simp_all

/-- The lexemes with the characters of a reserved word are the reserved words. -/
lemma Lexeme.Written.keyword_iff (h : l.Written) :
    (∃ k, l = .keyword k) ↔ l.text ∈ ["let", "def", "fn"] := by
  constructor
  · rintro ⟨k, rfl⟩
    cases k <;> decide
  · intro htext
    cases l with
    | keyword k => exact ⟨k, rfl⟩
    | identifier name =>
      simp only [Lexeme.Written, isName, Bool.and_eq_true, String.ofList_toList,
        Option.isNone_iff_eq_none, Keyword.ofText?_eq_none_iff] at h
      rw [Lexeme.text, Lexeme.chars, String.ofList_toList] at htext
      exact absurd htext h.2
    | number numeral =>
      obtain ⟨c, cs, hcs, hdigit, -⟩ := h
      have hletter : ∀ s ∈ ["let", "def", "fn"], s.toList.head?.map Char.isDigit = some false := by
        decide
      have hfirst := hletter _ htext
      rw [Lexeme.text, Lexeme.chars, String.toList_ofList, hcs, List.head?_cons, Option.map_some,
        hdigit]
        at hfirst
      cases hfirst
    | operator op => cases op <;> exact absurd htext (by decide)
    | openParen | closeParen | comma | equals | arrow => exact absurd htext (by decide)

/-! ## Tokens in a text -/

namespace Scans

/-- The characters of a token stand in the text, with the next character behind them. -/
lemma exists_stop (h : Scans [] 0 cs tokens) (ht : t ∈ tokens) :
    ∃ before behind, cs = before ++ t.lexeme.chars ++ behind ∧ t.position = before.length ∧
      t.lexeme.Written ∧ t.lexeme.EndsBefore behind ∧ cs[t.stop]? = behind[0]? := by
  obtain ⟨before, behind, hcs, hposition, hwritten, hends⟩ := h.exists_place ht
  rw [Nat.zero_add] at hposition
  rw [List.append_nil] at hends
  refine ⟨before, behind, hcs, hposition, hwritten, hends, ?_⟩
  have hstop : t.stop = (before ++ t.lexeme.chars).length := by
    rw [Token.stop, hposition, List.length_append]
  rw [hcs, hstop, List.getElem?_append_right (Nat.le_refl _), Nat.sub_self]

/-- The character behind a token cannot go on its lexeme. -/
lemma endsBefore_stop (h : Scans [] 0 cs tokens) (ht : t ∈ tokens) (hc : cs[t.stop]? = some c) :
    t.lexeme.EndsBefore [c] := by
  obtain ⟨-, behind, -, -, -, hends, hstop⟩ := h.exists_stop ht
  exact hends.singleton (hstop ▸ hc)

/-- A token has characters. -/
lemma position_lt_stop (h : Scans [] 0 cs tokens) (ht : t ∈ tokens) : t.position < t.stop := by
  obtain ⟨-, -, -, -, hwritten, -⟩ := h.exists_stop ht
  have := hwritten.length_pos
  rw [Token.stop]
  omega

/-- A token does not go on behind the end of the text. -/
lemma stop_le_length (h : Scans [] 0 cs tokens) (ht : t ∈ tokens) : t.stop ≤ cs.length := by
  obtain ⟨before, behind, hcs, hposition, -⟩ := h.exists_stop ht
  rw [hcs, Token.stop, hposition, List.length_append, List.length_append]
  omega

/-- A token ends before every token that starts behind its start. -/
lemma stop_le (h : Scans [] 0 cs tokens) (ht : t ∈ tokens) (ht' : t' ∈ tokens)
    (hlt : t.position < t'.position) : t.stop ≤ t'.position := by
  have hordered := h.pairwise_stop_le
  refine List.Pairwise.forall_of_forall_of_flip (R := fun t t' => t.position < t'.position →
    t.stop ≤ t'.position) (fun t _ hlt => absurd hlt (Nat.lt_irrefl _)) ?_ ?_ ht ht' hlt
  · exact hordered.imp fun {t t'} hle (_ : t.position < t'.position) => hle
  · refine hordered.imp_of_mem fun ht _ hle hlt => ?_
    have := h.position_lt_stop ht
    omega

/-- A character between the ends of a token is one of its lexeme. -/
lemma mem_chars (h : Scans [] 0 cs tokens) (ht : t ∈ tokens) (hc : cs[i]? = some c)
    (hle : t.position ≤ i) (hlt : i < t.stop) : c ∈ t.lexeme.chars := by
  obtain ⟨before, behind, rfl, hposition, -⟩ := h.exists_stop ht
  rw [Token.stop] at hlt
  rw [List.append_assoc, List.getElem?_append_right (by omega),
    List.getElem?_append_left (by omega)] at hc
  exact List.mem_of_getElem? hc

/-- No character of a numeral stands right in front of a numeral.

**Proof sketch.** It would belong to a token that ends there. Numerals and words do not end in
front of a digit, and no other lexeme has a character of a numeral. -/
lemma isNumeralChar_before (h : Scans [] 0 cs tokens) (ht : t ∈ tokens)
    (hnumeral : ∃ s, t.lexeme = .number s) (hi : i + 1 = t.position) (hc : cs[i]? = some c) :
    isNumeralChar c = false := by
  rw [Bool.eq_false_iff]
  intro hgoesOn
  obtain ⟨t', ht', hle, hlt⟩ := h.exists_token hc (isBlank_of_goesOn (.inr hgoesOn))
  rw [Nat.zero_add] at hle hlt
  have hstop : t'.stop = t.position := by
    have := h.stop_le ht' ht (by omega)
    omega
  have hmem : c ∈ t'.lexeme.chars := h.mem_chars ht' hc hle hlt
  obtain ⟨s, hs⟩ := hnumeral
  obtain ⟨before, behind, hcs, hposition, hwritten, -⟩ := h.exists_stop ht
  rw [hs] at hwritten
  obtain ⟨d, ds, hds, hdigit, -⟩ := hwritten
  have hd : cs[t'.stop]? = some d := by
    rw [hstop, hposition, hcs, hs, Lexeme.chars, hds, List.append_assoc,
      List.getElem?_append_right (Nat.le_refl _), Nat.sub_self]
    rfl
  have hends := h.endsBefore_stop ht' hd
  cases hl : t'.lexeme with
  | number =>
    rw [hl] at hends
    exact absurd (isNumeralChar_iff.mpr (.inl hdigit)) (Bool.eq_false_iff.mp hends)
  | identifier | keyword =>
    rw [hl] at hends
    exact absurd (isNameChar_iff.mpr (.inr hdigit)) (Bool.eq_false_iff.mp hends)
  | operator op =>
    rw [hl, Lexeme.chars, List.mem_singleton] at hmem
    rw [hmem] at hgoesOn
    cases op <;> cases hgoesOn
  | openParen | closeParen | comma | equals =>
    rw [hl, Lexeme.chars, List.mem_singleton] at hmem
    rw [hmem] at hgoesOn
    cases hgoesOn
  | arrow =>
    rw [hl, Lexeme.chars] at hmem
    have harrow : ['=', '>'].all (isNumeralChar · == false) = true := by decide
    rw [eq_of_beq (List.all_eq_true.mp harrow c hmem)] at hgoesOn
    cases hgoesOn

/-! ## The items of a text -/

/-- A token is a run of characters of a class if its lexeme is one and does not end in front of
another character of the class. -/
lemma isRun (h : Scans [] 0 cs tokens) (ht : t ∈ tokens) {starts goesOn : Char → Bool}
    (hrun : ∃ d ds, t.lexeme.chars = d :: ds ∧ starts d = true ∧ ∀ x ∈ ds, goesOn x = true)
    (hbehind : ∀ c, t.lexeme.EndsBefore [c] → goesOn c = false) :
    t.item.IsRun starts goesOn cs where
  run := hrun
  behind := fun c hc => hbehind c (h.endsBefore_stop ht hc)

/-- A numeral is a digit and all digits and points behind it. -/
lemma isRun_of_number (h : Scans [] 0 cs tokens) (ht : t ∈ tokens) {s : String}
    (hs : t.lexeme = .number s) : t.item.IsRun Char.isDigit isNumeralChar cs := by
  obtain ⟨-, -, -, -, hwritten, -⟩ := h.exists_stop ht
  refine h.isRun ht ?_ ?_
  · rw [hs] at hwritten ⊢
    obtain ⟨d, ds, hds, hdigit, hall⟩ := hwritten
    exact ⟨d, ds, hds, hdigit, List.all_eq_true.mp hall⟩
  · rw [hs]
    exact fun c hc => hc

/-- A word is a character that starts a name and all characters of names behind it. -/
lemma isRun_of_word (h : Scans [] 0 cs tokens) (ht : t ∈ tokens)
    (hword : (∃ s, t.lexeme = .identifier s) ∨ ∃ k, t.lexeme = .keyword k) :
    t.item.IsRun isNameStart isNameChar cs := by
  obtain ⟨-, -, -, -, hwritten, -⟩ := h.exists_stop ht
  refine h.isRun ht ?_ ?_
  · have htext := hwritten.isWordText hword
    cases hchars : t.lexeme.chars with
    | nil =>
      rw [hchars] at htext
      cases htext
    | cons d ds =>
      rw [hchars, isWordText, Bool.and_eq_true, List.all_eq_true] at htext
      exact ⟨d, ds, rfl, htext⟩
  · rcases hword with ⟨s, hs⟩ | ⟨k, hk⟩
    · rw [hs]
      exact fun c hc => hc
    · rw [hk]
      exact fun c hc => hc

/-- Whatever holds of the tokens of a text and of its end holds of its items. -/
lemma forall_items {property : Item → Prop} (htokens : ∀ t ∈ tokens, property t.item)
    (hend : property (.ending p)) :
    ∀ item ∈ tokens.map Token.item ++ [.ending p], property item := by
  intro item hitem
  rcases List.mem_append.mp hitem with hitem | hitem
  · obtain ⟨t, ht, rfl⟩ := List.mem_map.mp hitem
    exact htokens t ht
  · rw [List.mem_singleton.mp hitem]
    exact hend

/-- The tokens of a text and its end lie in it as they should. -/
theorem tiles (h : Scans [] 0 cs tokens) :
    Tiles (tokens.map Token.item ++ [.ending cs.length]) cs where
  ending := ⟨tokens, rfl⟩
  ordered := by
    refine List.pairwise_append.mpr ⟨List.pairwise_map.mpr ?_, List.pairwise_singleton _ _, ?_⟩
    · refine h.pairwise_stop_le.imp_of_mem fun ht _ hle => ?_
      exact ⟨Nat.lt_of_lt_of_le (h.position_lt_stop ht) hle, hle⟩
    · intro item hitem last hlast
      obtain ⟨t, ht, rfl⟩ := List.mem_map.mp hitem
      rw [List.mem_singleton.mp hlast]
      have hle := h.stop_le_length ht
      exact ⟨Nat.lt_of_lt_of_le (h.position_lt_stop ht) hle, hle⟩
  slice := by
    refine forall_items (fun t ht => ?_) ?_
    · obtain ⟨before, behind, hcs, hposition, -⟩ := h.exists_stop ht
      have hslice := Text.slice_append before t.lexeme.chars behind
      rw [← hcs, ← hposition, ← Int.natCast_add] at hslice
      exact hslice
    · have hslice := Text.slice_append cs [] []
      simpa using hslice
  blank := by
    intro i c hc houtside
    cases hblank : Text.isBlank c with
    | true => rfl
    | false =>
      obtain ⟨t, ht, hle, hlt⟩ := h.exists_token hc hblank
      rw [Nat.zero_add] at hle hlt
      exact absurd ⟨hle, hlt⟩ (houtside t.item (List.mem_append_left _ (List.mem_map_of_mem ht)))
  numeral := by
    refine forall_items (fun t ht => ?_) (by simp [Item.ending])
    rintro ⟨s, hs⟩
    replace hs : t.lexeme = .number s := Option.some.inj hs
    exact ⟨h.isRun_of_number ht hs, fun i c hi hc => h.isNumeralChar_before ht ⟨s, hs⟩ hi hc⟩
  word := by
    refine forall_items (fun t ht hword => ?_) (by simp [Item.ending])
    exact h.isRun_of_word ht (by simpa [Token.item] using hword)
  keyword := by
    refine forall_items (fun t ht => ?_) (by simp [Item.ending, Item.text, Item.chars])
    obtain ⟨-, -, -, -, hwritten, -⟩ := h.exists_stop ht
    have hkeyword := hwritten.keyword_iff
    simpa [Token.item, Item.text, Item.chars, Lexeme.text] using hkeyword
  equals := by
    refine forall_items (fun t ht hequals hc => ?_) (by simp [Item.ending])
    replace hequals : t.lexeme = .equals := Option.some.inj hequals
    have hends := h.endsBefore_stop ht hc
    rw [hequals] at hends
    exact hends rfl

end Scans

/-! ## Texts -/

/-- The items of a text are its tokens and its end. -/
lemma itemsOf_eq_ok_iff {items : List Item} : itemsOf text = .ok items ↔
    ∃ tokens, Scans [] 0 text.toList tokens ∧
      tokens.map Token.item ++ [.ending text.toList.length] = items := by
  rw [itemsOf, Result.map_eq_ok_iff]
  simp only [tokensOf, scan, Result.mapError_eq_ok_iff, scanFrom_eq_ok_iff, String.length_toList]

/-- A text has no items exactly if a character that starts no lexeme stands behind tokens, and the
fault is about that character. -/
lemma itemsOf_eq_error_iff {fault : Fault} : itemsOf text = .error fault ↔
    ∃ before c behind tokens, text.toList = before ++ c :: behind ∧
      fault = .badCharacter text before.length c ∧ Scans (c :: behind) 0 before tokens ∧
      Text.isBlank c = false ∧ nextLexeme? (c :: behind) = none := by
  have hcharacter : ∀ {before behind : List Char} {c : Char}, text.toList = before ++ c :: behind →
      text.toList.getD before.length ' ' = c := by
    intro before behind c htext
    rw [htext, List.getD_eq_getElem?_getD, List.getElem?_append_right (Nat.le_refl _), Nat.sub_self]
    rfl
  rw [itemsOf, Result.map_eq_error_iff, tokensOf, Result.mapError_eq_error_iff]
  constructor
  · rintro ⟨q, hscan, rfl⟩
    obtain ⟨before, c, behind, tokens, htext, rfl, hc⟩ := scanFrom_eq_error_iff.mp hscan
    rw [Nat.zero_add]
    exact ⟨before, c, behind, tokens, htext, by rw [hcharacter htext], hc⟩
  · rintro ⟨before, c, behind, tokens, htext, rfl, hc⟩
    refine ⟨before.length, ?_, by rw [hcharacter htext]⟩
    exact scanFrom_eq_error_iff.mpr ⟨before, c, behind, tokens, htext, (Nat.zero_add _).symm, hc⟩

/-- **A scan loses nothing and stops at the first bad character.** If it reaches the end, then the
tokens and the end of the text lie in the text as `Tiles` says: they stand one behind another,
each of them is the slice of the text at its position, nothing but blanks stands between them, and
numerals and words are as long as they can be. Otherwise the fault is about a character of the
text. What stands in front of this character has tokens, and no text that starts like this one up
to this character has any.

**Proof sketch.** A scan stops behind tokens (`scanFrom_eq_error_iff`). They remain the tokens of
the text in front of the character if nothing follows, and also if anything else follows the
character. -/
theorem itemsOf_lossless (text : String) :
    (∀ items, itemsOf text = .ok items → Tiles items text.toList) ∧
    ∀ fault, itemsOf text = .error fault →
      ∃ p c, fault = .badCharacter text p c ∧ text.toList[p]? = some c ∧
        (∃ items, itemsOf (String.ofList (text.toList.take p)) = .ok items) ∧
        ∀ (s : List Char) (items : List Item),
          itemsOf (String.ofList (text.toList.take (p + 1) ++ s)) ≠ .ok items := by
  refine ⟨fun items h => ?_, fun fault h => ?_⟩
  · obtain ⟨tokens, hscans, rfl⟩ := itemsOf_eq_ok_iff.mp h
    exact hscans.tiles
  · obtain ⟨before, c, behind, tokens, htext, rfl, hscans, hblank, hnone⟩ :=
      itemsOf_eq_error_iff.mp h
    have hfront : text.toList.take before.length = before := by
      rw [htext, List.take_left]
    have hcharacter : text.toList.take (before.length + 1) = before ++ [c] := by
      rw [htext, List.take_length_add_append, List.take_succ_cons, List.take_zero]
    refine ⟨before.length, c, rfl, ?_, ?_, fun s items hitems => ?_⟩
    · rw [htext, List.getElem?_append_right (Nat.le_refl _), Nat.sub_self]
      rfl
    · refine ⟨_, itemsOf_eq_ok_iff.mpr ⟨tokens, ?_, rfl⟩⟩
      rw [String.toList_ofList, hfront]
      exact hscans.of_rest fun l _ => l.endsBefore_nil
    · generalize hlonger : String.ofList (text.toList.take (before.length + 1) ++ s) =
        longer at hitems
      have hstops : itemsOf longer = .error (.badCharacter longer before.length c) := by
        refine itemsOf_eq_error_iff.mpr ⟨before, c, s, tokens, ?_, rfl, ?_, hblank, ?_⟩
        · rw [← hlonger, String.toList_ofList, hcharacter, List.append_assoc, List.singleton_append]
        · exact hscans.of_rest fun l => l.endsBefore_cons_iff.mp
        · exact nextLexeme?_eq_none_of_cons hnone
      rw [hstops] at hitems
      cases hitems

/-- A numeral that a word follows at once and a text with a blank at its end, and a text with a
bad character. -/
theorem itemsOf_lossless_dollar :
    (∃ items, itemsOf "2x=>1.5 " = .ok items ∧ items.length = 5 ∧ Tiles items "2x=>1.5 ".toList) ∧
      ∃ p c, itemsOf "(1 $ 2" = .error (.badCharacter "(1 $ 2" p c) ∧ "(1 $ 2".toList[p]? = some c ∧
        ∀ (s : List Char) (items : List Item),
          itemsOf (String.ofList ("(1 $ 2".toList.take (p + 1) ++ s)) ≠ .ok items := by
  obtain ⟨items, hitems⟩ := Result.exists_of_isOk (x := itemsOf "2x=>1.5 ") (by decide +kernel)
  obtain ⟨fault, hfault⟩ :=
    Result.exists_of_isOk_eq_false (x := itemsOf "(1 $ 2") (by decide +kernel)
  obtain ⟨p, c, rfl, hc, -, hnone⟩ := (itemsOf_lossless "(1 $ 2").2 fault hfault
  have hlength : (itemsOf "2x=>1.5 ").toOption.map List.length = some 5 := by decide +kernel
  rw [hitems] at hlength
  exact ⟨⟨items, hitems, Option.some_inj.mp hlength, (itemsOf_lossless "2x=>1.5 ").1 items hitems⟩,
    p, c, hfault, hc, hnone⟩

end Abacus
