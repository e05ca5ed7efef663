import Abacus.Proofs.Grammar
import Abacus.Proofs.Spelling
import Abacus.Statement
import Mathlib.Data.List.Nodup

/-!
# Splitting the text of a statement

A text opens like a binding or a definition exactly if its first lexeme is the word for it, whatever
script the characters behind that word are from. The parts that it is cut into are those that its
lexemes show, since a name has no symbol in it.

## Main results

* `Abacus.Statement.opensWith_of_lexemes?`, `Abacus.Statement.lexemes?_of_opensWith` — the word
  that a text opens with is its first lexeme.
* `Abacus.Statement.splitBinding_append`, `Abacus.Statement.eq_of_splitBinding`,
  `Abacus.Statement.splitDefinition_eq_some_iff` — how a text is put together from its parts.
* `Abacus.Statement.admitParams_eq_ok_iff` — which names are let through as parameters.
-/

namespace Abacus

open Grammar Text

variable {c : Char} {cs left inside right rest : List Char} {k : Keyword} {ls : List Lexeme}
  {name subject : String} {ps : List String}

/-! ## Word characters -/

/-- Word characters are name characters, and the letters and numbers beyond the ASCII range. -/
lemma isWord_eq (c : Char) : isWord c =
    (isNameChar c || (128 ≤ c.toNat && wordRanges.any fun r => r.1 ≤ c.toNat && c.toNat ≤ r.2)) :=
  rfl

/-- Characters that belong to no word go on no name. -/
lemma isNameChar_of_isWord (h : isWord c = false) : isNameChar c = false := by
  rw [isWord_eq, Bool.or_eq_false_iff] at h
  exact h.1

/-- No blank lies in one of the ranges of word characters. -/
lemma wordRanges_avoid_blanks : ∀ r ∈ wordRanges,
    (r.2 < 0x85 ∨ 0x85 < r.1) ∧ (r.2 < 0xA0 ∨ 0xA0 < r.1) ∧ (r.2 < 0x1680 ∨ 0x1680 < r.1) ∧
      (r.2 < 0x2000 ∨ 0x200A < r.1) ∧ (r.2 < 0x2028 ∨ 0x2029 < r.1) ∧
      (r.2 < 0x202F ∨ 0x202F < r.1) ∧ (r.2 < 0x205F ∨ 0x205F < r.1) ∧
      (r.2 < 0x3000 ∨ 0x3000 < r.1) := by
  decide +kernel

/-- No blank is a word character. -/
lemma isWord_of_isBlank (h : isBlank c = true) : isWord c = false := by
  have hname : isNameChar c = false := by
    rw [Bool.eq_false_iff]
    intro hname
    rw [isBlank_of_goesOn (.inl hname)] at h
    cases h
  rw [isWord_eq, hname, Bool.false_or, Bool.and_eq_false_iff, List.any_eq_false]
  by_cases hascii : c.toNat < 128
  · exact .inl (by simpa using hascii)
  · right
    intro r hr
    have havoid := wordRanges_avoid_blanks r hr
    simp only [isBlank, Bool.or_eq_true, Bool.and_eq_true, decide_eq_true_eq, beq_iff_eq] at h
    simp only [Bool.and_eq_true, decide_eq_true_eq]
    omega

/-- A lexeme starts with a name character or with no word character at all. -/
lemma Lexeme.Written.isWord_of_head {l : Lexeme} (h : l.Written) (hcs : l.chars = c :: cs) :
    isNameChar c = true ∨ isWord c = false := by
  cases l with
  | number numeral =>
    obtain ⟨d, ds, hds, hd, -⟩ := h
    rw [Lexeme.chars, hds] at hcs
    cases hcs
    exact .inl (isNameChar_iff.mpr (.inr hd))
  | identifier name =>
    have hc : c ∈ (Lexeme.identifier name).chars := by
      rw [hcs]
      exact List.mem_cons_self
    exact .inl (isNameChar_of_isName h c hc)
  | keyword word => cases word <;> cases hcs <;> decide
  | operator op => cases op <;> cases hcs <;> decide
  | openParen | closeParen | comma | equals | arrow =>
    cases hcs
    decide

/-- Where a text with lexemes does not start with a name character, it starts with no word character
at all. -/
lemma isWord_of_spelling (h : Spelling (c :: cs) ls) (hc : isNameChar c = false) :
    isWord c = false := by
  generalize hcs : c :: cs = cs' at h
  cases h with
  | nil => cases hcs
  | blank hblank _ =>
    cases hcs
    exact isWord_of_isBlank hblank
  | lexeme hwritten hends h =>
    obtain ⟨d, ds, hds, -⟩ := hwritten.exists_cons
    rw [hds] at hcs
    cases hcs
    have hhead := hwritten.isWord_of_head hds
    rw [hc] at hhead
    exact hhead.resolve_left Bool.false_ne_true

/-! ## How a text opens -/

namespace Statement

/-- A text opens with a word if something other than a word character follows it. -/
lemma opensWith_eq_true_iff {word : List Char} : opensWith word cs = true ↔
    ∃ rest, cs = word ++ rest ∧ ∀ c ∈ rest.head?, isWord c = false := by
  rw [opensWith, Bool.and_eq_true, List.isPrefixOf_iff_prefix]
  constructor
  · rintro ⟨⟨rest, rfl⟩, h⟩
    refine ⟨rest, rfl, ?_⟩
    rw [List.drop_left] at h
    intro c hc
    rw [hc, Option.all_some, Bool.not_eq_true'] at h
    exact h
  · rintro ⟨rest, rfl, h⟩
    refine ⟨⟨rest, rfl⟩, ?_⟩
    rw [List.drop_left]
    cases rest with
    | nil => rfl
    | cons c rest => exact (Bool.not_eq_true' _).mpr (h c rfl)

/-- What a text opens with is its first lexeme. -/
lemma lexemes?_of_opensWith (h : opensWith k.text.toList cs = true) :
    lexemes? cs = (lexemes? (cs.drop k.text.toList.length)).map (.keyword k :: ·) := by
  obtain ⟨rest, rfl, hrest⟩ := opensWith_eq_true_iff.mp h
  have hends : (Lexeme.keyword k).EndsBefore rest := by
    cases rest with
    | nil => trivial
    | cons c rest => exact isNameChar_of_isWord (hrest c rfl)
  rw [List.drop_left]
  exact lexemes?_append (l := .keyword k) trivial hends

/-- A text without blanks in front of it opens with the word that is its first lexeme. -/
lemma opensWith_of_lexemes? (hcs : ∀ c ∈ cs.head?, isBlank c = false)
    (h : lexemes? cs = some (.keyword k :: ls)) : opensWith k.text.toList cs = true := by
  rw [lexemes?_eq_some_iff] at h
  obtain ⟨bs, rest, rfl, hbs, -, hends, hrest⟩ := spelling_cons_iff.mp h
  cases bs with
  | cons b bs =>
    have hb := hbs b List.mem_cons_self
    rw [hcs b rfl] at hb
    cases hb
  | nil =>
    refine opensWith_eq_true_iff.mpr ⟨rest, rfl, fun c hc => ?_⟩
    cases rest with
    | nil => cases hc
    | cons d rest =>
      cases hc
      exact isWord_of_spelling hrest hends

/-! ## The equals sign of a binding -/

/-- An equals sign is found at the start of a text, if no arrow starts there. -/
lemma equalsSign?_equals (hcs : cs.head? ≠ some '>') : equalsSign? ('=' :: cs) = some 0 := by
  cases cs with
  | nil => rfl
  | cons c cs =>
    rw [equalsSign?]
    intro _ h
    cases h
    exact hcs rfl

/-- Other characters are passed over. -/
lemma equalsSign?_cons (hc : c ≠ '=') : equalsSign? (c :: cs) = (equalsSign? cs).map (· + 1) := by
  rw [equalsSign?]
  · intro _ h _
    exact hc h
  · exact hc

/-- The first equals sign is found, if no arrow starts there. -/
lemma equalsSign?_append (hleft : '=' ∉ left) (hright : right.head? ≠ some '>') :
    equalsSign? (left ++ '=' :: right) = some left.length := by
  induction left with
  | nil => exact equalsSign?_equals hright
  | cons c left ih =>
    rw [List.mem_cons, not_or] at hleft
    rw [List.cons_append, equalsSign?_cons (Ne.symm hleft.1), ih hleft.2]
    rfl

/-- An equals sign that is found stands there, and no arrow starts with it. -/
lemma exists_of_equalsSign? {i : Nat} (h : equalsSign? cs = some i) :
    ∃ left right, cs = left ++ '=' :: right ∧ left.length = i ∧ right.head? ≠ some '>' := by
  fun_induction equalsSign? cs generalizing i with
  | case1 => cases h
  | case2 cs ih =>
    obtain ⟨j, hj, rfl⟩ := Option.map_eq_some_iff.mp h
    obtain ⟨left, right, rfl, rfl, hright⟩ := ih hj
    exact ⟨'=' :: '>' :: left, right, rfl, rfl, hright⟩
  | case3 cs hne =>
    cases h
    refine ⟨[], cs, rfl, rfl, fun hhead => ?_⟩
    obtain ⟨cs', hcs⟩ := List.head?_eq_some_iff.mp hhead
    exact hne cs' hcs
  | case4 c cs _ _ ih =>
    obtain ⟨j, hj, rfl⟩ := Option.map_eq_some_iff.mp h
    obtain ⟨left, right, rfl, rfl, hright⟩ := ih hj
    exact ⟨c :: left, right, rfl, rfl, hright⟩

/-- A text is cut at its first equals sign. -/
lemma splitBinding_append (hleft : '=' ∉ left) (hright : right.head? ≠ some '>') :
    splitBinding (left ++ '=' :: right) = some (left, right) := by
  rw [splitBinding, equalsSign?_append hleft hright, Option.map_some, List.take_left,
    List.drop_append]
  simp

/-- The parts of a text stand on the two sides of an equals sign. -/
lemma eq_of_splitBinding (h : splitBinding cs = some (left, right)) :
    cs = left ++ '=' :: right ∧ right.head? ≠ some '>' := by
  obtain ⟨i, hi, hparts⟩ := Option.map_eq_some_iff.mp h
  obtain ⟨left', right', rfl, rfl, hright⟩ := exists_of_equalsSign? hi
  have hdrop : (left' ++ '=' :: right').drop (left'.length + 1) = right' := by
    simp [List.drop_append]
  rw [List.take_left, hdrop, Prod.mk.injEq] at hparts
  obtain ⟨rfl, rfl⟩ := hparts
  exact ⟨rfl, hright⟩

/-! ## The parts of a definition -/

/-- A text without a mark in front of the mark is found as a whole. -/
lemma splitAt_append {mark : Char} (rest : List Char) (h : mark ∉ left) :
    (left ++ mark :: rest).takeWhile (· != mark) = left ∧
      (left ++ mark :: rest).dropWhile (· != mark) = mark :: rest :=
  takeWhile_append_of_notMem h fun _ _ hrest => (List.cons.inj hrest).1.symm

/-- A text in which a mark is found consists of what stands in front of the mark, of the mark, and
of the rest. -/
lemma eq_of_dropWhile {mark : Char} (h : cs.dropWhile (· != mark) = c :: rest) :
    cs = cs.takeWhile (· != mark) ++ mark :: rest ∧ mark ∉ cs.takeWhile (· != mark) := by
  have hc : c = mark := by simpa using head_dropWhile h
  have hcs := List.takeWhile_append_dropWhile (p := (· != mark)) (l := cs)
  rw [h, hc] at hcs
  refine ⟨hcs.symm, fun hmem => ?_⟩
  have hall := List.all_eq_true.mp (List.all_takeWhile (p := (· != mark)) (l := cs)) mark hmem
  simp at hall

/-- A text falls apart as a definition exactly if it is put together from the parts: the name has
no opening parenthesis in it, the parameters have no closing one, and the equals sign starts no
arrow. -/
lemma splitDefinition_eq_some_iff : splitDefinition cs = some (left, inside, right) ↔
    ∃ bs, Blank bs ∧ '(' ∉ left ∧ ')' ∉ inside ∧ right.head? ≠ some '>' ∧
      cs = "def".toList ++ (left ++ '(' :: (inside ++ ')' :: (bs ++ '=' :: right))) := by
  constructor
  · intro h
    unfold splitDefinition at h
    split at h
    · rename_i rest
      split at h
      · rename_i inside hleft
        split at h
        · rename_i behind hinside
          split at h
          · cases h
          · rename_i right hne hequals
            cases h
            obtain ⟨hrest, hnotleft⟩ := eq_of_dropWhile hleft
            obtain ⟨hin, hnotin⟩ := eq_of_dropWhile hinside
            obtain ⟨bs, hbs, hbehind⟩ := exists_stripLeft behind
            rw [hequals] at hbehind
            refine ⟨bs, hbs, hnotleft, hnotin, fun hhead => ?_, ?_⟩
            · obtain ⟨cs', hcs⟩ := List.head?_eq_some_iff.mp hhead
              exact hne cs' hcs
            · rw [← hbehind, ← hin, ← hrest]
              rfl
          · cases h
        · cases h
      · cases h
    · cases h
  · rintro ⟨bs, hbs, hleft, hinside, hright, rfl⟩
    have ⟨htake, hdrop⟩ := splitAt_append (inside ++ ')' :: (bs ++ '=' :: right)) hleft
    have ⟨htake', hdrop'⟩ := splitAt_append (bs ++ '=' :: right) hinside
    have hequals : stripLeft (bs ++ '=' :: right) = '=' :: right := by
      apply stripLeft_append hbs
      rintro c hc
      cases hc
      decide
    show splitDefinition ('d' :: 'e' :: 'f' ::
      (left ++ '(' :: (inside ++ ')' :: (bs ++ '=' :: right))))
      = some (left, inside, right)
    simp only [splitDefinition, htake, hdrop, htake', hdrop', hequals]
    -- behind the parentheses stands an arrow, an equals sign, or neither
    split
    · rename_i heq
      cases heq
      exact absurd rfl hright
    · rename_i heq
      cases heq
      rfl
    · rename_i hne
      exact absurd rfl (hne right)

/-! ## Parameters -/

/-- Parameters are let through if they are names and no two of them are alike. They are the names
without the blanks around them. -/
lemma admitParams_eq_ok_iff {seen : List String} {pieces : List (List Char)} (hseen : seen.Nodup) :
    admitParams subject seen pieces = .ok ps ↔
      (∀ piece ∈ pieces, isName (strip piece) = true) ∧
        ps = seen ++ pieces.map (fun piece => String.ofList (strip piece)) ∧ ps.Nodup := by
  induction pieces generalizing seen with
  | nil =>
    rw [admitParams, Except.ok.injEq]
    constructor
    · rintro rfl
      simpa using hseen
    · rintro ⟨-, hps, -⟩
      simpa using hps.symm
  | cons piece pieces ih =>
    rw [admitParams, Result.bind_eq_ok_iff, List.forall_mem_cons]
    simp only [admitName_eq_ok_iff, String.toList_ofList]
    have hadd : ∀ name ∉ seen, (seen ++ [name]).Nodup := by
      intro name hnew
      rw [← List.concat_eq_append]
      exact hseen.concat hnew
    constructor
    · rintro ⟨name, ⟨hname, rfl⟩, h⟩
      split at h
      · cases h
      · rename_i hnew
        rw [ih (hadd _ hnew)] at h
        obtain ⟨hpieces, hps, hnodup⟩ := h
        refine ⟨⟨hname, hpieces⟩, ?_, hnodup⟩
        rw [hps, List.map_cons, List.append_assoc, List.singleton_append]
    · rintro ⟨⟨hname, hpieces⟩, hps, hnodup⟩
      have hnew : String.ofList (strip piece) ∉ seen := by
        intro hmem
        rw [hps, List.map_cons] at hnodup
        have hdisjoint := (List.nodup_append.mp hnodup).2.2
        exact hdisjoint _ hmem _ List.mem_cons_self rfl
      refine ⟨_, ⟨hname, rfl⟩, ?_⟩
      rw [if_neg hnew, ih (hadd _ hnew)]
      refine ⟨hpieces, ?_, hnodup⟩
      rw [hps, List.map_cons, List.append_assoc, List.singleton_append]

/-- Names with commas between them are read as parameters. -/
lemma spells_pieces {p : String} (h : (splitOn ',' inside).map strip = (p :: ps).map String.toList)
    (hps : ∀ q ∈ p :: ps, isName q.toList = true) : Spells inside (parameters (p :: ps)) := by
  induction ps generalizing inside p with
  | nil =>
    obtain ⟨a, pieces, hsplit, ha, hpieces⟩ := List.map_eq_cons_iff.mp h
    obtain ⟨-, ⟨-, rfl⟩ | ⟨b, -, hb⟩⟩ := exists_of_splitOn hsplit
    · exact spells_of_strip ha (hps p List.mem_cons_self)
    · rw [List.map_nil, List.map_eq_nil_iff] at hpieces
      exact absurd (hb.trans hpieces) (splitOn_ne_nil ',' b)
  | cons q ps ih =>
    obtain ⟨a, pieces, hsplit, ha, hpieces⟩ := List.map_eq_cons_iff.mp h
    obtain ⟨-, ⟨rfl, -⟩ | ⟨b, rfl, rfl⟩⟩ := exists_of_splitOn hsplit
    · cases hpieces
    · have hfirst : Spells a [.identifier p] := spells_of_strip ha (hps p List.mem_cons_self)
      have hothers : Spells b (parameters (q :: ps)) :=
        ih hpieces fun r hr => hps r (List.mem_cons_of_mem p hr)
      have hcomma : Bounded (',' :: b) := bounded_cons.mpr (by decide)
      exact hfirst.append hcomma (hothers.cons (l := .comma) trivial fun _ => trivial)

/-- The names between parentheses are read as parameters. -/
lemma spells_paramPieces (h : (paramPieces inside).map strip = ps.map String.toList)
    (hps : ∀ p ∈ ps, isName p.toList = true) : Spells inside (parameters ps) := by
  rw [paramPieces] at h
  split at h
  · rename_i hempty
    have hblank : Blank inside := strip_eq_nil_iff.mp (List.isEmpty_iff.mp hempty)
    cases ps with
    | nil => exact spells_blanks hblank
    | cons p ps => cases h
  · cases ps with
    | nil => exact absurd (List.map_eq_nil_iff.mp h) (splitOn_ne_nil ',' inside)
    | cons p ps => exact spells_pieces h hps

/-- Parameters that are let through are distinct, and the text between the parentheses is read as
them. -/
lemma spells_of_admitParams (h : admitParams subject [] (paramPieces inside) = .ok ps) :
    Spells inside (parameters ps) ∧ ps.Nodup := by
  obtain ⟨hpieces, hps, hnodup⟩ := (admitParams_eq_ok_iff List.nodup_nil).mp h
  refine ⟨spells_paramPieces ?_ ?_, hnodup⟩
  · simp [hps]
  · simpa [hps] using hpieces

/-- Distinct names are let through, whatever blanks are around them. -/
lemma admitParams_of_names {pieces : List (List Char)} (h : pieces.map strip = ps.map String.toList)
    (hps : ∀ p ∈ ps, isName p.toList = true) (hnodup : ps.Nodup) :
    admitParams subject [] pieces = .ok ps := by
  rw [admitParams_eq_ok_iff List.nodup_nil]
  refine ⟨fun piece hpiece => ?_, ?_, hnodup⟩
  · have hmem := List.mem_map_of_mem (f := strip) hpiece
    rw [h] at hmem
    obtain ⟨p, hp, hstrip⟩ := List.mem_map.mp hmem
    rw [← hstrip]
    exact hps p hp
  · have hmap := congrArg (List.map String.ofList) h
    simpa [Function.comp_def] using hmap.symm

/-- Parameters in front of a closing parenthesis are names with commas between them. -/
lemma exists_pieces {p : String}
    (h : Spelling cs (parameters (p :: ps) ++ .closeParen :: ls)) :
    ∃ inside rest, cs = inside ++ ')' :: rest ∧ ')' ∉ inside ∧
      (splitOn ',' inside).map strip = (p :: ps).map String.toList ∧
      (∀ q ∈ p :: ps, isName q.toList = true) ∧ Spelling rest ls := by
  induction ps generalizing p cs with
  | nil =>
    obtain ⟨left, right, rfl, hleft, hname, hmark, -, hright⟩ := Spelling.exists_name h
    refine ⟨left, right, rfl, hmark _ (by decide) (by decide), ?_, ?_, hright⟩
    · rw [splitOn_of_notMem (hmark ',' (by decide) (by decide))]
      exact congrArg (fun a => [a]) hleft
    · exact List.forall_mem_singleton.mpr hname
  | cons q ps ih =>
    obtain ⟨left, right, rfl, hleft, hname, hmark, -, hright⟩ := Spelling.exists_name h
    obtain ⟨inside, rest, rfl, hinside, hpieces, hnames, hrest⟩ := ih hright
    refine ⟨left ++ ',' :: inside, rest, by simp [Lexeme.chars], ?_, ?_, ?_, hrest⟩
    · rw [List.mem_append, List.mem_cons, not_or, not_or]
      exact ⟨hmark _ (by decide) (by decide), by decide, hinside⟩
    · rw [splitOn_append (hmark ',' (by decide) (by decide)), List.map_cons, hleft, hpieces]
      rfl
    · exact List.forall_mem_cons.mpr ⟨hname, hnames⟩

/-- Parameters in front of a closing parenthesis are the names in the text up to it. -/
lemma exists_paramPieces (h : Spelling cs (parameters ps ++ .closeParen :: ls)) :
    ∃ inside rest, cs = inside ++ ')' :: rest ∧ ')' ∉ inside ∧
      (paramPieces inside).map strip = ps.map String.toList ∧
      (∀ p ∈ ps, isName p.toList = true) ∧ Spelling rest ls := by
  cases ps with
  | nil =>
    obtain ⟨bs, rest, rfl, hbs, -, -, hrest⟩ := spelling_cons_iff.mp h
    refine ⟨bs, rest, rfl, fun hmem => ?_, ?_, by simp, hrest⟩
    · exact absurd (hbs _ hmem) (by decide)
    · rw [paramPieces, strip_eq_nil_iff.mpr hbs]
      rfl
  | cons p ps =>
    obtain ⟨inside, rest, rfl, hinside, hpieces, hnames, hrest⟩ := exists_pieces h
    have hempty : ¬ (strip inside).isEmpty = true := by
      -- Blanks have no lexemes, and names have some.
      intro hempty
      rw [List.isEmpty_iff, strip_eq_nil_iff] at hempty
      have hnil := (spells_blanks hempty).lexemes?_eq
      rw [(spells_pieces hpieces hnames).lexemes?_eq, Option.some.injEq] at hnil
      cases ps <;> cases hnil
    refine ⟨inside, rest, rfl, hinside, ?_, hnames, hrest⟩
    rw [paramPieces, if_neg hempty, hpieces]

end Statement

end Abacus
