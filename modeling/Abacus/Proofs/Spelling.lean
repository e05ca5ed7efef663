import Abacus.Proofs.Lexemes
import Abacus.Proofs.Text.Blanks

/-!
# Texts by their first lexemes

A text that has a first lexeme consists of blanks, that lexeme and the rest of the text. No lexeme
has a blank in it, so the blanks around a text make no difference to its lexemes.

## Main results

* `Abacus.spelling_nil_iff`, `Abacus.spelling_cons_iff` — what a text consists of.
* `Abacus.lexemes?_strip` — the blanks around a text make no difference.
* `Abacus.Spelling.exists_name` — a name in front of another lexeme.
-/

namespace Abacus

open Text

variable {c : Char} {cs bs rest : List Char} {l : Lexeme} {ls : List Lexeme} {name : String}

/-! ## Blanks and lexemes -/

/-- A character that names or numerals go on with is not blank. -/
lemma isBlank_of_goesOn (h : isNameChar c = true ∨ isNumeralChar c = true) : isBlank c = false := by
  rw [isNameChar_iff, isNumeralChar_iff] at h
  rcases h with (h | h) | h | h
  · exact isBlank_of_starts (.inr h)
  · exact isBlank_of_starts (.inl h)
  · exact isBlank_of_starts (.inl h)
  · obtain rfl : c = '.' := Char.toNat_inj.mp h
    decide

/-- A word consists of name characters. -/
lemma isNameChar_of_isWordText (h : isWordText cs = true) : ∀ c ∈ cs, isNameChar c = true := by
  cases cs with
  | nil => simp
  | cons c cs =>
    simp only [isWordText, Bool.and_eq_true, List.all_eq_true] at h
    exact List.forall_mem_cons.mpr ⟨isNameChar_of_isNameStart h.1, h.2⟩

/-- A name consists of name characters. -/
lemma isNameChar_of_isName (h : isName cs = true) : ∀ c ∈ cs, isNameChar c = true := by
  rw [isName, Bool.and_eq_true] at h
  exact isNameChar_of_isWordText h.1

/-- No character of a reserved word is blank. -/
lemma Keyword.isBlank_of_mem (k : Keyword) : ∀ c ∈ k.text.toList, isBlank c = false := by
  have hword : isWordText k.text.toList = true := by
    cases k <;> decide
  exact fun c hc => isBlank_of_goesOn (.inl (isNameChar_of_isWordText hword c hc))

/-- No character of a lexeme is blank. -/
lemma Lexeme.Written.isBlank_of_mem (h : l.Written) : ∀ c ∈ l.chars, isBlank c = false := by
  cases l with
  | number numeral =>
    obtain ⟨d, ds, hds, hd, hall⟩ := h
    rw [List.all_eq_true] at hall
    rw [Lexeme.chars, hds]
    refine List.forall_mem_cons.mpr ⟨isBlank_of_starts (.inl hd), fun c hc => ?_⟩
    exact isBlank_of_goesOn (.inr (hall c hc))
  | identifier name => exact fun c hc => isBlank_of_goesOn (.inl (isNameChar_of_isName h c hc))
  | keyword word => exact word.isBlank_of_mem
  | operator op => cases op <;> exact List.forall_mem_singleton.mpr (by decide)
  | openParen | closeParen | comma | equals => exact List.forall_mem_singleton.mpr (by decide)
  | arrow =>
    exact List.forall_mem_cons.mpr ⟨by decide, List.forall_mem_singleton.mpr (by decide)⟩

/-- A blank can follow every lexeme. -/
lemma Lexeme.endsBefore_blank (l : Lexeme) (hc : isBlank c = true) : l.EndsBefore (c :: cs) := by
  have hname : isNameChar c = false := by
    rw [Bool.eq_false_iff]
    intro h
    simp [isBlank_of_goesOn (.inl h)] at hc
  have hnumeral : isNumeralChar c = false := by
    rw [Bool.eq_false_iff]
    intro h
    simp [isBlank_of_goesOn (.inr h)] at hc
  cases l with
  | number => exact hnumeral
  | identifier | keyword => exact hname
  | equals =>
    rintro rfl
    exact absurd hc (by decide)
  | _ => trivial

/-- The end of the text can follow every lexeme. -/
lemma Lexeme.endsBefore_nil (l : Lexeme) : l.EndsBefore [] := by
  cases l <;> trivial

/-- Blanks behind a text do not change what it can follow. -/
lemma Lexeme.endsBefore_append_iff (hbs : Blank bs) :
    l.EndsBefore (rest ++ bs) ↔ l.EndsBefore rest := by
  cases rest with
  | cons c cs => cases l <;> exact Iff.rfl
  | nil =>
    refine iff_of_true ?_ l.endsBefore_nil
    cases bs with
    | nil => exact l.endsBefore_nil
    | cons b bs => exact l.endsBefore_blank (hbs b List.mem_cons_self)

/-! ## What a text consists of -/

/-- The texts without lexemes are those of blanks only. -/
theorem spelling_nil_iff : Spelling cs [] ↔ Blank cs := by
  constructor
  · intro h
    generalize hls : [] = ls at h
    induction h with
    | nil => exact blank_nil
    | blank hc _ ih => exact List.forall_mem_cons.mpr ⟨hc, ih hls⟩
    | lexeme => cases hls
  · intro h
    induction cs with
    | nil => exact .nil
    | cons c cs ih =>
      rw [Blank, List.forall_mem_cons] at h
      exact .blank h.1 (ih h.2)

/-- Blanks in front of a text make no difference. -/
lemma lexemes?_blanks (hbs : Blank bs) : lexemes? (bs ++ cs) = lexemes? cs := by
  induction bs with
  | nil => rfl
  | cons b bs ih =>
    rw [Blank, List.forall_mem_cons] at hbs
    rw [List.cons_append, lexemes?_blank hbs.1, ih hbs.2]

/-- Blanks spell no lexemes. -/
lemma spells_blanks (hbs : Blank bs) : Spells bs [] := by
  intro rest _
  rw [lexemes?_blanks hbs]
  exact Option.map_id'.symm

/-- The texts with a first lexeme consist of blanks, that lexeme and the rest. -/
theorem spelling_cons_iff : Spelling cs (l :: ls) ↔
    ∃ bs rest, cs = bs ++ (l.chars ++ rest) ∧ Blank bs ∧ l.Written ∧ l.EndsBefore rest ∧
      Spelling rest ls := by
  constructor
  · intro h
    generalize hls : l :: ls = ls' at h
    induction h with
    | nil => cases hls
    | blank hc _ ih =>
      obtain ⟨bs, rest, rfl, hbs, hrest⟩ := ih hls
      exact ⟨_ :: bs, rest, rfl, List.forall_mem_cons.mpr ⟨hc, hbs⟩, hrest⟩
    | lexeme hwritten hends h _ =>
      cases hls
      exact ⟨[], _, rfl, blank_nil, hwritten, hends, h⟩
  · rintro ⟨bs, rest, rfl, hbs, hwritten, hends, h⟩
    rw [← lexemes?_eq_some_iff, lexemes?_blanks hbs, lexemes?_eq_some_iff]
    exact .lexeme hwritten hends h

/-! ## Blanks around a text -/

/-- Blanks behind a text make no difference. -/
lemma Spelling.append_blanks (h : Spelling cs ls) (hbs : Blank bs) : Spelling (cs ++ bs) ls := by
  induction h with
  | nil => exact spelling_nil_iff.mpr hbs
  | blank hc _ ih => exact .blank hc ih
  | lexeme hwritten hends _ ih =>
    rw [List.append_assoc]
    exact .lexeme hwritten ((Lexeme.endsBefore_append_iff hbs).mpr hends) ih

/-- Blanks behind a text are no part of its lexemes.

**Proof sketch.** Induction on the lexemes of the longer text. A lexeme cannot reach into the
blanks, since it has none in it, so it lies in front of them and the rest of the text is shorter. -/
lemma Spelling.of_append_blanks (h : Spelling (cs ++ bs) ls) (hbs : Blank bs) : Spelling cs ls := by
  generalize hcs : cs ++ bs = cs' at h
  induction h generalizing cs with
  | nil =>
    obtain ⟨rfl, -⟩ := List.append_eq_nil_iff.mp hcs
    exact .nil
  | @blank c _ ls hc h ih =>
    rcases List.append_eq_cons_iff.mp hcs with ⟨rfl, rfl⟩ | ⟨cs', rfl, rfl⟩
    · -- Nothing stands in front of the blanks, and they have no lexemes.
      have hnil := lexemes?_eq_some_iff.mpr (spelling_nil_iff.mpr hbs)
      rw [lexemes?_eq_some_iff.mpr (.blank hc h), Option.some.injEq] at hnil
      exact hnil ▸ .nil
    · exact .blank hc (ih rfl)
  | @lexeme l rest ls hwritten hends h ih =>
    rcases List.append_eq_append_iff.mp hcs with ⟨inside, hchars, rfl⟩ | ⟨cs', rfl, rfl⟩
    · -- The part of the lexeme among the blanks is empty.
      cases inside with
      | nil =>
        have hrest : Spelling [] ls := ih rfl
        have hlast := Spelling.lexeme hwritten l.endsBefore_nil hrest
        rwa [List.append_nil, hchars, List.append_nil] at hlast
      | cons c inside =>
        have hc := hwritten.isBlank_of_mem c (by simp [hchars])
        have hc' := hbs c (by simp)
        simp [hc] at hc'
    · exact .lexeme hwritten ((Lexeme.endsBefore_append_iff hbs).mp hends) (ih rfl)

/-- The blanks around a text make no difference to its lexemes. -/
theorem lexemes?_strip (cs : List Char) : lexemes? (strip cs) = lexemes? cs := by
  obtain ⟨bs, bs', hbs, hbs', hcs⟩ := exists_strip cs
  have hbehind : lexemes? (strip cs) = lexemes? (strip cs ++ bs') := by
    ext ls
    rw [lexemes?_eq_some_iff, lexemes?_eq_some_iff]
    exact ⟨fun h => h.append_blanks hbs', fun h => h.of_append_blanks hbs'⟩
  rw [hbehind, ← lexemes?_blanks hbs, ← List.append_assoc, ← hcs]

/-! ## Names in front of other lexemes -/

/-- A name with blanks around it is read as that name. -/
lemma spells_of_strip (h : strip cs = name.toList) (hname : isName name.toList = true) :
    Spells cs [.identifier name] := by
  obtain ⟨bs, bs', hbs, hbs', hcs⟩ := exists_strip cs
  rw [h] at hcs
  subst hcs
  have hwritten : (Lexeme.identifier name).Written := hname
  intro rest hrest
  have hends : (Lexeme.identifier name).EndsBefore (bs' ++ rest) := by
    cases bs' with
    | cons b bs' => exact Lexeme.endsBefore_blank _ (hbs' b List.mem_cons_self)
    | nil =>
      cases rest with
      | nil => trivial
      | cons c rest => exact (bounded_cons.mp hrest).2
  have hsplit : bs ++ name.toList ++ bs' ++ rest =
      bs ++ ((Lexeme.identifier name).chars ++ (bs' ++ rest)) := by
    simp [Lexeme.chars]
  rw [hsplit, lexemes?_blanks hbs, lexemes?_append hwritten hends, lexemes?_blanks hbs']
  rfl

/-- A name that another lexeme follows stands with blanks around it in front of that lexeme. -/
lemma Spelling.exists_name (h : Spelling cs (.identifier name :: l :: ls)) :
    ∃ left right, cs = left ++ (l.chars ++ right) ∧ strip left = name.toList ∧
      isName name.toList = true ∧
      (∀ mark, isBlank mark = false → isNameChar mark = false → mark ∉ left) ∧
      l.EndsBefore right ∧ Spelling right ls := by
  obtain ⟨bs, rest, rfl, hbs, hname, -, hrest⟩ := spelling_cons_iff.mp h
  obtain ⟨bs', right, rfl, hbs', -, hends, hright⟩ := spelling_cons_iff.mp hrest
  refine ⟨bs ++ name.toList ++ bs', right, by simp [Lexeme.chars], ?_, hname, ?_, hends, hright⟩
  · exact strip_append hbs hbs' hname.isBlank_of_mem
  · intro mark hblank hgoesOn hmem
    rw [List.mem_append, List.mem_append] at hmem
    rcases hmem with (hmem | hmem) | hmem
    · simp [hbs mark hmem] at hblank
    · simp [isNameChar_of_isName hname mark hmem] at hgoesOn
    · simp [hbs' mark hmem] at hblank

end Abacus
