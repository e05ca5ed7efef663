import Abacus.Proofs.Text.Blanks
import Mathlib.Data.List.Forall2

/-!
# Texts with blanks of other lengths

Two texts that differ in nothing but how many blanks, and which, stand where there are some. They
start alike, and cut at a character that is not blank, or without the blanks around them, they
fall apart into texts of the same sort.

## Main definitions

* `Abacus.Text.Respaced` — texts that differ in their blanks only.

## Main results

* `Abacus.Text.Respaced.strip` — such texts without the blanks around them.
* `Abacus.Text.Respaced.strip_join` — such texts with others behind them.
* `Abacus.Text.Respaced.splitOn` — the pieces of such texts.
-/

namespace Abacus.Text

/-- Texts that differ in their blanks only: where one has some, the other has some as well. -/
inductive Respaced : List Char → List Char → Prop where
  | nil : Respaced [] []
  | cons (c : Char) {a b : List Char} (h : Respaced a b) : Respaced (c :: a) (c :: b)
  | blanks {bs bs' a b : List Char} (hbs : Blank bs) (hbs' : Blank bs') (hne : bs ≠ [])
      (hne' : bs' ≠ [])
      (h : Respaced a b) : Respaced (bs ++ a) (bs' ++ b)

namespace Respaced

variable {a b a' b' bs xs : List Char} {c mark : Char} {p : Char → Bool}

/-! ## Putting texts together -/

/-- A text differs in nothing from itself. -/
lemma refl (a : List Char) : Respaced a a := by
  induction a with
  | nil => exact .nil
  | cons c a ih => exact .cons c ih

/-- Both texts are on a par. -/
lemma symm (h : Respaced a b) : Respaced b a := by
  induction h with
  | nil => exact .nil
  | cons c _ ih => exact .cons c ih
  | blanks hbs hbs' hne hne' _ ih => exact .blanks hbs' hbs hne' hne ih

/-- Texts of this sort, one behind the other. -/
lemma append (h : Respaced a b) (h' : Respaced a' b') : Respaced (a ++ a') (b ++ b') := by
  induction h with
  | nil => exact h'
  | cons c _ ih => exact .cons c ih
  | blanks hbs hbs' hne hne' _ ih =>
    rw [List.append_assoc, List.append_assoc]
    exact .blanks hbs hbs' hne hne' ih

/-- Texts of this sort, read from their ends. -/
lemma reverse (h : Respaced a b) : Respaced a.reverse b.reverse := by
  induction h with
  | nil => exact .nil
  | cons c _ ih =>
    rw [List.reverse_cons, List.reverse_cons]
    exact ih.append (refl [c])
  | blanks hbs hbs' hne hne' _ ih =>
    rw [List.reverse_append, List.reverse_append]
    have hblanks := blanks (fun c hc => hbs c (List.mem_reverse.mp hc))
      (fun c hc => hbs' c (List.mem_reverse.mp hc)) (mt List.reverse_eq_nil_iff.mp hne)
      (mt List.reverse_eq_nil_iff.mp hne') nil
    rw [List.append_nil, List.append_nil] at hblanks
    exact ih.append hblanks

/-! ## What such texts have in common -/

/-- The characters that are not blank are the same. -/
lemma nonBlanks_eq (h : Respaced a b) : nonBlanks a = nonBlanks b := by
  induction h with
  | nil => rfl
  | cons c _ ih =>
    rw [← List.singleton_append, nonBlanks_append, ih, ← nonBlanks_append]
    rfl
  | blanks hbs hbs' _ _ _ ih =>
    rw [nonBlanks_append, nonBlanks_append, nonBlanks_eq_nil_iff.mpr hbs,
      nonBlanks_eq_nil_iff.mpr hbs', ih]

/-- A character that is not blank is in both texts or in none. -/
lemma mem_iff (h : Respaced a b) (hc : isBlank c = false) : c ∈ a ↔ c ∈ b := by
  have hmem : ∀ cs, c ∈ nonBlanks cs ↔ c ∈ cs := by
    intro cs
    rw [nonBlanks, List.mem_filter, hc]
    exact and_iff_left rfl
  rw [← hmem a, ← hmem b, h.nonBlanks_eq]

/-- If one of the texts is blank, so is the other. -/
lemma blank (h : Respaced a b) (ha : Blank a) : Blank b := by
  rw [← nonBlanks_eq_nil_iff, ← h.nonBlanks_eq]
  exact nonBlanks_eq_nil_iff.mpr ha

/-- If one of the texts is empty, so is the other. -/
lemma eq_nil_iff (h : Respaced a b) : a = [] ↔ b = [] := by
  cases h with
  | nil => exact Iff.rfl
  | cons c _ => simp
  | blanks _ _ hne hne' _ => simp [hne, hne']

/-- The texts start with the same character, or both with a blank. -/
lemma cons_cases (h : Respaced (c :: a) b) :
    (∃ b', b = c :: b' ∧ Respaced a b') ∨
      isBlank c = true ∧ ∃ d b', b = d :: b' ∧ isBlank d = true := by
  generalize hcs : c :: a = cs at h
  cases h with
  | nil => cases hcs
  | cons d h =>
    cases hcs
    exact .inl ⟨_, rfl, h⟩
  | @blanks bs bs' _ _ hbs hbs' hne hne' h =>
    obtain ⟨b, bs, rfl⟩ := List.exists_cons_of_ne_nil hne
    obtain ⟨b', bs', rfl⟩ := List.exists_cons_of_ne_nil hne'
    cases hcs
    exact .inr ⟨hbs c List.mem_cons_self, b', _, rfl, hbs' b' List.mem_cons_self⟩

/-- A character that is not blank stands in front of both texts. -/
lemma exists_cons (h : Respaced (c :: a) b) (hc : isBlank c = false) :
    ∃ b', b = c :: b' ∧ Respaced a b' := by
  rcases h.cons_cases with h | ⟨hblank, -⟩
  · exact h
  · rw [hc] at hblank
    cases hblank

/-- Characters that are not blank stand in front of both texts. -/
lemma exists_append (h : Respaced (xs ++ a) b) (hxs : ∀ c ∈ xs, isBlank c = false) :
    ∃ b', b = xs ++ b' ∧ Respaced a b' := by
  induction xs generalizing b with
  | nil => exact ⟨b, rfl, h⟩
  | cons c xs ih =>
    rw [List.forall_mem_cons] at hxs
    obtain ⟨b', rfl, htail⟩ := h.exists_cons hxs.1
    obtain ⟨b'', rfl, hrest⟩ := ih htail hxs.2
    exact ⟨b'', rfl, hrest⟩

/-- A text without blanks differs from no other. -/
lemma eq_of_solid (h : Respaced a b) (ha : ∀ c ∈ a, isBlank c = false) : a = b := by
  have h' : Respaced (a ++ []) b := by
    rwa [List.append_nil]
  obtain ⟨b', rfl, hnil⟩ := h'.exists_append ha
  rw [hnil.eq_nil_iff.mp rfl, List.append_nil]

/-- Characters of a class without blanks do not stand in front of one of the texts only. -/
lemma head_of_head (h : Respaced a b) (hp : ∀ c, isBlank c = true → p c = false)
    (ha : ∀ c ∈ a.head?, p c = false) : ∀ c ∈ b.head?, p c = false := by
  cases a with
  | nil =>
    rw [h.eq_nil_iff.mp rfl]
    simp
  | cons c a =>
    rcases h.cons_cases with ⟨b', rfl, -⟩ | ⟨-, d, b', rfl, hd⟩
    · intro d hd
      cases hd
      exact ha c rfl
    · intro d' hd'
      cases hd'
      exact hp d hd

/-! ## Cutting texts -/

/-- What stands before a character that is not blank, wherever it is, and what stands behind it. -/
lemma exists_split {xs : List Char} (h : Respaced xs b) (hxs : xs = a ++ mark :: a')
    (hmark : isBlank mark = false) :
    ∃ b₁ b₂, b = b₁ ++ mark :: b₂ ∧ Respaced a b₁ ∧ Respaced a' b₂ := by
  induction h generalizing a with
  | nil => simp at hxs
  | @cons c _ b h ih =>
    cases a with
    | nil =>
      obtain ⟨rfl, rfl⟩ := List.cons.inj hxs
      exact ⟨[], b, rfl, .nil, h⟩
    | cons d a =>
      obtain ⟨rfl, hrest⟩ := List.cons.inj hxs
      obtain ⟨b₁, b₂, rfl, h₁, h₂⟩ := ih hrest
      exact ⟨c :: b₁, b₂, rfl, .cons c h₁, h₂⟩
  | @blanks bs bs' _ b hbs hbs' hne hne' _ ih =>
    rcases List.append_eq_append_iff.mp hxs with ⟨rest, rfl, hrest⟩ | ⟨rest, rfl, hrest⟩
    · obtain ⟨b₁, b₂, rfl, h₁, h₂⟩ := ih hrest
      exact ⟨bs' ++ b₁, b₂, (List.append_assoc _ _ _).symm, .blanks hbs hbs' hne hne' h₁, h₂⟩
    · cases rest with
      | nil =>
        obtain ⟨b₁, b₂, rfl, h₁, h₂⟩ := ih (a := []) hrest.symm
        obtain rfl : b₁ = [] := h₁.eq_nil_iff.mp rfl
        have hblanks := blanks hbs hbs' hne hne' nil
        rw [List.append_nil, List.append_nil, List.append_nil] at hblanks
        exact ⟨bs', b₂, rfl, hblanks, h₂⟩
      | cons d rest =>
        obtain ⟨rfl, -⟩ := List.cons.inj hrest
        rw [hbs mark (by simp)] at hmark
        cases hmark

/-- The texts without the blanks in front of them. -/
lemma stripLeft (h : Respaced a b) : Respaced (stripLeft a) (stripLeft b) := by
  induction h with
  | nil => exact .nil
  | @cons c a b h ih =>
    simp only [Text.stripLeft, List.dropWhile_cons]
    split
    · exact ih
    · exact .cons c h
  | blanks hbs hbs' _ _ _ ih =>
    rw [Text.stripLeft, Text.stripLeft, List.dropWhile_append_of_pos hbs,
      List.dropWhile_append_of_pos hbs']
    exact ih

/-- **The texts without the blanks around them.** -/
theorem strip (h : Respaced a b) : Respaced (strip a) (strip b) :=
  h.stripLeft.reverse.stripLeft.reverse

/-- Texts behind others, with a blank in between. The blanks around each of them do not matter. -/
lemma strip_join (h : Respaced (Text.strip a) (Text.strip b))
    (h' : Respaced (Text.strip a') (Text.strip b')) :
    Respaced (Text.strip (a ++ ' ' :: a')) (Text.strip (b ++ ' ' :: b')) := by
  -- Each of the two texts is, blanks around it apart, what is left of its parts with blanks in
  -- between.
  have hparts : ∀ x x' : List Char, ∃ gap, Blank gap ∧ gap ≠ [] ∧
      Text.strip (x ++ ' ' :: x') = Text.strip (Text.strip x ++ (gap ++ Text.strip x')) := by
    intro x x'
    obtain ⟨bs, gap, hbs, hgap, hx⟩ := exists_strip x
    obtain ⟨gap', bs', hgap', hbs', hx'⟩ := exists_strip x'
    have hjoined : x ++ ' ' :: x' =
        bs ++ (Text.strip x ++ (gap ++ ' ' :: gap' ++ Text.strip x')) ++ bs' := by
      calc x ++ ' ' :: x'
          = (bs ++ Text.strip x ++ gap) ++ ' ' :: (gap' ++ Text.strip x' ++ bs') := by
            rw [← hx, ← hx']
        _ = bs ++ (Text.strip x ++ (gap ++ ' ' :: gap' ++ Text.strip x')) ++ bs' := by simp
    refine ⟨gap ++ ' ' :: gap', ?_, by simp, ?_⟩
    · exact List.forall_mem_append.mpr ⟨hgap, List.forall_mem_cons.mpr ⟨by decide, hgap'⟩⟩
    · rw [hjoined, strip_blanks hbs hbs']
  obtain ⟨gap, hgap, hne, ha⟩ := hparts a a'
  obtain ⟨gap', hgap', hne', hb⟩ := hparts b b'
  rw [ha, hb]
  exact (h.append (.blanks hgap hgap' hne hne' h')).strip

/-- **The pieces of the texts**, between separators that are not blank.

**Proof sketch.** Induction along the relation. What is no separator is added to the first piece on
both sides, and separators stand in the same places, as blanks are none. -/
theorem splitOn (h : Respaced a b) (hmark : isBlank mark = false) :
    List.Forall₂ Respaced (splitOn mark a) (splitOn mark b) := by
  -- What is no separator goes to the first piece of both.
  have hpieces : ∀ {xs xs' a b : List Char}, mark ∉ xs → mark ∉ xs' → Respaced xs xs' →
      List.Forall₂ Respaced (Text.splitOn mark a) (Text.splitOn mark b) →
      List.Forall₂ Respaced (Text.splitOn mark (xs ++ a)) (Text.splitOn mark (xs' ++ b)) := by
    intro xs xs' a b hxs hxs' hfirst h
    obtain ⟨x, pieces, ha⟩ := List.exists_cons_of_ne_nil (splitOn_ne_nil mark a)
    obtain ⟨x', pieces', hb⟩ := List.exists_cons_of_ne_nil (splitOn_ne_nil mark b)
    rw [ha, hb, List.forall₂_cons] at h
    rw [splitOn_append_of_notMem hxs ha, splitOn_append_of_notMem hxs' hb]
    exact .cons (hfirst.append h.1) h.2
  induction h with
  | nil => exact .cons .nil .nil
  | @cons c a b h ih =>
    by_cases hc : c = mark
    · subst hc
      rw [Text.splitOn, Text.splitOn, if_pos rfl, if_pos rfl]
      exact .cons .nil ih
    · have hmem : mark ∉ [c] := by
        simpa using Ne.symm hc
      exact hpieces hmem hmem (refl [c]) ih
  | blanks hbs hbs' hne hne' _ ih =>
    have hmem : ∀ {bs : List Char}, Blank bs → mark ∉ bs := by
      intro bs hbs hin
      rw [hbs mark hin] at hmark
      cases hmark
    have hfirst := blanks hbs hbs' hne hne' nil
    rw [List.append_nil, List.append_nil] at hfirst
    exact hpieces (hmem hbs) (hmem hbs') hfirst ih

end Respaced

end Abacus.Text
