import Abacus.Text
import Mathlib.Tactic.Lemma

/-!
# Blanks around a text, and its pieces

A text is what is left of it without blanks, with blanks around. The pieces of a text are those that
make it up again with separators between them.

## Main definitions

* `Abacus.Text.Blank` — texts of blanks only.
* `Abacus.Text.nonBlanks` — the characters of a text that are not blank.

## Main results

* `Abacus.Text.strip_eq_iff` — which texts are left without the blanks around them.
* `Abacus.Text.splitOn_append`, `Abacus.Text.exists_of_splitOn` — the first piece and the others.
-/

namespace Abacus.Text

variable {cs xs bs bs' a b : List Char} {c separator : Char} {pieces : List (List Char)}

/-! ## Blanks -/

/-- A text of blanks only. -/
def Blank (cs : List Char) : Prop := ∀ c ∈ cs, isBlank c = true

/-- The empty text is blank. -/
lemma blank_nil : Blank [] := by simp [Blank]

/-- A space is blank. -/
lemma blank_space : Blank [' '] := List.forall_mem_singleton.mpr rfl

/-- The blanks in front of a text can be put back. -/
lemma exists_stripLeft (cs : List Char) : ∃ bs, Blank bs ∧ cs = bs ++ stripLeft cs := by
  refine ⟨cs.takeWhile isBlank, ?_, List.takeWhile_append_dropWhile.symm⟩
  have hall := List.all_takeWhile (p := isBlank) (l := cs)
  exact List.all_eq_true.mp hall

/-- The blanks at the end of a text can be put back. -/
lemma exists_stripRight (cs : List Char) : ∃ bs, Blank bs ∧ cs = stripRight cs ++ bs := by
  obtain ⟨bs, hbs, hreverse⟩ := exists_stripLeft cs.reverse
  refine ⟨bs.reverse, fun c hc => hbs c (List.mem_reverse.mp hc), ?_⟩
  have h := congrArg List.reverse hreverse
  rw [List.reverse_reverse, List.reverse_append] at h
  exact h

/-- The blanks around a text can be put back. -/
lemma exists_strip (cs : List Char) :
    ∃ bs bs', Blank bs ∧ Blank bs' ∧ cs = bs ++ strip cs ++ bs' := by
  obtain ⟨bs, hbs, hleft⟩ := exists_stripLeft cs
  obtain ⟨bs', hbs', hright⟩ := exists_stripRight (stripLeft cs)
  refine ⟨bs, bs', hbs, hbs', ?_⟩
  rw [List.append_assoc, strip, ← hright]
  exact hleft

/-- Blanks in front of a text are cut off, and nothing else if it starts with no blank. -/
lemma stripLeft_append (hbs : Blank bs) (hxs : ∀ c ∈ xs.head?, isBlank c = false) :
    stripLeft (bs ++ xs) = xs := by
  rw [stripLeft, List.dropWhile_append_of_pos hbs]
  cases xs with
  | nil => rfl
  | cons c cs => simp [hxs c rfl]

/-- Of blanks nothing is left. -/
lemma stripLeft_blank (hbs : Blank bs) : stripLeft bs = [] := by
  have h : stripLeft (bs ++ []) = [] := stripLeft_append hbs (by simp)
  rwa [List.append_nil] at h

/-- Blanks around a text are cut off, and nothing else if it neither starts nor ends with one. -/
lemma strip_append_of_ends (hbs : Blank bs) (hbs' : Blank bs')
    (hfirst : ∀ c ∈ xs.head?, isBlank c = false) (hlast : ∀ c ∈ xs.getLast?, isBlank c = false) :
    strip (bs ++ xs ++ bs') = xs := by
  have hleft : stripLeft (bs ++ (xs ++ bs')) = stripLeft (xs ++ bs') :=
    List.dropWhile_append_of_pos hbs
  rw [List.append_assoc, strip, hleft]
  cases xs with
  | nil =>
    rw [List.nil_append, stripLeft_blank hbs']
    rfl
  | cons x xs =>
    have hright : stripLeft (bs'.reverse ++ (x :: xs).reverse) = (x :: xs).reverse := by
      refine stripLeft_append (fun c hc => hbs' c (List.mem_reverse.mp hc)) fun c hc => ?_
      rw [List.head?_reverse] at hc
      exact hlast c hc
    have hleft : stripLeft (x :: xs ++ bs') = x :: xs ++ bs' := by
      simp [stripLeft, hfirst x rfl]
    rw [hleft]
    show (stripLeft (x :: xs ++ bs').reverse).reverse = x :: xs
    rw [List.reverse_append, hright, List.reverse_reverse]

/-- Blanks around a text are cut off, and nothing else if there are no blanks in it. -/
lemma strip_append (hbs : Blank bs) (hbs' : Blank bs') (hxs : ∀ c ∈ xs, isBlank c = false) :
    strip (bs ++ xs ++ bs') = xs :=
  strip_append_of_ends hbs hbs' (fun c hc => hxs c (List.mem_of_mem_head? hc))
    fun c hc => hxs c (List.mem_of_mem_getLast? hc)

/-- A text without blanks is left of exactly the texts that consist of it with blanks around. -/
theorem strip_eq_iff (hxs : ∀ c ∈ xs, isBlank c = false) :
    strip cs = xs ↔ ∃ bs bs', Blank bs ∧ Blank bs' ∧ cs = bs ++ xs ++ bs' := by
  constructor
  · rintro rfl
    exact exists_strip cs
  · rintro ⟨bs, bs', hbs, hbs', rfl⟩
    exact strip_append hbs hbs' hxs

/-- Nothing is left of exactly the blank texts. -/
lemma strip_eq_nil_iff : strip cs = [] ↔ Blank cs := by
  rw [strip_eq_iff (by simp)]
  constructor
  · rintro ⟨bs, bs', hbs, hbs', rfl⟩
    rw [List.append_nil]
    exact List.forall_mem_append.mpr ⟨hbs, hbs'⟩
  · intro h
    exact ⟨cs, [], h, blank_nil, by simp⟩

/-- What is left of a text starts with no blank. -/
lemma isBlank_of_strip (h : strip cs = c :: xs) : isBlank c = false := by
  obtain ⟨bs, -, hleft⟩ := exists_stripRight (stripLeft cs)
  have hhead := List.head?_dropWhile_not isBlank cs
  rw [← stripLeft, hleft, ← strip, h] at hhead
  simpa using hhead

/-- A text does not end with a blank once the blanks at its end are cut off. -/
lemma isBlank_of_getLast?_stripRight (hc : c ∈ (stripRight cs).getLast?) : isBlank c = false := by
  have hhead := List.head?_dropWhile_not isBlank cs.reverse
  rw [stripRight, List.getLast?_reverse] at hc
  rw [hc] at hhead
  simpa using hhead

/-- What is left of a text ends with no blank. -/
lemma isBlank_of_getLast?_strip (hc : c ∈ (strip cs).getLast?) : isBlank c = false :=
  isBlank_of_getLast?_stripRight hc

/-- Blanks around a text make no difference to what is left of it. -/
lemma strip_blanks (hbs : Blank bs) (hbs' : Blank bs') : strip (bs ++ cs ++ bs') = strip cs := by
  obtain ⟨as, as', has, has', hcs⟩ := exists_strip cs
  have houter : bs ++ (as ++ strip cs ++ as') ++ bs' = bs ++ as ++ strip cs ++ (as' ++ bs') := by
    simp
  rw [← hcs] at houter
  rw [houter]
  refine strip_append_of_ends (List.forall_mem_append.mpr ⟨hbs, has⟩)
    (List.forall_mem_append.mpr ⟨has', hbs'⟩) (fun c hc => ?_) fun c => isBlank_of_getLast?_strip
  obtain ⟨xs, hxs⟩ := List.head?_eq_some_iff.mp hc
  exact isBlank_of_strip hxs

/-- Of what is left nothing more is cut off. -/
lemma strip_strip (cs : List Char) : strip (strip cs) = strip cs := by
  obtain ⟨bs, bs', hbs, hbs', hcs⟩ := exists_strip cs
  rw [← strip_blanks hbs hbs', ← hcs]

/-- The blanks at the end of a text make no difference to what is left of it. -/
lemma strip_stripRight (cs : List Char) : strip (stripRight cs) = strip cs := by
  obtain ⟨bs, hbs, hcs⟩ := exists_stripRight cs
  have h : strip ([] ++ stripRight cs ++ bs) = strip (stripRight cs) :=
    strip_blanks blank_nil hbs
  rw [List.nil_append, ← hcs] at h
  exact h.symm

/-! ## The characters that are not blank -/

/-- The characters of a text that are not blank. -/
def nonBlanks (cs : List Char) : List Char := cs.filter fun c => !isBlank c

/-- The characters of two texts, one behind the other. -/
@[simp]
lemma nonBlanks_append (cs cs' : List Char) :
    nonBlanks (cs ++ cs') = nonBlanks cs ++ nonBlanks cs' :=
  List.filter_append _ _

/-- A space in front of a text is none of them. -/
lemma nonBlanks_space (cs : List Char) : nonBlanks (' ' :: cs) = nonBlanks cs :=
  rfl

/-- Exactly the blank texts have no other characters. -/
lemma nonBlanks_eq_nil_iff : nonBlanks cs = [] ↔ Blank cs := by
  simp [nonBlanks, Blank, List.filter_eq_nil_iff]

/-- No character is lost with the blanks around a text. -/
@[simp]
lemma nonBlanks_strip (cs : List Char) : nonBlanks (strip cs) = nonBlanks cs := by
  obtain ⟨bs, bs', hbs, hbs', hcs⟩ := exists_strip cs
  have h := congrArg nonBlanks hcs
  rw [nonBlanks_append, nonBlanks_append, nonBlanks_eq_nil_iff.mpr hbs,
    nonBlanks_eq_nil_iff.mpr hbs', List.nil_append, List.append_nil] at h
  exact h.symm

/-- The first character of a text that is not blank is the first one that is left of it. -/
lemma exists_strip_eq_cons (h : nonBlanks cs = c :: xs) : ∃ xs', strip cs = c :: xs' := by
  cases hstrip : strip cs with
  | nil =>
    rw [strip_eq_nil_iff, ← nonBlanks_eq_nil_iff, h] at hstrip
    cases hstrip
  | cons d ds =>
    rw [← nonBlanks_strip, hstrip, nonBlanks, List.filter_cons, isBlank_of_strip hstrip] at h
    obtain ⟨rfl, -⟩ := List.cons.inj h
    exact ⟨ds, rfl⟩

/-! ## Pieces -/

/-- There is always a piece. -/
lemma splitOn_ne_nil (separator : Char) (cs : List Char) : splitOn separator cs ≠ [] := by
  cases cs with
  | nil => exact List.cons_ne_nil _ _
  | cons c cs =>
    rw [splitOn]
    split
    · exact List.cons_ne_nil _ _
    · split <;> exact List.cons_ne_nil _ _

/-- A text without separators is one piece. -/
lemma splitOn_of_notMem (h : separator ∉ cs) : splitOn separator cs = [cs] := by
  induction cs with
  | nil => rfl
  | cons c cs ih =>
    rw [List.mem_cons, not_or] at h
    rw [splitOn, if_neg (Ne.symm h.1), ih h.2]

/-- What stands in front of the first separator is the first piece. -/
lemma splitOn_append (h : separator ∉ a) :
    splitOn separator (a ++ separator :: b) = a :: splitOn separator b := by
  induction a with
  | nil => rw [List.nil_append, splitOn, if_pos rfl]
  | cons c cs ih =>
    rw [List.mem_cons, not_or] at h
    rw [List.cons_append, splitOn, if_neg (Ne.symm h.1), ih h.2]

/-- Characters in front of a text that are no separators belong to its first piece. -/
lemma splitOn_append_of_notMem (h : separator ∉ a) (hb : splitOn separator b = xs :: pieces) :
    splitOn separator (a ++ b) = (a ++ xs) :: pieces := by
  induction a with
  | nil => exact hb
  | cons c a ih =>
    rw [List.mem_cons, not_or] at h
    rw [List.cons_append, splitOn, if_neg (Ne.symm h.1), ih h.2]
    rfl

/-- The first piece is the whole text, or it stands in front of the first separator. -/
lemma exists_of_splitOn (h : splitOn separator cs = a :: pieces) :
    separator ∉ a ∧ (pieces = [] ∧ cs = a ∨
      ∃ b, cs = a ++ separator :: b ∧ splitOn separator b = pieces) := by
  by_cases hmem : separator ∈ cs
  · obtain ⟨a', b, rfl, hnot⟩ := List.eq_append_cons_of_mem hmem
    rw [splitOn_append hnot] at h
    cases h
    exact ⟨hnot, .inr ⟨b, rfl, rfl⟩⟩
  · rw [splitOn_of_notMem hmem] at h
    cases h
    exact ⟨hmem, .inl ⟨rfl, rfl⟩⟩

/-! ## Lines -/

/-- A text without carriage returns keeps its line feeds only. -/
lemma unifyNewlines_of_notMem (h : '\r' ∉ cs) : unifyNewlines cs = cs := by
  fun_induction unifyNewlines cs with
  | case1 => rfl
  | case2 cs ih => simp at h
  | case3 c cs hne ih =>
    rw [List.mem_cons, not_or] at h
    rw [if_neg (Ne.symm h.1), ih h.2]

/-- The lines of a file in which every line ends with a line feed. -/
lemma lines_flatMap {ls : List (List Char)} (h : ∀ line ∈ ls, '\n' ∉ line ∧ '\r' ∉ line) :
    lines (ls.flatMap fun line => line ++ ['\n']) = ls := by
  have hreturn : '\r' ∉ ls.flatMap fun line => line ++ ['\n'] := by
    simp only [List.mem_flatMap, List.mem_append, not_exists, not_and, not_or]
    exact fun line hline => ⟨(h line hline).2, by decide⟩
  have hpieces : splitOn '\n' (ls.flatMap fun line => line ++ ['\n']) = ls ++ [[]] := by
    clear hreturn
    induction ls with
    | nil => rfl
    | cons line ls ih =>
      rw [List.forall_mem_cons] at h
      rw [List.flatMap_cons, List.append_assoc, List.singleton_append, splitOn_append h.1.1, ih h.2]
      rfl
  rw [lines, unifyNewlines_of_notMem hreturn, hpieces]
  simp

end Abacus.Text
