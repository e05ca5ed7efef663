import Abacus.Proofs.Text.Blanks

/-!
# Where a text occurs inside another

A search finds a place where the text that is looked for stands, and it finds one in every text of
which the other is a part. What is cut out of a text is a part of it.

## Main results

* `Abacus.Text.exists_of_find?` — the text stands where it is found.
* `Abacus.Text.exists_find?_of_infix` — a part of a text is found.
* `Abacus.Text.find?_eq_iff` — the place that is found is the first one.
* `Abacus.Text.strip_isInfix`, `Abacus.Text.isInfix_of_mem_splitOn` — what is cut out of a text.
-/

namespace Abacus.Text

variable {needle cs : List Char}

/-- The text that is found stands at its place. -/
lemma exists_of_find? {i : Nat} (h : find? needle cs = some i) :
    ∃ before behind, cs = before ++ needle ++ behind ∧ before.length = i := by
  induction cs generalizing i with
  | nil =>
    rw [find?, Option.ite_none_right_eq_some, List.isEmpty_iff, Option.some.injEq] at h
    obtain ⟨rfl, rfl⟩ := h
    exact ⟨[], [], rfl, rfl⟩
  | cons c cs ih =>
    rw [find?] at h
    split at h
    · rename_i hprefix
      obtain ⟨behind, hbehind⟩ := List.isPrefixOf_iff_prefix.mp hprefix
      cases h
      exact ⟨[], behind, hbehind.symm, rfl⟩
    · obtain ⟨j, hj, rfl⟩ := Option.map_eq_some_iff.mp h
      obtain ⟨before, behind, rfl, rfl⟩ := ih hj
      exact ⟨c :: before, behind, rfl, rfl⟩

/-- A part of a text is found. -/
lemma exists_find?_of_infix (h : needle <:+: cs) : ∃ i, find? needle cs = some i := by
  induction cs with
  | nil =>
    rw [List.infix_nil] at h
    rw [h]
    exact ⟨0, rfl⟩
  | cons c cs ih =>
    rw [find?]
    split
    · exact ⟨0, rfl⟩
    · rename_i hprefix
      rw [List.isPrefixOf_iff_prefix] at hprefix
      obtain ⟨i, hi⟩ := ih ((List.infix_cons_iff.mp h).resolve_left hprefix)
      exact ⟨i + 1, by rw [hi]; rfl⟩

/-! ## The first occurrence -/

section First

variable {before behind : List Char}

/-- A text is not a part of itself without its last character. -/
lemma not_infix_dropLast (h : needle ≠ []) : ¬ needle <:+: needle.dropLast := by
  intro hinfix
  have hlength := hinfix.length_le
  have hpos := List.length_pos_iff.mpr h
  rw [List.length_dropLast] at hlength
  omega

/-- The place that is found is not behind another one. -/
lemma exists_find?_le (h : cs = before ++ needle ++ behind) :
    ∃ i ≤ before.length, find? needle cs = some i := by
  subst h
  induction before with
  | nil =>
    refine ⟨0, Nat.le_refl 0, ?_⟩
    rw [List.nil_append]
    have hprefix : needle.isPrefixOf (needle ++ behind) = true :=
      List.isPrefixOf_iff_prefix.mpr (List.prefix_append needle behind)
    cases hcs : needle ++ behind with
    | nil =>
      rw [(List.append_eq_nil_iff.mp hcs).1]
      rfl
    | cons c cs =>
      rw [hcs] at hprefix
      rw [find?, if_pos hprefix]
  | cons c before ih =>
    obtain ⟨i, hi, hfind⟩ := ih
    rw [List.cons_append, List.cons_append, find?]
    split
    · exact ⟨0, Nat.zero_le _, rfl⟩
    · exact ⟨i + 1, Nat.succ_le_succ hi, by rw [hfind]; rfl⟩

/-- A text is found at a place exactly if it does not occur before: if it is no part of what ends
there without its last character. -/
theorem find?_eq_iff (hneedle : needle ≠ []) (h : cs = before ++ needle ++ behind) :
    find? needle cs = some before.length ↔ ¬ needle <:+: (before ++ needle).dropLast := by
  subst h
  induction before with
  | nil =>
    have hcs : needle ++ behind = [] ++ needle ++ behind := rfl
    obtain ⟨i, hi, hfind⟩ := exists_find?_le hcs
    obtain rfl : i = 0 := Nat.le_zero.mp hi
    exact iff_of_true hfind (not_infix_dropLast hneedle)
  | cons c before ih =>
    have hdrop : (c :: before ++ needle).dropLast = c :: (before ++ needle).dropLast := by
      rw [List.cons_append, List.dropLast_cons_of_ne_nil
        (List.append_ne_nil_of_right_ne_nil before hneedle)]
    have hprefix : needle <+: c :: (before ++ needle ++ behind) ↔
        needle <+: c :: (before ++ needle).dropLast := by
      -- What a text starts with is decided within the length of the text.
      have hshort : c :: (before ++ needle).dropLast <+: c :: (before ++ needle ++ behind) :=
        List.cons_prefix_cons.mpr ⟨rfl, (List.dropLast_prefix _).trans (List.prefix_append _ _)⟩
      refine ⟨fun h => List.prefix_of_prefix_length_le h hshort ?_, fun h => h.trans hshort⟩
      have hpos := List.length_pos_iff.mpr hneedle
      rw [List.length_cons, List.length_dropLast, List.length_append]
      omega
    rw [hdrop, List.infix_cons_iff, not_or, ← ih, ← hprefix, List.cons_append, List.cons_append,
      find?, List.length_cons]
    generalize before ++ needle ++ behind = cs
    split
    · rename_i hstart
      simp [List.isPrefixOf_iff_prefix.mp hstart]
    · rename_i hstart
      rw [List.isPrefixOf_iff_prefix] at hstart
      simp [hstart]

end First

/-! ## What is cut out of a text -/

/-- What is left of a text without the blanks around it is a part of it. -/
lemma strip_isInfix (cs : List Char) : strip cs <:+: cs := by
  obtain ⟨bs, bs', -, -, hcs⟩ := exists_strip cs
  exact ⟨bs, bs', hcs.symm⟩

/-- The pieces of a text are parts of it. -/
lemma isInfix_of_mem_splitOn {separator : Char} {piece : List Char}
    (h : piece ∈ splitOn separator cs) :
    piece <:+: cs := by
  generalize hpieces : splitOn separator cs = pieces at h
  induction pieces generalizing cs with
  | nil => cases h
  | cons a pieces ih =>
    obtain ⟨-, ⟨rfl, rfl⟩ | ⟨b, rfl, hb⟩⟩ := exists_of_splitOn hpieces
    · obtain rfl := List.mem_singleton.mp h
      exact List.infix_rfl
    · rcases List.mem_cons.mp h with rfl | hmem
      · exact (List.prefix_append _ _).isInfix
      · exact (ih hb hmem).trans ((List.suffix_cons _ _).trans (List.suffix_append _ _)).isInfix

end Abacus.Text
