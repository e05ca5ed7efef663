import Abacus.Proofs.Text.Blanks

/-!
# Texts before a mark

What stands before the first occurrence of a mark in a text. There is no mark in it, and what is put
together from a text without a mark and another one is cut inside the second.

## Main results

* `Abacus.Text.before_cons` — a text is cut at its start or further on.
* `Abacus.Text.not_infix_before` — no mark is left.
* `Abacus.Text.before_append` — what is cut behind a text without a mark.
* `Abacus.Text.before_blanks`, `Abacus.Text.exists_before_append_blanks` — blanks around what is
  cut.
-/

namespace Abacus.Text

variable {mark cs a bs bs' : List Char} {c : Char}

/-- An empty text has nothing before a mark. -/
@[simp]
lemma before_nil (mark : List Char) : before mark [] = [] := by
  unfold before
  split
  · exact List.take_nil
  · rfl

/-- A text is cut where the mark stands. -/
lemma before_eq_nil (h : mark <+: c :: cs) : before mark (c :: cs) = [] := by
  rw [before, find?, if_pos (List.isPrefixOf_iff_prefix.mpr h)]
  rfl

/-- A text that does not start with the mark is cut further on. -/
lemma before_cons (h : ¬ mark <+: c :: cs) : before mark (c :: cs) = c :: before mark cs := by
  rw [before, find?, if_neg (mt List.isPrefixOf_iff_prefix.mp h), before]
  cases find? mark cs <;> rfl

/-- What stands before a mark is a part of the text that it is cut from. -/
lemma before_isPrefix (mark cs : List Char) : before mark cs <+: cs := by
  unfold before
  split
  · exact List.take_prefix _ _
  · exact List.prefix_refl _

/-- No mark is left in what stands before the first one. -/
lemma not_infix_before (hmark : mark ≠ []) (cs : List Char) : ¬ mark <:+: before mark cs := by
  induction cs with
  | nil =>
    rw [before_nil, List.infix_nil]
    exact hmark
  | cons c cs ih =>
    by_cases h : mark <+: c :: cs
    · rw [before_eq_nil h, List.infix_nil]
      exact hmark
    · rw [before_cons h, List.infix_cons_iff, not_or]
      refine ⟨fun hprefix => h ?_, ih⟩
      exact hprefix.trans (List.cons_prefix_cons.mpr ⟨rfl, before_isPrefix mark cs⟩)

/-- A mark that starts inside a text and has no such character as the next one ends inside it. -/
lemma prefix_of_prefix_append (hc : c ∉ mark) (h : mark <+: a ++ c :: cs) : mark <+: a := by
  rcases List.prefix_or_prefix_of_prefix h (List.prefix_append a (c :: cs)) with h' | ⟨rest, rfl⟩
  · exact h'
  · rw [List.prefix_append_right_inj] at h
    cases rest with
    | nil => simp
    | cons d rest =>
      obtain ⟨rfl, -⟩ := List.cons_prefix_cons.mp h
      exact absurd (List.mem_append_right a List.mem_cons_self) hc

/-- Behind a text without a mark, and behind a character that is in no mark, a text is cut as it
is on its own. -/
lemma before_append (ha : ¬ mark <:+: a) (hc : c ∉ mark) :
    before mark (a ++ c :: cs) = a ++ c :: before mark cs := by
  induction a with
  | nil =>
    have hprefix : ¬ mark <+: c :: cs := by
      intro h
      have hnil : mark <+: [] := prefix_of_prefix_append (a := []) hc h
      exact ha hnil.isInfix
    exact before_cons hprefix
  | cons d a ih =>
    rw [List.infix_cons_iff, not_or] at ha
    have hprefix : ¬ mark <+: d :: (a ++ c :: cs) := fun h =>
      ha.1 (prefix_of_prefix_append (a := d :: a) hc h)
    rw [List.cons_append, before_cons hprefix, ih ha.2]
    rfl

/-- Blanks in front of a text are not cut off, if there are none in the mark. -/
lemma before_blanks (hmark : mark ≠ []) (hsolid : ∀ c ∈ mark, isBlank c = false) (hbs : Blank bs)
    (cs : List Char) : before mark (bs ++ cs) = bs ++ before mark cs := by
  induction bs with
  | nil => rfl
  | cons b bs ih =>
    rw [Blank, List.forall_mem_cons] at hbs
    have hb : b ∉ mark := by
      intro hmem
      rw [hsolid b hmem] at hbs
      exact absurd hbs.1 Bool.false_ne_true
    have hempty : ¬ mark <:+: [] := by
      rw [List.infix_nil]
      exact hmark
    exact (before_append (a := []) hempty hb).trans (congrArg (b :: ·) (ih hbs.2))

/-- Blanks behind a text make no difference to what stands before a mark, except for blanks at its
end. -/
lemma exists_before_append_blanks (hsolid : ∀ c ∈ mark, isBlank c = false) (hbs : Blank bs)
    (a : List Char) : ∃ bs', Blank bs' ∧ before mark (a ++ bs) = before mark a ++ bs' := by
  induction a with
  | nil =>
    refine ⟨before mark bs, fun c hc => hbs c ((before_isPrefix mark bs).subset hc), ?_⟩
    rw [before_nil, List.nil_append, List.nil_append]
  | cons d a ih =>
    have hiff : mark <+: d :: (a ++ bs) ↔ mark <+: d :: a := by
      refine ⟨fun h => ?_, fun h => h.trans (List.prefix_append (d :: a) bs)⟩
      cases bs with
      | nil => rwa [List.append_nil] at h
      | cons b bs =>
        refine prefix_of_prefix_append (a := d :: a) (fun hb => ?_) h
        have hblank := hbs b List.mem_cons_self
        rw [hsolid b hb] at hblank
        exact Bool.false_ne_true hblank
    by_cases hmark : mark <+: d :: a
    · rw [List.cons_append, before_eq_nil (hiff.mpr hmark), before_eq_nil hmark]
      exact ⟨[], blank_nil, rfl⟩
    · obtain ⟨bs', hbs', h⟩ := ih
      rw [List.cons_append, before_cons (mt hiff.mp hmark), before_cons hmark, h]
      exact ⟨bs', hbs', rfl⟩

end Abacus.Text
