import Abacus.Proofs.Grammar.Operands
import Mathlib.Data.List.Forall2

/-!
# How deeply lexemes nest

The number of parentheses, calls and lambdas around a place in a sequence of lexemes, whether or
not the lexemes form an expression. A lambda is around everything from its parameters up to the
end of the group that it stands in, or up to the next comma of that group.

## Main definitions

* `Abacus.Grammar.Group` — an open group, as far as it decides the depth.
* `Abacus.Grammar.deepest` — the greatest depth from a place on.
* `Abacus.Grammar.nesting` — the greatest depth of all lexemes.

## Main results

* `Abacus.Grammar.Reads.deepest_le` — behind a part the greatest depth is no greater than before it.
-/

namespace Abacus.Grammar

/-! ## Depth -/

/-- A group that is open, and the depths that it decides. -/
structure Group where
  /-- The depth at the start of the group and behind each of its commas. -/
  inside : Nat
  /-- The depth behind the end of the group. -/
  behind : Nat

/-- The innermost of the open groups. Around all of them there is a group of depth zero. -/
def Group.innermost : List Group → Group
  | [] => ⟨0, 0⟩
  | g :: _ => g

/-- The greatest depth from a place on that has the given depth and stands inside of the given
groups. The parameters of a lambda are inside of the lambda, and their parentheses do not count
again. -/
def deepest : Nat → List Group → List Lexeme → Nat
  | depth, _, [] => depth
  | depth, groups, .keyword .fnWord :: .openParen :: ls =>
    deepest (depth + 1) (⟨depth + 1, depth + 1⟩ :: groups) ls
  | depth, groups, .openParen :: ls => deepest (depth + 1) (⟨depth + 1, depth⟩ :: groups) ls
  | depth, groups, .closeParen :: ls =>
    max depth (deepest (Group.innermost groups).behind groups.tail ls)
  | depth, groups, .comma :: ls => max depth (deepest (Group.innermost groups).inside groups ls)
  | depth, groups, _ :: ls => deepest depth groups ls

/-- How many parentheses, calls and lambdas are around each other at most. -/
def nesting (ls : List Lexeme) : Nat := deepest 0 [] ls

variable {part : Part} {ls rest : List Lexeme}

/-- The greatest depth is at least the present one. -/
lemma le_deepest (depth : Nat) (groups : List Group) (ls : List Lexeme) :
    depth ≤ deepest depth groups ls := by
  fun_induction deepest depth groups ls <;> omega

/-- A group that decides no lower depths than another one. -/
def Group.Within (g g' : Group) : Prop := g.inside ≤ g'.inside ∧ g.behind ≤ g'.behind

/-- The innermost groups compare as all others do, and so do the groups around them. -/
lemma Group.innermost_within {groups groups' : List Group}
    (h : List.Forall₂ Group.Within groups groups') :
    (Group.innermost groups).Within (Group.innermost groups') ∧
      List.Forall₂ Group.Within groups.tail groups'.tail := by
  cases h with
  | nil => exact ⟨⟨Nat.le_refl _, Nat.le_refl _⟩, .nil⟩
  | cons hg h => exact ⟨hg, h⟩

/-- A place that is deeper, in groups that are no less deep, has a greater depth from there on. -/
lemma deepest_mono_groups {depth depth' : Nat} {groups groups' : List Group} (hd : depth ≤ depth')
    (hg : List.Forall₂ Group.Within groups groups') (ls : List Lexeme) :
    deepest depth groups ls ≤ deepest depth' groups' ls := by
  fun_induction deepest depth groups ls generalizing depth' groups' with
  | case1 => exact hd
  | case2 depth groups ls ih =>
    exact ih (by omega) (.cons ⟨by simpa using hd, by simpa using hd⟩ hg)
  | case3 depth groups ls ih =>
    exact ih (by omega) (.cons ⟨by simpa using hd, hd⟩ hg)
  | case4 depth groups ls ih =>
    obtain ⟨hinner, htail⟩ := Group.innermost_within hg
    have hbehind := ih hinner.2 htail
    simp only [deepest]
    omega
  | case5 depth groups ls ih =>
    have hinside := ih (Group.innermost_within hg).1.1 hg
    simp only [deepest]
    omega
  | case6 depth groups l ls _ _ _ _ ih =>
    rw [deepest] <;> simp_all

/-- A place that is deeper has a greater depth from there on. -/
lemma deepest_mono {depth depth' : Nat} (hd : depth ≤ depth') (groups : List Group)
    (ls : List Lexeme) : deepest depth groups ls ≤ deepest depth' groups ls :=
  deepest_mono_groups hd (List.forall₂_same.mpr fun _ _ => ⟨Nat.le_refl _, Nat.le_refl _⟩) ls

/-! ## The depth behind a part -/

/-- Behind the parameters of a lambda its body starts, one level deeper than the lambda. -/
lemma deepest_parameters (depth : Nat) (groups : List Group) (ps : List String) (ls : List Lexeme) :
    deepest depth groups
        (.keyword .fnWord :: .openParen :: (parameters ps ++ .closeParen :: .arrow :: ls)) =
      deepest (depth + 1) groups ls := by
  have hle := le_deepest (depth + 1) groups ls
  simp only [deepest]
  fun_induction parameters ps with
  | case1 | case2 =>
    simp only [List.nil_append, List.cons_append, deepest, Group.innermost, List.tail_cons]
    omega
  | case3 p ps _ ih =>
    simp only [List.cons_append, deepest, Group.innermost]
    omega

/-- Behind a part the greatest depth is no greater than before it. Arguments stand at the start of
their group.

**Proof sketch.** Induction on the part. Parentheses, calls and arguments come back to the depth
that they start from. Behind a lambda the depth is that of its body, which is greater
(`deepest_mono`). -/
lemma Reads.deepest_le (h : Reads part ls rest) (depth : Nat) (groups : List Group)
    (hg : ∀ es, part = .args es → (Group.innermost groups).inside = depth) :
    deepest depth groups rest ≤ deepest depth groups ls := by
  induction h generalizing depth groups with
  | expression _ ih | last _ ih | lastLambda _ ih => exact ih depth groups (by simp)
  | link _ _ ihe ih =>
    have hnext := ih depth groups (by simp)
    have hoperand := ihe depth groups (by simp)
    simp only [deepest] at hoperand
    omega
  | number | name => simp [deepest]
  | call _ ih =>
    have hes := ih (depth + 1) (⟨depth + 1, depth⟩ :: groups) (by simp [Group.innermost])
    simp only [deepest, List.tail_cons, Group.innermost] at hes ⊢
    omega
  | enclosed _ ih | group _ _ ih =>
    have hes := ih (depth + 1) (⟨depth + 1, depth⟩ :: groups) (by simp)
    simp only [deepest, List.tail_cons, Group.innermost] at hes ⊢
    omega
  | invoke _ _ ihf ihes =>
    have hf := ihf (depth + 1) (⟨depth + 1, depth⟩ :: groups) (by simp)
    have hes := ihes (depth + 1) (⟨depth + 1, depth⟩ :: groups) (by simp [Group.innermost])
    simp only [deepest, List.tail_cons, Group.innermost] at hf hes ⊢
    omega
  | @lambda ps body ls rest _ ih =>
    have hbody := ih (depth + 1) groups (by simp)
    -- behind the body the groups are those around the lambda, and the depth is one greater
    have hmono := deepest_mono (Nat.le_add_right depth 1) groups rest
    rw [deepest_parameters]
    omega
  | noArgs => exact Nat.le_refl _
  | lastArg _ ih => exact ih depth groups (by simp)
  | nextArg _ _ ihe ihes =>
    have hfirst := ihe depth groups (by simp)
    have hmore := ihes depth groups fun _ _ => hg _ rfl
    simp only [deepest, hg _ rfl] at hfirst
    omega

end Abacus.Grammar
