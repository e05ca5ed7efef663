import Abacus.Proofs.Evaluation.Comparison
import Abacus.Proofs.Parts
import Abacus.Proofs.Result

/-!
# What a limit on the depth does

A limit on the depth of evaluation only ever cuts an evaluation off. One that it does not cut off
ends in the same way under every higher limit. An expression that calls nothing is cut off exactly
by the limits below its height, where the body of a lambda does not count, as it is not evaluated.

## Main definitions

* `Abacus.World.limitedTo` — a world with a limit of its own.
* `Abacus.Expr.CallsNothing`, `Abacus.Expr.operatorHeight` — expressions without calls, and how high
  they are.

## Main results

* `Abacus.World.limitedTo_run_mono` — higher limits change nothing but that they cut off less.
* `Abacus.Expr.operatorHeight_le_of_ok` — a value takes as many levels as the expression is high.
* `Abacus.World.limitedTo_run` — what a limit does to an evaluation.
-/

namespace Abacus

variable {w : World} {frame : Table Value} {levels : Nat} {limit : DepthLimit} {e x : Expr}
    {v : Value}

/-! ## Higher limits -/

/-- The names of a world under another limit, before anything is evaluated. -/
def World.limitedTo (w : World) (limit : DepthLimit) : World :=
  { w with maxDepth := limit, depth := 0 }

/-- A limit admits its number of levels, as far as the machine can handle them. -/
lemma World.levels_limitedTo (w : World) (d : Int) :
    (w.limitedTo (.levels d)).levels = min w.limits.height d.toNat := rfl

/-- Calls of the same callee with the same values take place in the same frame. -/
lemma Callee.Alike.refl (callee : Callee) :
    callee.Alike (fun _ frame frame' => frame = frame') Eq callee where
  arity := rfl
  body := rfl
  frame := by
    intro values values' h
    have hvalues : values = values' := by
      rw [← List.forall₂_eq_eq_eq]
      exact h.imp fun _ _ hv => hv.eq
    rw [hvalues]

/-- Evaluations under two limits are made of the same steps. -/
lemma World.comparable_limitedTo (w : World) (limit limit' : DepthLimit) :
    Comparable (w.limitedTo limit) (w.limitedTo limit')
      (fun _ frame frame' => frame = frame') Eq where
  params := by
    rintro c _ rfl
    rfl
  child := fun hframes _ => hframes
  lookup := by
    rintro name frame _ rfl
    exact Value.rel_refl (fun _ => rfl) _
  snapshot := by
    rintro params body frame _ rfl
    rfl
  call := by
    rintro name args frame _ rfl
    show Result.Alike _ (w.callee frame name) (w.callee frame name)
    cases w.callee frame name with
    | error fault => exact .error fault
    | ok callee => exact .ok (.refl callee)
  invoke := by
    rintro function args frame _ levels levels' c _ - rfl - -
    exact .refl (.closure c)

/-- An evaluation that a limit does not cut off ends in the same way under every higher one. -/
lemma World.limitedTo_run_mono {d₁ d₂ : Int} (hle : d₁ ≤ d₂)
    (h : (w.limitedTo (.levels d₁)).run frame e ≠ .error (.tooDeep (.levels d₁))) :
    (w.limitedTo (.levels d₂)).run frame e = (w.limitedTo (.levels d₁)).run frame e := by
  have hlevels : (w.limitedTo (.levels d₁)).levels ≤ (w.limitedTo (.levels d₂)).levels := by
    rw [levels_limitedTo, levels_limitedTo]
    omega
  have hcomparable := w.comparable_limitedTo (.levels d₁) (.levels d₂)
  have halike : Result.AlikeUpTo (fun fault => fault = .tooDeep (.levels d₁)) (Value.Alike Eq)
      ((w.limitedTo (.levels d₁)).run frame e) ((w.limitedTo (.levels d₂)).run frame e) := by
    rw [run_eq, run_eq]
    exact hcomparable.valueWithin hlevels (.inl rfl) rfl
  generalize (w.limitedTo (.levels d₁)).run frame e = r₁,
    (w.limitedTo (.levels d₂)).run frame e = r₂ at h halike
  cases halike with
  | cut hfault y => exact absurd (congrArg Except.error hfault) h
  | alike halike =>
    cases halike with
    | ok hv => rw [hv.eq]
    | error fault => rfl

/-! ## Expressions without calls -/

/-- Looking up a name is not cut off. -/
lemma World.lookup_ne_tooDeep (w : World) (frame : Table Value) (name : String)
    (limit : DepthLimit) :
    w.lookup frame name ≠ .error (.tooDeep limit) := by
  rw [lookup_eq]
  cases w.visible frame name <;> simp

/-- An operator between values is not cut off. -/
lemma Operator.combine_ne_tooDeep (op : Operator) (a b : Value) (limit : DepthLimit) :
    op.combine a b ≠ .error (.tooDeep limit) := by
  cases a with
  | function c => simp [combine]
  | number x =>
    cases b with
    | function c => simp [combine]
    | number y =>
      simp only [combine]
      cases op.result? x y <;> simp

namespace Expr

/-- No part of an expression is a call, neither by name nor of a function in place. -/
structure CallsNothing (e : Expr) : Prop where
  byName : ∀ name args, call name args ∉ e.parts
  inPlace : ∀ function args, invoke function args ∉ e.parts

/-- How many evaluations lie inside one another when an expression without calls is evaluated. The
body of a lambda is not. -/
def operatorHeight : Expr → Nat
  | binary _ left right => 1 + max left.operatorHeight right.operatorHeight
  | _ => 1

/-- Every evaluation takes a level. -/
lemma operatorHeight_pos (e : Expr) : 0 < e.operatorHeight := by
  cases e <;> simp only [operatorHeight] <;> omega

/-- What an expression without calls is made of has no calls, either. -/
lemma CallsNothing.child (h : e.CallsNothing) (hx : x ∈ e.children) : x.CallsNothing where
  byName name args hmem := h.byName name args (mem_parts_of_child hx hmem)
  inPlace function args hmem := h.inPlace function args (mem_parts_of_child hx hmem)

/-- An expression without calls is not cut off if there are as many levels as it is high.

**Proof sketch.** Induction on the levels. Both operands have one level less, and are less high
than the expression by at least one. -/
lemma valueWithin_ne_tooDeep (h : e.CallsNothing) (hheight : e.operatorHeight ≤ levels) :
    e.valueWithin w levels frame ≠ .error (.tooDeep limit) := by
  induction levels generalizing e with
  | zero => exact absurd hheight (Nat.not_le.mpr e.operatorHeight_pos)
  | succ levels ih =>
    intro hcut
    rw [valueWithin] at hcut
    cases e with
    | number x => cases hcut
    | var name =>
      simp only [visit, Result.ofExcept_eq] at hcut
      exact w.lookup_ne_tooDeep frame name limit hcut
    | binary op left right =>
      rw [operatorHeight] at hheight
      have hleft := ih (h.child (x := left) (by simp [children])) (by omega)
      have hright := ih (h.child (x := right) (by simp [children])) (by omega)
      simp only [visit, Result.ofExcept_eq, Result.bind_eq_error_iff] at hcut
      rcases hcut with hcut | ⟨a, -, hcut | ⟨b, -, hcut⟩⟩
      · exact hleft hcut
      · exact hright hcut
      · exact op.combine_ne_tooDeep a b limit hcut
    | lambda params body => cases hcut
    | call name args => exact h.byName name args (self_mem_parts _)
    | invoke function args => exact h.inPlace function args (self_mem_parts _)

/-- An expression without calls that has a value has as many levels as it is high. -/
lemma operatorHeight_le_of_ok (h : e.CallsNothing) (hvalue : e.valueWithin w levels frame = .ok v) :
    e.operatorHeight ≤ levels := by
  induction levels generalizing e v with
  | zero => cases hvalue
  | succ levels ih =>
    cases e with
    | binary op left right =>
      simp only [valueWithin, visit, Result.bind_eq_ok_iff] at hvalue
      obtain ⟨a, ha, b, hb, -⟩ := hvalue
      have hleft := ih (h.child (x := left) (by simp [children])) ha
      have hright := ih (h.child (x := right) (by simp [children])) hb
      rw [operatorHeight]
      omega
    | call name args => exact absurd (self_mem_parts _) (h.byName name args)
    | invoke function args => exact absurd (self_mem_parts _) (h.inPlace function args)
    | number x => exact Nat.le_add_left 1 levels
    | var name => exact Nat.le_add_left 1 levels
    | lambda params body => exact Nat.le_add_left 1 levels

end Expr

/-! ## The limits that cut off -/

/-- **A limit only cuts evaluations off, and it does so at the height of the expression.** If the
evaluation of an expression does not end because a limit is exceeded, it ends in the same way
under every higher limit, with the same value or the same fault. An expression without calls never
exceeds a limit that is as great as its height, as long as the machine can handle that height, and
it exceeds every limit that is less, if it has a value under any limit at all.

**Proof sketch.** Evaluations under two limits are made of the same steps
(`World.comparable_limitedTo`), so they end alike unless the lower limit cuts off. A value under a
limit below the height would be the value under a limit that is as great as it is, and that takes
as many levels as the expression is high (`Expr.operatorHeight_le_of_ok`). -/
theorem World.limitedTo_run (w : World) (frame : Table Value) (e : Expr) :
    (∀ d₁ d₂ : Int, d₁ ≤ d₂ →
      (w.limitedTo (.levels d₁)).run frame e ≠ .error (.tooDeep (.levels d₁)) →
      (w.limitedTo (.levels d₂)).run frame e = (w.limitedTo (.levels d₁)).run frame e) ∧
    (e.CallsNothing → ∀ d : Int,
      (e.operatorHeight ≤ d → e.operatorHeight ≤ w.limits.height →
        ∀ limit, (w.limitedTo (.levels d)).run frame e ≠ .error (.tooDeep limit)) ∧
      (d < e.operatorHeight → ∀ d' v, (w.limitedTo (.levels d')).run frame e = .ok v →
        (w.limitedTo (.levels d)).run frame e = .error (.tooDeep (.levels d)))) := by
  refine ⟨fun d₁ d₂ hle h => limitedTo_run_mono hle h, fun hcalls d => ⟨?_, ?_⟩⟩
  · intro hd hmachine limit
    rw [run_eq, levels_limitedTo]
    apply Expr.valueWithin_ne_tooDeep hcalls
    omega
  · intro hd d' v hvalue
    by_contra hcut
    have hsame : (w.limitedTo (.levels (max d d'))).run frame e =
        (w.limitedTo (.levels d)).run frame e :=
      limitedTo_run_mono (Int.le_max_left d d') hcut
    have hvalue' : (w.limitedTo (.levels (max d d'))).run frame e = .ok v := by
      rw [← hvalue]
      apply limitedTo_run_mono (Int.le_max_right d d')
      rw [hvalue]
      simp
    rw [hsame, run_eq] at hvalue'
    have hpos := e.operatorHeight_pos
    have hheight := Expr.operatorHeight_le_of_ok hcalls hvalue'
    rw [levels_limitedTo] at hheight
    omega

/-- A product of height three has its value under every limit from three on, and none under the
limit two. -/
theorem World.limitedTo_run_product :
    let w : World := ⟨⟨[("x", .number 4)]⟩, .empty, .levels 300, .standard, 0, []⟩
    let e := Expr.binary .mul (.binary .add (.var "x") (.number 1)) (.number 2)
    e.CallsNothing ∧ e.operatorHeight = 3 ∧
      (∃ v, (w.limitedTo (.levels 3)).run .empty e = .ok v ∧
        (w.limitedTo (.levels 1000)).run .empty e = .ok v) ∧
      (w.limitedTo (.levels 2)).run .empty e = .error (.tooDeep (.levels 2)) := by
  intro w e
  obtain ⟨hmono, hheight⟩ := limitedTo_run w .empty e
  have hcalls : e.CallsNothing :=
    ⟨by simp [e, Expr.parts], by simp [e, Expr.parts]⟩
  obtain ⟨v, hv⟩ := Result.exists_of_isOk (x := (w.limitedTo (.levels 3)).run .empty e)
    (by decide +kernel)
  refine ⟨hcalls, rfl, ⟨v, hv, ?_⟩, (hheight hcalls 2).2 (by decide) 3 v hv⟩
  rw [← hv]
  exact hmono 3 1000 (by decide) ((hheight hcalls 3).1 (by decide) (by decide +kernel) _)

end Abacus
