import Abacus.Evaluation
import Abacus.Proofs.Result

/-!
# Evaluation without a counter

An evaluation leaves the world as it was, whether it has a value or a fault: every level that it
enters it leaves again. So the value of an expression is a function of the world and of the number
of levels that are left in it, and the count need not be followed.

## Main definitions

* `Abacus.Run.Keeps` — runs that have a given result and leave the world as it was.
* `Abacus.Expr.valueWithin` — the value of an expression within a number of levels.
* `Abacus.World.levels` — the number of levels that are left in a world.

## Main results

* `Abacus.Expr.evaluate_keeps` — what an evaluation leads to.
* `Abacus.World.run_eq` — the value of an expression in a world.
-/

namespace Abacus

/-! ## Runs -/

namespace Run

variable {α β : Type} {r : Run α} {f : α → Run β} {x : Except Fault α} {w : World}

/-- A run that looks at the world. -/
@[simp] lemma on_get (f : World → Run β) (w : World) :
    ((do let w ← get; f w) : Run β).on w = (f w).on w := rfl

/-- A run of two steps. The second one does not take place if the first one fails. -/
lemma on_bind (r : Run α) (f : α → Run β) (w : World) : (r >>= f).on w =
    match r.on w with
    | (.ok a, w') => (f a).on w'
    | (.error fault, w') => (.error fault, w') := by
  have hcont : (r >>= f).on w = ExceptT.bindCont f (r.on w).1 (r.on w).2 := rfl
  rw [hcont]
  obtain ⟨x, w'⟩ := r.on w
  cases x <;> rfl

/-- A run one level further inside takes place while there is a level left. -/
lemma on_deeper (r : Run α) (w : World) : r.deeper.on w =
    if w.depth < w.maxDepth.admitted then
      ((r.on { w with depth := w.depth + 1 }).1,
        { (r.on { w with depth := w.depth + 1 }).2 with
          depth := (r.on { w with depth := w.depth + 1 }).2.depth - 1 })
    else (.error w.depthFault, w) := rfl

/-- `r.Keeps w x` states that the run `r` has the result `x` and leaves the world `w` as it was. -/
def Keeps (r : Run α) (w : World) (x : Except Fault α) : Prop := r.on w = (x, w)

/-- Two steps that leave the world as it was. -/
lemma Keeps.bind {g : α → Except Fault β} (h : r.Keeps w x) (hf : ∀ a, (f a).Keeps w (g a)) :
    (r >>= f).Keeps w (x >>= g) := by
  have h' : r.on w = (x, w) := h
  show (r >>= f).on w = (x >>= g, w)
  rw [on_bind, h']
  cases x with
  | ok a => exact hf a
  | error fault => rfl

/-- A result that is there already. -/
lemma Keeps.ofExcept (x : Except Fault α) (w : World) :
    (MonadExcept.ofExcept x : Run α).Keeps w (MonadExcept.ofExcept x) := by
  cases x <;> rfl

/-- A run one level further inside leaves the world as it was if it does so there. -/
lemma Keeps.deeper (hdepth : w.depth < w.maxDepth.admitted)
    (h : r.Keeps { w with depth := w.depth + 1 } x) : r.deeper.Keeps w x := by
  have h' : r.on { w with depth := w.depth + 1 } = (x, { w with depth := w.depth + 1 }) := h
  show r.deeper.on w = (x, w)
  rw [on_deeper, if_pos hdepth, h']
  rfl

end Run

/-! ## Expressions -/

namespace Expr

variable {w : World} {inner : Table Value → Expr → Run Value}
  {value : Table Value → Expr → Except Fault Value}

/-- The value of an expression within a number of levels. -/
def valueWithin (w : World) : Nat → Table Value → Expr → Except Fault Value
  | 0, _, _ => .error w.depthFault
  | levels + 1, frame, e => visit w (valueWithin w levels) frame e

/-- What holds of expressions that are evaluated one after another, if it holds of each of them. -/
lemma evaluateAll_satisfies {p : Value → Prop} {q : Fault → Prop}
    {value : Expr → Except Fault Value}
    {args : List Expr} (h : ∀ e ∈ args, Result.Satisfies p q (value e)) :
    Result.Satisfies (fun values => ∀ v ∈ values, p v) q (evaluateAll value args) := by
  induction args with
  | nil => exact .ok (by simp)
  | cons e es ih =>
    rw [List.forall_mem_cons] at h
    exact h.1.bind fun hv => (ih h.2).bind fun hvs => .ok (List.forall_mem_cons.mpr ⟨hv, hvs⟩)

/-- Expressions that are evaluated one after another leave the world as it was if each of them
does. -/
lemma evaluateAll_keeps {frame : Table Value} (h : ∀ e, (inner frame e).Keeps w (value frame e))
    (es : List Expr) :
    Run.Keeps (evaluateAll (inner frame) es) w (evaluateAll (value frame) es) := by
  induction es with
  | nil => rfl
  | cons e es ih => exact (h e).bind fun v => ih.bind fun vs => rfl

/-- A call leaves the world as it was if what is evaluated for it does. -/
lemma callWith_keeps (h : ∀ frame e, (inner frame e).Keeps w (value frame e)) (callee : Callee)
    (name : Option String) (frame : Table Value) (args : List Expr) :
    Run.Keeps (callWith inner callee name frame args) w
      (callWith value callee name frame args) := by
  unfold callWith
  split
  · exact (evaluateAll_keeps (h frame) args).bind fun values => h _ _
  · rfl

/-- An expression leaves the world as it was if those inside of it do. -/
lemma visit_keeps (h : ∀ frame e, (inner frame e).Keeps w (value frame e)) (w' : World)
    (frame : Table Value) (e : Expr) :
    Run.Keeps (visit w' inner frame e) w (visit w' value frame e) := by
  cases e with
  | number value => rfl
  | var name => exact Run.Keeps.ofExcept _ w
  | binary op left right =>
    exact (h frame left).bind fun a => (h frame right).bind fun b => Run.Keeps.ofExcept _ w
  | lambda params body => rfl
  | call name args =>
    exact (Run.Keeps.ofExcept _ w).bind fun callee => callWith_keeps h callee _ frame args
  | invoke function args =>
    refine (h frame function).bind fun v => ?_
    cases v with
    | number x => rfl
    | function c => exact callWith_keeps h _ _ frame args

/-- How deep an evaluation stands makes no difference to what an expression looks up. -/
lemma visit_depth (w : World) (depth : Nat) (frame : Table Value) (e : Expr) :
    visit { w with depth := depth } value frame e = visit w value frame e := by
  cases e <;> rfl

/-- How deep an evaluation stands makes no difference to the value, given the levels that are
left. -/
lemma valueWithin_depth (w : World) (depth levels : Nat) :
    valueWithin { w with depth := depth } levels = valueWithin w levels := by
  induction levels with
  | zero => rfl
  | succ levels ih =>
    funext frame e
    rw [valueWithin, valueWithin, ih, visit_depth]

/-- What a lambda makes of a frame, if there is a level left for it. -/
lemma eq_of_valueWithin_lambda {params : List String} {body : Expr} {levels : Nat}
    {frame : Table Value} {v : Value}
    (h : (lambda params body).valueWithin w levels frame = .ok v) :
    v = .function ⟨params, body, w.snapshot frame⟩ := by
  cases levels with
  | zero => cases h
  | succ levels =>
    cases h
    rfl

/-- **An evaluation leaves the world as it was.** The levels that are left are those that the limit
admits beyond the present depth, or the height that the machine can handle if that is less.

**Proof sketch.** Induction on the height. The expressions inside are evaluated one level further
inside, where one level less is left, and on the way back the count goes down again, also with a
fault. -/
theorem evaluate_keeps (height : Nat) (frame : Table Value) (e : Expr) (w : World) :
    (evaluate height frame e).Keeps w
      (valueWithin w (min height (w.maxDepth.admitted - w.depth)) frame e) := by
  induction height generalizing frame e w with
  | zero =>
    rw [Nat.zero_min]
    rfl
  | succ height ih =>
    by_cases hdepth : w.depth < w.maxDepth.admitted
    · have hlevels : min (height + 1) (w.maxDepth.admitted - w.depth) =
          min height (w.maxDepth.admitted - (w.depth + 1)) + 1 := by
        omega
      rw [hlevels, valueWithin]
      apply Run.Keeps.deeper hdepth
      have hinner := visit_keeps (fun frame e => ih frame e { w with depth := w.depth + 1 })
        { w with depth := w.depth + 1 } frame e
      rw [valueWithin_depth, visit_depth] at hinner
      exact hinner
    · have hlevels : min (height + 1) (w.maxDepth.admitted - w.depth) = 0 := by
        omega
      rw [hlevels]
      show (Run.deeper _).on w = _
      rw [Run.on_deeper, if_neg hdepth]
      rfl

end Expr

/-! ## Worlds -/

namespace World

/-- The number of levels that are left in a world. -/
def levels (w : World) : Nat := min w.limits.height (w.maxDepth.admitted - w.depth)

end World

/-- The evaluation of an expression leaves the world as it was. -/
lemma Run.value_keeps (frame : Table Value) (e : Expr) (w : World) :
    (Run.value frame e).Keeps w (e.valueWithin w w.levels frame) :=
  e.evaluate_keeps w.limits.height frame w

/-- The value of an expression in a world is its value within the levels that are left. -/
theorem World.run_eq (w : World) (frame : Table Value) (e : Expr) :
    w.run frame e = e.valueWithin w w.levels frame :=
  congrArg Prod.fst (Run.value_keeps frame e w)

end Abacus
