import Abacus.Proofs.Evaluation.Comparison
import Abacus.Proofs.Parts
import Abacus.Proofs.Readable
import Abacus.Proofs.Result

/-!
# Function values and rebinding

A function value keeps the numbers that its names had where it was made. What a name is bound to
later makes no difference to a call of it, if its body calls nothing by name: the number that is
kept is in the frame of the call, every lambda in the body keeps it again, and so it is in the
frames of all calls in place.

## Main definitions

* `Abacus.World.call` — a call of a function whose arguments have their values.
* `Abacus.Expr.NeverRebinds`, `Abacus.Expr.Sealed` — expressions and frames for which a global
  name makes no difference.

## Main results

* `Abacus.Expr.callWith_run` — calls with arguments that are evaluated first.
* `Abacus.World.comparable_sealed` — evaluations under two bindings of the name go the same way.
* `Abacus.World.call_of_rebound` — what is kept is immune to rebinding.
-/

namespace Abacus

variable {w : World} {frame frame' : Table Value} {e x : Expr} {n : String} {levels : Nat}
  {v : Value}
  {params : List String} {body : Expr} {bindings : Table Value}

/-! ## Calls -/

/-- What a call of a function leads to when its arguments have the given values. -/
def World.call (w : World) (name : Option String) (callee : Callee) (values : List Value) :
    Except Fault Value :=
  if values.length = callee.params.length then
    w.run (callee.frame values) callee.body
  else
    .error (.wrongArity name callee.params.length values.length)

namespace Expr

/-- Expressions that are evaluated one after another have one value each. -/
lemma length_of_evaluateAll {value : Expr → Except Fault Value} {args : List Expr}
    {values : List Value}
    (h : evaluateAll value args = .ok values) : values.length = args.length := by
  induction args generalizing values with
  | nil =>
    cases h
    rfl
  | cons e es ih =>
    rw [evaluateAll, Result.bind_eq_ok_iff] at h
    obtain ⟨v, -, h⟩ := h
    rw [Result.bind_eq_ok_iff] at h
    obtain ⟨vs, hvs, h⟩ := h
    rw [← Result.pure_eq_ok_iff.mp h, List.length_cons, List.length_cons, ih hvs]

/-- A call evaluates its arguments and then leads to what the function leads to with their
values. -/
lemma callWith_run {callee : Callee} {name : Option String} {args : List Expr} {values : List Value}
    (h : evaluateAll (w.run frame) args = .ok values) :
    callWith w.run callee name frame args = w.call name callee values := by
  have hlength := length_of_evaluateAll h
  by_cases hargs : args.length = callee.params.length
  · rw [callWith, World.call, if_pos hargs, if_pos (hlength.trans hargs), h]
    rfl
  · rw [callWith, World.call, if_neg hargs, if_neg (hlength ▸ hargs), hlength]
    rfl

/-! ## Sealed frames -/

/-- Expressions that call nothing by name, call only lambdas in place, and bind a name nowhere. -/
structure NeverRebinds (n : String) (e : Expr) : Prop where
  readable : e.Readable
  byName : ∀ name args, call name args ∉ e.parts
  params : ∀ params body, lambda params body ∈ e.parts → n ∉ params

/-- What such an expression is made of is such an expression. -/
lemma NeverRebinds.child (h : e.NeverRebinds n) (hx : x ∈ e.children) : x.NeverRebinds n where
  readable := h.readable.child hx
  byName name args hmem := h.byName name args (mem_parts_of_child hx hmem)
  params params body hmem := h.params params body (mem_parts_of_child hx hmem)

/-- Frames of such an expression that bind the name to a number, and all names to the same
values. -/
structure Sealed (n : String) (e : Expr) (frame frame' : Table Value) : Prop where
  expr : e.NeverRebinds n
  nodup : frame.names.Nodup
  nodup' : frame'.names.Nodup
  values : ∀ name, Option.Rel (Value.Alike Closure.Same) (frame.get? name) (frame'.get? name)
  kept : ∃ x, frame.get? n = some (.number x)

/-- The second one of sealed frames binds the name to the same number. -/
lemma Sealed.kept' {y : Float} (h : e.Sealed n frame frame')
    (hy : frame.get? n = some (.number y)) :
    frame'.get? n = some (.number y) := by
  have hn := h.values n
  rw [hy] at hn
  generalize frame'.get? n = o at hn
  cases hn with
  | some hv =>
    cases hv with
    | number y => rfl

end Expr

/-- Calls of function values that keep the name are sealed if the parameters are other names. -/
lemma Closure.Same.callee {c c' : Closure} {y : Float} (h : c.Same c')
    (hbody : c.body.NeverRebinds n)
    (hparams : n ∉ c.params) (hkept : c.env.get? n = some y) (hnodup : c.env.names.Nodup)
    (hnodup' : c'.env.names.Nodup) :
    (Callee.closure c).Alike (Expr.Sealed n) Closure.Same (.closure c') where
  arity := congrArg List.length h.params
  body := h.body
  frame := fun hvalues =>
    { expr := hbody
      nodup := Callee.nodup_names_frame_closure hnodup _
      nodup' := Callee.nodup_names_frame_closure hnodup' _
      values := fun name => Callee.rel_frame_closure h.params (h.env name) hvalues
      kept := by
        refine ⟨y, ?_⟩
        rw [Callee.frame_closure, Table.get?_setAll_of_notMem hparams, Table.get?_map, hkept]
        rfl }

namespace World

/-! ## Two bindings of a name -/

/-- In sealed frames, names stand for the same also if the name is rebound. -/
lemma visible_of_sealed (hothers : ∀ name, name ≠ n → bindings.get? name = w.bindings.get? name)
    (hframes : e.Sealed n frame frame') (name : String) :
    Option.Rel (Value.Alike Closure.Same) (w.visible frame name)
      ({ w with bindings := bindings }.visible frame' name) := by
  by_cases hname : name = n
  · obtain ⟨y, hy⟩ := hframes.kept
    rw [hname, visible, visible, hy, hframes.kept' hy]
    exact .some (.number y)
  · apply visible_alike (hframes.values name)
    show Option.Rel _ (w.bindings.get? name) (bindings.get? name)
    rw [hothers name hname]
    exact Value.rel_refl .refl _

/-- In sealed frames, the same numbers are kept also if the name is rebound. -/
lemma snapshot_of_sealed (hothers : ∀ name, name ≠ n → bindings.get? name = w.bindings.get? name)
    (hw : w.bindings.names.Nodup) (hbindings : bindings.names.Nodup)
    (hframes : e.Sealed n frame frame') (name : String) :
    (w.snapshot frame).get? name = ({ w with bindings := bindings }.snapshot frame').get? name := by
  rw [get?_snapshot hframes.nodup hw, get?_snapshot hframes.nodup' hbindings,
    ← Value.number?_eq_of_rel (hframes.values name)]
  by_cases hname : name = n
  · obtain ⟨y, hy⟩ := hframes.kept
    rw [hname, hy]
    rfl
  · rw [hothers name hname]

/-- **What a name is bound to makes no difference in sealed frames.**

**Proof sketch.** The name is looked up in the frame, and a lambda keeps it from there, so the
frame of a call in place has it again. A function value that was passed as an argument or is bound
to a variable may look the name up, but it is not called. -/
theorem comparable_sealed (hothers : ∀ name, name ≠ n → bindings.get? name = w.bindings.get? name)
    (hw : w.bindings.names.Nodup) (hbindings : bindings.names.Nodup) :
    Comparable w { w with bindings := bindings } (Expr.Sealed n) Closure.Same where
  params := fun hc => hc.params
  child := fun hframes hx =>
    { expr := hframes.expr.child hx
      nodup := hframes.nodup
      nodup' := hframes.nodup'
      values := hframes.values
      kept := hframes.kept }
  lookup := fun hframes => visible_of_sealed hothers hframes _
  snapshot := fun hframes => ⟨rfl, rfl, snapshot_of_sealed hothers hw hbindings hframes⟩
  call := fun hframes => absurd (Expr.self_mem_parts _) (hframes.expr.byName _ _)
  invoke := by
    intro function args frame frame' levels levels' c c' hframes hc hvalue hvalue'
    have hfunction := hframes.expr.child (x := function) (by simp [Expr.children])
    obtain ⟨y, hy⟩ := hframes.kept
    -- what is called in place is a lambda, so the function value keeps the name
    cases hframes.expr.readable with
    | @invoke params body _ hlambda hargs =>
      cases Expr.eq_of_valueWithin_lambda hvalue
      cases Expr.eq_of_valueWithin_lambda hvalue'
      have hkept : (w.snapshot frame).get? n = some y := by
        rw [get?_snapshot hframes.nodup hw, hy]
        rfl
      exact hc.callee (hfunction.child (by simp [Expr.children]))
        (hfunction.params params body (Expr.self_mem_parts _)) hkept
        (nodup_names_snapshot hframes.nodup hw) (nodup_names_snapshot hframes.nodup' hbindings)

/-- **What a function value keeps is immune to rebinding.** Let a function value keep a number for
a name that is neither one of its parameters nor a parameter of a lambda in its body, and let the
body call nothing by name. Then a call of it with any arguments, under any limit on the depth,
ends in the same way in two worlds that differ at most in what the variable of this name is bound
to: with the same fault, the same number, or function values with the same parameters, the same
body and the same numbers. Tables bind no name twice.

**Proof sketch.** The frame of the call is sealed, as the function value keeps the name, and
evaluations stay in sealed frames (`World.comparable_sealed`). -/
theorem call_of_rebound (w : World) (bindings : Table Value) (c : Closure) (n : String)
    (hbody : c.body.Readable) (hcalls : ∀ name args, .call name args ∉ c.body.parts)
    (hkept : n ∈ c.env.names) (hparams : n ∉ c.params)
    (hlambdas : ∀ params body, .lambda params body ∈ c.body.parts → n ∉ params)
    (hothers : ∀ name, name ≠ n → bindings.get? name = w.bindings.get? name)
    (hnodup : c.env.names.Nodup ∧ w.bindings.names.Nodup ∧ bindings.names.Nodup)
    (name : Option String) (values : List Value) :
    Result.Alike (Value.Alike Closure.Same) (w.call name (.closure c) values)
      ({ w with bindings := bindings }.call name (.closure c) values) := by
  obtain ⟨henv, hw, hbindings⟩ := hnodup
  obtain ⟨y, hy⟩ : ∃ y, c.env.get? n = some y := by
    rw [← Option.isSome_iff_exists, Option.isSome_iff_ne_none, Ne, Table.get?_eq_none_iff]
    exact not_not_intro hkept
  have hvalues : List.Forall₂ (Value.Alike Closure.Same) values values :=
    List.forall₂_same.mpr fun v _ => .refl .refl v
  rw [call, call]
  split
  · have hcallee := (Closure.Same.refl c).callee ⟨hbody, hcalls, hlambdas⟩ hparams hy henv henv
    exact (comparable_sealed hothers hw hbindings).run rfl rfl (hcallee.frame hvalues)
  · exact .error _

/-- A function value that keeps 2 for `n` and passes it to a lambda in a lambda that it calls in
place is called with 3, where `n` is bound to 7 and where it is bound to a function. -/
theorem call_of_rebound_nested :
    let body := Expr.lambda ["z"] (.binary .mul (.binary .add (.var "y") (.var "z")) (.var "n"))
    let c : Closure := ⟨["x"], .invoke (.lambda ["y"] body) [.binary .sub (.var "x") (.var "n")],
      ⟨[("m", 1), ("n", 2)]⟩⟩
    Result.Alike (Value.Alike Closure.Same)
      (World.call ⟨⟨[("n", .number 7), ("k", .number 5)]⟩, .empty, .levels 300, .standard, 0, []⟩
        none (.closure c) [.number 3])
      (World.call ⟨⟨[("k", .number 5), ("n", .function c)]⟩, .empty, .levels 300, .standard, 0, []⟩
        none (.closure c) [.number 3]) := by
  intro body c
  refine call_of_rebound ⟨_, _, _, _, _, _⟩ _ c "n" ?_ ?_ (by decide) (by decide) ?_ ?_
    (by decide) _ _
  · have hn : Expr.Readable (.var "n") := .var (by decide)
    have hx : Expr.Readable (.var "x") := .var (by decide)
    have hy : Expr.Readable (.var "y") := .var (by decide)
    have hz : Expr.Readable (.var "z") := .var (by decide)
    have hbody : body.Readable := .lambda (by decide) (.binary (.binary hy hz) hn)
    refine .invoke (.lambda (by decide) hbody) ?_
    rw [List.forall_mem_singleton]
    exact .binary hx hn
  · intro name args
    simp [c, body, Expr.parts, Expr.partsAll]
  · intro params body'
    simp [c, body, Expr.parts, Expr.partsAll]
    rintro (⟨rfl, -⟩ | ⟨rfl, -⟩) <;> decide
  · intro name hname
    simp [Table.get?, Table.getEntry?, Ne.symm hname]

end World

end Abacus
