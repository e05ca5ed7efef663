import Abacus.Proofs.Evaluation
import Abacus.Proofs.Scope

/-!
# Evaluations side by side

Two evaluations of one expression, in two worlds and two frames, go the same way if the frames
stay related wherever the evaluations go on: what the expression looks up is related, a lambda
makes related functions of them, and calls run the same body in related frames again. These
conditions speak of one step each. That they suffice is proved once, by induction on the levels of
evaluation, for whatever it is that relates frames and function values.

A relation of results can also leave it open how the second evaluation ends when the first one is
cut off by a fault of a given kind. Then the second one may have more levels than the first.

## Main definitions

* `Abacus.Result.Alike`, `Abacus.Result.AlikeUpTo` — results that are related, in all cases or
  unless the first one is cut off.
* `Abacus.Value.Alike`, `Abacus.Callee.Alike` — values and callees that are related.
* `Abacus.Closure.Same` — function values that differ in nothing that matters.
* `Abacus.Comparable` — the conditions on the relations.

## Main results

* `Abacus.Comparable.visit` — what one step of evaluation leads to.
* `Abacus.Comparable.valueWithin`, `Abacus.Comparable.run` — what evaluations lead to.
-/

namespace Abacus

/-! ## Results -/

namespace Result

variable {ε α β γ δ : Type} {cut : ε → Prop} {r : α → β → Prop} {s : γ → δ → Prop}
  {x : Except ε α} {y : Except ε β}

/-- Results that are the same error, or related values. -/
inductive Alike (r : α → β → Prop) : Except ε α → Except ε β → Prop where
  | ok {a : α} {b : β} (h : r a b) : Alike r (.ok a) (.ok b)
  | error (e : ε) : Alike r (.error e) (.error e)

/-- Results that are alike unless the first one is an error of a given kind. -/
inductive AlikeUpTo (cut : ε → Prop) (r : α → β → Prop) : Except ε α → Except ε β → Prop where
  | alike {x : Except ε α} {y : Except ε β} (h : Alike r x y) : AlikeUpTo cut r x y
  | cut {e : ε} (he : cut e) (y : Except ε β) : AlikeUpTo cut r (.error e) y

/-- Values that are related in one way are related in a wider one. -/
lemma Alike.mono {r' : α → β → Prop} (h : Alike r x y) (hr : ∀ {a b}, r a b → r' a b) :
    Alike r' x y := by
  cases h with
  | ok h => exact .ok (hr h)
  | error e => exact .error e

/-- Related values are alike. -/
lemma AlikeUpTo.ok {a : α} {b : β} (h : r a b) : AlikeUpTo cut r (.ok a : Except ε α) (.ok b) :=
  .alike (.ok h)

/-- An error is alike to itself. -/
lemma AlikeUpTo.error (e : ε) : AlikeUpTo cut r (.error e) (.error e) := .alike (.error e)

/-- Two steps lead to results that are alike if each of them does. -/
lemma AlikeUpTo.bind {f : α → Except ε γ} {g : β → Except ε δ} (h : AlikeUpTo cut r x y)
    (hstep : ∀ {a b}, r a b → AlikeUpTo cut s (f a) (g b)) :
    AlikeUpTo cut s (x >>= f) (y >>= g) := by
  cases h with
  | alike h =>
    cases h with
    | ok h => exact hstep h
    | error e => exact .error e
  | cut he y => exact .cut he _

/-- Where no error cuts off, results are alike in all cases. -/
lemma AlikeUpTo.alike_of_forall_not (h : AlikeUpTo cut r x y) (hcut : ∀ e, ¬ cut e) :
    Alike r x y := by
  cases h with
  | alike h => exact h
  | cut he y => exact absurd he (hcut _)

end Result

open Result (Alike AlikeUpTo)

variable {w w' : World} {frames : Expr → Table Value → Table Value → Prop}
  {closures : Closure → Closure → Prop} {cut : Fault → Prop} {frame frame' : Table Value}
  {levels levels' : Nat} {name name' : Option String} {callee callee' : Callee}
  {inner inner' : Table Value → Expr → Except Fault Value} {e : Expr} {args : List Expr}

/-! ## Values -/

/-- Function values with the same parameters and the same body that keep the same numbers. In
which order they keep them does not matter. -/
structure Closure.Same (c c' : Closure) : Prop where
  params : c.params = c'.params
  body : c.body = c'.body
  env : ∀ name, c.env.get? name = c'.env.get? name

/-- Every function value is the same as itself. -/
lemma Closure.Same.refl (c : Closure) : c.Same c := ⟨rfl, rfl, fun _ => rfl⟩

/-- Values that are the same number, or related function values. -/
inductive Value.Alike (closures : Closure → Closure → Prop) : Value → Value → Prop where
  | number (x : Float) : Alike closures (.number x) (.number x)
  | function {c c' : Closure} (h : closures c c') : Alike closures (.function c) (.function c')

namespace Value

variable {v v' : Value}

/-- Function values that are related in one way are related in a wider one. -/
lemma Alike.mono {closures' : Closure → Closure → Prop} (h : v.Alike closures v')
    (hclosures : ∀ {c c'}, closures c c' → closures' c c') : v.Alike closures' v' := by
  cases h with
  | number x => exact .number x
  | function h => exact .function (hclosures h)

/-- Every value is alike to itself if every function value is related to itself. -/
lemma Alike.refl (h : ∀ c, closures c c) (v : Value) : v.Alike closures v := by
  cases v with
  | number x => exact .number x
  | function c => exact .function (h c)

/-- What a name stands for is alike to itself if every function value is related to itself. -/
lemma rel_refl (h : ∀ c, closures c c) (o : Option Value) :
    Option.Rel (Value.Alike closures) o o := by
  cases o with
  | none => exact .none
  | some v => exact .some (.refl h v)

/-- Values are alike up to equal function values if they are equal. -/
lemma Alike.eq (h : v.Alike Eq v') : v = v' := by
  cases h with
  | number x => rfl
  | function h => rw [h]

/-- Values that are alike are the same number, if they are numbers. -/
lemma Alike.number?_eq (h : v.Alike closures v') : v.number? = v'.number? := by
  cases h <;> rfl

/-- The values of names that are alike are the same number, if they are numbers. -/
lemma number?_eq_of_rel {o o' : Option Value} (h : Option.Rel (Value.Alike closures) o o') :
    o.bind number? = o'.bind number? := by
  cases h with
  | none => rfl
  | some h => exact h.number?_eq

end Value

/-- A name stands for values that are alike if it is bound to such values, locally and globally. -/
lemma World.visible_alike {name : String}
    (hlocal : Option.Rel (Value.Alike closures) (frame.get? name) (frame'.get? name))
    (hglobal : Option.Rel (Value.Alike closures) (w.bindings.get? name) (w'.bindings.get? name)) :
    Option.Rel (Value.Alike closures) (w.visible frame name) (w'.visible frame' name) := by
  rw [World.visible, World.visible]
  generalize frame.get? name = o, frame'.get? name = o' at hlocal
  cases hlocal with
  | none => exact hglobal
  | some hv => exact .some hv

/-- Related operands give results that are alike. -/
lemma Operator.combine_alike (op : Operator)
    (hparams : ∀ {c c'}, closures c c' → c.params = c'.params)
    {a a' b b' : Value} (ha : a.Alike closures a') (hb : b.Alike closures b') :
    Alike (Value.Alike closures) (op.combine a b) (op.combine a' b') := by
  cases ha with
  | function h =>
    simp only [Operator.combine, hparams h]
    exact .error _
  | number x =>
    cases hb with
    | function h =>
      simp only [Operator.combine, hparams h]
      exact .error _
    | number y =>
      simp only [Operator.combine]
      cases op.result? x y with
      | some z => exact .ok (.number z)
      | none => exact .error _

/-! ## Calls -/

/-- Callees whose calls are related: they take as many arguments and have the same body, and
arguments that are alike lead to related frames for it. -/
structure Callee.Alike (frames : Expr → Table Value → Table Value → Prop)
    (closures : Closure → Closure → Prop) (callee callee' : Callee) : Prop where
  arity : callee.params.length = callee'.params.length
  body : callee.body = callee'.body
  frame : ∀ {values values'}, List.Forall₂ (Value.Alike closures) values values' →
    frames callee.body (callee.frame values) (callee'.frame values')

/-- A call by name runs callees that are alike if the name is bound to such functions, or stands for
related function values whose calls are alike. -/
lemma World.callee_alike {name : String}
    (hfunctions : Option.Rel
      (fun d d' => (Callee.definition d).Alike frames closures (.definition d'))
      (w.functions.get? name) (w'.functions.get? name))
    (hvisible : Option.Rel (Value.Alike closures) (w.visible frame name) (w'.visible frame' name))
    (hclosures : ∀ {c c'}, closures c c' → (Callee.closure c).Alike frames closures (.closure c')) :
    Alike (Callee.Alike frames closures) (w.callee frame name) (w'.callee frame' name) := by
  rw [callee_eq, callee_eq]
  generalize w.functions.get? name = o, w'.functions.get? name = o' at hfunctions
  generalize w.visible frame name = u, w'.visible frame' name = u' at hvisible
  cases hfunctions with
  | some hd => exact .ok hd
  | none =>
    cases hvisible with
    | none => exact .error _
    | some hv =>
      cases hv with
      | number x => exact .error _
      | function hc => exact .ok (hclosures hc)

namespace Callee

variable {values values' : List Value}

/-- In the frames of calls of two function values, names stand for values that are alike if the
function values keep the same number for them. -/
lemma rel_frame_closure {c c' : Closure} {name : String} (hparams : c.params = c'.params)
    (henv : c.env.get? name = c'.env.get? name)
    (hvalues : List.Forall₂ (Value.Alike closures) values values') :
    Option.Rel (Value.Alike closures) (((closure c).frame values).get? name)
      (((closure c').frame values').get? name) := by
  rw [frame_closure, frame_closure, hparams]
  apply Table.get?_setAll_zip Option.Rel.some hvalues
  rw [Table.get?_map, Table.get?_map, henv]
  cases c'.env.get? name with
  | none => exact .none
  | some x => exact .some (.number x)

/-- In the frames of calls of two definitions, names stand for values that are alike. -/
lemma rel_frame_definition {d d' : Definition} (hparams : d.params = d'.params)
    (hvalues : List.Forall₂ (Value.Alike closures) values values') (name : String) :
    Option.Rel (Value.Alike closures) (((definition d).frame values).get? name)
      (((definition d').frame values').get? name) := by
  rw [frame_definition, frame_definition, hparams]
  apply Table.get?_setAll_zip Option.Rel.some hvalues
  exact .none

end Callee

namespace Expr

/-- Expressions that are evaluated one after another lead to results that are alike if each of them
does. -/
lemma evaluateAll_alike
    (h : ∀ e ∈ args, AlikeUpTo cut (Value.Alike closures) (inner frame e) (inner' frame' e)) :
    AlikeUpTo cut (List.Forall₂ (Value.Alike closures)) (evaluateAll (inner frame) args)
      (evaluateAll (inner' frame') args) := by
  induction args with
  | nil => exact .ok .nil
  | cons e es ih =>
    rw [List.forall_mem_cons] at h
    exact h.1.bind fun hv => (ih h.2).bind fun hvs => .ok (.cons hv hvs)

/-- Calls of related callees lead to results that are alike if that is so of what is evaluated for
them. The names that the calls go by only matter when there are too many or too few arguments. -/
lemma callWith_alike (hcallee : callee.Alike frames closures callee')
    (hname : name = name' ∨ args.length = callee.params.length)
    (hinner : ∀ {e frame frame'}, frames e frame frame' →
      AlikeUpTo cut (Value.Alike closures) (inner frame e) (inner' frame' e))
    (hargs : ∀ e ∈ args, frames e frame frame') :
    AlikeUpTo cut (Value.Alike closures) (callWith inner callee name frame args)
      (callWith inner' callee' name' frame' args) := by
  by_cases hlength : args.length = callee.params.length
  · have hlength' : args.length = callee'.params.length := hlength.trans hcallee.arity
    rw [callWith, if_pos hlength, callWith, if_pos hlength', ← hcallee.body]
    apply (evaluateAll_alike fun e he => hinner (hargs e he)).bind
    intro values values' hvalues
    exact hinner (hcallee.frame hvalues)
  · have hlength' : ¬ args.length = callee'.params.length := by
      rw [← hcallee.arity]
      exact hlength
    rw [callWith, if_neg hlength, callWith, if_neg hlength', ← hcallee.arity,
      hname.resolve_right hlength]
    exact .error _

end Expr

/-! ## Comparable worlds -/

/-- Two relations, one of frames in which an expression is evaluated and one of function values,
that evaluations in two worlds preserve in each single step. -/
structure Comparable (w w' : World) (frames : Expr → Table Value → Table Value → Prop)
    (closures : Closure → Closure → Prop) : Prop where
  /-- Functions are shown alike. -/
  params : ∀ {c c'}, closures c c' → c.params = c'.params
  /-- What an expression is made of is evaluated in the same frames. -/
  child : ∀ {e x frame frame'}, frames e frame frame' → x ∈ e.children → frames x frame frame'
  lookup : ∀ {name frame frame'}, frames (.var name) frame frame' →
    Option.Rel (Value.Alike closures) (w.visible frame name) (w'.visible frame' name)
  snapshot : ∀ {params body frame frame'}, frames (.lambda params body) frame frame' →
    closures ⟨params, body, w.snapshot frame⟩ ⟨params, body, w'.snapshot frame'⟩
  call : ∀ {name args frame frame'}, frames (.call name args) frame frame' →
    Alike (Callee.Alike frames closures) (w.callee frame name) (w'.callee frame' name)
  /-- Only function values that are called have to be callable. -/
  invoke : ∀ {function args frame frame' levels levels' c c'},
    frames (.invoke function args) frame frame' → closures c c' →
    function.valueWithin w levels frame = .ok (.function c) →
    function.valueWithin w' levels' frame' = .ok (.function c') →
    (Callee.closure c).Alike frames closures (.closure c')

namespace Comparable

/-- One step of evaluation leads to results that are alike if the evaluations inside of it do. -/
lemma visit (h : Comparable w w' frames closures)
    (hinner : ∀ {e frame frame'}, frames e frame frame' → AlikeUpTo cut (Value.Alike closures)
      (e.valueWithin w levels frame) (e.valueWithin w' levels' frame'))
    (hframes : frames e frame frame') :
    AlikeUpTo cut (Value.Alike closures) (e.visit w (Expr.valueWithin w levels) frame)
      (e.visit w' (Expr.valueWithin w' levels') frame') := by
  have hchild : ∀ x ∈ e.children, frames x frame frame' := fun x hx => h.child hframes hx
  cases e with
  | number x => exact .ok (.number x)
  | var name =>
    have hvisible := h.lookup hframes
    simp only [Expr.visit, World.lookup_eq]
    -- only how the two values compare matters from here on, not where they come from
    generalize w.visible frame name = o, w'.visible frame' name = o' at hvisible
    cases hvisible with
    | none => exact .error _
    | some hv => exact .ok hv
  | binary op left right =>
    have hleft := hinner (hchild left (by simp [Expr.children]))
    have hright := hinner (hchild right (by simp [Expr.children]))
    apply hleft.bind
    intro a a' ha
    apply hright.bind
    intro b b' hb
    rw [Result.ofExcept_eq, Result.ofExcept_eq]
    exact .alike (op.combine_alike h.params ha hb)
  | lambda params body => exact .ok (.function (h.snapshot hframes))
  | call name args =>
    have hcallee := h.call hframes
    simp only [Expr.visit]
    generalize w.callee frame name = x, w'.callee frame' name = x' at hcallee
    cases hcallee with
    | error fault => exact .error fault
    | ok hcallee => exact Expr.callWith_alike hcallee (.inl rfl) hinner hchild
  | invoke function args =>
    have hfunction := hinner (hchild function (by simp [Expr.children]))
    have hargs : ∀ e ∈ args, frames e frame frame' :=
      fun e he => hchild e (List.mem_cons_of_mem function he)
    have hinvoke := @h.invoke function args frame frame' levels levels'
    simp only [Expr.visit]
    generalize function.valueWithin w levels frame = x, function.valueWithin w' levels' frame' = x'
      at hfunction hinvoke
    cases hfunction with
    | cut he y => exact .cut he _
    | alike hfunction =>
      cases hfunction with
      | error fault => exact .error fault
      | ok hv =>
        cases hv with
        | number x => exact .error _
        | function hc =>
          exact Expr.callWith_alike (hinvoke hframes hc rfl rfl) (.inl rfl) hinner hargs

/-- **Evaluations in comparable worlds are alike.** The first one may have fewer levels than the
second, if the relation of results leaves open what happens when the levels run out.

**Proof sketch.** Induction on the levels. One step of evaluation preserves the relations
(`Comparable.visit`), and the expressions inside have one level less. -/
theorem valueWithin (h : Comparable w w' frames closures) (hlevels : levels ≤ levels')
    (hcut : cut w.depthFault ∨ levels = levels' ∧ w.depthFault = w'.depthFault)
    (hframes : frames e frame frame') :
    AlikeUpTo cut (Value.Alike closures) (e.valueWithin w levels frame)
      (e.valueWithin w' levels' frame') := by
  induction levels generalizing levels' e frame frame' with
  | zero =>
    rcases hcut with hcut | ⟨rfl, hfault⟩
    · exact .cut hcut _
    · rw [Expr.valueWithin, Expr.valueWithin, hfault]
      exact .error _
  | succ levels ih =>
    obtain ⟨levels', rfl⟩ : ∃ n, levels' = n + 1 := ⟨levels' - 1, by omega⟩
    have hcut' : cut w.depthFault ∨ levels = levels' ∧ w.depthFault = w'.depthFault := by
      refine hcut.imp_right fun hsame => ⟨?_, hsame.2⟩
      omega
    exact h.visit (fun hframes => ih (by omega) hcut' hframes) hframes

/-- Evaluations in comparable worlds with the same levels left end alike in all cases. -/
theorem run (h : Comparable w w' frames closures) (hlevels : w.levels = w'.levels)
    (hfault : w.depthFault = w'.depthFault) (hframes : frames e frame frame') :
    Alike (Value.Alike closures) (w.run frame e) (w'.run frame' e) := by
  have halike : AlikeUpTo (fun _ => False) (Value.Alike closures)
      (e.valueWithin w w.levels frame) (e.valueWithin w' w'.levels frame') := by
    rw [hlevels]
    exact h.valueWithin (Nat.le_refl _) (.inr ⟨rfl, hfault⟩) hframes
  rw [World.run_eq, World.run_eq]
  exact halike.alike_of_forall_not fun _ => id

end Comparable

end Abacus
