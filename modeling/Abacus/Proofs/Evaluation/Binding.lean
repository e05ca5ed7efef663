import Abacus.Proofs.Evaluation.DepthLimit
import Abacus.Proofs.Session.Kept

/-!
# Early and late binding

A lambda that is called in place keeps the global numbers that it can see, and a named function
looks them up when it is called. As long as nothing is bound in between, this makes no difference:
the numbers that the frame of the lambda has more are those that would be found in the global
table anyway.

## Main definitions

* `Abacus.World.Unmentioned` — names that no stored body mentions.
* `Abacus.World.Padded` — frames that have global numbers more than others.

## Main results

* `Abacus.World.Unmentioned.comparable` — such numbers change nothing, and neither does a
  definition that nothing mentions.
* `Abacus.World.run_invoke_lambda` — a lambda called in place, and the same function defined and
  called.
-/

namespace Abacus

variable {w : World} {frame frame' : Table Value} {e : Expr} {f name : String} {c c' : Closure}
  {d : Definition} {params : List String} {body : Expr}

/-! ## Padded frames -/

/-- No body that is stored in a world mentions the name. -/
structure World.Unmentioned (w : World) (f : String) : Prop where
  functions : ∀ entry ∈ w.functions.entries, f ∉ entry.2.body.names
  closures : ∀ entry ∈ w.closures.entries, f ∉ entry.2.body.names

instance (w : World) (f : String) : Decidable (w.Unmentioned f) :=
  decidable_of_iff ((∀ entry ∈ w.functions.entries, f ∉ entry.2.body.names) ∧
      ∀ entry ∈ w.closures.entries, f ∉ entry.2.body.names)
    ⟨fun h => ⟨h.1, h.2⟩, fun h => ⟨h.functions, h.closures⟩⟩

/-- The same function values whose body does not mention a name. -/
structure Closure.SameWithout (f : String) (c c' : Closure) : Prop extends c.Same c' where
  unmentioned : f ∉ c.body.names
  nodup : c.env.names.Nodup
  nodup' : c'.env.names.Nodup

/-- `w.Padded f name o o'` states of what a name is bound to in two frames that it is the same,
apart from a global number of the name that only the first one has. -/
inductive World.Padded (w : World) (f name : String) : Option Value → Option Value → Prop where
  | alike {o o' : Option Value} (h : Option.Rel (Value.Alike (Closure.SameWithout f)) o o') :
      w.Padded f name o o'
  | global {x : Float} (h : w.bindings.get? name = some (.number x)) :
      w.Padded f name (some (.number x)) none

/-- Frames for an expression that does not mention a name, of which the first one may have global
numbers more. -/
structure World.FramesPadded (w : World) (f : String) (e : Expr) (frame frame' : Table Value) :
    Prop where
  unmentioned : f ∉ e.names
  nodup : frame.names.Nodup
  nodup' : frame'.names.Nodup
  values : ∀ name, w.Padded f name (frame.get? name) (frame'.get? name)

/-- A name stays related when the same names are bound, one after another, to related values. -/
lemma World.Padded.setAll {t t' : Table Value} {values values' : List Value}
    (h : w.Padded f name (t.get? name) (t'.get? name))
    (hvalues : List.Forall₂ (Value.Alike (Closure.SameWithout f)) values values') :
    w.Padded f name ((t.setAll (params.zip values)).get? name)
      ((t'.setAll (params.zip values')).get? name) :=
  Table.get?_setAll_zip (fun hv => .alike (.some hv)) hvalues h

/-- Calls of the same function values are alike. -/
lemma Closure.SameWithout.callee (h : c.SameWithout f c') :
    (Callee.closure c).Alike (w.FramesPadded f) (Closure.SameWithout f) (.closure c') where
  arity := congrArg List.length h.params
  body := h.body
  frame := fun hvalues =>
    { unmentioned := h.unmentioned
      nodup := Callee.nodup_names_frame_closure h.nodup _
      nodup' := Callee.nodup_names_frame_closure h.nodup' _
      values := fun name => .alike (Callee.rel_frame_closure h.params (h.env name) hvalues) }

/-- Calls of the same definition are alike. -/
lemma Callee.sameWithout_definition (h : f ∉ d.body.names) :
    (Callee.definition d).Alike (w.FramesPadded f) (Closure.SameWithout f) (.definition d) where
  arity := rfl
  body := rfl
  frame := fun hvalues =>
    { unmentioned := h
      nodup := Callee.nodup_names_frame_definition d _
      nodup' := Callee.nodup_names_frame_definition d _
      values := fun name => .alike (Callee.rel_frame_definition rfl hvalues name) }

/-! ## Worlds with a definition more -/

namespace World

/-- A variable that is bound to a function is among the functions. -/
lemma mem_closures (h : w.bindings.get? name = some (.function c)) :
    (name, c) ∈ w.closures.entries :=
  List.mem_filterMap.mpr ⟨_, Table.mem_entries_of_get? h, rfl⟩

/-- The values of names in the variables are the same as themselves. -/
lemma Unmentioned.rel_refl (h : w.Unmentioned f) (hw : w.bindings.Proper) (name : String) :
    Option.Rel (Value.Alike (Closure.SameWithout f)) (w.bindings.get? name)
      (w.bindings.get? name) := by
  cases hname : w.bindings.get? name with
  | none => exact .none
  | some v =>
    cases v with
    | number x => exact .some (.number x)
    | function c =>
      exact .some (.function
        { toSame := .refl c
          unmentioned := h.closures (name, c) (mem_closures hname)
          nodup := hw.kept hname
          nodup' := hw.kept hname })

/-- In padded frames a name stands for the same. -/
lemma Unmentioned.visible (h : w.Unmentioned f) (hw : w.bindings.Proper)
    (hframes : w.FramesPadded f e frame frame') (name : String) :
    Option.Rel (Value.Alike (Closure.SameWithout f)) (w.visible frame name)
      (w.visible frame' name) := by
  have hpadded := hframes.values name
  have hglobal := h.rel_refl hw name
  rw [World.visible, World.visible]
  generalize frame.get? name = o, frame'.get? name = o' at hpadded
  cases hpadded with
  | alike hlocal =>
    cases hlocal with
    | none => exact hglobal
    | some hv => exact .some hv
  | global hname =>
    rw [hname]
    exact .some (.number _)

/-- In padded frames the same numbers are kept. -/
lemma FramesPadded.snapshot (hframes : w.FramesPadded f e frame frame') (hw : w.bindings.Proper)
    (name : String) : (w.snapshot frame).get? name = (w.snapshot frame').get? name := by
  have hpadded := hframes.values name
  rw [get?_snapshot hframes.nodup hw.names, get?_snapshot hframes.nodup' hw.names]
  generalize frame.get? name = o, frame'.get? name = o' at hpadded
  cases hpadded with
  | alike hlocal => rw [Value.number?_eq_of_rel hlocal]
  | global hname =>
    rw [hname]
    rfl

/-- **Global numbers that a frame has more change nothing**, and neither does a definition that
nothing mentions.

**Proof sketch.** A name stands for the same in both frames, and a lambda keeps the same numbers.
A function value that the frame binds hides no global number from a lambda, so the numbers that
are kept are the same also where a parameter is bound to a function. -/
theorem Unmentioned.comparable {w' : World} (h : w.Unmentioned f) (hw : w.bindings.Proper)
    (hbindings : w'.bindings = w.bindings)
    (hfunctions : ∀ name, name ≠ f → w'.functions.get? name = w.functions.get? name) :
    Comparable w w' (w.FramesPadded f) (Closure.SameWithout f) := by
  have hvisible : ∀ frame name, w'.visible frame name = w.visible frame name := by
    intro frame name
    rw [World.visible, World.visible, hbindings]
  have hsnapshot : ∀ frame, w'.snapshot frame = w.snapshot frame := by
    intro frame
    rw [World.snapshot, World.snapshot, hbindings]
  exact
    { params := fun hc => hc.params
      child := fun hframes hx =>
        { unmentioned := fun hf => hframes.unmentioned (Expr.mem_names_of_child hx hf)
          nodup := hframes.nodup
          nodup' := hframes.nodup'
          values := hframes.values }
      lookup := by
        intro name frame frame' hframes
        rw [hvisible]
        exact h.visible hw hframes name
      snapshot := by
        intro params body frame frame' hframes
        rw [hsnapshot]
        exact
          { params := rfl
            body := rfl
            env := hframes.snapshot hw
            unmentioned := fun hf =>
              hframes.unmentioned (Expr.mem_names_of_child (by simp [Expr.children]) hf)
            nodup := nodup_names_snapshot hframes.nodup hw.names
            nodup' := nodup_names_snapshot hframes.nodup' hw.names }
      call := by
        intro name args frame frame' hframes
        -- `f` is the one name that the tables may differ at
        have hname : name ≠ f := by
          rintro rfl
          exact hframes.unmentioned (Expr.mem_names_of_reference rfl)
        refine World.callee_alike ?_ ?_ fun hc => hc.callee
        · rw [hfunctions name hname]
          cases hd : w.functions.get? name with
          | none => exact .none
          | some d =>
            exact .some (Callee.sameWithout_definition
              (h.functions _ (Table.mem_entries_of_get? hd)))
        · rw [hvisible]
          exact h.visible hw hframes name
      invoke := fun _ hc _ _ => hc.callee }

/-! ## Calling in place and by name -/

/-- A lambda outside of all functions keeps the global numbers, so its calls take place in the
frames of a definition with the same parameters, padded by those numbers. -/
lemma snapshot_callee (hw : w.bindings.Proper) (hbody : f ∉ body.names) (source : String) :
    (Callee.closure ⟨params, body, w.snapshot .empty⟩).Alike (w.FramesPadded f)
      (Closure.SameWithout f) (.definition ⟨params, body, source⟩) where
  arity := rfl
  body := rfl
  frame := by
    intro values values' hvalues
    have hempty : (Table.empty : Table Value).names.Nodup := Table.proper_empty.names
    have hsnapshot : (w.snapshot .empty).names.Nodup := nodup_names_snapshot hempty hw.names
    refine ⟨hbody, Callee.nodup_names_frame_closure hsnapshot _,
      Callee.nodup_names_frame_definition _ _, fun name => ?_⟩
    rw [Callee.frame_closure, Callee.frame_definition]
    refine Padded.setAll ?_ hvalues
    rw [Table.get?_map, get?_snapshot hempty hw.names]
    cases hname : w.bindings.get? name with
    | none => exact .alike .none
    | some v =>
      cases v with
      | number x => exact .global hname
      | function c => exact .alike .none

/-- Outside of all functions, frames are not padded. -/
lemma framesPadded_empty (h : f ∉ e.names) : w.FramesPadded f e .empty .empty where
  unmentioned := h
  nodup := Table.proper_empty.names
  nodup' := Table.proper_empty.names
  values := fun _ => .alike .none

end World

namespace Expr

variable {w' : World} {args : List Expr} {source : String}

/-- A call for which no level is left is cut off, with or without arguments. -/
lemma callWith_zero {callee : Callee} (name : Option String)
    (hlength : args.length = callee.params.length) :
    callWith (valueWithin w 0) callee name frame args = .error w.depthFault := by
  rw [callWith, if_pos hlength]
  cases args <;> rfl

/-- A lambda called in place ends like a call of a definition with the same parameters and body.

**Proof sketch.** To evaluate the lambda takes a level in which nothing else goes on, and the
arguments and the body need that level, too. So it makes no difference to what the levels are
enough for. -/
lemma valueWithin_invoke_lambda (hw : w.bindings.Proper)
    (hcomparable : Comparable w w' (w.FramesPadded f) (Closure.SameWithout f))
    (hfault : w.depthFault = w'.depthFault)
    (hcallee : w'.callee .empty f = .ok (.definition ⟨params, body, source⟩))
    (hbody : f ∉ body.names) (hargs : ∀ e ∈ args, f ∉ e.names)
    (hlength : args.length = params.length) (levels : Nat) :
    Result.AlikeUpTo (fun _ => False) (Value.Alike (Closure.SameWithout f))
      ((invoke (lambda params body) args).valueWithin w levels .empty)
      ((call f args).valueWithin w' levels .empty) := by
  have hcall : ∀ n, (call f args).valueWithin w' (n + 1) .empty =
      callWith (valueWithin w' n) (.definition ⟨params, body, source⟩) (some f) .empty args := by
    intro n
    rw [valueWithin, visit, hcallee]
    rfl
  cases levels with
  | zero =>
    rw [valueWithin, valueWithin, hfault]
    exact .error _
  | succ levels =>
    rw [hcall]
    cases levels with
    | zero =>
      rw [callWith_zero _ hlength, ← hfault]
      exact .error w.depthFault
    | succ n =>
      show Result.AlikeUpTo _ _ (callWith (valueWithin w (n + 1))
        (.closure ⟨params, body, w.snapshot .empty⟩) none .empty args) _
      exact callWith_alike (World.snapshot_callee hw hbody source) (.inr hlength)
        (fun hframes => hcomparable.valueWithin (Nat.le_refl _) (.inr ⟨rfl, hfault⟩) hframes)
        (fun e he => World.framesPadded_empty (hargs e he))

end Expr

/-- **Early and late binding coincide when nothing is bound in between.** Let a name be mentioned
neither by an expression, nor by arguments for some parameters, nor by any body that a session
stores. Then calling the lambda of the parameters and the expression in place ends like defining
the name as this function and calling it, under every limit on the depth: with the same fault, the
same number, or function values with the same parameters, the same body and the same numbers.

**Proof sketch.** The lambda keeps all global numbers, so its body is evaluated in the frame of
the definition, padded by them, and that changes nothing (`World.Unmentioned.comparable`), nor
does it that there is a definition more. -/
theorem World.run_invoke_lambda (hw : w.Reachable) (hfree : w.Unmentioned f)
    (hbody : f ∉ body.names)
    (args : List Expr) (hargs : ∀ e ∈ args, f ∉ e.names) (hlength : args.length = params.length)
    (limit : DepthLimit) :
    Result.Alike (Value.Alike Closure.Same)
      ((w.limitedTo limit).run .empty (.invoke (.lambda params body) args))
      (((w.define f params body).world.limitedTo limit).run .empty (.call f args)) := by
  have hproper : (w.limitedTo limit).bindings.Proper := hw.proper
  have hfree' : (w.limitedTo limit).Unmentioned f := ⟨hfree.functions, hfree.closures⟩
  have hothers : ∀ name, name ≠ f →
      ((w.define f params body).world.limitedTo limit).functions.get? name =
        (w.limitedTo limit).functions.get? name := by
    intro name hname
    show (w.functions.set f _).get? name = w.functions.get? name
    rw [Table.get?_set, if_neg (Ne.symm hname)]
  have hcallee : ((w.define f params body).world.limitedTo limit).callee .empty f =
      .ok (.definition ⟨params, body, body.source⟩) := by
    simp [callee, limitedTo, define]
  have hcomparable := hfree'.comparable hproper
    (rfl : ((w.define f params body).world.limitedTo limit).bindings = _) hothers
  rw [run_eq, run_eq]
  have halike := Expr.valueWithin_invoke_lambda hproper hcomparable rfl hcallee hbody hargs hlength
    (w.limitedTo limit).levels
  exact (halike.alike_of_forall_not fun _ => id).mono fun hv => hv.mono fun hc => hc.toSame

/-- In a session with a variable, a definition and a function value, a lambda that uses all of
them is called in place, and defined and called. -/
theorem World.run_invoke_lambda_of_lines :
    let w := (World.new (.levels 300) .standard).enterAll
      ["let k = 2", "def g(x) = x * k", "let h = fn(y) => y + k"]
    let body := Expr.lambda ["z"] (.call "h" [.binary .add (.call "g" [.var "x"]) (.var "z")])
    w.bindings.names = ["k", "h"] ∧ w.functions.names = ["g"] ∧ w.Unmentioned "f" ∧
    Result.Alike (Value.Alike Closure.Same)
      ((w.limitedTo (.levels 8)).run .empty (.invoke (.lambda ["x"] body) [.var "k"]))
      (((w.define "f" ["x"] body).world.limitedTo (.levels 8)).run .empty
        (.call "f" [.var "k"])) := by
  intro w body
  have hfree : w.Unmentioned "f" := by decide +kernel
  exact ⟨by decide +kernel, by decide +kernel, hfree,
    World.run_invoke_lambda ⟨_, _, _, rfl⟩ hfree (by decide) _ (by decide) rfl _⟩

end Abacus
