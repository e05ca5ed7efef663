import Abacus.Proofs.Evaluation.Comparison
import Abacus.Proofs.Parts
import Mathlib.Data.Set.Defs

/-!
# What an evaluation depends on

The evaluation of an expression depends on the names that it can reach: those that it mentions,
and those that the bodies of functions mention that are bound to such names. Worlds and frames
that agree on them lead to the same fault, the same number, or functions that agree on what their
body mentions. They need not agree on anything else.

## Main definitions

* `Abacus.Table.AgreeOn` — tables that agree on a set of names.
* `Abacus.Closure.Related`, `Abacus.Definition.Related` — functions with the same parameters and
  body that keep the same numbers for what the body mentions.
* `Abacus.World.Reaches` — sets of names that an evaluation does not leave.

## Main results

* `Abacus.World.Agree.comparable` — evaluations in worlds that agree go the same way.
* `Abacus.World.run_of_agreeOn` — an evaluation depends on the names that it can reach.
-/

namespace Abacus

variable {w w' : World} {frame frame' : Table Value} {e : Expr} {S : Set String} {c c' : Closure}
  {d d' : Definition} {name : String}

/-! ## Agreement -/

/-- Tables that agree on names: each of them is bound in both to related values, or in neither. -/
def Table.AgreeOn {α β : Type} (r : α → β → Prop) (names : Set String) (t : Table α)
    (t' : Table β) :
    Prop :=
  ∀ name ∈ names, Option.Rel r (t.get? name) (t'.get? name)

/-- Function values with the same parameters and the same body that keep the same numbers for all
names that the body mentions. -/
structure Closure.Related (c c' : Closure) : Prop where
  params : c.params = c'.params
  body : c.body = c'.body
  env : ∀ name ∈ c.body.names, c.env.get? name = c'.env.get? name

/-- Definitions with the same parameters and the same body. -/
structure Definition.Related (d d' : Definition) : Prop where
  params : d.params = d'.params
  body : d.body = d'.body

/-- A set of names that the evaluation of an expression does not leave: it has all names that the
expression mentions, and all that the body of a function mentions that is bound to a name of the
set, or in the frame to a name of the expression. -/
structure World.Reaches (w : World) (frame : Table Value) (e : Expr) (S : Set String) : Prop where
  names : ∀ name ∈ e.names, name ∈ S
  functions : ∀ name ∈ S, ∀ d, w.functions.get? name = some d → ∀ n ∈ d.body.names, n ∈ S
  bindings : ∀ name ∈ S, ∀ c, w.bindings.get? name = some (.function c) → ∀ n ∈ c.body.names, n ∈ S
  frame : ∀ name ∈ e.names, ∀ c, frame.get? name = some (.function c) → ∀ n ∈ c.body.names, n ∈ S

/-! ## Agreement within a set of names -/

/-- Related function values whose body mentions names of a set only. -/
structure Closure.RelatedIn (S : Set String) (c c' : Closure) : Prop extends c.Related c' where
  names : ∀ name ∈ c.body.names, name ∈ S
  nodup : c.env.names.Nodup
  nodup' : c'.env.names.Nodup

/-- Related definitions whose body mentions names of a set only. -/
structure Definition.RelatedIn (S : Set String) (d d' : Definition) : Prop
    extends d.Related d' where
  names : ∀ name ∈ d.body.names, name ∈ S

/-- Frames in which an expression is evaluated alike: the expression mentions names of the set
only, and the frames agree on those. -/
structure Expr.FramesAgree (S : Set String) (e : Expr) (frame frame' : Table Value) : Prop where
  names : ∀ name ∈ e.names, name ∈ S
  nodup : frame.names.Nodup
  nodup' : frame'.names.Nodup
  values : ∀ name ∈ e.names,
    Option.Rel (Value.Alike (Closure.RelatedIn S)) (frame.get? name) (frame'.get? name)

/-- Worlds that agree on the names of a set. -/
structure World.Agree (S : Set String) (w w' : World) : Prop where
  nodup : w.bindings.names.Nodup
  nodup' : w'.bindings.names.Nodup
  bindings : w.bindings.AgreeOn (Value.Alike (Closure.RelatedIn S)) S w'.bindings
  functions : w.functions.AgreeOn (Definition.RelatedIn S) S w'.functions

/-- Calls of related function values are alike. -/
lemma Closure.RelatedIn.callee (h : c.RelatedIn S c') :
    (Callee.closure c).Alike (Expr.FramesAgree S) (Closure.RelatedIn S) (.closure c') where
  arity := congrArg List.length h.params
  body := h.body
  frame := fun hvalues =>
    { names := h.names
      nodup := Callee.nodup_names_frame_closure h.nodup _
      nodup' := Callee.nodup_names_frame_closure h.nodup' _
      values := fun name hname => Callee.rel_frame_closure h.params (h.env name hname) hvalues }

/-- Calls of related definitions are alike. -/
lemma Definition.RelatedIn.callee (h : d.RelatedIn S d') :
    (Callee.definition d).Alike (Expr.FramesAgree S) (Closure.RelatedIn S) (.definition d') where
  arity := congrArg List.length h.params
  body := h.body
  frame := fun hvalues =>
    { names := h.names
      nodup := Callee.nodup_names_frame_definition d _
      nodup' := Callee.nodup_names_frame_definition d' _
      values := fun name _ => Callee.rel_frame_definition h.params hvalues name }

namespace World

/-- A name that an expression mentions stands for values that are alike. -/
lemma Agree.visible (h : w.Agree S w') (hframes : e.FramesAgree S frame frame')
    (hname : name ∈ e.names) :
    Option.Rel (Value.Alike (Closure.RelatedIn S)) (w.visible frame name)
      (w'.visible frame' name) :=
  visible_alike (hframes.values name hname) (h.bindings name (hframes.names name hname))

/-- For a name that an expression mentions the same number is kept. -/
lemma Agree.snapshot (h : w.Agree S w') (hframes : e.FramesAgree S frame frame')
    (hname : name ∈ e.names) :
    (w.snapshot frame).get? name = (w'.snapshot frame').get? name := by
  have hlocal := Value.number?_eq_of_rel (hframes.values name hname)
  have hglobal := Value.number?_eq_of_rel (h.bindings name (hframes.names name hname))
  rw [get?_snapshot hframes.nodup h.nodup, get?_snapshot hframes.nodup' h.nodup', hlocal, hglobal]

/-- Evaluations in worlds that agree on the names of a set go the same way, as long as they
mention names of that set only, and they do.

**Proof sketch.** The parts of an expression mention no more than the expression. A lambda keeps
the same numbers for what its body mentions. What is called mentions names of the set only, be it
a definition, a function that was bound before or one that the evaluation has made. -/
theorem Agree.comparable (h : w.Agree S w') :
    Comparable w w' (Expr.FramesAgree S) (Closure.RelatedIn S) where
  params := fun hc => hc.params
  child := fun hframes hx =>
    { names := fun name hname => hframes.names name (Expr.mem_names_of_child hx hname)
      nodup := hframes.nodup
      nodup' := hframes.nodup'
      values := fun name hname => hframes.values name (Expr.mem_names_of_child hx hname) }
  lookup := fun hframes => h.visible hframes (Expr.mem_names_of_reference rfl)
  snapshot := by
    intro params body frame frame' hframes
    have hbody : ∀ name ∈ body.names, name ∈ (Expr.lambda params body).names :=
      fun name hname => Expr.mem_names_of_child (by simp [Expr.children]) hname
    exact
      { params := rfl
        body := rfl
        env := fun name hname => h.snapshot hframes (hbody name hname)
        names := fun name hname => hframes.names name (hbody name hname)
        nodup := nodup_names_snapshot hframes.nodup h.nodup
        nodup' := nodup_names_snapshot hframes.nodup' h.nodup' }
  call := by
    intro name args frame frame' hframes
    have hname : name ∈ (Expr.call name args).names := Expr.mem_names_of_reference rfl
    have hfunctions := h.functions name (hframes.names name hname)
    refine World.callee_alike ?_ (h.visible hframes hname) fun hc => hc.callee
    generalize w.functions.get? name = o, w'.functions.get? name = o' at hfunctions
    cases hfunctions with
    | none => exact .none
    | some hd => exact .some hd.callee
  invoke := fun _ hc _ _ => hc.callee

end World

/-! ## Reaching -/

/-- Values that are related are so within a set of names if their bodies mention names of it
only. -/
lemma Value.relatedIn {o o' : Option Value} (h : Option.Rel (Value.Alike Closure.Related) o o')
    (hnames : ∀ c, o = some (.function c) → ∀ n ∈ c.body.names, n ∈ S)
    (hnodup : ∀ {c}, o = some (.function c) → c.env.names.Nodup)
    (hnodup' : ∀ {c}, o' = some (.function c) → c.env.names.Nodup) :
    Option.Rel (Value.Alike (Closure.RelatedIn S)) o o' := by
  cases h with
  | none => exact .none
  | some hv =>
    cases hv with
    | number x => exact .some (.number x)
    | function hc =>
      exact .some (.function
        { toRelated := hc, names := hnames _ rfl, nodup := hnodup rfl, nodup' := hnodup' rfl })

/-- Definitions that are related are so within a set of names if their bodies mention names of it
only. -/
lemma Definition.relatedIn {o o' : Option Definition} (h : Option.Rel Definition.Related o o')
    (hnames : ∀ d, o = some d → ∀ n ∈ d.body.names, n ∈ S) :
    Option.Rel (Definition.RelatedIn S) o o' := by
  cases h with
  | none => exact .none
  | some hd => exact .some { toRelated := hd, names := hnames _ rfl }

/-- **An evaluation depends on the names that it can reach.** Let a set of names have all names
that an expression mentions, and all names that the body of a function mentions that is bound to a
name of the set, or in the frame to a name of the expression. Let two frames agree on the names of
the expression, and two worlds with one limit on the set: each name is bound in neither, or to the
same number, to function values with the same parameters and body that keep the same numbers for
what the body mentions, or to definitions with the same parameters and body. Then the evaluations
of the expression end with the same fault, the same number, or function values that are related in
this way. Tables bind no name twice.

**Proof sketch.** By `World.Agree.comparable`, as worlds and frames agree within the set. That a
body mentions names of the set needs to be known in one world only, as the other one has the same
bodies. -/
theorem World.run_of_agreeOn (w : World) (bindings : Table Value) (functions : Table Definition)
    (frame frame' : Table Value) (e : Expr) (S : Set String) (hreaches : w.Reaches frame e S)
    (hframe : frame.AgreeOn (Value.Alike Closure.Related) {name | name ∈ e.names} frame')
    (hbindings : w.bindings.AgreeOn (Value.Alike Closure.Related) S bindings)
    (hfunctions : w.functions.AgreeOn Definition.Related S functions)
    (hproper : frame.Proper ∧ frame'.Proper ∧ w.bindings.Proper ∧ bindings.Proper) :
    Result.Alike (Value.Alike Closure.Related) (w.run frame e)
      ({ w with bindings := bindings, functions := functions }.run frame' e) := by
  obtain ⟨hproper, hproper', hproperb, hproperb'⟩ := hproper
  have hagree : w.Agree S { w with bindings := bindings, functions := functions } :=
    { nodup := hproperb.names
      nodup' := hproperb'.names
      bindings := fun name hname => Value.relatedIn (hbindings name hname)
        (hreaches.bindings name hname) hproperb.kept hproperb'.kept
      functions := fun name hname => Definition.relatedIn (hfunctions name hname)
        (hreaches.functions name hname) }
  have hframes : e.FramesAgree S frame frame' :=
    { names := hreaches.names
      nodup := hproper.names
      nodup' := hproper'.names
      values := fun name hname => Value.relatedIn (hframe name hname)
        (hreaches.frame name hname) hproper.kept hproper'.kept }
  exact (hagree.comparable.run rfl rfl hframes).mono fun hv => hv.mono fun hc => hc.toRelated

/-- The value of `f(y)`, where `f(a)` is defined as `g(a)` and `g` is a function value, depends on
`y` and on what `g` keeps for `k`. It does not depend on other names, nor on what else `g` keeps,
nor on how the definition is written. -/
theorem World.run_of_agreeOn_call :
    let body := Expr.binary .mul (.var "x") (.var "k")
    let g : Closure := ⟨["x"], body, ⟨[("k", 2), ("t", 1)]⟩⟩
    let g' : Closure := ⟨["x"], body, ⟨[("k", 2)]⟩⟩
    let f : Definition := ⟨["a"], .call "g" [.var "a"], "g(a)"⟩
    let f' : Definition := ⟨["a"], .call "g" [.var "a"], "g( a )"⟩
    let h : Definition := ⟨[], .var "t", "t"⟩
    Result.Alike (Value.Alike Closure.Related)
      (World.run ⟨⟨[("g", .function g), ("t", .number 1)]⟩, ⟨[("f", f)]⟩,
          .levels 300, .standard, 0, []⟩
        ⟨[("y", .number 3)]⟩ (.call "f" [.var "y"]))
      (World.run ⟨⟨[("t", .function g'), ("g", .function g')]⟩, ⟨[("h", h), ("f", f')]⟩,
          .levels 300, .standard, 0, []⟩
        ⟨[("t", .number 5), ("y", .number 3)]⟩ (.call "f" [.var "y"])) := by
  intro body g g' f f' h
  have hbody : body.names = ["x", "k"] := by decide
  refine World.run_of_agreeOn ⟨_, _, _, _, _, _⟩ _ _ _ _ _
    {name | name ∈ ["f", "y", "g", "a", "x", "k"]}
    ?_ ?_ ?_ ?_ ?_
  · refine ⟨?_, ?_, ?_, ?_⟩
    · show ∀ name ∈ ["f", "y"], name ∈ ["f", "y", "g", "a", "x", "k"]
      decide
    · intro name _ d hd
      simp only [Table.get?, Table.getEntry?, Option.ite_none_right_eq_some,
        Option.some.injEq] at hd
      obtain ⟨rfl, rfl⟩ := hd
      show ∀ n ∈ ["g", "a"], n ∈ ["f", "y", "g", "a", "x", "k"]
      decide
    · intro name _ c hc
      simp [Table.get?, Table.getEntry?, ite_eq_iff] at hc
      obtain ⟨rfl, rfl⟩ := hc
      show ∀ n ∈ body.names, n ∈ ["f", "y", "g", "a", "x", "k"]
      rw [hbody]
      decide
    · intro name _ c hc
      simp [Table.get?, Table.getEntry?] at hc
  · show ∀ name ∈ ["f", "y"], _
    simp [Table.get?, Table.getEntry?]
    exact .number 3
  · show ∀ name ∈ ["f", "y", "g", "a", "x", "k"], _
    simp [Table.get?, Table.getEntry?]
    refine .function ⟨rfl, rfl, ?_⟩
    show ∀ name ∈ body.names, _
    rw [hbody]
    decide
  · show ∀ name ∈ ["f", "y", "g", "a", "x", "k"], _
    simp [Table.get?, Table.getEntry?]
    exact ⟨rfl, rfl⟩
  · refine ⟨⟨by decide, ?_⟩, ⟨by decide, ?_⟩, ⟨by decide, ?_⟩, ⟨by decide, ?_⟩⟩
    all_goals
      intro name c hc
      simp [Table.get?, Table.getEntry?, ite_eq_iff] at hc
    · obtain ⟨-, rfl⟩ := hc
      decide
    · rcases hc with ⟨-, rfl⟩ | ⟨-, -, rfl⟩ <;> decide

end Abacus
