import Abacus.Proofs.Evaluation
import Abacus.Proofs.Scope
import Abacus.Session

/-!
# What a lambda keeps

A lambda keeps numbers, and what it keeps for a name is compared here with what the name stands
for in the place of the lambda. The two agree, but for the names that the frame binds to
functions. Such a function is not kept, and it does not hide the global number of its name from
the lambda either.

## Main results

* `Abacus.World.lookup_eq_number_iff` — when a name stands for a number.
* `Abacus.World.snapshot_agrees` — what a lambda keeps.
* `Abacus.World.snapshot_disagrees` — a name for which a lambda keeps a number and that stands for a
  function.
-/

namespace Abacus.World

variable {w : World} {frame : Table Value}

/-- A name stands for a number if the frame binds it to the number, or the frame does not bind it
and the number is the global one. -/
lemma lookup_eq_number_iff {name : String} {x : Float} : w.lookup frame name = .ok (.number x) ↔
    frame.get? name = some (.number x) ∨
      frame.get? name = none ∧ w.bindings.get? name = some (.number x) := by
  rw [lookup]
  cases frame.get? name with
  | some value =>
    simp only [Except.ok.injEq, Option.some.injEq, reduceCtorEq, false_and, or_false]
  | none =>
    cases w.bindings.get? name with
    | some value => simp only [Except.ok.injEq, Option.some.injEq, reduceCtorEq, false_or, true_and]
    | none => simp only [reduceCtorEq, and_false, or_false]

/-- The number of an optional value. -/
lemma bind_number?_eq_some_iff {value : Option Value} {x : Float} :
    value.bind Value.number? = some x ↔ value = some (.number x) := by
  cases value with
  | none => simp only [Option.bind_none, reduceCtorEq]
  | some value =>
    cases value with
    | number y => simp only [Option.bind_some, Value.number?, Option.some.injEq, Value.number.injEq]
    | function c => simp only [Option.bind_some, Value.number?, Option.some.injEq, reduceCtorEq]

/-- **What a lambda keeps.** It keeps no name twice, a function value that is made by a lambda has
what the lambda keeps, and the number that is kept for a name is the one that the name stands for.
Only if the frame binds the name to a function, which is not kept, the global number of the name
is kept in its place.

**Proof sketch.** The frame binds the name to a number, to a function or not at all. The number is
what comes first in both. A function is passed over by the lambda (`get?_snapshot`), and found by
looking up. If the frame does not bind the name, both find the global value, of which the lambda
takes a number only. -/
theorem snapshot_agrees (hframe : frame.names.Nodup) (hbindings : w.bindings.names.Nodup) :
    (w.snapshot frame).names.Nodup ∧
    (∀ params body value, w.run frame (.lambda params body) = .ok value →
      value = .function ⟨params, body, w.snapshot frame⟩) ∧
    ∀ name x, (w.snapshot frame).get? name = some x ↔
      w.lookup frame name = .ok (.number x) ∨
        (∃ c, frame.get? name = some (.function c)) ∧ w.bindings.get? name = some (.number x) := by
  refine ⟨nodup_names_snapshot hframe hbindings, fun params body value hvalue => ?_,
    fun name x => ?_⟩
  · rw [run_eq] at hvalue
    exact Expr.eq_of_valueWithin_lambda hvalue
  · rw [get?_snapshot hframe hbindings, lookup_eq_number_iff]
    cases hname : frame.get? name with
    | none =>
      rw [Option.bind_none, Option.none_or, bind_number?_eq_some_iff]
      simp only [reduceCtorEq, exists_false, false_and, false_or, or_false, true_and]
    | some value =>
      cases value with
      | number y =>
        rw [Option.bind_some, Value.number?, Option.some_or]
        simp only [Option.some.injEq, Value.number.injEq, reduceCtorEq, exists_false, false_and,
          or_false]
      | function c =>
        rw [Option.bind_some, Value.number?, Option.none_or, bind_number?_eq_some_iff]
        simp only [Option.some.injEq, Value.function.injEq, reduceCtorEq, exists_eq', false_and,
          false_or, true_and]

/-- A frame with a number and a function, over global names of which one is hidden by the
function. -/
theorem snapshot_agrees_hidden :
    let w := (World.new (.levels 300) .standard).enterAll
        ["let x = 5", "let y = 7", "let g = fn(a) => a"]
    let frame := (Table.empty.set "x" (.function ⟨["z"], .var "z", .empty⟩)).set "k" (.number 2)
    frame.names.Nodup ∧ w.bindings.names.Nodup ∧ (w.snapshot frame).names = ["k", "x", "y"] ∧
      ∀ name x, (w.snapshot frame).get? name = some x ↔
        w.lookup frame name = .ok (.number x) ∨
          (∃ c, frame.get? name = some (.function c)) ∧
            w.bindings.get? name = some (.number x) := by
  intro w frame
  have hframe : frame.names.Nodup := by decide +kernel
  have hbindings : w.bindings.names.Nodup := by decide +kernel
  exact ⟨hframe, hbindings, by decide +kernel, (snapshot_agrees hframe hbindings).2.2⟩

/-- A lambda can keep a number for a name that stands for a function where the lambda is: a
function in the frame hides a global number of its name from everything but the lambda. -/
theorem snapshot_disagrees :
    let w := (World.new (.levels 300) .standard).enterAll ["let x = 5"]
    let c : Closure := ⟨["z"], .var "z", .empty⟩
    let frame := Table.empty.set "x" (.function c)
    frame.names.Nodup ∧ w.bindings.names.Nodup ∧ w.lookup frame "x" = .ok (.function c) ∧
      ∃ x, (w.snapshot frame).get? "x" = some x ∧ w.lookup frame "x" ≠ .ok (.number x) := by
  intro w c frame
  have hbound : ((w.snapshot frame).get? "x").isSome = true := by decide +kernel
  obtain ⟨x, hx⟩ := Option.isSome_iff_exists.mp hbound
  refine ⟨by decide +kernel, by decide +kernel, rfl, x, hx, fun h => ?_⟩
  have hfunction : w.lookup frame "x" = .ok (.function c) := rfl
  rw [hfunction] at h
  cases h

end Abacus.World
