import Abacus.Evaluation
import Abacus.Proofs.Table.Lookup

/-!
# What names stand for

What a name stands for in a frame over the global names, which numbers a lambda keeps of what it
sees, and the frames in which the bodies of functions are evaluated.

## Main definitions

* `Abacus.World.visible` — what a name stands for.
* `Abacus.Table.Proper` — tables of values in which no name is bound twice.

## Main results

* `Abacus.World.get?_snapshot` — which number a lambda keeps for a name.
* `Abacus.Callee.nodup_names_frame_closure`, `Abacus.Callee.nodup_names_frame_definition` — the
  frame of a call binds no name twice.
-/

namespace Abacus

variable {frame : Table Value} {name : String}

/-- Tables of values that bind no name twice, and whose function values keep no name twice. -/
structure Table.Proper (t : Table Value) : Prop where
  names : t.names.Nodup
  kept : ∀ {name c}, t.get? name = some (.function c) → c.env.names.Nodup

/-- The table without names is proper. -/
lemma Table.proper_empty : (Table.empty : Table Value).Proper where
  names := List.nodup_nil
  kept := by
    intro name c h
    cases h

namespace World

variable {w : World}

/-! ## Looking up -/

/-- What a name stands for, if it is bound: the local value, or else the global one. -/
def visible (w : World) (frame : Table Value) (name : String) : Option Value :=
  (frame.get? name).or (w.bindings.get? name)

/-- Looking up a name gives what it stands for. -/
lemma lookup_eq (w : World) (frame : Table Value) (name : String) : w.lookup frame name =
    match w.visible frame name with
    | some value => .ok value
    | none => .error (.undefinedVariable name) := by
  rw [lookup, visible]
  cases frame.get? name with
  | some value => rfl
  | none => cases w.bindings.get? name <;> rfl

/-- A call by name runs the named function, or else the function value that the name stands for. -/
lemma callee_eq (w : World) (frame : Table Value) (name : String) : w.callee frame name =
    match w.functions.get? name, w.visible frame name with
    | some d, _ => .ok (.definition d)
    | none, some (.function c) => .ok (.closure c)
    | none, _ => .error (.undefinedFunction name) := by
  rw [callee, lookup_eq]
  cases w.functions.get? name with
  | some d => rfl
  | none =>
    cases w.visible frame name with
    | none => rfl
    | some value => cases value <;> rfl

/-! ## Keeping -/

/-- A lambda keeps the number that a name stands for in the frame, or else the global one. A
function in the frame does not hide a global number from it. -/
lemma get?_snapshot (hframe : frame.names.Nodup) (hbindings : w.bindings.names.Nodup)
    (name : String) :
    (w.snapshot frame).get? name =
      ((frame.get? name).bind Value.number?).or ((w.bindings.get? name).bind Value.number?) := by
  have hkept := Table.get?_filterMap hframe Value.number? name
  have hglobal := Table.get?_filterMap hbindings Value.number? name
  have hother := Table.get?_filter (fun n => !(frame.filterMap Value.number?).contains n)
    (w.bindings.filterMap Value.number?) name
  show Table.get? ⟨(frame.filterMap Value.number?).entries ++ Table.entries ⟨_⟩⟩ name = _
  rw [Table.get?_append, hother, ← hkept, ← hglobal]
  cases hname : (frame.filterMap Value.number?).get? name with
  | some x => rfl
  | none =>
    have hfree : (!(frame.filterMap Value.number?).contains name) = true := by
      rw [Table.contains, hname]
      rfl
    rw [if_pos hfree]

/-- A lambda keeps no name twice. -/
lemma nodup_names_snapshot (hframe : frame.names.Nodup) (hbindings : w.bindings.names.Nodup) :
    (w.snapshot frame).names.Nodup := by
  have hkept := Table.nodup_names_filterMap hframe Value.number?
  have hglobal := Table.nodup_names_filterMap hbindings Value.number?
  rw [Table.names, snapshot, List.map_append, List.nodup_append]
  refine ⟨hkept, hglobal.sublist (List.filter_sublist.map _), ?_⟩
  intro name hname other hother heq
  subst heq
  obtain ⟨entry, hentry, rfl⟩ := List.mem_map.mp hother
  have hfree := (List.mem_filter.mp hentry).2
  rw [Bool.not_eq_true', Table.contains, Option.isSome_eq_false_iff,
    Option.isNone_iff_eq_none] at hfree
  exact Table.get?_eq_none_iff.mp hfree hname

end World

namespace Callee

/-! ## Frames of calls -/

/-- The frame in which the body of a function value is evaluated. -/
lemma frame_closure (c : Closure) (values : List Value) :
    (closure c).frame values = (c.env.map .number).setAll (c.params.zip values) := rfl

/-- The frame in which the body of a named function is evaluated. -/
lemma frame_definition (d : Definition) (values : List Value) :
    (definition d).frame values = Table.empty.setAll (d.params.zip values) := rfl

/-- The frame of a call of a named function binds no name twice. -/
lemma nodup_names_frame_definition (d : Definition) (values : List Value) :
    ((definition d).frame values).names.Nodup := by
  apply Table.nodup_names_setAll
  exact List.nodup_nil

/-- The frame of a call of a function value binds no name twice if that is so of what the value
keeps. -/
lemma nodup_names_frame_closure {c : Closure} (h : c.env.names.Nodup) (values : List Value) :
    ((closure c).frame values).names.Nodup := by
  apply Table.nodup_names_setAll
  rw [Table.names_map]
  exact h

end Callee

end Abacus
