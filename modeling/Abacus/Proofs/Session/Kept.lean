import Abacus.Proofs.Evaluation.Comparison
import Abacus.Proofs.Session

/-!
# What the functions of a session keep

The function values that an evaluation leads to keep no name twice, so the variables of a session
are bound to such values only, whatever lines were entered.

## Main definitions

* `Abacus.World.Reachable` — the worlds of sessions.

## Main results

* `Abacus.World.nodup_of_run` — what the value of an expression keeps.
* `Abacus.World.Reachable.proper` — what the variables of a session keep.
-/

namespace Abacus

variable {w w' : World} {frame frame' : Table Value} {e : Expr} {c c' : Closure} {name : String}

/-! ## Evaluations -/

/-- The same function value, which keeps no name twice. -/
structure Closure.KeepsOnce (c c' : Closure) : Prop where
  eq : c = c'
  nodup : c.env.names.Nodup

/-- The same frame, which is proper. -/
structure Expr.ProperFrame (e : Expr) (frame frame' : Table Value) : Prop where
  eq : frame = frame'
  proper : frame.Proper

/-- Values of a proper table are alike to themselves. -/
lemma Table.Proper.rel_refl {t : Table Value} (h : t.Proper) (name : String) :
    Option.Rel (Value.Alike Closure.KeepsOnce) (t.get? name) (t.get? name) := by
  cases hname : t.get? name with
  | none => exact .none
  | some v =>
    cases v with
    | number x => exact .some (.number x)
    | function c => exact .some (.function ⟨rfl, h.kept hname⟩)

/-- A table is proper if no name is bound twice and its values are alike to themselves. -/
lemma Table.proper_of_rel {t : Table Value} (hnames : t.names.Nodup)
    (h : ∀ name, Option.Rel (Value.Alike Closure.KeepsOnce) (t.get? name) (t.get? name)) :
    t.Proper where
  names := hnames
  kept := by
    intro name c hc
    have hname := h name
    rw [hc] at hname
    cases hname with
    | some hv =>
      cases hv with
      | function hc => exact hc.nodup

/-- Arguments that are alike are the same. -/
lemma Closure.KeepsOnce.values_eq {values values' : List Value}
    (h : List.Forall₂ (Value.Alike Closure.KeepsOnce) values values') : values = values' := by
  rw [← List.forall₂_eq_eq_eq]
  exact h.imp fun _ _ hv => (hv.mono fun hc => hc.eq).eq

/-- A call of a function value that keeps no name twice takes place in a proper frame. -/
lemma Closure.KeepsOnce.callee (h : c.KeepsOnce c') :
    (Callee.closure c).Alike Expr.ProperFrame Closure.KeepsOnce (.closure c') := by
  obtain ⟨rfl, hnodup⟩ := h
  refine ⟨rfl, rfl, fun hvalues => ?_⟩
  have heq := values_eq hvalues
  subst heq
  exact ⟨rfl, Table.proper_of_rel (Callee.nodup_names_frame_closure hnodup _)
    fun name => Callee.rel_frame_closure rfl rfl hvalues⟩

/-- A call of a definition takes place in a proper frame. -/
lemma Callee.keepsOnce_definition (d : Definition) :
    (Callee.definition d).Alike Expr.ProperFrame Closure.KeepsOnce (.definition d) := by
  refine ⟨rfl, rfl, fun hvalues => ?_⟩
  have heq := Closure.KeepsOnce.values_eq hvalues
  subst heq
  exact ⟨rfl, Table.proper_of_rel (Callee.nodup_names_frame_definition d _)
    fun name => Callee.rel_frame_definition rfl hvalues name⟩

/-- Evaluations in a proper world take place in proper frames, and the functions that they make
keep no name twice. -/
lemma World.comparable_proper (hw : w.bindings.Proper) :
    Comparable w w Expr.ProperFrame Closure.KeepsOnce where
  params := fun hc => congrArg Closure.params hc.eq
  child := fun hframes _ => ⟨hframes.eq, hframes.proper⟩
  lookup := by
    rintro name frame _ ⟨rfl, hframe⟩
    exact visible_alike (hframe.rel_refl name) (hw.rel_refl name)
  snapshot := by
    rintro params body frame _ ⟨rfl, hframe⟩
    exact ⟨rfl, nodup_names_snapshot hframe.names hw.names⟩
  call := by
    rintro name args frame _ ⟨rfl, hframe⟩
    have hvisible := visible_alike (hframe.rel_refl name) (hw.rel_refl name)
    refine callee_alike ?_ hvisible fun hc => hc.callee
    cases w.functions.get? name with
    | none => exact .none
    | some d => exact .some (Callee.keepsOnce_definition d)
  invoke := fun _ hc _ _ => hc.callee

/-- **A function value that an evaluation leads to keeps no name twice**, if that holds of the
variables and of the frame.

**Proof sketch.** An evaluation is compared with itself (`comparable_proper`), by a relation that
holds of a function value and itself if it keeps no name twice. -/
theorem World.nodup_of_run (hw : w.bindings.Proper) (hframe : frame.Proper)
    (h : w.run frame e = .ok (.function c)) : c.env.names.Nodup := by
  have halike := (comparable_proper hw).run (e := e) rfl rfl ⟨rfl, hframe⟩
  rw [h] at halike
  cases halike with
  | ok hv =>
    cases hv with
    | function hc => exact hc.nodup

/-! ## Sessions -/

/-- A table stays proper if a name is bound to a value that keeps no name twice. -/
lemma Table.Proper.set {t : Table Value} (h : t.Proper) (name : String) {value : Value}
    (hvalue : ∀ c, value = .function c → c.env.names.Nodup) : (t.set name value).Proper where
  names := Table.nodup_names_set h.names name value
  kept := by
    intro other c hc
    rw [Table.get?_set] at hc
    split at hc
    · exact hvalue c (Option.some.inj hc)
    · exact h.kept hc

/-- A statement leads from a world with proper variables to one. -/
lemma Turn.proper {form : Statement.Form} {result : Except Fault Reply} (h : Turn w form result w')
    (hw : w.bindings.Proper) : w'.bindings.Proper := by
  cases h with
  | refused fault => exact hw
  | @binding name term value hvalue =>
    apply hw.set name
    rintro c rfl
    exact World.nodup_of_run hw Table.proper_empty hvalue
  | definition hheight => exact hw
  | expression hvalue => exact hw

namespace World

/-- The worlds of sessions: those that lines lead to from the world without names. -/
def Reachable (w : World) : Prop :=
  ∃ maxDepth limits lines, w = (new maxDepth limits).enterAll lines

/-- A line leads from a world with proper variables to one. -/
lemma proper_after (hw : w.bindings.Proper) (line : String) : (w.after line).bindings.Proper := by
  rw [after]
  rcases turn_ofLine w line with ⟨fault, h⟩ | ⟨statement, -, h⟩
  · rw [h]
    exact hw
  · exact h.proper hw

/-- **The variables of a session are proper**, whatever lines were entered.

**Proof sketch.** Induction along the lines, each of which leads from proper variables to proper
ones (`proper_after`). -/
theorem Reachable.proper (h : w.Reachable) : w.bindings.Proper := by
  obtain ⟨maxDepth, limits, lines, rfl⟩ := h
  suffices hall : ∀ w : World, w.bindings.Proper → (w.enterAll lines).bindings.Proper from
    hall _ Table.proper_empty
  induction lines with
  | nil => exact fun w hw => hw
  | cons line lines ih => exact fun w hw => ih (w.after line) (proper_after hw line)

end World

end Abacus
