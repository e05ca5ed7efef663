import Abacus.Proofs.Evaluation
import Abacus.Proofs.Result
import Abacus.Proofs.Table
import Abacus.Session

/-!
# Lines leave no traces

A line that is refused leaves the world as it was, wherever the fault comes from, and a line that
is answered changes the world at the name that its statement is about. An evaluation that is over
has left all of its levels.

## Main definitions

* `Abacus.Turn` — everything that a line can lead to.
* `Abacus.World.Settled` — worlds in which nothing is evaluated and no name is bound twice.

## Main results

* `Abacus.turn_ofLine` — what a line leads to.
* `Abacus.World.settled_enterAll` — the worlds of sessions are settled.
* `Abacus.World.after_touches_one_name` — what a line changes.
-/

namespace Abacus

variable {w w' : World} {line : String} {form : Statement.Form} {result : Except Fault Reply}

/-! ## What a line leads to -/

/-- `Turn w form result w'` states what the run of a statement leads to: with a fault to the same
world, and with a reply to the world in which the statement is carried out. -/
inductive Turn (w : World) : Statement.Form → Except Fault Reply → World → Prop where
  | refused {form : Statement.Form} (fault : Fault) : Turn w form (.error fault) w
  | binding {name : String} {term : Expr} {value : Value} (hvalue : w.run .empty term = .ok value) :
      Turn w (.binding name term) (.ok (w.bind name value).toReply) (w.bind name value).world
  | definition {name : String} {params : List String} {body : Expr}
      (hheight : body.height ≤ w.limits.height) :
      Turn w (.definition name params body) (.ok (w.define name params body).toReply)
        (w.define name params body).world
  | expression {term : Expr} {value : Value} (hvalue : w.run .empty term = .ok value) :
      Turn w (.expression term) (.ok ⟨value.answer, none⟩) w

/-- The value of an expression and the world after it, which is the same. -/
lemma on_value (w : World) (term : Expr) :
    (Run.value .empty term).on w = (w.run .empty term, w) := by
  rw [World.run_eq]
  exact Run.value_keeps .empty term w

/-- The run of a statement leads to what it can lead to. -/
lemma turn_execute (w : World) (form : Statement.Form) :
    Turn w form (form.execute.on w).1 (form.execute.on w).2 := by
  cases form with
  | binding name term =>
    rw [Statement.Form.execute, Run.on_bind, on_value]
    cases hvalue : w.run .empty term with
    | ok value => exact .binding hvalue
    | error fault => exact .refused fault
  | definition name params body =>
    rw [Statement.Form.execute, Run.on_get]
    split
    · rename_i hheight
      exact .definition hheight
    · exact .refused _
  | expression term =>
    rw [Statement.Form.execute, Run.on_bind, on_value]
    cases hvalue : w.run .empty term with
    | ok value => exact .expression hvalue
    | error fault => exact .refused fault

/-- A line is refused and leaves the world as it was, or it holds a statement, and leads to what
that statement leads to. -/
theorem turn_ofLine (w : World) (line : String) :
    (∃ fault, (Run.ofLine line).on w = (.error fault, w)) ∨
      ∃ statement, Statement.ofLine w.limits line = .ok statement ∧
        Turn w statement.form ((Run.ofLine line).on w).1 ((Run.ofLine line).on w).2 := by
  rw [Run.ofLine, Run.on_get, Run.on_bind]
  cases hstatement : Statement.ofLine w.limits line with
  | error fault => exact .inl ⟨fault, rfl⟩
  | ok statement => exact .inr ⟨statement, rfl, turn_execute w statement.form⟩

/-! ## What a line keeps -/

/-- Worlds in which nothing is evaluated and no name is bound twice. -/
structure World.Settled (w : World) : Prop where
  depth : w.depth = 0
  bindings : w.bindings.names.Nodup
  functions : w.functions.names.Nodup

/-- A statement leads from a settled world to a settled one. -/
lemma Turn.settled (h : Turn w form result w') (hw : w.Settled) : w'.Settled := by
  cases h with
  | refused fault => exact hw
  | binding hvalue => exact ⟨hw.depth, Table.nodup_names_set hw.bindings _ _, hw.functions⟩
  | definition hheight => exact ⟨hw.depth, hw.bindings, Table.nodup_names_set hw.functions _ _⟩
  | expression hvalue => exact hw

/-- A statement does not change the limits of the machine. -/
lemma Turn.limits (h : Turn w form result w') : w'.limits = w.limits := by
  cases h <;> rfl

/-- A statement does not change how deeply evaluations may nest. -/
lemma Turn.maxDepth (h : Turn w form result w') : w'.maxDepth = w.maxDepth := by
  cases h <;> rfl

namespace World

/-- The new world is settled. -/
lemma settled_new (maxDepth : DepthLimit) (limits : Limits) : (new maxDepth limits).Settled :=
  ⟨rfl, List.nodup_nil, List.nodup_nil⟩

/-- A line leads from a settled world to a settled one, and does not change the limits of the
machine. -/
lemma settled_after (hw : w.Settled) (line : String) :
    (w.after line).Settled ∧ (w.after line).limits = w.limits := by
  rw [after]
  rcases turn_ofLine w line with ⟨fault, h⟩ | ⟨statement, -, h⟩
  · rw [h]
    exact ⟨hw, rfl⟩
  · exact ⟨h.settled hw, h.limits⟩

/-- **The worlds of sessions are settled**, whatever lines were entered.

**Proof sketch.** Induction along the lines, each of which leads from a settled world to a settled
one (`settled_after`). -/
theorem settled_enterAll (maxDepth : DepthLimit) (limits : Limits) (lines : List String) :
    ((new maxDepth limits).enterAll lines).Settled ∧
      ((new maxDepth limits).enterAll lines).limits = limits := by
  suffices h : ∀ w : World, w.Settled → (w.enterAll lines).Settled ∧
      (w.enterAll lines).limits = w.limits from h _ (settled_new maxDepth limits)
  induction lines with
  | nil => exact fun w hw => ⟨hw, rfl⟩
  | cons line lines ih =>
    intro w hw
    obtain ⟨hafter, hlimits⟩ := settled_after hw line
    obtain ⟨hall, hlimits'⟩ := ih (w.after line) hafter
    exact ⟨hall, hlimits'.trans hlimits⟩

/-- Lines do not change how deeply evaluations may nest. -/
lemma maxDepth_enterAll (w : World) (lines : List String) :
    (w.enterAll lines).maxDepth = w.maxDepth := by
  induction lines generalizing w with
  | nil => rfl
  | cons line lines ih =>
    refine (ih (w.after line)).trans ?_
    rw [after]
    rcases turn_ofLine w line with ⟨fault, h⟩ | ⟨statement, -, h⟩
    · rw [h]
    · exact h.maxDepth

/-! ## What a line changes -/

/-- A line that is refused leads to the same world. -/
lemma after_of_enter_eq_error {fault : Fault} (h : w.enter line = .error fault) :
    w.after line = w := by
  rw [enter, Result.map_eq_error_iff] at h
  rw [after]
  rcases turn_ofLine w line with ⟨fault', hrun⟩ | ⟨statement, -, hturn⟩
  · rw [hrun]
  · rw [h] at hturn
    generalize statement.form = form, ((Run.ofLine line).on w).2 = w' at hturn
    cases hturn
    rfl

/-- A line that is answered holds a statement, and leads to what that statement leads to. -/
lemma exists_turn_of_enter {outcome : Outcome} (h : w.enter line = .ok outcome) :
    outcome.world = w.after line ∧ ∃ statement, Statement.ofLine w.limits line = .ok statement ∧
      Turn w statement.form (.ok outcome.toReply) outcome.world := by
  rw [enter, Result.map_eq_ok_iff] at h
  obtain ⟨reply, hreply, rfl⟩ := h
  refine ⟨rfl, ?_⟩
  rcases turn_ofLine w line with ⟨fault, hrun⟩ | ⟨statement, hstatement, hturn⟩
  · rw [hrun] at hreply
    cases hreply
  · rw [hreply] at hturn
    exact ⟨statement, hstatement, hturn⟩

/-- **A line is carried out as a whole or not at all**, and touches only the name that its
statement is about. Let any lines be entered into the new world, and then one more. If it is
refused, no variable and no function changes. If it is an expression, neither. If it binds a
variable, the functions stay, and the variables change at its name only, to the value that the
expression has before. If it defines a function, the variables stay, and the functions change at
its name only. A name that is new comes last, and else it keeps its place. In every case all
levels of evaluation are left.

**Proof sketch.** Evaluations leave the world as it was (`Expr.evaluate_keeps`), so a statement
changes it in its last step only (`turn_execute`). No name is bound twice in the world before
(`settled_enterAll`), so the place of a name is the only one. -/
theorem after_touches_one_name (maxDepth : DepthLimit) (limits : Limits) (lines : List String)
    (line : String) :
    let w := (new maxDepth limits).enterAll lines
    let w' := w.after line
    w'.depth = 0 ∧
    (∀ fault, w.enter line = .error fault →
      w'.bindings = w.bindings ∧ w'.functions = w.functions) ∧
    (∀ outcome, w.enter line = .ok outcome →
      ∃ statement, Statement.ofLine limits line = .ok statement ∧
        match statement.form with
        | .expression _ => w'.bindings = w.bindings ∧ w'.functions = w.functions
        | .binding name term => w'.functions = w.functions ∧
          ∃ value, w.run .empty term = .ok value ∧
            Table.Written name value w.bindings w'.bindings
        | .definition name params body => w'.bindings = w.bindings ∧
          Table.Written name ⟨params, body, body.source⟩ w.functions w'.functions) := by
  intro w w'
  obtain ⟨hw, hlimits⟩ : w.Settled ∧ w.limits = limits := settled_enterAll maxDepth limits lines
  refine ⟨(settled_after hw line).1.depth, fun fault hfault => ?_, fun outcome houtcome => ?_⟩
  · have hsame : w' = w := after_of_enter_eq_error hfault
    rw [hsame]
    exact ⟨rfl, rfl⟩
  · rw [enter, Result.map_eq_ok_iff] at houtcome
    obtain ⟨reply, hreply, -⟩ := houtcome
    rcases turn_ofLine w line with ⟨fault, hrun⟩ | ⟨statement, hstatement, hturn⟩
    · rw [hrun] at hreply
      cases hreply
    · rw [hlimits] at hstatement
      refine ⟨statement, hstatement, ?_⟩
      have hafter : w' = ((Run.ofLine line).on w).2 := rfl
      rw [hreply, ← hafter] at hturn
      -- the turn says of each form what is written, whatever the statement was
      generalize statement.form = form, w' = after at hturn ⊢
      cases hturn with
      | binding hvalue => exact ⟨rfl, _, hvalue, Table.written_set hw.bindings _ _⟩
      | definition hheight => exact ⟨rfl, Table.written_set hw.functions _ _⟩
      | expression hvalue => exact ⟨rfl, rfl⟩

/-- A variable is bound again, to the value of a call, after a line that is refused. -/
theorem after_touches_one_name_rebound :
    let w := (new (.levels 300) .standard).enterAll ["let x = 1", "def f(a) = a + x", "let y = x"]
    let w' := w.after "let x = f(3)"
    (∃ fault, w.enter "let x = y / 0" = .error fault) ∧
      (w.after "let x = y / 0").bindings = w.bindings ∧
      w.bindings.names = ["x", "y"] ∧ w'.functions = w.functions ∧
      ∃ term value, w.run .empty term = .ok value ∧
        Table.Written "x" value w.bindings w'.bindings := by
  intro w w'
  have h := after_touches_one_name (.levels 300) .standard
      ["let x = 1", "def f(a) = a + x", "let y = x"]
  obtain ⟨fault, hfault⟩ :=
    Result.exists_of_isOk_eq_false (x := w.enter "let x = y / 0") (by decide +kernel)
  obtain ⟨outcome, houtcome⟩ :=
    Result.exists_of_isOk (x := w.enter "let x = f(3)") (by decide +kernel)
  obtain ⟨-, hrefused, -⟩ := h "let x = y / 0"
  obtain ⟨-, -, hanswered⟩ := h "let x = f(3)"
  obtain ⟨statement, hstatement, hform⟩ := hanswered outcome houtcome
  have hname : ((Statement.ofLine .standard "let x = f(3)").toOption.map fun s =>
      match s.form with
      | .binding name _ => name
      | _ => "") = some "x" := by decide +kernel
  rw [hstatement] at hname
  cases hcase : statement.form with
  | binding name term =>
    rw [hcase] at hform
    simp only [Except.toOption, Option.map_some, hcase, Option.some.injEq] at hname
    subst hname
    obtain ⟨hfunctions, value, hvalue, hwritten⟩ := hform
    exact ⟨⟨fault, hfault⟩, (hrefused fault hfault).1, by decide +kernel, hfunctions, term,
      value, hvalue, hwritten⟩
  | _ => simp [Except.toOption, hcase] at hname

end World

end Abacus
