import Abacus.Proofs.Session
import Abacus.Proofs.Statement

/-!
# The faults of lines

A line that is refused is no statement, or the evaluation of its expression has a fault. Only few
faults are left to evaluations, and none of them is a fault of the program, as long as the limit
of the user is a number.

## Main definitions

* `Abacus.Fault.OfEvaluation` — the faults of evaluations under a limit.

## Main results

* `Abacus.Expr.valueWithin_faults` — the faults that evaluations have.
* `Abacus.World.fault_of_enter` — where the fault of a line comes from.
* `Abacus.World.eq_of_isInternal` — which faults of the program a line can have.
-/

namespace Abacus

open Result (Satisfies)

variable {w : World} {limit : DepthLimit} {levels : Nat} {frame : Table Value} {e : Expr}
  {fault : Fault}
  {form : Statement.Form} {line : String}

/-- The faults of evaluations under a limit. -/
inductive Fault.OfEvaluation (limit : DepthLimit) : Fault → Prop where
  | undefinedVariable (name : String) : OfEvaluation limit (.undefinedVariable name)
  | undefinedFunction (name : String) : OfEvaluation limit (.undefinedFunction name)
  | functionOperand (op : Operator) (params : List String) :
      OfEvaluation limit (.functionOperand op (Expr.showFunction params))
  | notAFunction (x : Float) : OfEvaluation limit (.notAFunction x)
  | divisionByZero (x y : Float) : OfEvaluation limit (.divisionByZero x y)
  | wrongArity (callee : Option String) (expected got : Nat) :
      OfEvaluation limit (.wrongArity callee expected got)
  | tooDeep : OfEvaluation limit (.tooDeep limit)
  | incomparableLimit (h : limit = .blank) : OfEvaluation limit .incomparableLimit

/-- Evaluations have no fault of the program, except under a limit that is no number. -/
lemma Fault.OfEvaluation.eq_of_isInternal (h : fault.OfEvaluation limit)
    (hinternal : fault.report.isInternal = true) : limit = .blank ∧ fault = .incomparableLimit := by
  cases h with
  | incomparableLimit hlimit => exact ⟨hlimit, rfl⟩
  | _ => cases hinternal

/-! ## Evaluations -/

/-- A name stands for a value, or it is bound nowhere. -/
lemma World.lookup_faults (w : World) (frame : Table Value) (name : String) :
    Satisfies (fun _ => True) (Fault.OfEvaluation w.maxDepth) (w.lookup frame name) := by
  rw [lookup]
  split
  · exact .ok trivial
  · split
    · exact .ok trivial
    · exact .error (.undefinedVariable name)

/-- A call by name runs a function, or there is none. -/
lemma World.callee_faults (w : World) (frame : Table Value) (name : String) :
    Satisfies (fun _ => True) (Fault.OfEvaluation w.maxDepth) (w.callee frame name) := by
  rw [callee]
  split
  · exact .ok trivial
  · split
    · exact .ok trivial
    · exact .error (.undefinedFunction name)

/-- An operator has no value if a function is one of its operands, or if it divides by zero. -/
lemma Operator.combine_faults (op : Operator) (a b : Value) :
    Satisfies (fun _ => True) (Fault.OfEvaluation limit) (op.combine a b) := by
  cases a with
  | function c => exact .error (.functionOperand op c.params)
  | number x =>
    cases b with
    | function c => exact .error (.functionOperand op c.params)
    | number y =>
      rw [combine]
      split
      · exact .ok trivial
      · exact .error (.divisionByZero x y)

namespace Expr

variable {inner : Table Value → Expr → Except Fault Value}

/-- A call has the faults of what is evaluated for it, or a wrong number of arguments. -/
lemma callWith_faults
    (hinner : ∀ frame e, Satisfies (fun _ => True) (Fault.OfEvaluation limit) (inner frame e))
    (callee : Callee) (name : Option String) (frame : Table Value) (args : List Expr) :
    Satisfies (fun _ => True) (Fault.OfEvaluation limit)
      (callWith inner callee name frame args) := by
  rw [callWith]
  split
  · have hargs : Satisfies (fun values => ∀ v ∈ values, True) (Fault.OfEvaluation limit)
        (evaluateAll (inner frame) args) := evaluateAll_satisfies fun e _ => hinner frame e
    exact hargs.bind fun {values} _ => hinner (callee.frame values) callee.body
  · exact .error (.wrongArity name _ _)

/-- **The faults of evaluations.**

**Proof sketch.** Induction on the levels. Without a level the evaluation has the fault of its
limit, and with one it has those of its parts and one fault of its own for each kind of
expression. -/
theorem valueWithin_faults (w : World) (levels : Nat) (frame : Table Value) (e : Expr) :
    Satisfies (fun _ => True) (Fault.OfEvaluation w.maxDepth) (e.valueWithin w levels frame) := by
  -- on the levels, not on the expression: a call goes on with the body of another expression
  induction levels generalizing frame e with
  | zero =>
    refine .error ?_
    rw [World.depthFault]
    split
    · rename_i n hlimit
      rw [hlimit]
      exact .tooDeep
    · rename_i hlimit
      exact .incomparableLimit hlimit
  | succ levels ih =>
    rw [valueWithin]
    cases e with
    | number x => exact .ok trivial
    | lambda params body => exact .ok trivial
    | var name =>
      rw [visit, Result.ofExcept_eq]
      exact w.lookup_faults frame name
    | binary op a b =>
      apply (ih frame a).bind
      intro u _
      apply (ih frame b).bind
      intro v _
      rw [Result.ofExcept_eq]
      exact op.combine_faults u v
    | call name args =>
      rw [visit, Result.ofExcept_eq]
      apply (w.callee_faults frame name).bind
      intro callee _
      exact callWith_faults ih callee _ _ _
    | invoke function args =>
      apply (ih frame function).bind
      intro v _
      cases v with
      | number x => exact .error (.notAFunction x)
      | function c => exact callWith_faults ih _ _ _ _

end Expr

/-! ## Lines -/

/-- A statement that is refused has the fault of its expression, or it defines a function whose
body is too high. -/
lemma fault_of_execute (h : (form.execute.on w).1 = .error fault) :
    w.run .empty form.term = .error fault ∨ fault = .tooDeep w.maxDepth := by
  cases form with
  | binding name term | expression term =>
    rw [Statement.Form.execute, Run.on_bind, on_value] at h
    cases hvalue : w.run .empty term with
    | error fault' =>
      rw [hvalue] at h
      cases h
      exact .inl hvalue
    | ok value =>
      rw [hvalue] at h
      cases h
  | definition name params body =>
    rw [Statement.Form.execute, Run.on_get] at h
    split at h
    · cases h
    · cases h
      exact .inr rfl

namespace World

/-- **Where the fault of a line comes from.** The line is no statement, or its expression has the
fault, or it defines a function whose body is too high.

**Proof sketch.** A line is read first and carried out then. Carrying a statement out fails if its
expression does, or if the body that it defines is too high (`fault_of_execute`). -/
theorem fault_of_enter (h : w.enter line = .error fault) : fault.OfReading ∨
    ∃ statement, Statement.ofLine w.limits line = .ok statement ∧
      (w.run .empty statement.form.term = .error fault ∨ fault = .tooDeep w.maxDepth) := by
  rw [enter, Result.map_eq_error_iff, Run.ofLine, Run.on_get, Run.on_bind] at h
  cases hstatement : Statement.ofLine w.limits line with
  | error fault' =>
    rw [hstatement] at h
    cases h
    exact .inl (Statement.ofReading_of_ofLine hstatement)
  | ok statement =>
    rw [hstatement] at h
    exact .inr ⟨statement, rfl, fault_of_execute h⟩

/-- A line has no fault of the program, except under a limit that is no number. -/
lemma eq_of_isInternal (h : w.enter line = .error fault)
    (hinternal : fault.report.isInternal = true) :
    w.maxDepth = .blank ∧ fault = .incomparableLimit := by
  rcases fault_of_enter h with hreading | ⟨statement, -, hrun | rfl⟩
  · rw [hreading.isInternal] at hinternal
    cases hinternal
  · have hfaults := statement.form.term.valueWithin_faults w w.levels .empty
    rw [← run_eq, hrun] at hfaults
    cases hfaults with
    | error hevaluation => exact hevaluation.eq_of_isInternal hinternal
  · cases hinternal

end World

end Abacus
