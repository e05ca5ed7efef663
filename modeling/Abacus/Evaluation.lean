import Abacus.Fault
import Abacus.Limits
import Abacus.Value

/-!
# Evaluation

The value of an expression in a frame of local names over the global ones.

A name stands for its local value, and else for its global one at the time of evaluation. A lambda
keeps the numbers that it can see: the local ones, and the global ones of all names that it has not
kept yet. Functions are not kept. A named function sees its parameters and the global names, a
function value its parameters and the numbers that it keeps.

How deeply evaluations nest is counted in the world: each part of an expression and each body of a
called function is evaluated one level further inside.

## Main definitions

* `Abacus.World` — the global names, with `World.lookup`, `World.snapshot` and `World.callee`.
* `Abacus.Run` — runs on a world, with `Run.on`, what a run leads to.
* `Abacus.Run.deeper` — a run one level further inside.
* `Abacus.Expr.visit` — the value of an expression, given those of what it is made of.
* `Abacus.Expr.evaluate` — the run that evaluates an expression.
* `Abacus.World.run` — the value of an expression in a world.
-/

namespace Abacus

/-- The global names, how deeply evaluations may nest, and the warnings that were given. An
evaluation reads all of it but the warnings, and changes the depth only. -/
structure World where
  /-- The numbers and function values that are bound to names. -/
  bindings : Table Value
  /-- The named functions. -/
  functions : Table Definition
  /-- How deeply evaluations may nest. -/
  maxDepth : DepthLimit
  /-- What the stack of the machine can hold. -/
  limits : Limits
  /-- How many evaluations go on inside one another at the moment. -/
  depth : Nat
  /-- The warnings that were given so far, in order. -/
  warnings : List Report

namespace World

/-- The value of a name: the local one, or else the global one at this moment. The functions that
have a name are not among the values. -/
def lookup (w : World) (frame : Table Value) (name : String) : Except Fault Value :=
  match frame.get? name with
  | some value => .ok value
  | none =>
    match w.bindings.get? name with
    | some value => .ok value
    | none => .error (.undefinedVariable name)

/-- The numbers that a lambda keeps: the local ones, then the global ones of the names that are
not kept yet. Functions are never kept. A local name that stands for a function is not kept
either, and does not hide the global number that has the same name. -/
def snapshot (w : World) (frame : Table Value) : Table Float :=
  let kept := frame.filterMap Value.number?
  ⟨kept.entries ++ (w.bindings.filterMap Value.number?).entries.filter
    fun entry => !kept.contains entry.1⟩

/-- The function that a call by name runs. Named functions come before function values, local ones
included. A name that stands for a number has no function, and neither has one that stands for
nothing. -/
def callee (w : World) (frame : Table Value) (name : String) : Except Fault Callee :=
  match w.functions.get? name with
  | some d => .ok (.definition d)
  | none =>
    match w.lookup frame name with
    | .ok (.function c) => .ok (.closure c)
    | _ => .error (.undefinedFunction name)

/-- The fault of an evaluation that has no level left. It tells the limit of the user, even if it
is the stack of the machine that ran out. -/
def depthFault (w : World) : Fault :=
  match w.maxDepth with
  | .levels n => .tooDeep (.levels n)
  | .blank => .incomparableLimit

end World

/-- The value of an operator between two values. A function can be no operand, and the left one is
looked at first. Both have been evaluated by then. -/
def Operator.combine (op : Operator) : Value → Value → Except Fault Value
  | .function c, _ => .error (.functionOperand op (Expr.showFunction c.params))
  | .number _, .function c => .error (.functionOperand op (Expr.showFunction c.params))
  | .number x, .number y =>
    match op.result? x y with
    | some z => .ok (.number z)
    | none => .error (.divisionByZero x y)

/-! ## Runs -/

/-- Runs on a world. What they have changed of it stays changed when they end with a fault, so it
is a theorem and no rule of the type that a failed evaluation leaves no trace. -/
abbrev Run (α : Type) := ExceptT Fault (StateM World) α

namespace Run

variable {α : Type}

/-- The result of a run, and the world after it. -/
def on (r : Run α) (w : World) : Except Fault α × World := r w

/-- A run one level further inside, if there is one left. The level is left again also when the
run ends with a fault. -/
def deeper (r : Run α) : Run α := fun w =>
  if w.depth < w.maxDepth.admitted then
    let (result, w') := r.on { w with depth := w.depth + 1 }
    (result, { w' with depth := w'.depth - 1 })
  else
    (.error w.depthFault, w)

end Run

namespace Expr

/-! ## Evaluation -/

section Visit

variable {m : Type → Type} [Monad m] [MonadExceptOf Fault m]

/-- Evaluates expressions one after another, from left to right. The first fault ends it. -/
def evaluateAll (value : Expr → m Value) : List Expr → m (List Value)
  | [] => return []
  | e :: es => do
    let v ← value e
    let vs ← evaluateAll value es
    return v :: vs

/-- Calls a function with arguments that are evaluated where the call stands. Their number is
checked before any of them is evaluated. A function without a name has none to be told in the
fault. -/
def callWith (inner : Table Value → Expr → m Value) (callee : Callee) (name : Option String)
    (frame : Table Value) (args : List Expr) : m Value :=
  if args.length = callee.params.length then do
    let values ← evaluateAll (inner frame) args
    inner (callee.frame values) callee.body
  else
    throw (.wrongArity name callee.params.length args.length)

/-- The value of an expression in a world, given how the expressions inside of it are evaluated.
This is one step of the evaluation: `inner` stands for all that lies deeper, the bodies of called
functions included. It is stated for any monad, so that it can be run with or without a count of
levels. -/
def visit (w : World) (inner : Table Value → Expr → m Value) (frame : Table Value) : Expr → m Value
  | number value => return .number value
  | var name => MonadExcept.ofExcept (w.lookup frame name)
  | binary op left right => do
    let a ← inner frame left
    let b ← inner frame right
    MonadExcept.ofExcept (op.combine a b)
  | lambda params body => return .function ⟨params, body, w.snapshot frame⟩
  | call name args => do
    let callee ← MonadExcept.ofExcept (w.callee frame name)
    callWith inner callee (some name) frame args
  | invoke function args => do
    match ← inner frame function with
    | .number x => throw (.notAFunction x)
    | .function c => callWith inner (.closure c) none frame args

end Visit

/-- Evaluates an expression within the height that the machine can handle. A machine that has no
room left reports the same fault as an evaluation beyond the limit of the user. -/
def evaluate : Nat → Table Value → Expr → Run Value
  | 0, _, _ => do throw (← get).depthFault
  | height + 1, frame, e => Run.deeper do visit (← get) (evaluate height) frame e

end Expr

/-- Evaluates an expression on the world as it is, with all the room that the machine has. -/
def Run.value (frame : Table Value) (e : Expr) : Run Value := do
  e.evaluate (← get).limits.height frame

/-- The value of an expression in a world, without the world after it. That is the same world, as
evaluations change nothing. -/
def World.run (w : World) (frame : Table Value) (e : Expr) : Except Fault Value :=
  ((Run.value frame e).on w).1

end Abacus
