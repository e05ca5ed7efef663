import Abacus.Evaluation
import Abacus.Statement

/-!
# Sessions

A session is a run of statements on one world of names. A statement is read and evaluated first,
and what it is about is changed last. So a statement either has an answer and changes at most the
name that it is about, or it is refused and changes nothing.

## Main definitions

* `Abacus.Answer` — what a statement answers, with `Answer.display`.
* `Abacus.Reply`, `Abacus.Outcome` — an answer with a warning, and the world that goes with them.
* `Abacus.Statement.Form.execute` — runs a statement.
* `Abacus.Run.ofLine` — runs the statement that a line holds.
* `Abacus.World.enter`, `Abacus.World.after` — what a line leads to, and the world after it.
* `Abacus.World.enterAll` — the world after a list of lines.
-/

namespace Abacus

/-- What a statement answers. Numbers are kept as numbers, so that whoever runs a statement can go
on with them, and everything else is a text. -/
inductive Answer where
  /-- The value of an expression, if it is a number. -/
  | number (x : Float)
  /-- A function value, or the confirmation of a binding or a definition. -/
  | text (s : String)

/-- How an answer is shown, in a line of its own. -/
def Answer.display : Answer → String
  | number x => Number.display x
  | text s => s

/-- What is said to a statement that is not refused: an answer, and at most one warning. -/
structure Reply where
  /-- What the statement answers. -/
  answer : Answer
  /-- The warning that the statement gives, if it gives one. It is also kept in the world. -/
  warning : Option Report

/-- What a statement leads to if it is not refused: what is said to it, and the world after it. -/
structure Outcome extends Reply where
  /-- The world after the statement. -/
  world : World

/-- The warning that a function value cannot be called by its name, since a named function comes
before it. The value can still be used and bound to another name. -/
def closureShadowed (name : String) : Report :=
  .about ["closure '", .snippet name,
    "' is shadowed in calls by the named function of the same name"] name

/-- The warning that a function value can no longer be called by its name, since a function was
defined that comes before it. -/
def functionShadows (name : String) : Report :=
  .about ["named function '", .snippet name,
    "' shadows the closure of the same name in calls"] name

namespace World

/-- The world without names, in which nothing is being evaluated and no warning was given. -/
def new (maxDepth : DepthLimit) (limits : Limits) : World :=
  ⟨.empty, .empty, maxDepth, limits, 0, []⟩

/-- The variables that are numbers, in the order in which the variables were first bound. -/
def numbers (w : World) : Table Float := w.bindings.filterMap Value.number?

/-- The variables that are functions, in the order in which the variables were first bound. -/
def closures (w : World) : Table Closure := w.bindings.filterMap Value.function?

/-- The world after a warning, if one is given. The warnings of a world are never taken back. -/
def warn (w : World) (warning : Option Report) : World :=
  { w with warnings := w.warnings ++ warning.toList }

/-- The warnings that a later world has and this one has not. They are the last ones of the later
world. -/
def newWarnings (w later : World) : List Report := later.warnings.drop w.warnings.length

/-- Without a warning the world is as it was. -/
@[simp]
theorem warn_none (w : World) : w.warn none = w := by
  rw [warn, Option.toList_none, List.append_nil]

/-- A warning leaves the variables as they were. -/
@[simp]
theorem bindings_warn (w : World) (warning : Option Report) :
    (w.warn warning).bindings = w.bindings := rfl

/-- A warning leaves the named functions as they were. -/
@[simp]
theorem functions_warn (w : World) (warning : Option Report) :
    (w.warn warning).functions = w.functions := rfl

/-- The warning of a statement that binds a variable to a value: it is due if the value is a
function and a named function has the name of the variable. -/
def bindingWarning? (w : World) (name : String) (value : Value) : Option Report :=
  if value.isFunction && w.functions.contains name then some (closureShadowed name) else none

/-- The warning of a statement that defines a function: it is due if a variable of that name is
bound to a function value. -/
def definitionWarning? (w : World) (name : String) : Option Report :=
  if (w.bindings.get? name).any Value.isFunction then some (functionShadows name) else none

/-- Binds a variable to a value. The confirmation shows the value, as an expression with this
value would. -/
def bind (w : World) (name : String) (value : Value) : Outcome where
  answer := .text (name ++ " = " ++ value.display)
  warning := w.bindingWarning? name value
  world := { w with bindings := w.bindings.set name value }.warn (w.bindingWarning? name value)

/-- Defines a function. Its text is made here and kept with it, and the confirmation shows its
name and its parameters. -/
def define (w : World) (name : String) (params : List String) (body : Expr) : Outcome where
  answer :=
    .text ("Function " ++ name ++ "(" ++ String.ofList (Expr.renderParams params) ++ ") defined")
  warning := w.definitionWarning? name
  world :=
    { w with functions := w.functions.set name ⟨params, body, body.source⟩ }.warn
      (w.definitionWarning? name)

/-- A binding writes to the variables, and nothing else does. -/
@[simp]
theorem bindings_bind (w : World) (name : String) (value : Value) :
    (w.bind name value).world.bindings = w.bindings.set name value := rfl

/-- A definition writes to the named functions, and nothing else does. -/
@[simp]
theorem functions_define (w : World) (name : String) (params : List String) (body : Expr) :
    (w.define name params body).world.functions =
      w.functions.set name ⟨params, body, body.source⟩ := rfl

end World

/-! ## Statements -/

/-- Puts what a statement leads to in the place of the world that there is. This is the last step
of a statement, and no step before it changes the names. -/
def Run.commit (outcome : World → Outcome) : Run Reply := fun w =>
  (.ok (outcome w).toReply, (outcome w).world)

/-- The answer that is a value: a number as it is, and a function by its text. -/
def Value.answer : Value → Answer
  | .number x => .number x
  | .function c => .text (Expr.showFunction c.params)

/-- Runs a statement. A function is defined only if the text of its body can be written on this
machine, which is found out before anything is changed. Its body is not evaluated. -/
def Statement.Form.execute : Statement.Form → Run Reply
  | .binding name term => do
    let value ← Run.value .empty term
    Run.commit fun w => w.bind name value
  | .definition name params term => do
    let w ← get
    if term.height ≤ w.limits.height then
      Run.commit fun w => w.define name params term
    else
      throw (.tooDeep w.maxDepth)
  | .expression term => do
    let value ← Run.value .empty term
    return ⟨value.answer, none⟩

/-! ## Lines -/

/-- Runs the statement that a line holds. If the line cannot be read, nothing is run. -/
def Run.ofLine (line : String) : Run Reply := do
  let statement ← MonadExcept.ofExcept (Statement.ofLine (← get).limits line)
  statement.form.execute

namespace World

/-- The world after a line, whether or not the line was refused. -/
def after (w : World) (line : String) : World := ((Run.ofLine line).on w).2

/-- What a line leads to: the fault for which it is refused, or its answer with the world after
it. -/
def enter (w : World) (line : String) : Except Fault Outcome :=
  ((Run.ofLine line).on w).1.map fun reply => ⟨reply, w.after line⟩

/-- The world after lines. A line that is refused does not keep the next ones from being run. -/
def enterAll (w : World) (lines : List String) : World := lines.foldl after w

end World

/-- How a named function is listed: by a text that defines the same function with `def` before
it. -/
def Definition.listing (name : String) (d : Definition) : String :=
  name ++ "(" ++ String.ofList (Expr.renderParams d.params) ++ ") = " ++ d.source

end Abacus
