import Abacus.Expr.Render
import Abacus.Table

/-!
# Values

What expressions stand for: numbers, and functions with the numbers that they keep from the place
where they were made.

## Main definitions

* `Abacus.Closure` — function values.
* `Abacus.Definition` — named functions.
* `Abacus.Value` — numbers and function values, with `Value.display`.
* `Abacus.Callee` — what a call can run.
-/

namespace Abacus

/-- A function value, made by a lambda. It keeps its body as the tree that the lambda had. -/
structure Closure where
  /-- The names of the parameters, of which one may occur twice. -/
  params : List String
  /-- What is evaluated when the function is called. -/
  body : Expr
  /-- The numbers that names had where the function was made. -/
  env : Table Float

/-- A function that has a name. Unlike a function value it keeps no numbers: the names in its body
are looked up when it is called. -/
structure Definition where
  /-- The names of the parameters, which are all different. -/
  params : List String
  /-- What is evaluated when the function is called. -/
  body : Expr
  /-- The text of the body, made when the function is defined, so that listing it never walks
  through the tree. -/
  source : String

/-- The values of expressions. -/
inductive Value where
  /-- A number, which may be infinite or undefined. -/
  | number (x : Float)
  /-- A function without a name. -/
  | function (c : Closure)

namespace Value

/-- The number that a value is, if it is one. Only numbers are kept by a lambda. -/
def number? : Value → Option Float
  | number x => some x
  | function _ => none

/-- The function that a value is, if it is one. -/
def function? : Value → Option Closure
  | number _ => none
  | function c => some c

/-- Whether a value is a function. Such values are listed apart from the numbers. -/
def isFunction : Value → Bool
  | number _ => false
  | function _ => true

/-- How a value is shown. Of a function only the parameters are, so two functions may look alike. -/
def display : Value → String
  | number x => Number.display x
  | function c => Expr.showFunction c.params

end Value

/-- What a call can run: a function with a name or a function value. -/
inductive Callee where
  /-- A named function, which sees the global names only. -/
  | definition (d : Definition)
  /-- A function value, which also sees the numbers it keeps. -/
  | closure (c : Closure)

namespace Callee

/-- The names of the parameters. A call must have as many arguments. -/
def params : Callee → List String
  | definition d => d.params
  | closure c => c.params

/-- What is evaluated when the function is called. -/
def body : Callee → Expr
  | definition d => d.body
  | closure c => c.body

/-- The names that the body sees besides the global ones: the parameters, over the numbers that a
function value keeps. Of two parameters with one name the later one counts. What is local where
the call stands is not seen. -/
def frame (callee : Callee) (arguments : List Value) : Table Value :=
  let kept : Table Value :=
    match callee with
    | definition _ => .empty
    | closure c => c.env.map .number
  kept.setAll (callee.params.zip arguments)

end Callee

end Abacus
