import Abacus.Expr
import Abacus.Number

/-!
# The text of an expression

Every expression has a text, in which an operand stands in parentheses exactly where it would not
be read back as that operand otherwise. It also has an outline, with one line for each expression
in it, its parts indented below it between brackets.

## Main definitions

* `Abacus.Expr.render` — the characters of an expression.
* `Abacus.Expr.needsParens`, `Abacus.Expr.encloseIf` — whether an operand needs parentheses, and its
  characters with them.
* `Abacus.Expr.source` — the text of an expression.
* `Abacus.Expr.sameText` — whether two expressions are of one kind and have one text.
* `Abacus.Expr.outlineAt`, `Abacus.Expr.outline` — the outline of a tree at an indentation, and as
  one text.
-/

namespace Abacus

namespace Expr

/-- Whether an operand needs parentheses under an operator of the given precedence: it holds
together less tightly, or as tightly but on the right, where operators of one precedence do not
group. A lambda needs them on both sides. -/
def needsParens (precedence : Nat) (onRight : Bool) (operand : Expr) : Bool :=
  operand.precedence < precedence || (onRight && operand.precedence == precedence)

/-- Characters in parentheses, if they are needed, and as they are otherwise. -/
def encloseIf (needed : Bool) (cs : List Char) : List Char :=
  if needed then '(' :: (cs ++ [')']) else cs

/-- The names of parameters, with a comma and a blank between them. -/
def renderParams : List String → List Char
  | [] => []
  | [p] => p.toList
  | p :: ps => p.toList ++ ',' :: ' ' :: renderParams ps

mutual

/-- The characters of an expression. Only operands are ever put in parentheses, and the function
that is called at its place: arguments and bodies reach as far as they can anyway. -/
def render : Expr → List Char
  | number value => Number.numeral value
  | var name => name.toList
  | binary op left right =>
    encloseIf (left.needsParens op.precedence false) left.render ++
      [' ', op.symbol, ' '] ++
      encloseIf (right.needsParens op.precedence true) right.render
  | lambda params body =>
    "fn(".toList ++ renderParams params ++ ") => ".toList ++ body.render
  | call name args => name.toList ++ '(' :: (renderAll args ++ [')'])
  | invoke function args =>
    '(' :: function.render ++ ")(".toList ++ renderAll args ++ [')']

/-- The characters of a list of expressions, with a comma and a blank between them. -/
def renderAll : List Expr → List Char
  | [] => []
  | [e] => e.render
  | e :: es => e.render ++ ',' :: ' ' :: renderAll es

end

/-- The text of an expression. It reads back as the same expression, unless it shows a number with
an exponent or as a word, which no numeral is. -/
def source (e : Expr) : String := String.ofList e.render

/-- Whether two expressions are of the same kind and have the same text. This is the equality of
trees as the calculator sees it. It does not look at the parts. -/
def sameText (a b : Expr) : Bool :=
  a.kind == b.kind && a.render == b.render

/-- An expression has the same text as itself, even if it holds a number that is not equal to
itself. -/
@[simp]
theorem sameText_self (e : Expr) : sameText e e = true := by
  simp [sameText]

/-- How a function with the given parameters is shown as a value. Its body and the numbers it
keeps are not shown. -/
def showFunction (params : List String) : String :=
  "<function(" ++ String.ofList (renderParams params) ++ ")>"

/-! ## Outlines -/

/-- The blanks at the start of a line: four for each level. -/
def indentation (level : Nat) : List Char := List.replicate (4 * level) ' '

/-- What the line of an expression begins with: its kind and its text. The text is not escaped, as
it has no quotes in it. -/
def heading (level : Nat) (e : Expr) : List Char :=
  indentation level ++ e.kind.toList ++ "(expr='".toList ++ e.render ++ ['\'']

/-- A part below an expression, on a line of its own and with a comma behind it. The comma behind
the last part is taken away by `entry`. -/
def listed (text : List Char) : List Char := '\n' :: (text ++ [','])

/-- The outline of an expression whose listed parts are `inner`. The comma behind the last part is
cut off, and the bracket is closed on a line of its own. Without parts there is no bracket. -/
def entry (level : Nat) (e : Expr) (inner : List Char) : List Char :=
  if e.children.isEmpty then
    heading level e ++ [')']
  else
    (heading level e ++ ", nodes=[".toList ++ inner).dropLast ++
      '\n' :: (indentation level ++ "])".toList)

mutual

/-- The outline of an expression at an indentation. Its own line comes first, and its parts follow
from left to right, one level further inside. -/
def outlineAt (level : Nat) : Expr → List Char
  | number value => entry level (number value) []
  | var name => entry level (var name) []
  | binary op left right =>
    entry level (binary op left right)
      (listed (left.outlineAt (level + 1)) ++ listed (right.outlineAt (level + 1)))
  | lambda params body => entry level (lambda params body) (listed (body.outlineAt (level + 1)))
  | call name args => entry level (call name args) (outlineAll (level + 1) args)
  | invoke function args =>
    entry level (invoke function args)
      (listed (function.outlineAt (level + 1)) ++ outlineAll (level + 1) args)

/-- The listed outlines of neighbours, each with its line break and its comma. -/
def outlineAll (level : Nat) : List Expr → List Char
  | [] => []
  | e :: es => listed (e.outlineAt level) ++ outlineAll level es

end

/-- The outline of an expression, at no indentation and without a line break at its end. -/
def outline (e : Expr) : String := String.ofList (e.outlineAt 0)

/-- The outline of an expression lists its parts, whatever its kind is. Proofs about outlines use
this equation in the place of the six cases. -/
theorem outlineAt_eq (level : Nat) (e : Expr) :
    e.outlineAt level = entry level e (outlineAll (level + 1) e.children) := by
  cases e <;> simp [outlineAt, outlineAll, children]

end Expr

end Abacus
