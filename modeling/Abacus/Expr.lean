import Abacus.Number.Operator

/-!
# Expressions

The trees that the calculator evaluates.

## Main definitions

* `Abacus.Expr` — expressions.
* `Abacus.Expr.precedence` — how tightly the outermost part of an expression holds together.
* `Abacus.Expr.children`, `Abacus.Expr.height` — the direct parts of a tree and how deep it nests.
-/

namespace Abacus

/-- Expressions: the trees that texts are read as, and that are evaluated. Parentheses leave no
trace in them, except that only a lambda in parentheses can be called at its place. -/
inductive Expr where
  /-- A number. No sign is set in one that was parsed, as a minus is an operator. -/
  | number (value : Float)
  /-- A name that stands for its value: a parameter, a captured number or a variable of the
  session. -/
  | var (name : String)
  /-- An operator between two expressions. -/
  | binary (op : Operator) (left right : Expr)
  /-- A function without a name. Its value is a closure over the numbers in sight. -/
  | lambda (params : List String) (body : Expr)
  /-- A call of a function by its name, which is a defined function or a variable with a closure. -/
  | call (name : String) (args : List Expr)
  /-- A call of the function that an expression stands for. The parser makes it of a lambda in
  parentheses only. -/
  | invoke (function : Expr) (args : List Expr)

namespace Expr

/-- The number zero, where any expression will do. -/
instance : Inhabited Expr := ⟨number 0⟩

/-- How tightly the outermost part holds together. A lambda reaches as far to the right as it can,
so it is the loosest. What is no operator is the tightest. An operand looser than its operator
needs parentheses. -/
def precedence : Expr → Nat
  | binary op _ _ => op.precedence
  | lambda _ _ => 0
  | _ => 4

/-- The direct parts of an expression, from left to right. The function that is invoked stands
before its arguments. -/
def children : Expr → List Expr
  | number _ => []
  | var _ => []
  | binary _ left right => [left, right]
  | lambda _ body => [body]
  | call _ args => args
  | invoke function args => function :: args

/-- What the kinds of expression are called in an outline. -/
def kind : Expr → String
  | number _ => "NumberLiteral"
  | var _ => "VariableRef"
  | binary .. => "BinaryOp"
  | lambda .. => "Lambda"
  | call .. => "Call"
  | invoke .. => "AnonymousCall"

mutual

/-- The number of expressions on the longest way from the root to a leaf. It tells how much of the
stack a machine needs to walk through the tree. -/
def height : Expr → Nat
  | number _ => 1
  | var _ => 1
  | binary _ left right => 1 + max left.height right.height
  | lambda _ body => 1 + body.height
  | call _ args => 1 + heights args
  | invoke function args => 1 + max function.height (heights args)

/-- The greatest height in a list of expressions, and zero if it is empty. -/
def heights : List Expr → Nat
  | [] => 0
  | e :: es => max e.height (heights es)

end

/-- A part is less high than the whole. Recursions over the children of a tree end for this
reason. -/
theorem heights_children_lt (e : Expr) : heights e.children < e.height := by
  cases e <;> simp only [children, heights, height] <;> omega

end Expr

end Abacus
