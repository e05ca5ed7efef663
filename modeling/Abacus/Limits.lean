/-!
# Limits

How deeply expressions may nest before the machine refuses to handle them, which keeps the program
within its stack, and the limit that a user sets on evaluations.

The stack of the machine is not a part of the library. What it can hold is a parameter, the
`Limits`, and all results about programs are proved for every value of it. Only the two tests that
read a limit depend on the machine: whether a text nests too deeply to be read, and whether a tree
is too high to be evaluated or written. A machine may hold more or less than these tests say near
its own threshold, as the room that one level takes differs from one kind of expression to
another.

## Main definitions

* `Abacus.Limits` — the limits of the machine, with `Limits.standard`.
* `Abacus.DepthLimit` — the limit that a user sets.
-/

namespace Abacus

/-- How deeply expressions may nest. The two numbers stand for the stack of the machine. A text or
a tree beyond them is refused as one that nests too deeply, as it is by a machine whose stack runs
out. -/
structure Limits where
  /-- How deeply parentheses, calls and lambdas may nest in a text. -/
  nesting : Nat
  /-- How high a tree may be that is evaluated or written as a text. -/
  height : Nat
deriving DecidableEq, Repr

/-- The limits of the program, on a machine with a stack of a thousand frames. There a text is
read down to 108 levels if they are calls or lambdas, and to 122 if they are parentheses. A tree
of operators takes two frames for each level, and is evaluated up to a height of about 490. The
two limits are round numbers below these thresholds.

They do not show how many frames each kind of level takes. The arguments of a call take three or
four of them, so nested calls can exhaust such a stack from about 250 levels on, although the
limit is higher. -/
def Limits.standard : Limits := ⟨100, 450⟩

/-- How deeply a user lets evaluations nest: evaluations of expressions, and the calls among
them. -/
inductive DepthLimit where
  /-- A number of levels. One that is not positive admits none. -/
  | levels (n : Int)
  /-- An empty list in the place of a number. No depth can be compared with it, so the first
  evaluation ends with a fault of the program. -/
  | blank
deriving DecidableEq, Repr

/-- How a limit is written in the message about an evaluation that exceeds it. -/
def DepthLimit.text : DepthLimit → String
  | levels n => toString n
  | blank => "[]"

/-- The number of levels that a limit admits. Nothing can be evaluated at a limit that admits
none. -/
def DepthLimit.admitted : DepthLimit → Nat
  | levels n => n.toNat
  | blank => 0

end Abacus
