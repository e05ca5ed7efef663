import Abacus.Number

/-!
# The operators

The five operators between numbers: their symbols, how tightly they bind, and what they compute.

Overflow and undefined results are numbers too: infinity, and the number that stands for no value.
Division by zero is the only case without a result.

## Main definitions

* `Abacus.Operator` — the operators, with `Operator.symbol` and `Operator.precedence`.
* `Abacus.Number.boundedPower` — a power that is refused where it overflows or is undefined.
* `Abacus.Number.power` — a number raised to a power.
* `Abacus.Operator.result?` — the result of an operator.
-/

namespace Abacus

/-- The operators between two numbers. All of them associate to the left, and powers too:
`2 ^ 3 ^ 2` is `64`. -/
inductive Operator where
  /-- A sum. -/
  | add
  /-- A difference. -/
  | sub
  /-- A product. -/
  | mul
  /-- A quotient, the only operator that may have no result. -/
  | div
  /-- A power. -/
  | pow
deriving DecidableEq, Repr, Inhabited

namespace Operator

/-- The character that an operator is written as. A minus is always an operator: no numeral has a
sign. -/
def symbol : Operator → Char
  | add => '+'
  | sub => '-'
  | mul => '*'
  | div => '/'
  | pow => '^'

/-- The operator that a character is written for, if it is for one. -/
def ofChar? : Char → Option Operator
  | '+' => some add
  | '-' => some sub
  | '*' => some mul
  | '/' => some div
  | '^' => some pow
  | _ => none

/-- How tightly an operator binds its operands. The three levels are those of the grammar: sums,
products and powers. -/
def precedence : Operator → Nat
  | add | sub => 1
  | mul | div => 2
  | pow => 3

/-- A character is read as an operator only if it is its symbol, so what was read can be written
again. -/
theorem symbol_of_ofChar? {c : Char} {op : Operator} (h : ofChar? c = some op) : op.symbol = c := by
  unfold ofChar? at h
  split at h <;> simp_all <;> subst h <;> rfl

end Operator

/-! ## Powers -/

namespace Number

/-- What kind of exponent a number is, as far as the sign of a power depends on it. Infinity is as
even as all numbers near it: from `2 ^ 53` on there are no odd ones. -/
inductive Parity where
  /-- A whole number that two divides, or infinity. -/
  | even
  /-- A whole number that two does not divide. -/
  | odd
  /-- Any other number. -/
  | fractional
deriving DecidableEq, Repr

/-- The parity of a number, from its value in units. A number is whole if `2 ^ 1074` divides its
units. -/
def parity (x : Float) : Parity :=
  let p := pattern x
  if infinitePattern < p then .fractional
  else if p = infinitePattern then .even
  else if units p % 2 ^ 1074 ≠ 0 then .fractional
  else if units p / 2 ^ 1074 % 2 = 0 then .even
  else .odd

/-- A power of a base that has a sign. An integral exponent gives the power of the magnitude,
negated if it is odd. A fractional one has a result for zero and infinity only, and an undefined
exponent has none. -/
def negativePower (left right : Float) : Float :=
  match parity right with
  | .odd => -(magnitude left).pow right
  | .even => (magnitude left).pow right
  | .fractional =>
    if right.isNaN || !(pattern left == 0 || pattern left == infinitePattern) then nan
    else (magnitude left).pow right

/-- The power of any two numbers, before it is looked at whether it overflows or is defined. Only
the powers of magnitudes are left to the arithmetic of the machine, and the sign is found here. -/
def unboundedPower (left right : Float) : Float :=
  if isNegative left && !left.isNaN then negativePower left right else left.pow right

/-- Why a power is refused. Only powers of two finite numbers are ever refused: with infinity
among the operands an infinite result is in order. -/
inductive PowerFailure where
  /-- The power of two finite numbers is not finite. -/
  | overflow
  /-- The power of two finite numbers has no value. -/
  | undefined
deriving DecidableEq, Repr

/-- Whether a power of two finite numbers has no value: a negative power of zero, or a fractional
power of a negative number. The zero may have a sign, and the exponent must not be a negative
zero. -/
def isUndefinedPower (left right : Float) : Bool :=
  if pattern left = 0 then isNegative right && pattern right != 0
  else isNegative left && parity right == .fractional

/-- A power that is refused if its operands are finite and it is not. A base or an exponent that
is infinite, or no number, is never refused. -/
def boundedPower (left right : Float) : Except PowerFailure Float :=
  if pattern left < infinitePattern ∧ pattern right < infinitePattern then
    if isUndefinedPower left right then .error .undefined
    else if pattern (unboundedPower left right) = infinitePattern then .error .overflow
    else .ok (unboundedPower left right)
  else .ok (unboundedPower left right)

/-- The power `left ^ right`. A power that is refused becomes infinity or the number for an
undefined result. Only an overflow keeps a sign: a negative power of zero is positive infinity,
whatever the sign of the zero and the parity of the exponent. -/
def power (left right : Float) : Float :=
  match boundedPower left right with
  | .ok result => result
  | .error .overflow => if isNegative left && parity right == .odd then -infinity else infinity
  | .error .undefined => if pattern left = 0 then infinity else nan

end Number

/-! ## Results -/

/-- The result of an operator. Only a division by zero, of either sign, has none. The others give
infinity or the number for an undefined result where there is no finite one. -/
def Operator.result? (op : Operator) (left right : Float) : Option Float :=
  match op with
  | .add => some (left + right)
  | .sub => some (left - right)
  | .mul => some (left * right)
  | .div => if Number.pattern right = 0 then none else some (left / right)
  | .pow => some (Number.power left right)

end Abacus
