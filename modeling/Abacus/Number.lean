/-!
# Numbers

The numbers are the binary64 numbers. Here are their parts, the decimals and the numbers nearest to
them, and the text that shows a number.

A finite number is, up to its sign, a natural number of *units* of `2 ^ (-1074)`. Its *pattern*,
the 63 bits below the sign bit, grows with the number of units, so numbers of one sign are ordered
by their patterns. The pattern after the largest finite one is infinity, and everything above that
is not a number.

A whole number that is not too large is shown as its digits, and any other number by the decimal
with the fewest digits that reads back as the number, and among those by the one nearest to it.
The value of a number has a finite decimal expansion, since a unit is `5 ^ 1074` times
`10 ^ (-1074)`. For a growing number of digits the two neighbours of the value on the grid of
decimals with that many digits are tried. Seventeen digits are always enough.

## Main definitions

* `Abacus.Number.units` — the number of units that a finite pattern stands for.
* `Abacus.Number.roundQuotient` — a quotient rounded to the nearest natural number.
* `Abacus.Number.nearestPattern` — the pattern nearest to a quotient of units.
* `Abacus.Number.pattern`, `Abacus.Number.isNegative` — the two parts of a number.
* `Abacus.Number.Decimal` — a natural number times a power of ten.
* `Abacus.Number.Decimal.nearest`, `Abacus.Number.literal?` — the number nearest to a decimal, and
  to what a numeral denotes.
* `Abacus.Number.Decimal.exact`, `Abacus.Number.Decimal.shortest` — the whole decimal expansion of a
  number, and the shortest decimal that reads back.
* `Abacus.Number.positional`, `Abacus.Number.scientific` — the digits of a decimal with a point at
  its place, and with a power of ten.
* `Abacus.Number.numeral`, `Abacus.Number.display` — the text that shows a number.
-/

namespace Abacus.Number

/-! ## Magnitudes -/

/-- Powers of natural numbers are those of the core library, also where others are in scope. -/
@[default_instance 20000]
instance (priority := high) corePower : Pow Nat Nat := instPowNat

/-- The pattern of infinity: the least pattern that stands for no finite number. All eleven bits
of its exponent are set, and no bit of its fraction. The patterns above it are not numbers. -/
def infinitePattern : Nat := 0x7FF * 2 ^ 52

/-- The number of units of `2 ^ (-1074)` in the finite number with the given pattern. The lower 52
bits of the pattern are the fraction, and the bits above them are the exponent.

With the exponent zero the fraction counts the units itself. With any other exponent the fraction
has a leading bit that is not stored, and each step of the exponent doubles the number of units. -/
def units (pattern : Nat) : Nat :=
  let exponent := pattern / 2 ^ 52
  let fraction := pattern % 2 ^ 52
  if exponent = 0 then fraction else (2 ^ 52 + fraction) * 2 ^ (exponent - 1)

/-- The natural number nearest to `num / den`. A quotient halfway between two goes to the even
one, so `5 / 2` becomes `2` and `7 / 2` becomes `4`. -/
def roundQuotient (num den : Nat) : Nat :=
  let quotient := num / den
  let rest := num % den
  if 2 * rest < den ∨ (2 * rest = den ∧ quotient % 2 = 0) then quotient else quotient + 1

/-- A quotient without a rest is not changed, which is why a number reads back from its exact
value. -/
theorem roundQuotient_mul_right (q : Nat) {den : Nat} (h : 0 < den) :
    roundQuotient (q * den) den = q := by
  simp [roundQuotient, Nat.mul_div_cancel q h, h]

/-- The pattern of the number nearest to `num / den` units. Of two equally near numbers the one with
the even pattern is taken, and what lies beyond the finite numbers becomes infinity.

With a quotient of at most 53 bits every natural number of units is a number. A longer one keeps
its first 53 bits, `shift` bits are rounded off, and each of them raises the exponent by one.
Rounding up to the next power of two carries into the exponent by itself. -/
def nearestPattern (num den : Nat) : Nat :=
  let shift := (num / den).log2 - 52
  min infinitePattern (roundQuotient num (den * 2 ^ shift) + shift * 2 ^ 52)

/-! ## The parts of a number -/

/-- The bits of a number below its sign: the exponent and the fraction, as one natural number.
Numbers with one pattern differ in their signs at most. -/
def pattern (x : Float) : Nat := x.toBits.toNat % 2 ^ 63

/-- Whether the sign bit is set. It is set for the negative zero too, which is equal to zero as a
number but has powers of its own. -/
def isNegative (x : Float) : Bool := 2 ^ 63 ≤ x.toBits.toNat

/-- The number without a sign that has the given pattern. The pattern is below `2 ^ 63`, so that
it leaves the sign bit clear. -/
def ofPattern (p : Nat) : Float := Float.ofBits (UInt64.ofNat p)

/-- The number `x` without its sign: the one that has the pattern of `x` and is not negative. -/
def magnitude (x : Float) : Float := ofPattern (pattern x)

/-- Positive infinity, which stands for what is too large for a finite number. -/
def infinity : Float := ofPattern infinitePattern

/-- The number that stands for an undefined result. Only the first bit of its fraction is set. It
is equal to no number, and not to itself either. -/
def nan : Float := ofPattern (infinitePattern + 2 ^ 51)

/-! ## Decimals -/

/-- The decimal `coefficient * 10 ^ exponent`. One value has many of them: `50 * 10 ^ 0` and
`5 * 10 ^ 1` are two decimals of the value fifty, and `Decimal.trim` leads from the first to the
second. -/
structure Decimal where
  /-- The digits, read as one natural number. -/
  coefficient : Nat
  /-- The power of ten that the last digit counts. -/
  exponent : Int
deriving DecidableEq, Repr, Inhabited

namespace Decimal

/-- The pattern of the number nearest to a decimal. The decimal is made a quotient of two natural
numbers of units first, so that the value itself is never rounded but once. -/
def pattern (d : Decimal) : Nat :=
  match d.exponent with
  | .ofNat e => nearestPattern (d.coefficient * 10 ^ e * 2 ^ 1074) 1
  | .negSucc e => nearestPattern (d.coefficient * 2 ^ 1074) (10 ^ (e + 1))

/-- The number nearest to a decimal. It is infinity if the decimal is too large, and zero if the
decimal is less than half a unit. -/
def nearest (d : Decimal) : Float := ofPattern d.pattern

/-- The digits of the coefficient, the leading one first. The coefficient zero has one digit. -/
def digits (d : Decimal) : List Char := Nat.toDigits 10 d.coefficient

/-- The same decimal without zeros at the end of its coefficient. Each zero that is taken away
adds one to the exponent, so the value stays. -/
def trim (d : Decimal) : Decimal :=
  let zeros := (d.digits.reverse.takeWhile (· == '0')).length
  ⟨d.coefficient / 10 ^ zeros, d.exponent + zeros⟩

/-- The decimal that a numeral denotes: digits, and perhaps a point with more digits after it.
Each digit after the point takes one from the exponent, so `1.50` denotes `150 * 10 ^ (-2)`, and
`7.` denotes `7`. -/
def ofNumeral (cs : List Char) : Decimal :=
  let whole := cs.takeWhile (· != '.')
  let fraction := (cs.dropWhile (· != '.')).drop 1
  ⟨Nat.ofDigitChars 10 (whole ++ fraction) 0, -(fraction.length : Int)⟩

end Decimal

/-- The number nearest to what a numeral denotes. A numeral has at most one point: `1.2.3` is read
as one token, and only here it turns out that it denotes nothing. -/
def literal? (cs : List Char) : Option Float :=
  if cs.count '.' ≤ 1 then some (Decimal.ofNumeral cs).nearest else none

/-- A numeral denotes no number exactly if it has a second point. -/
theorem literal?_eq_none_iff {cs : List Char} : literal? cs = none ↔ 2 ≤ cs.count '.' := by
  unfold literal?
  split <;> simp <;> omega

/-! ## The shortest decimal of a number -/

namespace Decimal

/-- The decimal expansion of the number with the given pattern, to its last digit. A unit is
`5 ^ 1074 * 10 ^ (-1074)`, so every number has such an expansion. -/
def exact (pattern : Nat) : Decimal := ⟨units pattern * 5 ^ 1074, -1074⟩

/-- A neighbour of the expansion `e` on the grid of decimals that leave out the last `cut` digits:
the one below it, or the next one above. If the digits left out are zeros, the one below is `e`
itself. -/
def neighbour (e : Decimal) (cut : Nat) (above : Bool) : Decimal :=
  trim ⟨e.coefficient / 10 ^ cut + (if above then 1 else 0), e.exponent + cut⟩

/-- Whether the neighbour below `e` is nearer than the one above. If both are equally near,
whether the last digit of the lower one is even, as for any other rounding. -/
def nearerBelow (e : Decimal) (cut : Nat) : Bool :=
  let rest := 2 * (e.coefficient % 10 ^ cut)
  rest < 10 ^ cut || (rest == 10 ^ cut && e.coefficient / 10 ^ cut % 2 == 0)

/-- The decimal that leaves out the last `cut` digits of the expansion `e` and reads back as the
given pattern, if there is one. Of two such decimals it is the nearer one. No other decimal of the
grid has to be tried, since one that lies farther away reads back only if a neighbour on its side
does. -/
def onGrid (pattern : Nat) (e : Decimal) (cut : Nat) : Option Decimal :=
  let below := neighbour e cut false
  let above := neighbour e cut true
  if below.pattern = pattern then
    some (if above.pattern = pattern ∧ nearerBelow e cut = false then above else below)
  else if above.pattern = pattern then
    some above
  else
    none

/-- The shortest decimal that reads back as the number with the given pattern. The grids are tried
from one digit to seventeen, the coarsest first. Seventeen digits are always enough, so the whole
expansion is never taken in the end. -/
def shortest (pattern : Nat) : Decimal :=
  let e := exact pattern
  let length := e.digits.length
  ((List.range 17).findSome? fun i => onGrid pattern e (length - (i + 1))).getD e.trim

/-- What is found on a grid reads back as the pattern it was looked for. -/
theorem pattern_of_onGrid {p : Nat} {e d : Decimal} {cut : Nat} (h : onGrid p e cut = some d) :
    d.pattern = p := by
  simp only [onGrid] at h
  split at h
  · split at h <;> simp_all
  · split at h <;> simp_all

end Decimal

/-! ## The text of a number -/

/-- Whole numbers from here on are shown like all others, by the shortest decimal that reads back.
Below it they are shown with all their digits, although their last ones may not be needed. -/
def wholeBound : Nat := 10 ^ 21

/-- The least power of ten of a leading digit that is written without an exponent: `0.0001` is,
and `0.00001` is not. -/
def leastPositional : Int := -4

/-- The least power of ten of a leading digit that is written with an exponent again. It is met by
no number below `wholeBound`, since a number this large is whole. -/
def leastScientific : Int := 16

/-- Digits with a point at its place. The point stands after the first `place` digits, or before
zeros that lead to the first digit if `place` is not positive. If there are fewer digits than
that, zeros fill the places up to the point, which is not written. -/
def positional (digits : List Char) (place : Int) : List Char :=
  match place with
  | .ofNat n =>
    if n = 0 then
      '0' :: '.' :: digits
    else if n < digits.length then
      digits.take n ++ '.' :: digits.drop n
    else
      digits ++ List.replicate (n - digits.length) '0'
  | .negSucc n => '0' :: '.' :: (List.replicate (n + 1) '0' ++ digits)

/-- The mark of an exponent: a sign, which is written in any case, and at least two digits. The
exponent minus five is marked `e-05`. -/
def exponentMark (exponent : Int) : List Char :=
  let ds := Nat.toDigits 10 exponent.natAbs
  'e' :: (if exponent < 0 then '-' else '+') :: (if ds.length < 2 then '0' :: ds else ds)

/-- One digit, a point before the others if there are any, and the power of ten of the first
digit. The decimal `15 * 10 ^ (-6)` is `1.5e-05` in this form. -/
def scientific (digits : List Char) (exponent : Int) : List Char :=
  (match digits with
    | [] => []
    | [d] => [d]
    | d :: ds => d :: '.' :: ds) ++ exponentMark exponent

/-- A decimal in the form that its size asks for. The size is the power of ten of its leading
digit, which the number of its digits and its exponent give. -/
def Decimal.form (d : Decimal) : List Char :=
  let place : Int := d.digits.length + d.exponent
  if leastPositional ≤ place - 1 ∧ place - 1 < leastScientific then
    positional d.digits place
  else
    scientific d.digits (place - 1)

/-- The characters that show the number with the given finite pattern. If it is whole and not too
large, they are the digits of its value, and otherwise the shortest decimal in the form for its
size. -/
def unsignedNumeral (p : Nat) : List Char :=
  if units p % 2 ^ 1074 = 0 ∧ units p / 2 ^ 1074 < wholeBound then
    Nat.toDigits 10 (units p / 2 ^ 1074)
  else
    (Decimal.shortest p).form

/-- The characters that show a number. Zero is shown without a sign, even if its sign bit is set,
and what is not a number is shown by a word. -/
def numeral (x : Float) : List Char :=
  let p := pattern x
  if infinitePattern < p then
    "NaN".toList
  else
    let unsigned := if p = infinitePattern then "Infinity".toList else unsignedNumeral p
    if isNegative x && p != 0 then '-' :: unsigned else unsigned

/-- The text that shows a number. It reads back as the same number wherever it is a numeral, that
is, for every finite number without a sign and an exponent. -/
def display (x : Float) : String := String.ofList (numeral x)

end Abacus.Number
