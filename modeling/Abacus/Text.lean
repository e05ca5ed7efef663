/-!
# Texts

A text is handled as the list of its characters, so that every position counts characters and not
bytes. Here are the blanks and how they are cut off, the search for one text inside another, how a
text falls apart into pieces and lines, the slices between positions, and the whole numbers that a
text denotes.

A blank is a character that separates words: the white space of every script together with the
four information separators. A position may be counted from either end of a text. A whole number
on the command line may have blanks around it and a sign in front, its digits may belong to any
script, and single underscores may group them. There may be only so many digits, since the time to
read them grows faster than their number.

## Main definitions

* `Abacus.Text.isBlank` — the class of blank characters.
* `Abacus.Text.stripLeft`, `Abacus.Text.stripRight`, `Abacus.Text.strip` — a text without the blanks
  at its start, at its end, at both.
* `Abacus.Text.find?` — the position of the first occurrence of a text inside another.
* `Abacus.Text.splitOn`, `Abacus.Text.before` — the pieces of a text between the occurrences of a
  character, and what stands before a mark.
* `Abacus.Text.lines` — the lines of a file.
* `Abacus.Text.place` — the place in a text that a position means.
* `Abacus.Text.upTo`, `Abacus.Text.onward`, `Abacus.Text.slice` — the part of a text before a
  position, from a position on, and between two positions.
* `Abacus.Text.digit?`, `Abacus.Text.integer?` — the value of a decimal digit of any script, and the
  whole number that a text denotes.
-/

namespace Abacus.Text

/-! ## Blanks -/

/-- Blank characters: the controls from tab to carriage return, the information separators, the
space, next line, and the space separators of all scripts. A zero-width space is not a blank. -/
def isBlank (c : Char) : Bool :=
  let n := c.toNat
  (9 ≤ n && n ≤ 13) || (28 ≤ n && n ≤ 32) || n == 0x85 || n == 0xA0 || n == 0x1680 ||
    (0x2000 ≤ n && n ≤ 0x200A) || n == 0x2028 || n == 0x2029 || n == 0x202F || n == 0x205F ||
    n == 0x3000

/-- The text from its first character that is not blank. A text of blanks leaves nothing. -/
def stripLeft (cs : List Char) : List Char :=
  cs.dropWhile isBlank

/-- The text up to its last character that is not blank. A text of blanks leaves nothing. -/
def stripRight (cs : List Char) : List Char :=
  (cs.reverse.dropWhile isBlank).reverse

/-- The text without the blanks around it. Those inside of it stay. -/
def strip (cs : List Char) : List Char :=
  stripRight (stripLeft cs)

/-! ## Searching and splitting -/

/-- The position of the first occurrence of `needle`. The empty text occurs at the start, whatever
the other text is. -/
def find? (needle : List Char) : List Char → Option Nat
  | [] => if needle.isEmpty then some 0 else none
  | c :: cs =>
    if needle.isPrefixOf (c :: cs) then some 0 else (find? needle cs).map (· + 1)

/-- The pieces between the separators: always one more than there are separators. Neighbouring
separators have an empty piece between them. -/
def splitOn (separator : Char) : List Char → List (List Char)
  | [] => [[]]
  | c :: cs =>
    if c = separator then
      [] :: splitOn separator cs
    else
      match splitOn separator cs with
      | [] => [[c]]
      | piece :: pieces => (c :: piece) :: pieces

/-- The text that stands before the first occurrence of `mark`, or all of it if there is none. -/
def before (mark cs : List Char) : List Char :=
  match find? mark cs with
  | some i => cs.take i
  | none => cs

/-- A text with line feeds as the ends of all its lines. A carriage return, alone or with the line
feed after it, ends a line as a line feed does. -/
def unifyNewlines : List Char → List Char
  | [] => []
  | '\r' :: '\n' :: cs => '\n' :: unifyNewlines cs
  | c :: cs => (if c = '\r' then '\n' else c) :: unifyNewlines cs

/-- The lines of a file, without their ends. The end of the last line does not open another one,
so it makes no difference whether it is there, and the empty file has no lines. -/
def lines (cs : List Char) : List (List Char) :=
  let pieces := splitOn '\n' (unifyNewlines cs)
  if pieces.getLast? = some [] then pieces.dropLast else pieces

/-! ## Slices -/

/-- The place that a position means in a text with the given number of characters. A negative
position is counted from the end, and a position beyond an end of the text means that end. -/
def place (length : Nat) (position : Int) : Nat :=
  if position < 0 then (length + position).toNat else min position.toNat length

/-- The part of a text before a position, which may be counted from either end. -/
def upTo (position : Int) (cs : List Char) : List Char :=
  cs.take (place cs.length position)

/-- The part of a text from a position on. Together with the part before it this is the whole
text. -/
def onward (position : Int) (cs : List Char) : List Char :=
  cs.drop (place cs.length position)

/-- The part of a text from one position up to another. It is empty if the second is not behind the
first. -/
def slice (start stop : Int) (cs : List Char) : List Char :=
  (upTo stop cs).drop (place cs.length start)

/-- A position that is not negative is itself a place, as far as the text reaches. -/
@[simp]
theorem place_natCast (length position : Nat) : place length position = min position length := by
  simp only [place, Int.toNat_natCast]
  rw [if_neg (by omega)]

/-- Up to a position that is not negative there are as many characters. -/
@[simp]
theorem upTo_natCast (position : Nat) (cs : List Char) : upTo position cs = cs.take position := by
  simp [upTo, List.take_eq_take_iff]

/-- From a position that is not negative on, as many characters are left out. -/
@[simp]
theorem onward_natCast (position : Nat) (cs : List Char) :
    onward position cs = cs.drop position := by
  simp only [onward, place_natCast]
  rcases Nat.le_total position cs.length with h | h
  · rw [Nat.min_eq_left h]
  · rw [Nat.min_eq_right h, List.drop_length, List.drop_eq_nil_of_le h]

/-! ## Whole numbers -/

/-- The zeros of the decimal digits beyond the ASCII range, in ascending order. The nine code points
after each zero are the digits one to nine of the same script. -/
def digitZeros : List Nat :=
  [
    0x660, 0x6F0, 0x7C0, 0x966, 0x9E6, 0xA66, 0xAE6, 0xB66, 0xBE6, 0xC66, 0xCE6, 0xD66, 0xDE6,
    0xE50, 0xED0, 0xF20, 0x1040, 0x1090, 0x17E0, 0x1810, 0x1946, 0x19D0, 0x1A80, 0x1A90, 0x1B50,
    0x1BB0, 0x1C40, 0x1C50, 0xA620, 0xA8D0, 0xA900, 0xA9D0, 0xA9F0, 0xAA50, 0xABF0, 0xFF10, 0x104A0,
    0x10D30, 0x11066, 0x110F0, 0x11136, 0x111D0, 0x112F0, 0x11450, 0x114D0, 0x11650, 0x116C0,
    0x11730, 0x118E0, 0x11950, 0x11C50, 0x11D50, 0x11DA0, 0x16A60, 0x16AC0, 0x16B50, 0x1D7CE,
    0x1D7D8, 0x1D7E2, 0x1D7EC, 0x1D7F6, 0x1E140, 0x1E2F0, 0x1E950, 0x1FBF0
  ]

/-- The value of a decimal digit, of whatever script it is. Fractions and digits in circles have
none. -/
def digit? (c : Char) : Option Nat :=
  if c.isDigit then
    some (c.toNat - '0'.toNat)
  else
    (digitZeros.find? fun z => z ≤ c.toNat && c.toNat ≤ z + 9).map (c.toNat - ·)

/-- Reads digits onto the number `n` read so far. An underscore has to stand between two digits,
so `1_0` is ten, and `1__0` and `1_` are nothing. -/
def digitsOnto (n : Nat) : List Char → Option Nat
  | [] => some n
  | [c] => (digit? c).map (10 * n + ·)
  | '_' :: c :: cs => do
    let d ← digit? c
    digitsOnto (10 * n + d) cs
  | c :: cs => do
    let d ← digit? c
    digitsOnto (10 * n + d) cs

/-- The natural number that a text of digits denotes. It starts with a digit, which may be a
zero. -/
def natural? : List Char → Option Nat
  | [] => none
  | c :: cs => do
    let d ← digit? c
    digitsOnto d cs

/-- The largest number of digits that is read, leading zeros included. -/
def maxDigits : Nat := 4300

/-- The natural number that a text of digits denotes, if there are not too many of them.
Underscores are not counted. -/
def boundedNatural? (cs : List Char) : Option Nat :=
  if (cs.filter (· != '_')).length ≤ maxDigits then natural? cs else none

/-- Blank characters that may stand around a number. The information separators may not, although
they are blanks everywhere else. -/
def isPadding (c : Char) : Bool := isBlank c && !(0x1C ≤ c.toNat && c.toNat ≤ 0x1F)

/-- The text without the blanks that may stand around a number. It is `strip` for the smaller
class of blanks. -/
def trim (cs : List Char) : List Char :=
  ((cs.dropWhile isPadding).reverse.dropWhile isPadding).reverse

/-- The whole number that a text denotes, with an optional sign and blanks around it. No blank may
stand behind the sign. -/
def integer? (cs : List Char) : Option Int :=
  match trim cs with
  | '-' :: ds => (boundedNatural? ds).map fun n => -(n : Int)
  | '+' :: ds => (boundedNatural? ds).map fun n => (n : Int)
  | ds => (boundedNatural? ds).map fun n => (n : Int)

end Abacus.Text
