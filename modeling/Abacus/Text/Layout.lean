import Abacus.Text
import Abacus.Text.Quoted

/-!
# Layouts of a text

How a text is cut or filled up to a width, and how such a layout is written: a filler and an
alignment, a width, and a point with the number of characters that are kept.

## Main definitions

* `Abacus.Text.Layout` — a layout, with `Layout.apply`, the text that is laid out.
* `Abacus.Text.Layout.Flaw` — why a layout cannot be read, or is none for a text.
* `Abacus.Text.Layout.read` — the layout that a description gives.
-/

namespace Abacus.Text

/-- Where a text stands in a space that is wider than it. -/
inductive Alignment where
  /-- At the start of the space. -/
  | left
  /-- At the end of the space. -/
  | right
  /-- In the middle, or one place before it. -/
  | centre
deriving DecidableEq, Repr

/-- How a text is laid out: it is quoted, then cut, and then filled up. So the quotation marks
count among the characters that are kept. -/
structure Layout where
  /-- Whether the text is put between quotation marks first, and with what characters. -/
  quoting : Option Alphabet
  /-- How many characters are kept, if not all of them. -/
  limit : Option Nat
  /-- How many characters there are at least. -/
  width : Nat
  /-- What the missing characters are. -/
  filler : Char
  /-- Where the text stands among the missing characters. -/
  alignment : Alignment
deriving DecidableEq, Repr

namespace Layout

/-- The layout that leaves a text as it is, which an empty description gives. -/
def asIs : Layout := ⟨none, none, 0, ' ', .left⟩

/-- Fills a text up to a width. Of an odd number of fillers around a text the last one stands
behind it. A text that is wide enough is not changed. -/
def fill (l : Layout) (cs : List Char) : List Char :=
  let gap := l.width - cs.length
  let before :=
    match l.alignment with
    | .left => 0
    | .right => gap
    | .centre => gap / 2
  List.replicate before l.filler ++ cs ++ List.replicate (gap - before) l.filler

/-- A text that is laid out. It may be longer than the width, if not all of it is to be cut off. -/
def apply (l : Layout) (cs : List Char) : List Char :=
  let marked := (l.quoting.map fun alphabet => quoted alphabet cs).getD cs
  l.fill ((l.limit.map fun n => marked.take n).getD marked)

/-! ## Descriptions of layouts -/

/-- Why a description of a layout cannot be followed. Some say that it cannot be read, and others
that it is one of numbers and not of texts. -/
inductive Flaw where
  /-- More than a letter follows where the description has to end. -/
  | trailing (description : List Char)
  /-- A number that is too large for a width or a limit. -/
  | tooManyDigits
  /-- A point without a number behind it. -/
  | missingLimit
  /-- Two marks that group digits. -/
  | mixedGrouping
  /-- A mark that groups digits, for a form that has no digits to group. -/
  | grouping (mark form : Char)
  /-- A form that is none of a text. -/
  | unknownForm (form : Char)
  /-- A space, which stands for the missing sign of a number. -/
  | space
  /-- A way to write signs of numbers, other than a space. -/
  | sign
  /-- A mark that zero has no sign. -/
  | signedZero
  /-- A mark for another way to write numbers. -/
  | alternative
  /-- An alignment that puts the fillers behind the sign of a number. -/
  | afterSign
deriving DecidableEq, Repr

/-- A letter as it is named in the words of a flaw. One that cannot be seen, or is not of the
ASCII range, is named by its code. -/
def nameOf (c : Char) : String :=
  if 32 < c.toNat && c.toNat < 128 then String.singleton c
  else "\\x" ++ String.ofList (Nat.toDigits 16 c.toNat)

/-- The words of a flaw. They tell what a text is called where templates come from. -/
def Flaw.words : Flaw → String
  | trailing description =>
    "Invalid format specifier '" ++ String.ofList description ++ "' for object of type 'str'"
  | tooManyDigits => "Too many decimal digits in format string"
  | missingLimit => "Format specifier missing precision"
  | mixedGrouping => "Cannot specify both ',' and '_'."
  | grouping mark form =>
    "Cannot specify '" ++ String.singleton mark ++ "' with '" ++ nameOf form ++ "'."
  | unknownForm form => "Unknown format code '" ++ nameOf form ++ "' for object of type 'str'"
  | space => "Space not allowed in string format specifier"
  | sign => "Sign not allowed in string format specifier"
  | signedZero => "Negative zero coercion (z) not allowed in string format specifier"
  | alternative => "Alternate form (#) not allowed in string format specifier"
  | afterSign => "'=' alignment not allowed in string format specifier"

/-- The largest number that a description may hold, which is the largest signed one of 64 bits. -/
def largest : Nat := 0x7FFFFFFFFFFFFFFF

/-- The number at the start of a description, if there is one, and the rest. Digits of any script
count. -/
def takeNumber (cs : List Char) : Except Flaw (Option Nat × List Char) :=
  let digits := cs.takeWhile fun c => (digit? c).isSome
  let n := digits.foldl (fun n c => 10 * n + (digit? c).getD 0) 0
  if digits.isEmpty then .ok (none, cs)
  else if n ≤ largest then .ok (some n, cs.drop digits.length)
  else .error .tooManyDigits

/-- Takes a character off the start of a description if it is there, and tells whether it was. -/
def takeMark (mark : Char) : List Char → Bool × List Char
  | c :: cs => if c = mark then (true, cs) else (false, c :: cs)
  | [] => (false, [])

/-- The alignment that a character stands for. An equals sign stands for one of numbers only. -/
def alignmentOf? : Char → Option (Option Alignment)
  | '<' => some (some .left)
  | '>' => some (some .right)
  | '^' => some (some .centre)
  | '=' => some none
  | _ => none

/-- The filler and the alignment at the start of a description, if they are there, and the rest. A
filler needs an alignment behind it, and any character can be one: in `<<` the first is the
filler. -/
def takeAlignment : List Char → Option Char × Option (Option Alignment) × List Char
  | c :: d :: cs =>
    if (alignmentOf? d).isSome then (some c, alignmentOf? d, cs)
    else if (alignmentOf? c).isSome then (none, alignmentOf? c, d :: cs)
    else (none, none, c :: d :: cs)
  | [c] => if (alignmentOf? c).isSome then (none, alignmentOf? c, []) else (none, none, [c])
  | [] => (none, none, [])

/-- The way to write signs at the start of a description, if it is there, and the rest. It is none
for a text, so what is found is the flaw that it makes. -/
def takeSign : List Char → Option Flaw × List Char
  | ' ' :: cs => (some .space, cs)
  | '+' :: cs => (some .sign, cs)
  | '-' :: cs => (some .sign, cs)
  | cs => (none, cs)

/-- The mark that groups digits at the start of a description, if it is there, and the rest.
Whether it fits the form shows only when the form is read. -/
def takeGrouping (cs : List Char) : Except Flaw (Option Char × List Char) :=
  match cs with
  | ',' :: '_' :: _ => .error .mixedGrouping
  | '_' :: ',' :: _ => .error .mixedGrouping
  | ',' :: rest => .ok (some ',', rest)
  | '_' :: rest => .ok (some '_', rest)
  | _ => .ok (none, cs)

/-- The number of characters that are kept, behind a point, if it is there, and the rest. The
point must have a number behind it. -/
def takeLimit : List Char → Except Flaw (Option Nat × List Char)
  | '.' :: cs => do
    let (n, rest) ← takeNumber cs
    if n.isNone then .error .missingLimit else .ok (n, rest)
  | cs => .ok (none, cs)

/-- Whether a mark can group the digits of a form. An underscore can group those of more forms
than a comma. -/
def groups (mark form : Char) : Bool :=
  ['d', 'e', 'f', 'g', 'E', 'G', '%', 'F', '\x00'].contains form ||
    (mark == '_' && ['b', 'o', 'x', 'X'].contains form)

/-- The letter of the form that ends a description. Without one it is that of texts. Nothing may
stand behind it. -/
def formOf? : List Char → Option Char
  | [] => some 's'
  | [c] => some c
  | _ => none

/-- The first of the flaws that are there, as the outcome of a check. -/
def refuse (flaws : List (Option Flaw)) : Except Flaw Unit :=
  match flaws.filterMap id with
  | [] => .ok ()
  | flaw :: _ => .error flaw

/-- The layout that a description gives. It is read from left to right to its end, and only then
it is checked that nothing in it is about numbers. What is said about numbers is no layout of a
text. -/
def read (description : List Char) : Except Flaw Layout := do
  let (filler, alignment, cs) := takeAlignment description
  let (sign, cs) := takeSign cs
  let (signedZero, cs) := takeMark 'z' cs
  let (alternative, cs) := takeMark '#' cs
  let (zero, cs) := if filler.isSome then (false, cs) else takeMark '0' cs
  let (width, cs) ← takeNumber cs
  let (grouping, cs) ← takeGrouping cs
  let (limit, cs) ← takeLimit cs
  let form ← ((formOf? cs).map .ok).getD (.error (.trailing description))
  refuse [
    grouping.bind fun mark => if groups mark form then none else some (.grouping mark form),
    if form = 's' then none else some (.unknownForm form),
    sign,
    if signedZero then some .signedZero else none,
    if alternative then some .alternative else none,
    if alignment = some none then some .afterSign else none]
  return {
    quoting := none
    limit := limit
    width := width.getD 0
    filler := filler.getD (if zero then '0' else ' ')
    alignment := (alignment.getD none).getD .left }

end Layout

end Abacus.Text
