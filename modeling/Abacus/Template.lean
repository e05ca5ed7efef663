import Abacus.Report
import Abacus.Text.Layout

/-!
# Templates

A template is a text with fields in braces. Each field stands for a snippet: for the next one, or
for the one whose number it holds. A number in square brackets behind it picks a character. Behind
an exclamation mark a field tells whether the snippet is quoted, and behind a colon how it is laid
out. A brace that is written twice stands for itself.

Fields are filled in from left to right, so that of several flaws the first one counts.

## Main definitions

* `Abacus.Template.Flaw` — why a template cannot be filled in.
* `Abacus.Template.Part`, `Abacus.Template.parts` — the letters and the fields of a template.
* `Abacus.Template.fill` — the text that a template and its snippets make.
* `Abacus.Template.message` — the message that they make, with the snippets set off.
-/

namespace Abacus.Template

/-! ## Flaws -/

/-- Why a template cannot be filled in. Some flaws are of the template alone, and others show only
with its snippets. -/
inductive Flaw where
  /-- A brace that ends the template. -/
  | loneOpening
  /-- A closing brace without an opening one. -/
  | loneClosing
  /-- An opening brace in the name of a field. -/
  | openingInName
  /-- A field that is not closed. -/
  | unclosed
  /-- A field that is not closed behind its colon. -/
  | unclosedLayout
  /-- An exclamation mark that ends the template. -/
  | missingQuoting
  /-- More than one letter behind an exclamation mark. -/
  | overlongQuoting
  /-- A letter behind an exclamation mark that has no meaning there. -/
  | unknownQuoting (letter : Char)
  /-- Fields in the layout of a field in a layout. -/
  | nestedTooDeep
  /-- A field with a number after one without. -/
  | numberAfterNone
  /-- A field without a number after one with a number. -/
  | noneAfterNumber
  /-- A number that is too large to be one. -/
  | tooManyDigits
  /-- A number that no snippet has. -/
  | outOfRange (number : Nat)
  /-- A name. Snippets have none. -/
  | unknownName (name : List Char)
  /-- A point or a pair of square brackets with nothing behind or in it. -/
  | emptyPart
  /-- A square bracket that is not closed. -/
  | openBracket
  /-- Something else than a point or a bracket behind square brackets. -/
  | afterBracket
  /-- A part of a snippet with a name. Snippets have none. -/
  | unknownPart (name : List Char)
  /-- A number that no character of a snippet has. -/
  | unknownCharacter
  /-- Something that is no number in square brackets. -/
  | notANumber
  /-- A layout that is none for a text. -/
  | layout (flaw : Text.Layout.Flaw)
  /-- A width for which there is no memory. -/
  | tooWide
deriving DecidableEq, Repr

namespace Flaw

/-- The kind of a flaw, by which whoever runs the program tells it. -/
def kind : Flaw → String
  | outOfRange _ | unknownCharacter => "IndexError"
  | unknownName _ => "KeyError"
  | unknownPart _ => "AttributeError"
  | notANumber => "TypeError"
  | tooWide => "MemoryError"
  | _ => "ValueError"

/-- The words of a flaw, which follow its kind. -/
def words : Flaw → String
  | loneOpening => "Single '\x7b' encountered in format string"
  | loneClosing => "Single '\x7d' encountered in format string"
  | openingInName => "unexpected '\x7b' in field name"
  | unclosed => "expected '\x7d' before end of string"
  | unclosedLayout => "unmatched '\x7b' in format spec"
  | missingQuoting => "end of string while looking for conversion specifier"
  | overlongQuoting => "expected ':' after conversion specifier"
  | unknownQuoting letter =>
    "Unknown conversion specifier " ++
      if 32 < letter.toNat && letter.toNat < 127 then String.singleton letter
      else "\\x" ++ String.ofList (Nat.toDigits 16 letter.toNat)
  | nestedTooDeep => "Max string recursion exceeded"
  | numberAfterNone =>
    "cannot switch from automatic field numbering to manual field specification"
  | noneAfterNumber =>
    "cannot switch from manual field specification to automatic field numbering"
  | tooManyDigits => "Too many decimal digits in format string"
  | outOfRange number =>
    "Replacement index " ++ toString number ++ " out of range for positional args tuple"
  | unknownName name => String.ofList (Text.quoted .visible name)
  | emptyPart => "Empty attribute in format string"
  | unknownPart name => "'str' object has no attribute '" ++ String.ofList name ++ "'"
  | openBracket => "Missing ']' in format string"
  | afterBracket => "Only '.' or '[' may follow ']' in format field specifier"
  | unknownCharacter => "string index out of range"
  | notANumber => "string indices must be integers, not 'str'"
  | layout flaw => flaw.words
  | tooWide => ""

end Flaw

/-! ## Parts -/

/-- A field of a template, with its three parts: what it stands for, how that is quoted, and how
it is laid out. Only the first one must be there, and it may be empty. -/
structure Field where
  /-- What the field stands for. -/
  name : List Char
  /-- The letter behind its exclamation mark. -/
  quoting : Option Char
  /-- What stands behind its colon. -/
  layout : List Char
deriving DecidableEq, Repr

/-- A part of a template: a letter, a field, or a flaw behind which nothing is read. -/
inductive Part where
  /-- A character that stands for itself. -/
  | letter (c : Char)
  /-- A field, which a snippet is put in the place of. -/
  | field (f : Field)
  /-- The place where the template cannot be read any further. -/
  | flaw (f : Flaw)
deriving DecidableEq, Repr

/-- Where in a template a character stands, with what has been read of the field that it is in,
the last character first. -/
inductive Context where
  /-- Between fields. -/
  | outside
  /-- In the name of a field. -/
  | name (read : List Char)
  /-- Between square brackets in the name of a field. -/
  | bracket (read : List Char)
  /-- Behind the colon of a field, within a number of braces. -/
  | layout (name : List Char) (quoting : Option Char) (braces : Nat) (read : List Char)
deriving DecidableEq, Repr

/-- The parts of a template, from a place in it on. Behind a flaw there are none. The parts before
it are there, since a flaw in one of them comes first. -/
def partsFrom : Context → List Char → List Part
  | .outside, [] => []
  | .outside, '\x7b' :: '\x7b' :: cs => .letter '\x7b' :: partsFrom .outside cs
  | .outside, '\x7d' :: '\x7d' :: cs => .letter '\x7d' :: partsFrom .outside cs
  | .outside, ['\x7b'] => [.flaw .loneOpening]
  | .outside, '\x7b' :: cs => partsFrom (.name []) cs
  | .outside, '\x7d' :: _ => [.flaw .loneClosing]
  | .outside, c :: cs => .letter c :: partsFrom .outside cs
  | .name _, [] => [.flaw .unclosed]
  | .name _, '\x7b' :: _ => [.flaw .openingInName]
  | .name read, '\x7d' :: cs => .field ⟨read.reverse, none, []⟩ :: partsFrom .outside cs
  | .name read, ':' :: cs => partsFrom (.layout read.reverse none 0 []) cs
  | .name _, ['!'] => [.flaw .missingQuoting]
  | .name _, ['!', _] => [.flaw .unclosedLayout]
  | .name read, '!' :: q :: '\x7d' :: cs =>
    .field ⟨read.reverse, some q, []⟩ :: partsFrom .outside cs
  | .name read, '!' :: q :: ':' :: cs => partsFrom (.layout read.reverse (some q) 0 []) cs
  | .name _, '!' :: _ :: _ :: _ => [.flaw .overlongQuoting]
  | .name read, '[' :: cs => partsFrom (.bracket ('[' :: read)) cs
  | .name read, c :: cs => partsFrom (.name (c :: read)) cs
  | .bracket _, [] => [.flaw .unclosed]
  | .bracket read, ']' :: cs => partsFrom (.name (']' :: read)) cs
  | .bracket read, c :: cs => partsFrom (.bracket (c :: read)) cs
  | .layout .., [] => [.flaw .unclosedLayout]
  | .layout name q 0 read, '\x7d' :: cs => .field ⟨name, q, read.reverse⟩ :: partsFrom .outside cs
  | .layout name q (n + 1) read, '\x7d' :: cs =>
    partsFrom (.layout name q n ('\x7d' :: read)) cs
  | .layout name q n read, '\x7b' :: cs => partsFrom (.layout name q (n + 1) ('\x7b' :: read)) cs
  | .layout name q n read, c :: cs => partsFrom (.layout name q n (c :: read)) cs

/-- The parts of a template, from left to right. -/
def parts (cs : List Char) : List Part := partsFrom .outside cs

/-! ## Numbers and parts of snippets -/

/-- Reads the digits of a text onto the number `n`, unless something else stands among them. A
number that is too large counts before anything behind it does. -/
def numberOnto (n : Nat) : List Char → Except Flaw (Option Nat)
  | [] => .ok (some n)
  | c :: cs =>
    match Text.digit? c with
    | none => .ok none
    | some d =>
      if Text.Layout.largest < 10 * n + d then .error .tooManyDigits else numberOnto (10 * n + d) cs

/-- The number that a text is, if it is one. The empty text is none. -/
def number (cs : List Char) : Except Flaw (Option Nat) :=
  if cs.isEmpty then .ok none else numberOnto 0 cs

/-- Whether a character leads into a snippet: a point to what has a name in it, and a bracket to
its characters. -/
def opensPart (c : Char) : Bool := c == '.' || c == '['

/-- The character of a snippet that stands in square brackets. Its number is counted from zero,
and it has no sign. -/
def characterAt (snippet index : List Char) : Except Flaw (List Char) := do
  let n ← number index
  if index.isEmpty then .error .emptyPart
  else
    match n with
    | none => .error .notANumber
    | some n => ((snippet[n]?).map fun c => .ok [c]).getD (.error .unknownCharacter)

/-- The part of a snippet that a path leads to. Characters have numbers, and nothing in a snippet
has a name: what a text has besides its characters is not modelled, and counts as unknown. -/
def partAt (snippet : List Char) : List Char → Except Flaw (List Char)
  | [] => .ok snippet
  | '.' :: path =>
    let name := path.takeWhile fun c => !opensPart c
    .error (if name.isEmpty then .emptyPart else .unknownPart name)
  | '[' :: path =>
    let index := path.takeWhile (· != ']')
    if index.length < path.length then do
      partAt (← characterAt snippet index) (path.drop (index.length + 1))
    else
      .error .openBracket
  | _ => .error .afterBracket
termination_by path => path.length
decreasing_by
  simp only [List.length_drop, List.length_cons]
  omega

/-! ## Filling in -/

/-- How the fields of a template are numbered. -/
inductive Numbering where
  /-- No field has shown it yet. -/
  | fresh
  /-- Fields have no numbers and take the snippets in order, the given one next. -/
  | inOrder (next : Nat)
  /-- Fields have numbers. -/
  | byNumber
deriving DecidableEq, Repr

/-- The number of the snippet that a field stands for, and the numbering of the fields after it.
Either all fields have numbers or none has, those in layouts included. -/
def select (numbering : Numbering) (name : List Char) : Except Flaw (Nat × Numbering) := do
  match ← number name with
  | some n =>
    match numbering with
    | .inOrder _ => .error .numberAfterNone
    | _ => .ok (n, .byNumber)
  | none =>
    if !name.isEmpty then .error (.unknownName name)
    else
      match numbering with
      | .fresh => .ok (0, .inOrder 1)
      | .inOrder next => .ok (next, .inOrder (next + 1))
      | .byNumber => .error .noneAfterNumber

/-- How a snippet is quoted by the letter behind an exclamation mark. Without one it is not
quoted, and by the letter `s` neither. -/
def quotingOf : Option Char → Except Flaw (Option Text.Alphabet)
  | none => .ok none
  | some 's' => .ok none
  | some 'r' => .ok (some .visible)
  | some 'a' => .ok (some .ascii)
  | some c => .error (.unknownQuoting c)

/-- The largest width for which there is memory. Where it lies depends on the machine. -/
def widest : Nat := 0x1000000000

/-- How a template is filled in, given the numbering so far: its text, and the numbering then. The
layouts of its fields take part in the same numbering. -/
abbrev Filling := Numbering → List Char → Except Flaw (List Char × Numbering)

/-- The text of a field. The snippet is found first, then it is quoted, and the layout comes last.
The layout of a field may hold fields itself, which are filled in by `expand`. -/
def fieldText (expand : Filling) (snippets : List (List Char)) (numbering : Numbering) (f : Field) :
    Except Flaw (List Char × Numbering) := do
  let first := f.name.takeWhile fun c => !opensPart c
  let (n, numbering) ← select numbering first
  let snippet ← ((snippets[n]?).map .ok).getD (.error (.outOfRange n))
  let chosen ← partAt snippet (f.name.drop first.length)
  let quoting ← quotingOf f.quoting
  let (description, numbering) ←
    if f.layout.contains '\x7b' then expand numbering f.layout else .ok (f.layout, numbering)
  let layout ← (Text.Layout.read description).mapError .layout
  if widest < layout.width then .error .tooWide
  else return ({ layout with quoting }.apply chosen, numbering)

/-- Fills in the parts of a template, from left to right. The first flaw ends it. -/
def fillParts (expand : Filling) (snippets : List (List Char)) :
    Numbering → List Part → Except Flaw (List Char × Numbering)
  | numbering, [] => .ok ([], numbering)
  | numbering, .letter c :: parts => do
    let (text, numbering) ← fillParts expand snippets numbering parts
    return (c :: text, numbering)
  | numbering, .field f :: parts => do
    let (shown, numbering) ← fieldText expand snippets numbering f
    let (text, numbering) ← fillParts expand snippets numbering parts
    return (shown ++ text, numbering)
  | _, .flaw f :: _ => .error f

/-- Fills in a template with fields in the layouts of its fields, down to a number of levels. A
field on the last level may have a layout, but no field in it. -/
def fillFrom (snippets : List (List Char)) : Nat → Filling
  | 0, _, _ => .error .nestedTooDeep
  | n + 1, numbering, cs => fillParts (fillFrom snippets n) snippets numbering (parts cs)

/-- How many levels of fields in layouts there may be: those of the template, and those in their
layouts. -/
def levels : Nat := 2

/-- The text that a template and its snippets make. Snippets without a field are left out, which
is no flaw. -/
def fill (template : List Char) (snippets : List (List Char)) : Except Flaw (List Char) :=
  (fillFrom snippets levels .fresh template).map Prod.fst

/-! ## Messages -/

/-- The text that a template makes when its snippets are shown in a style. They are set off before
they are put in, so a layout counts the control sequences as characters. -/
def render (style : Style) (template : String) (snippets : List String) : Except Flaw String :=
  (fill template.toList (snippets.map fun s => (style.emphasize .bold s).toList)).map String.ofList

/-- The message of a template, without emphasis and as it is shown. A flaw without emphasis counts
first. -/
def message (style : Style) (template : String) (snippets : List String) :
    Except Flaw (String × String) := do
  let plain ← render .plain template snippets
  let shown ← render style template snippets
  return (plain, shown)

end Abacus.Template
