import Abacus.Limits
import Abacus.Text

/-!
# The command line

What the arguments of the program ask for: a file to run, and how deeply evaluations may nest.

An option can be given by any beginning that fits no other option, and its value follows it or
stands behind an equals sign. A negative number and an argument with a space in it are no options.
A double dash ends the options, and all arguments behind it are words.

Command lines have been read in two ways in the course of time, and here they are read in the older
one. It differs from the newer one in three rules.

* A double dash is dropped also where it is the value of an option, so `--max-depth=--` leaves no
  value at all (`limit?`). In the newer way it is a value that is not a number, and makes no
  sense.
* Letters behind the short option for help have to repeat it, so `-hx` makes no sense as a whole
  (`classifyHelp`). In the newer way the option is taken before the letters are looked at.
* An equals sign behind the short option is skipped, so `-h=h` asks for help (`classifyHelp`). In
  the newer way it opens a value, which that option cannot have.

## Main definitions

* `Abacus.CommandLine.Settings` — what the program is asked to run.
* `Abacus.CommandLine.Argument` — the kinds of argument.
* `Abacus.CommandLine.classify` — the kind of an argument by its form.
* `Abacus.CommandLine.joinValues` — the arguments with the values of their options.
* `Abacus.CommandLine.Demand`, `Abacus.CommandLine.read` — what a list of arguments asks for.
-/

namespace Abacus.CommandLine

/-- What the program is asked to run, and how. -/
structure Settings where
  /-- The file to run. Without one the program is interactive. -/
  path : Option String
  /-- How deeply evaluations may nest. -/
  maxDepth : DepthLimit
deriving DecidableEq, Repr

/-- How deeply evaluations may nest unless something else is asked for. -/
def defaultDepth : DepthLimit := .levels 300

/-! ## Arguments -/

/-- The kinds of argument. The kind shows in the form of an argument alone, and not in its
neighbours, except that behind a double dash all are words. -/
inductive Argument where
  /-- The name of a file, or the value of an option. -/
  | word (text : List Char)
  /-- The double dash that ends the options. -/
  | marker
  /-- The option for the depth, perhaps with its value. -/
  | depth (value : Option (List Char))
  /-- The option that asks for help. -/
  | help
  /-- An option that does not exist. -/
  | unknown
  /-- A value for an option that has none, or no value for one that needs it. -/
  | misused
  /-- The beginning of more than one option. -/
  | ambiguous
deriving DecidableEq, Repr

/-- The options that are written out. Each can be shortened to a beginning of its own. -/
inductive LongOption where
  /-- Asks for help. -/
  | help
  /-- Sets how deeply evaluations may nest. -/
  | depth
deriving DecidableEq, Repr

/-- How an option is written in full. -/
def LongOption.chars : LongOption → List Char
  | help => "--help".toList
  | depth => "--max-depth".toList

/-- An option with the value behind its equals sign, if it has one. Help has none. -/
def LongOption.argument (value : Option (List Char)) : LongOption → Argument
  | help => if value.isNone then .help else .misused
  | depth => .depth value

/-- The options that a text is the beginning of. The double dash alone, with a value behind an
equals sign, is the beginning of all. -/
def optionsOf (cs : List Char) : List LongOption :=
  [.help, .depth].filter fun o => cs.isPrefixOf o.chars

/-- The parts of a text before and after its first equals sign. Without a sign there is no value,
and with nothing behind it the value is empty. -/
def splitValue (cs : List Char) : List Char × Option (List Char) :=
  match cs.dropWhile (· != '=') with
  | [] => (cs, none)
  | _ :: value => (cs.takeWhile (· != '='), some value)

/-- Whether all characters of a text are decimal digits, of whatever script. -/
def areDigits (cs : List Char) : Bool := cs.all fun c => (Text.digit? c).isSome

/-- Whether a text behind a dash makes it a negative number: digits, or a point with digits behind
it. A line feed at its end is ignored. -/
def isNumber (cs : List Char) : Bool :=
  let cs := if cs.getLast? = some '\n' then cs.dropLast else cs
  match cs.dropWhile (· != '.') with
  | [] => !cs.isEmpty && areDigits cs
  | _ :: fraction =>
    areDigits (cs.takeWhile (· != '.')) && !fraction.isEmpty && areDigits fraction

/-- The kind of the short option for help, by what follows its letter. It has no value, but its
letter may be repeated, and an equals sign may stand in front of the repetition. This is the older
of the two rules that the introduction tells apart. -/
def classifyHelp (rest : List Char) : Argument :=
  match rest with
  | ['='] => .misused
  | '=' :: letters => if letters.all (· == 'h') then .help else .misused
  | letters => if letters.all (· == 'h') then .help else .misused

/-- The kind of an argument that starts with one dash, by its first letter and the rest. A
negative number, or a text with a space in it, is a word and no option. -/
def classifyShort (c : Char) (rest : List Char) : Argument :=
  if c = 'h' then classifyHelp rest
  else if isNumber (c :: rest) || (c :: rest).contains ' ' then .word ('-' :: c :: rest)
  else .unknown

/-- The kind of an argument that starts with two dashes. A text with a space in it is a word,
unless what stands before its equals sign begins an option. -/
def classifyLong (cs : List Char) : Argument :=
  let (name, value) := splitValue cs
  match optionsOf name with
  | [o] => o.argument value
  | [] => if cs.contains ' ' then .word cs else .unknown
  | _ => .ambiguous

/-- The kind of an argument in front of the double dash. A dash alone is a word, and so is the
empty text. -/
def classify (cs : List Char) : Argument :=
  match cs with
  | ['-', '-'] => .marker
  | '-' :: '-' :: _ => classifyLong cs
  | '-' :: c :: rest => classifyShort c rest
  | _ => .word cs

/-- The kinds of arguments. Behind the double dash all are words, a second double dash included. -/
def classifyAll : List String → List Argument
  | [] => []
  | s :: rest =>
    match classify s.toList with
    | .marker => .marker :: rest.map fun t => .word t.toList
    | argument => argument :: classifyAll rest

/-! ## Demands -/

/-- What a list of arguments asks for. What is shown for arguments that make no sense is not
told. -/
inductive Demand where
  /-- A run of the program. -/
  | run (settings : Settings)
  /-- The text that tells how to use it. -/
  | help
  /-- The arguments make no sense. -/
  | invalid
deriving DecidableEq, Repr

/-- Joins each option that needs a value to the word that follows it. Without such a word the
option makes no sense. -/
def joinValues : List Argument → List Argument
  | .depth none :: .word value :: rest => .depth (some value) :: joinValues rest
  | .depth none :: rest => .misused :: joinValues rest
  | argument :: rest => argument :: joinValues rest
  | [] => []

/-- What has been read of the arguments, from the left. -/
structure Progress where
  /-- The last limit that was given. -/
  maxDepth : DepthLimit
  /-- The file, if its place is taken. The place can also be taken by no file. -/
  file : Option (Option String)
  /-- Whether an argument was met that nothing asks for. -/
  hasLeftover : Bool

namespace Progress

/-- Before any argument is read: the limit is the usual one, and no file is named. -/
def start : Progress := ⟨defaultDepth, none, false⟩

/-- Puts a word, or no word, in the place of the file. If that is taken the word is left over. -/
def take (p : Progress) (path : Option (List Char)) : Progress :=
  match p.file with
  | none => { p with file := some (path.map String.ofList) }
  | some _ => { p with hasLeftover := true }

/-- What the arguments ask for when all of them are read. With a word too many they make no
sense. -/
def demand (p : Progress) : Demand :=
  if p.hasLeftover then .invalid else .run ⟨p.file.getD none, p.maxDepth⟩

end Progress

/-- The limit that a value gives. A double dash, which ends options elsewhere, leaves no value.
That is the older of the two rules that the introduction tells apart, and it is the only way to a
limit that no depth can be compared with. -/
def limit? (value : List Char) : Option DepthLimit :=
  if value = ['-', '-'] then some .blank else (Text.integer? value).map .levels

/-- Reads arguments in order. Help ends the reading at once, and so does an argument that makes no
sense. A double dash next to the file goes with it. One that stands alone where a file could stand
is no file. -/
def readFrom (p : Progress) : List Argument → Demand
  | [] => p.demand
  | .help :: _ => .help
  | .misused :: _ => .invalid
  | .ambiguous :: _ => .invalid
  | .depth none :: _ => .invalid
  | .depth (some value) :: rest =>
    match limit? value with
    | some limit => readFrom { p with maxDepth := limit } rest
    | none => .invalid
  | .unknown :: rest => readFrom { p with hasLeftover := true } rest
  | .word text :: .marker :: rest => readFrom (p.take (some text)) rest
  | .word text :: rest => readFrom (p.take (some text)) rest
  | .marker :: .word text :: rest => readFrom (p.take (some text)) rest
  | .marker :: rest => readFrom (p.take none) rest

/-- What a list of arguments asks for. An argument that could be two options makes no sense, even
behind one that asks for help. -/
def read (arguments : List String) : Demand :=
  let kinds := classifyAll arguments
  if kinds.contains .ambiguous then .invalid else readFrom .start (joinValues kinds)

end Abacus.CommandLine
