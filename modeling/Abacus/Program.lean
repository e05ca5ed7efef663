import Abacus.CommandLine
import Abacus.Shell

/-!
# The program

What the program shows and with which status it ends, as a function of its arguments, the files that
it can read, and its input.

## Main definitions

* `Abacus.Program.Ending` — what was shown, and the exit status.
* `Abacus.Program.runFile` — a run of a file.
* `Abacus.Program.converse` — an interactive run.
* `Abacus.Program.run` — a run of the program.
-/

namespace Abacus.Program

/-- What was shown, and the exit status: zero for success, one for a failure, and two for
arguments that make no sense. -/
structure Ending where
  /-- All that was shown, in order. -/
  output : String
  /-- The exit status. -/
  status : Nat
deriving DecidableEq, Repr

/-! ## Running a file -/

/-- What is shown of a statement that was answered: its warning, if it gave one, and the answer.
The warning tells the line of the statement, and the answer does not. -/
def answeredText (console : Console) (path : String) (a : Script.Answered) : String :=
  let console := console.enterLine path (String.ofList a.entry.text) a.entry.line
  (a.warning.map console.warningText).getD "" ++ a.answer.display ++ "\n"

/-- The status of a run that ends with a fault. One of the program itself is a failure on every
console. -/
def failure (console : Console) (fault : Fault) : Nat :=
  if console.isFatal || fault.report.isInternal then 1 else 0

/-- Whether a path can be that of a file. The character with the code zero ends the name of a file
for the machine, so it can stand in none. -/
def isPath (path : String) : Bool := !path.toList.contains '\x00'

/-- The fault of a file that was not read. An impossible path is a fault of the program, as
nothing checks it before the file is opened. -/
def openFault (path : String) : Fault :=
  if isPath path then .unreadable path else .impossiblePath

/-- A run of a file with the given content, or without one if the file could not be opened. The
content is a text: the bytes of the file have been decoded, and a file whose bytes are no text is
no matter of a run (`Abacus.decode` tells what becomes of it). A file that has the name of the
shell's input is run as if it were typed in, so an error in it does not make the program fail. -/
def runFile (style : Style) (world : World) (path : String) (content : Option String) : Ending :=
  let console := (Console.new style (path != Shell.inputPath)).openFile path
  match content.filter fun _ => isPath path with
  | none =>
    let fault := openFault path
    ⟨console.errorText fault.report, failure console fault⟩
  | some text =>
    let result := Script.run world (Script.statements text.toList)
    let shown := String.join (result.answered.map (answeredText console path))
    match result.refused with
    | none => ⟨shown, 0⟩
    | some (entry, fault) =>
      let console := console.enterLine path (String.ofList entry.text) entry.line
      ⟨shown ++ console.errorText fault.report, failure console fault⟩

/-! ## Interactive runs -/

/-- The line that the end of the input stands for, which a user can type in too. -/
def endOfInput : String := Shell.Command.endOfInput.word

/-- What is shown of a fault that has ended a shell. It was shown there before, as an error in the
statement, and is shown once more as one of the whole run. -/
def escapeText (response : Shell.Response) (fault : Fault) : String :=
  response.shell.console.errorText fault.report

/-- What a shell shows for lines that are typed in, the prompts included, and the status with
which it ends. The end of the input is a line of its own.

It ends a shell only if no statement is pending. Otherwise it is read as a part of the statement,
which stays open however often it is read (`Shell.feed_endOfInput`), so the program goes on
reading it for ever. What is given for such an input is what was shown up to the first time, with
the status of a shell that was asked to end. -/
def converse (shell : Shell) : List String → Ending
  | [] => ⟨shell.prompt.text ++ (shell.step endOfInput).output, 0⟩
  | line :: lines =>
    let response := shell.step line
    let shown := shell.prompt.text ++ response.output
    match response.escaped with
    | some fault => ⟨shown ++ escapeText response fault, 1⟩
    | none =>
      if response.stops then ⟨shown, 0⟩
      else
        let rest := converse response.shell lines
        ⟨shown ++ rest.output, rest.status⟩

/-! ## Runs of the program -/

/-- What the program shows when it is asked for help. -/
def usage : String :=
  "usage: fncalc [-h] [--max-depth MAX_DEPTH] [file]\n\n" ++
  "calculator language with first-class functions\n\n" ++
  "positional arguments:\n" ++
  "  file                  file to interpret and run (if empty, goes to command-\n" ++
  "                        line mode)\n\n" ++
  "options:\n" ++
  "  -h, --help            show this help message and exit\n" ++
  "  --max-depth MAX_DEPTH\n" ++
  "                        maximum evaluation depth before giving up (default:\n" ++
  "                        300)\n"

/-- A run of the program. Arguments that make no sense end it at once, and what is told about them
is left out here. The input is read only by an interactive run. -/
def run (style : Style) (limits : Limits) (files : String → Option String)
    (arguments : List String) (input : String) : Ending :=
  match CommandLine.read arguments with
  | .invalid => ⟨"", 2⟩
  | .help => ⟨usage, 0⟩
  | .run settings =>
    let world := World.new settings.maxDepth limits
    match settings.path with
    | some path => runFile style world path (files path)
    | none =>
      let lines := (Text.lines input.toList).map String.ofList
      let ending := converse (Shell.start style world) lines
      ⟨Shell.intro ++ "\n" ++ ending.output, ending.status⟩

end Abacus.Program
