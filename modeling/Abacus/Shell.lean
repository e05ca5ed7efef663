import Abacus.Console
import Abacus.Expr.Render
import Abacus.Script
import Abacus.Shell.Command

/-!
# The shell

A session at a terminal. Each line is a command or a part of a statement. While a statement has open
parentheses it is pending, and lines are added to it.

## Main definitions

* `Abacus.Shell` — the state of a shell, with `Shell.start`.
* `Abacus.Shell.Response` — what a line leads to.
* `Abacus.Shell.step` — the response to a line.
* `Abacus.Shell.feed`, `Abacus.Shell.after` — the responses to several lines, and the shell after
  them.
-/

namespace Abacus

namespace Shell

/-- What stands in front of a line that is typed in. It tells whether a statement is pending. -/
inductive Prompt where
  /-- A new statement begins. -/
  | primary
  /-- A statement goes on. -/
  | secondary
deriving DecidableEq, Repr

/-- The text of a prompt. -/
def Prompt.text : Prompt → String
  | primary => "> "
  | secondary => ". "

end Shell

/-- The state of a shell. Commands change no part of it but the console, when a text has no
outline. -/
structure Shell where
  /-- The names that the statements so far have bound. -/
  world : World
  /-- How reports are shown, and the line that is being run. -/
  console : Console
  /-- The statements that were answered, with their answers. -/
  history : List (String × String)
  /-- The statement that has been typed in so far, if it has open parentheses. -/
  pending : List Char
  /-- The prompt for the next line. -/
  prompt : Shell.Prompt
  /-- The number of lines that were taken as parts of statements. -/
  lineNumber : Nat

namespace Shell

/-- The name of the input as a file. A script can have this name too. -/
def inputPath : String := "<in>"

/-- A shell on a world, before the first line. Errors do not end it. -/
def start (style : Style) (world : World) : Shell where
  world := world
  console := (Console.new style false).openFile inputPath
  history := []
  pending := []
  prompt := .primary
  lineNumber := 0

/-- What a line leads to: a new state, what is shown, and whether the shell goes on. -/
structure Response where
  /-- The shell after the line. -/
  shell : Shell
  /-- What is shown, with a line break at its end unless it is empty. -/
  output : String
  /-- Whether the line asks to end the shell. -/
  stops : Bool
  /-- The fault of the program that ends the shell, if there was one. -/
  escaped : Option Fault

/-- A response after which the shell goes on. -/
def Response.goesOn (shell : Shell) (output : String) : Response := ⟨shell, output, false, none⟩

/-- A response after which the shell ends. -/
def Response.ends (shell : Shell) (output : String) : Response := ⟨shell, output, true, none⟩

/-! ## Statements -/

/-- The response to a statement that is complete. The warnings that were given while it ran are
shown first, whatever it has ended with. A fault of the program is shown as an error is, and then
ends the shell. Only an answered statement is added to the history. -/
def submit (s : Shell) (statement : String) : Response :=
  let console := s.console.enterLine inputPath statement s.lineNumber
  match (Run.ofLine statement).on s.world with
  | (.error fault, world) =>
    { shell := { s with world := world, console := console.settle }
      output :=
        console.warningsText (s.world.newWarnings world) ++ console.errorText fault.report
      stops := false
      escaped := if fault.report.isInternal then some fault else none }
  | (.ok reply, world) =>
    let answer := reply.answer.display
    .goesOn
      { s with
        world := world
        console := console.leaveLine inputPath
        history := s.history ++ [(statement, answer)] }
      (console.warningsText (s.world.newWarnings world) ++ answer ++ "\n")

/-- The response to a line that is a part of a statement. The line is joined to what is pending,
and the whole is submitted once it is no longer open. A line that is empty without its comment
shows nothing. -/
def takeLine (s : Shell) (line : List Char) : Response :=
  let s := { s with lineNumber := s.lineNumber + 1 }
  let text := Script.content (s.pending ++ ' ' :: line)
  if Script.isOpen text then
    .goesOn { s with pending := text, prompt := .secondary } ""
  else
    let s := { s with pending := [], prompt := .primary }
    let statement := Text.strip text
    if statement.isEmpty then .goesOn s "" else s.submit (String.ofList statement)

/-! ## Commands -/

/-- The first words of the shell, which are shown before the first prompt. -/
def intro : String :=
  "fncalc :: calculator with first-class functions\n" ++
  "Type '?' or 'help' for more information."

/-- What the help command shows, whatever its argument is. -/
def helpText : String :=
  "Welcome to fncalc!\n\n" ++
  "Type an expression such as '2 + 3 * 4' to evaluate it. Note that '^' associates to the\n" ++
  "left: '2 ^ 3 ^ 2' is 64. Bind a variable with 'let x = 5' and define a function with\n" ++
  "'def sq(x) = x * x'. Functions are values too: 'let add = fn(a, b) => a + b' binds a\n" ++
  "closure, and '(fn(x) => x * x)(4)' calls one immediately.\n\n" ++
  "Commands: vars, closures, funcs, history, tree EXPRESSION, help, exit. " ++
  "A command is only recognized\n" ++
  "on a line of its own, so 'let history = 3' and 'history + 1' are ordinary statements.\n"

/-- A line of a listing: a name that is set off, with what is listed behind it. -/
def item (s : Shell) (name rest : String) : String :=
  s.console.style.emphasize .bold name ++ rest ++ "\n"

/-- The variables that are numbers, with their values. A variable keeps its place when it is bound
again. -/
def listVariables (s : Shell) : String :=
  String.join (s.world.numbers.entries.map fun (name, x) =>
    s.item name (" = " ++ Number.display x))

/-- The variables that are functions, with their parameters but not with their bodies. -/
def listClosures (s : Shell) : String :=
  String.join (s.world.closures.entries.map fun (name, c) =>
    s.item name (" = " ++ Expr.showFunction c.params))

/-- The named functions, with their parameters and the texts of their bodies. -/
def listFunctions (s : Shell) : String :=
  String.join (s.world.functions.entries.map fun (name, d) =>
    s.item name ("(" ++ String.ofList (Expr.renderParams d.params) ++ ") = " ++ d.source))

/-- The statements that were answered, each with what was shown as its answer then. -/
def listHistory (s : Shell) : String :=
  String.join (s.history.map fun (line, answer) => line ++ "  =>  " ++ answer ++ "\n")

/-- The outline of the expression that a text forms. One that is too high for the machine has
none, although it can be read. -/
def outlineOf (limits : Limits) (text : String) : Except Fault String := do
  let e ← Expr.parse limits text
  if e.height ≤ limits.height then .ok e.outline else .error .tooNested

/-- The response to a request for an outline. A text that is no expression gives an error, as a
statement does, but no line is told with it. -/
def showTree (s : Shell) (argument : List Char) : Response :=
  match outlineOf s.world.limits (String.ofList argument) with
  | .ok text => .goesOn s (text ++ "\n")
  | .error fault =>
    .goesOn { s with console := s.console.settle } (s.console.errorText fault.report)

/-- The response to a command. Only the last two end the shell, and the end of the input ends the
line of the prompt first. -/
def run (s : Shell) (r : Request) : Response :=
  match r.command with
  | .vars => .goesOn s s.listVariables
  | .closures => .goesOn s s.listClosures
  | .funcs => .goesOn s s.listFunctions
  | .history => .goesOn s s.listHistory
  | .help => .goesOn s helpText
  | .tree => s.showTree r.argument
  | .exit => .ends s ""
  | .endOfInput => .ends s "\n"

/-! ## Lines -/

/-- The request that a line is. While a statement is pending no line is one: even the word `exit`
is then a part of the statement. -/
def requestOf? (pending line : List Char) : Option Request :=
  if pending.isEmpty then request? (Text.strip line) else none

/-- The response to a line. A blank line is ignored, also inside of a statement. Any other line is
a command or a part of a statement. -/
def step (s : Shell) (line : String) : Response :=
  let cs := Text.strip line.toList
  if cs.isEmpty then .goesOn s ""
  else
    match requestOf? s.pending cs with
    | some r => s.run r
    | none => s.takeLine cs

/-- The responses to lines, one after another. A line is answered even if one before it has ended
the shell. -/
def feed (s : Shell) : List String → List Response
  | [] => []
  | line :: lines =>
    let response := s.step line
    response :: response.shell.feed lines

/-- The shell after lines, without what it has shown. -/
def after (s : Shell) (lines : List String) : Shell :=
  lines.foldl (fun s line => (s.step line).shell) s

end Shell

end Abacus
