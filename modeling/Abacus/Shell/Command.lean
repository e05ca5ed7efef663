import Abacus.Text
import Abacus.Token

/-!
# Commands of the shell

Which lines are commands and not statements. A command stands alone on its line. Only those that
take an argument may be followed by one, unless it begins as the rest of an expression would.

## Main definitions

* `Abacus.Shell.Command` — the commands.
* `Abacus.Shell.Request` — a command with its argument.
* `Abacus.Shell.request?` — the request that a line is.
-/

namespace Abacus.Shell

/-- The commands. Their words are not reserved: `let vars = 1` is a statement. -/
inductive Command where
  /-- Lists the variables that are numbers. -/
  | vars
  /-- Lists the variables that are functions. -/
  | closures
  /-- Lists the named functions. -/
  | funcs
  /-- Lists the statements that were answered. -/
  | history
  /-- Ends the shell. -/
  | exit
  /-- Ends the shell when the input does. The word can be typed in as well. -/
  | endOfInput
  /-- Shows what the shell can do. -/
  | help
  /-- Shows the outline of an expression. -/
  | tree
deriving DecidableEq, Repr

namespace Command

/-- The word for a command. The case of its letters counts. -/
def word : Command → String
  | vars => "vars"
  | closures => "closures"
  | funcs => "funcs"
  | history => "history"
  | exit => "exit"
  | endOfInput => "EOF"
  | help => "help"
  | tree => "tree"

/-- All commands, as a list to search. -/
def all : List Command := [vars, closures, funcs, history, exit, endOfInput, help, tree]

/-- The command that a word is, if it is one. -/
def ofWord? (s : String) : Option Command := all.find? fun c => c.word == s

/-- Whether a command can have an argument. The others are commands only if they stand alone. -/
def takesArgument : Command → Bool
  | help | tree => true
  | _ => false

end Command

/-- A command with its argument, and the line that they are read from. -/
structure Request where
  /-- What is asked for. -/
  command : Command
  /-- What follows the word, without the blanks around it. -/
  argument : List Char
  /-- The line, with the word `help` in the place of a question mark. -/
  line : List Char
deriving DecidableEq, Repr

/-- The characters with which an expression goes on behind a name. A line on which one of them
follows the word of a command is a statement about a variable or a function of that name. -/
def continuesExpression (c : Char) : Bool :=
  ['+', '-', '*', '/', '^', '(', ')', ',', '='].contains c

/-- A line as commands are read from it. A question mark in front asks for help. With an
exclamation mark in front a line is no command, whatever follows. -/
def commandLine? (cs : List Char) : Option (List Char) :=
  match cs with
  | [] => none
  | '?' :: rest => some ("help ".toList ++ rest)
  | '!' :: _ => none
  | _ => some cs

/-- Whether a command admits an argument. Without an argument all commands do. -/
def admits (command : Command) (argument : List Char) : Bool :=
  match argument with
  | [] => true
  | c :: _ => command.takesArgument && !continuesExpression c

/-- The request that a line without blanks around it is, if it is one. The word of the command
ends at the first character that cannot be a part of a name, so `tree1` is none and `tree 1` is
one. -/
def request? (cs : List Char) : Option Request := do
  let line ← commandLine? cs
  let command ← Command.ofWord? (String.ofList (line.takeWhile isNameChar))
  let argument := Text.strip (line.dropWhile isNameChar)
  if admits command argument then some ⟨command, argument, line⟩ else none

end Abacus.Shell
