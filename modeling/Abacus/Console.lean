import Abacus.Table
import Abacus.Template

/-!
# The console

How errors and warnings are shown, with the places of the files that led to them.

## Main definitions

* `Abacus.Console` — the style of what is shown, and the line that each file is at.
* `Abacus.Console.warningText`, `Abacus.Console.errorText` — the text of a report.
* `Abacus.Console.settle` — the console after an error.
* `Abacus.Incident`, `Abacus.Console.handle` — what can end a piece of work, and what becomes of it.
-/

namespace Abacus

/-- The line that a file is at, as it is told in a message. -/
structure Place where
  /-- The text of the statement. -/
  line : String
  /-- The number of the line: the first one of a statement in a script, and the last one of a
  statement that was typed in. -/
  number : Int
deriving DecidableEq, Repr

/-- How reports are shown, and how far the reading of files has come. There is one console for a
whole run of the program. -/
structure Console where
  /-- Whether emphasis is shown. -/
  style : Style
  /-- Whether an error ends the program. -/
  isFatal : Bool
  /-- The files that are read, each with the line that it is at, if it is at one. -/
  places : Table (Option Place)

namespace Console

/-- A console that reads no file. -/
def new (style : Style) (isFatal : Bool) : Console := ⟨style, isFatal, .empty⟩

/-! ## Places -/

/-- Opens a file, which is at no line yet. What is typed in counts as a file too. -/
def openFile (c : Console) (path : String) : Console :=
  { c with places := c.places.set path none }

/-- Moves a file to a line, before the statement on it is run. -/
def enterLine (c : Console) (path line : String) (number : Int) : Console :=
  { c with places := c.places.set path (some ⟨line, number⟩) }

/-- Takes a file off its line, after the statement on it has an answer. It stays among the files
that were opened. -/
def leaveLine (c : Console) (path : String) : Console :=
  { c with places := c.places.set path none }

/-- The files that are at a line that is not empty, in the order in which they were opened. An
empty line counts as none. -/
def activePlaces (c : Console) : List (String × Place) :=
  c.places.entries.filterMap fun (path, place) =>
    match place with
    | some p => if p.line.isEmpty then none else some (path, p)
    | none => none

/-! ## Texts -/

/-- The span of a report under its message, if it is shown. Errors and warnings differ in the
colour. -/
def markingText (c : Console) (emphasis : Emphasis) (r : Report) : String :=
  if r.isShown then r.marking c.style emphasis ++ "\n" else ""

/-- The text of a warning. The first file that is at a line stands in front of it, with the number
of the line, and the others are not told. -/
def warningText (c : Console) (r : Report) : String :=
  let source :=
    match c.activePlaces with
    | [] => ""
    | (path, p) :: _ =>
      c.style.emphasize .bold (path ++ ":" ++ toString p.number ++ ": ")
  source ++ c.style.emphasize .warning "warning: " ++ r.message.render c.style ++ "\n" ++
    c.markingText .warning r

/-- The text of several warnings, in the order in which they were given. -/
def warningsText (c : Console) (rs : List Report) : String := String.join (rs.map c.warningText)

/-- The lines that tell where a file is: its name with the number, and the statement below it. -/
def placeText : String × Place → String
  | (path, p) =>
    "  File '" ++ path ++ "', line " ++ toString p.number ++ ":\n    " ++ p.line ++ "\n"

/-- The places that led to an error, with a heading if there are any. -/
def tracebackText (c : Console) : String :=
  if c.activePlaces.isEmpty then ""
  else "Traceback:\n" ++ String.join (c.activePlaces.map placeText)

/-- The text of an error, after the places that led to it. A fault that lies in the program is
marked as such, and no span is shown under it. -/
def errorText (c : Console) (r : Report) : String :=
  c.tracebackText ++ (if r.isInternal then c.style.emphasize .error "[internal] " else "") ++
    c.style.emphasize .error "error: " ++ r.message.render c.style ++ "\n" ++
    c.markingText .error r

/-- The console after an error: if the program goes on, no file is at a line. The files stay
opened, in their order. -/
def settle (c : Console) : Console :=
  if c.isFatal then c else { c with places := c.places.map fun _ => none }

end Console

/-! ## Incidents -/

/-- What can end a piece of work before it is done. Only refusals come from the library itself,
and the others from whoever runs it. -/
inductive Incident where
  /-- An error in the input. -/
  | refusal (r : Report)
  /-- The user interrupts. -/
  | interrupt
  /-- The machine has no stack left. -/
  | exhaustion
  /-- The program is asked to end. -/
  | exit (code : Int)
  /-- A fault in the program, with its kind and its words. -/
  | crash (kind words : String)

/-- What becomes of the program after an incident. -/
inductive Aftermath where
  /-- The next piece of work is begun. -/
  | goesOn
  /-- The program ends, with its status. -/
  | exits (code : Int)
  /-- A fault of the program goes through to whoever runs it, with its kind and its words. -/
  | escapes (kind words : String)
deriving DecidableEq, Repr

namespace Console

/-- The report of an incident. Being asked to end is nothing to report. The words of a crash are
read as a template, whose fields stand for the empty text, so they can be flawed themselves. -/
def reportOf (style : Style) : Incident → Except Template.Flaw (Option Report)
  | .refusal r => .ok (some r)
  | .interrupt => .ok (some (.about ["keyboard interrupt"] ""))
  | .exhaustion => .ok (some (.about ["maximum recursion depth exceeded"] ""))
  | .exit _ => .ok none
  | .crash kind words => do
    let (_, shown) ← Template.message style (Report.internalWords kind words) [""]
    return some { Report.internal kind words with message := [.words shown] }

/-- What becomes of the program after an incident that was shown. A fatal one ends it with the
status one, and otherwise only a crash does not let it go on. -/
def aftermath (c : Console) (incident : Incident) : Aftermath :=
  if c.isFatal then .exits 1
  else
    match incident with
    | .crash kind words => .escapes kind words
    | _ => .goesOn

/-- What is shown of an incident, what becomes of the program, and the console after it. A crash
whose words are no template is not shown, and the flaw in them goes through instead. -/
def handle (c : Console) (incident : Incident) : String × Aftermath × Console :=
  match reportOf c.style incident with
  | .ok (some r) => (c.errorText r, c.aftermath incident, c.settle)
  | .ok none =>
    match incident with
    | .exit code => ("", .exits code, c)
    | _ => ("", .goesOn, c)
  | .error flaw => ("", .escapes flaw.kind flaw.words, c)

end Console

end Abacus
