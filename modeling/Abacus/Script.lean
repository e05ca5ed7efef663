import Abacus.Session
import Abacus.Text

/-!
# Scripts

The statements of a file. A statement goes on over the next line as long as it has opened more
parentheses than it has closed, and whatever follows two semicolons on a line is a comment.

## Main definitions

* `Abacus.Script.content` — a line without its comment.
* `Abacus.Script.Entry` — the text of a statement and the number of the line where it starts.
* `Abacus.Script.gather`, `Abacus.Script.statements` — the statements of a file.
* `Abacus.Script.run` — what the statements of a file lead to, up to the first that is refused.
-/

namespace Abacus.Script

/-! ## Lines -/

/-- The mark that opens a comment. -/
def commentMark : List Char := [';', ';']

/-- A line without its comment and without the blanks at its end. The mark opens a comment
wherever it stands, since no statement can have it. -/
def content (line : List Char) : List Char :=
  Text.stripRight (Text.before commentMark line)

/-- Whether a text opens more parentheses than it closes. Where they stand makes no difference, so
`)(` is not open. -/
def isOpen (cs : List Char) : Bool := cs.count ')' < cs.count '('

/-- Whether a line has nothing but blanks and a comment. Such a line opens no statement, but it
can go on with one that is open. -/
def isSkipped (line : List Char) : Bool :=
  let cs := Text.strip line
  cs.isEmpty || commentMark.isPrefixOf cs

/-- Joins a line to the text before it, with one blank between them. The comment of the line is
dropped, and so are the blanks around what is left. -/
def join (previous line : List Char) : List Char :=
  previous ++ ' ' :: Text.strip (content line)

/-! ## Statements -/

/-- The text of a statement and the number of the line where it starts. Lines are counted from
one, skipped ones included. -/
structure Entry where
  /-- The text, with its lines joined. -/
  text : List Char
  /-- The number of its first line. -/
  line : Int
deriving DecidableEq, Repr

/-- Joins a line to the last one of the entries, whose number stays. Without entries there is
nothing to join it to. -/
def joinLast (line : List Char) : List Entry → List Entry
  | [] => []
  | [e] => [⟨join e.text line, e.line⟩]
  | e :: es => e :: joinLast line es

/-- Takes a line, joined to the last of the statements that were gathered if it goes on with it.
The line as it stands then, and the statements. Without statements a line is only freed of its
comment. -/
def takeLine (line : List Char) (continues : Bool) (entries : Option (List Entry)) :
    List Char × Option (List Entry) :=
  match entries, continues with
  | some es, true =>
    let joined := joinLast line es
    ((joined.getLast?.map Entry.text).getD [], some joined)
  | _, _ => (content line, entries)

/-- Gathers the statements of lines, the first of which has the given number. If a statement is
pending, the first line belongs to it, and it is complete when it is no longer open or when the
lines end. -/
def gather : Option Entry → Int → List (List Char) → List Entry
  | none, _, [] => []
  | some pending, _, [] => [pending]
  | none, n, line :: lines =>
    if isSkipped line then gather none (n + 1) lines
    else
      let text := join [] line
      if isOpen text then gather (some ⟨text, n⟩) (n + 1) lines
      else ⟨text, n⟩ :: gather none (n + 1) lines
  | some pending, n, line :: lines =>
    let text := join pending.text line
    if isOpen text then gather (some ⟨text, pending.line⟩) (n + 1) lines
    else ⟨text, pending.line⟩ :: gather none (n + 1) lines

/-- The statements of a file, without the blanks around them. One that is empty then is left out. -/
def statements (file : List Char) : List Entry :=
  ((gather none 1 (Text.lines file)).map fun e => ⟨Text.strip e.text, e.line⟩).filter
    fun e => !e.text.isEmpty

/-! ## Running a script -/

/-- A statement that was answered, with all that was said to it. -/
structure Answered where
  /-- The statement. -/
  entry : Entry
  /-- Its answer. -/
  answer : Answer
  /-- The warning that it gave, if it gave one. -/
  warning : Option Report

/-- What a script leads to: all of its statements are answered, or those before the first one that
is refused. -/
structure Result where
  /-- The statements that were answered, in order. -/
  answered : List Answered
  /-- The statement that was refused, if one was. -/
  refused : Option (Entry × Fault)
  /-- The world at the end. -/
  world : World

/-- Runs statements in order. The first one that is refused is the last one that is looked at, so
nothing behind it has any effect. -/
def run (w : World) : List Entry → Result
  | [] => ⟨[], none, w⟩
  | e :: es =>
    match (Run.ofLine (String.ofList e.text)).on w with
    | (.error fault, w') => ⟨[], some (e, fault), w'⟩
    | (.ok reply, w') =>
      let rest := run w' es
      { rest with answered := ⟨e, reply.answer, reply.warning⟩ :: rest.answered }

end Abacus.Script
