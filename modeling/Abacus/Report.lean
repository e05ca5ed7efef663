import Abacus.Text

/-!
# Reports

What is shown of an error or a warning: a message with the offending snippets set off, and the part
of a text that it is about, marked by a caret.

## Main definitions

* `Abacus.Style` — whether emphasis is shown by terminal colours.
* `Abacus.Message` — a message with snippets, `Message.plain` and `Message.render`.
* `Abacus.Report` — a message about a span of a text.
* `Abacus.Report.marking` — the two lines that show the span.
-/

namespace Abacus

/-! ## Styles -/

/-- Whether emphasis is shown. It is on a terminal that has colours, and not in a file. -/
inductive Style where
  /-- Emphasis leaves no trace. -/
  | plain
  /-- Emphasis is written as terminal control sequences. -/
  | coloured
deriving DecidableEq, Repr

/-- The kinds of emphasis. All of them are bold, and two have a colour. -/
inductive Emphasis where
  /-- For the snippets of a message and for the names in a listing. -/
  | bold
  /-- For what an error is about, in red. -/
  | error
  /-- For what a warning is about, in magenta. -/
  | warning
deriving DecidableEq, Repr

/-- The control sequences that switch an emphasis on. The boldness comes before the colour. -/
def Emphasis.opening : Emphasis → String
  | bold => "\x1b[1m"
  | error => "\x1b[1m\x1b[31m"
  | warning => "\x1b[1m\x1b[35m"

/-- A text with emphasis, which ends behind it. An empty text is wrapped as any other. -/
def Style.emphasize (style : Style) (emphasis : Emphasis) (text : String) : String :=
  match style with
  | plain => text
  | coloured => emphasis.opening ++ text ++ "\x1b[0m"

/-- In the plain style a text is not changed. -/
@[simp]
theorem Style.emphasize_plain (e : Emphasis) (text : String) :
    Style.plain.emphasize e text = text := rfl

/-! ## Messages -/

/-- A part of a message. Which words are set off is settled where a message is made, so a quoted
text can never be taken for a placeholder. -/
inductive Piece where
  /-- The words of the message itself. -/
  | words (text : String)
  /-- A quoted part of the input, set off in bold. -/
  | snippet (text : String)
deriving DecidableEq, Repr

/-- The words of a message can be given as a text. -/
instance : Coe String Piece := ⟨Piece.words⟩

/-- A message as the sequence of its parts, with the blanks between them in the parts. -/
abbrev Message := List Piece

namespace Message

/-- The characters of a part, with its emphasis. Only snippets have one. -/
def piece (style : Style) : Piece → String
  | .words text => text
  | .snippet text => style.emphasize .bold text

/-- A message with its snippets set off, on one line unless a snippet has a line break. -/
def render (style : Style) (m : Message) : String :=
  String.join (m.map (piece style))

/-- A message without emphasis, which is what a program that catches the error gets. -/
def plain (m : Message) : String := m.render .plain

end Message

/-! ## Reports -/

/-- A message about a span of a text. The span is given by positions in that text, whether or not
it is shown. -/
structure Report where
  /-- The words. -/
  message : Message
  /-- The text that the message is about. -/
  subject : String
  /-- The position of the first character of the span. A negative one is counted from the end. -/
  start : Int
  /-- The position after the last character of the span. -/
  stop : Int
  /-- Whether the span is worth showing. -/
  isLocated : Bool
  /-- Whether the fault lies in the program and not in its input. -/
  isInternal : Bool
deriving DecidableEq, Repr

namespace Report

/-- A report about a whole text, which is not shown again. It mostly stands in the message
already. -/
def about (message : Message) (subject : String) : Report :=
  ⟨message, subject, 0, subject.length, false, false⟩

/-- A report about a span of a text, which is shown under the message with the span set off. -/
def within (message : Message) (subject : String) (start stop : Int) : Report :=
  ⟨message, subject, start, stop, true, false⟩

/-- The words for a fault that lies in the program: the kind of the fault and what it says. -/
def internalWords (kind words : String) : String :=
  "unknown error: '" ++ kind ++ ": " ++ words ++ "'"

/-- A report about a fault that lies in the program. -/
def internal (kind words : String) : Report :=
  ⟨[internalWords kind words], "", 0, 0, false, true⟩

/-- Whether the span is shown under the message: it is known, the text is there, and the fault is
the input's. -/
def isShown (r : Report) : Bool :=
  !r.isInternal && !r.subject.isEmpty && r.isLocated

/-- The text with its span set off, and under it a caret with a tail as long as the span. A span
has at least one character, so that the caret is always there. Both lines are moved two places to
the right. -/
def marking (style : Style) (emphasis : Emphasis) (r : Report) : String :=
  let cs := r.subject.toList
  let stop := max r.stop (r.start + 1)
  let tail := List.replicate (stop - r.start - 1).toNat '~'
  "  " ++ String.ofList (Text.upTo r.start cs) ++
    style.emphasize emphasis (String.ofList (Text.slice r.start stop cs)) ++
    String.ofList (Text.onward stop cs) ++ "\n" ++
    "  " ++ String.ofList (List.replicate r.start.toNat ' ') ++
    style.emphasize emphasis (String.ofList ('^' :: tail))

end Report

end Abacus
