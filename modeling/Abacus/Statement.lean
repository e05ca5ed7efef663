import Abacus.Expr.Parse
import Abacus.Text.Word

/-!
# Statements

A line holds one statement: it binds a variable, defines a function, or is an expression.

```
statement  ::= "let" name "=" expression
             | "def" name "(" (name ("," name)*)? ")" "=" expression
             | expression
```

The parts of a statement are cut out of its text before any of them is read, since the equals sign
of a lambda may stand on the right of the one that splits the statement.

## Main definitions

* `Abacus.Statement` — statements, with `Statement.Form`, what they say.
* `Abacus.Statement.Opening` — the ways in which a statement can open.
* `Abacus.Statement.splitBinding`, `Abacus.Statement.splitDefinition` — the parts of a text.
* `Abacus.Statement.ofLine` — the statement that a line holds.
-/

namespace Abacus

namespace Statement

/-- What a statement does. Its expressions are read already, so a statement that cannot be read as
a whole is refused before anything is evaluated. -/
inductive Form where
  /-- Evaluates an expression and binds a variable to its value. -/
  | binding (name : String) (term : Expr)
  /-- Defines a function. Its body is evaluated at each call, and not before. -/
  | definition (name : String) (params : List String) (term : Expr)
  /-- Evaluates an expression and shows its value. -/
  | expression (term : Expr)

/-- The ways in which a statement can open. The first word alone decides, so a text that opens
with a reserved word is never tried as an expression. -/
inductive Opening where
  /-- With the word `let`. -/
  | binding
  /-- With the word `def`. -/
  | definition
  /-- With anything else. -/
  | expression
deriving DecidableEq, Repr

end Statement

/-- A statement as it was read, with the texts that it was read from. -/
structure Statement where
  /-- What it does. -/
  form : Statement.Form
  /-- The text without the blanks around it. -/
  text : String
  /-- The text that the faults of the statement refer to: the line as it was given, blanks
  included. -/
  subject : String

namespace Statement

/-- The expression inside a statement: the one that is evaluated, or the body of the function. -/
def Form.term : Form → Expr
  | binding _ term => term
  | definition _ _ term => term
  | expression term => term

/-! ## Names -/

/-- A name, or the fault of a text that cannot be one. A reserved word cannot, and no text with a
blank or a character beyond ASCII in it. -/
def admitName (role : NameRole) (name subject : String) : Except Fault String :=
  if isName name.toList then .ok name else .error (.invalidName role name subject)

/-- The names of parameters, each without the blanks around it. A name that was seen before is
refused. The names are looked at from left to right, so the first bad one is reported. -/
def admitParams (subject : String) : List String → List (List Char) → Except Fault (List String)
  | seen, [] => .ok seen
  | seen, piece :: pieces => do
    let name ← admitName .aParameter (String.ofList (Text.strip piece)) subject
    if name ∈ seen then
      .error (.duplicateParameter name subject)
    else
      admitParams subject (seen ++ [name]) pieces

/-! ## Splitting a text -/

/-- Whether a text opens with a word that ends there. The word ends at the end of the text or
before a character that is not a letter, a digit or an underscore of any alphabet: `letter = 1`
does not open with `let`, and `let=1` does. -/
def opensWith (word cs : List Char) : Bool :=
  word.isPrefixOf cs && ((cs.drop word.length).head?.all fun c => !Text.isWord c)

/-- How a text without blanks around it opens. The word behind the opening is not looked at, so
`def` alone opens a definition, which is then refused. -/
def opening (cs : List Char) : Opening :=
  if opensWith ['l', 'e', 't'] cs then .binding
  else if opensWith ['d', 'e', 'f'] cs then .definition
  else .expression

/-- The position of the first equals sign that is not the start of an arrow. Only the start of an
arrow is passed over, together with its second character: the sign in `=>=` is found. -/
def equalsSign? : List Char → Option Nat
  | [] => none
  | '=' :: '>' :: cs => (equalsSign? cs).map (· + 2)
  | '=' :: _ => some 0
  | _ :: cs => (equalsSign? cs).map (· + 1)

/-- The parts of a text before and after its first equals sign that is not the start of an arrow.
Other such signs on the right are left for the reader of expressions, which refuses them. -/
def splitBinding (cs : List Char) : Option (List Char × List Char) :=
  (equalsSign? cs).map fun i => (cs.take i, cs.drop (i + 1))

/-- The parts of a definition: the name before the first parenthesis, the parameters before the
next closing one, and what follows the equals sign behind it. Only blanks may stand before that
sign, and it must not be the start of an arrow. -/
def splitDefinition (cs : List Char) : Option (List Char × List Char × List Char) :=
  match cs with
  | 'd' :: 'e' :: 'f' :: rest =>
    match rest.dropWhile (· != '(') with
    | _ :: inside =>
      match inside.dropWhile (· != ')') with
      | _ :: behind =>
        match Text.stripLeft behind with
        | '=' :: '>' :: _ => none
        | '=' :: body => some (rest.takeWhile (· != '('), inside.takeWhile (· != ')'), body)
        | _ => none
      | [] => none
    | [] => none
  | _ => none

/-- The texts of the parameters in a text: those between its commas, or none if it is blank. In
`a,` the second one is empty, and no name. -/
def paramPieces (inside : List Char) : List (List Char) :=
  if (Text.strip inside).isEmpty then [] else Text.splitOn ',' inside

/-! ## Reading a statement -/

/-- The expression that a part of a statement forms, without the blanks around it. Positions in
its faults are counted from the first character that is left. -/
def readTerm (limits : Limits) (cs : List Char) : Except Fault Expr :=
  Expr.parse limits (String.ofList (Text.strip cs))

/-- Reads a binding. The first three characters of the text are the word that opens it. The name
is looked at before the expression on the right is read. -/
def readBinding (limits : Limits) (cs : List Char) (subject : String) : Except Fault Form :=
  match splitBinding (cs.drop 3) with
  | none => .error (.missingEquals subject)
  | some (left, right) => do
    let name ← admitName .aVariable (String.ofList (Text.strip left)) subject
    let term ← readTerm limits right
    return .binding name term

/-- Reads a definition. Its name, its parameters and its body are looked at in this order. -/
def readDefinition (limits : Limits) (cs : List Char) (subject : String) : Except Fault Form :=
  match splitDefinition cs with
  | none => .error (.malformedDefinition subject)
  | some (left, inside, right) => do
    let name ← admitName .aFunction (String.ofList (Text.strip left)) subject
    let params ← admitParams subject [] (paramPieces inside)
    let term ← readTerm limits right
    return .definition name params term

/-- Reads what a text without blanks around it says, if it opens in the given way. `subject` is
the text that the faults refer to. -/
def readForm (limits : Limits) (opening : Opening) (cs : List Char) (subject : String) :
    Except Fault Form :=
  match opening with
  | .binding => readBinding limits cs subject
  | .definition => readDefinition limits cs subject
  | .expression => (readTerm limits cs).map .expression

/-- Reads a text as a statement that opens in the given way. The blanks around the text are taken
away here, whether or not it was done before. -/
def read (limits : Limits) (opening : Opening) (text subject : String) :
    Except Fault Statement := do
  let cs := Text.strip text.toList
  let form ← readForm limits opening cs subject
  return ⟨form, String.ofList cs, subject⟩

/-- The statement that a line holds. The line is told as the subject of all faults but those of
the expression inside, which refer to the text of that expression. -/
def ofLine (limits : Limits) (line : String) : Except Fault Statement :=
  read limits (opening (Text.strip line.toList)) line line

/-! ## Names that are let through -/

/-- A name that is let through is unchanged, and has the form of a name. -/
theorem admitName_eq_ok_iff {role : NameRole} {name subject s : String} :
    admitName role name subject = .ok s ↔ isName name.toList = true ∧ name = s := by
  unfold admitName
  split <;> simp_all

end Statement

end Abacus
