import Abacus.Limits
import Abacus.Number
import Abacus.Report
import Abacus.Text
import Abacus.Token

/-!
# Faults

The causes for which a statement is refused, and the report that each of them gives.

## Main definitions

* `Abacus.SyntaxProblem` — why an expression cannot be continued.
* `Abacus.Fault` — the causes of all errors.
* `Abacus.Fault.report` — the words of a fault and the span that it points at.
-/

namespace Abacus

/-! ## Causes -/

/-- What has to come next at the places of an expression where only one kind of token fits. Each
place has words of its own for it, although four of the places wait for the same token. -/
inductive Expectation where
  /-- The end of an expression in parentheses. -/
  | closeParen
  /-- The end of a lambda in parentheses. -/
  | closeAfterLambda
  /-- The end of the parameters, or a comma. -/
  | closeAfterParameters
  /-- The end of the arguments, or a comma. -/
  | closeAfterArguments
  /-- The start of the parameters. -/
  | openAfterFn
  /-- The first parameter, if the parameters do not end at once. -/
  | parameter
  /-- A parameter behind a comma. -/
  | nextParameter
  /-- The arrow between the parameters and the body. -/
  | arrow
deriving DecidableEq, Repr

/-- The words for what has to come next, as they stand in the message. -/
def Expectation.words : Expectation → String
  | closeParen => "')'"
  | closeAfterLambda => "')' after lambda expression"
  | closeAfterParameters => "')' after parameters"
  | closeAfterArguments => "')' after arguments"
  | openAfterFn => "'(' after 'fn'"
  | parameter => "parameter name"
  | nextParameter => "parameter name after ','"
  | arrow => "'=>' after parameter list"

/-- Why an expression cannot go on with a token, or with the end of the text. -/
inductive SyntaxProblem where
  /-- No operand starts with the token. -/
  | unexpected
  /-- The numeral has more than one point. -/
  | invalidNumber
  /-- Something else has to come next. -/
  | expected (what : Expectation)
  /-- The expression has ended before the token. -/
  | trailing
deriving DecidableEq, Repr

/-- What a name is given to. The name itself must have the same form in all cases. -/
inductive NameRole where
  /-- A variable, in a binding. -/
  | aVariable
  /-- A function, in a definition. -/
  | aFunction
  /-- A parameter of a function that is defined. -/
  | aParameter
  /-- Something else, with the word for it. -/
  | other (what : String)
deriving DecidableEq, Repr

/-- The word for what a name is given to, which is set off in the message. -/
def NameRole.word : NameRole → String
  | aVariable => "variable"
  | aFunction => "function"
  | aParameter => "parameter"
  | other what => what

/-- The causes for which a statement is refused. Each has the data that its message shows, and
nothing more. -/
inductive Fault where
  /-- A character that starts no lexeme, at its position in the text. -/
  | badCharacter (text : String) (position : Nat) (character : Char)
  /-- A token, or the end of the text, with which an expression cannot go on. -/
  | badSyntax (problem : SyntaxProblem) (found : Option Token) (text : String)
  /-- A binding without an equals sign. -/
  | missingEquals (statement : String)
  /-- A definition without its parentheses or its equals sign. -/
  | malformedDefinition (statement : String)
  /-- Something that cannot be a name stands where a name has to stand. -/
  | invalidName (role : NameRole) (name statement : String)
  /-- A definition names two parameters alike. -/
  | duplicateParameter (name statement : String)
  /-- A name that is bound nowhere. -/
  | undefinedVariable (name : String)
  /-- A name that is called and bound to no function. -/
  | undefinedFunction (name : String)
  /-- A function among the operands of an operator. -/
  | functionOperand (op : Operator) (function : String)
  /-- A number that is called. -/
  | notAFunction (value : Float)
  /-- A division by zero. -/
  | divisionByZero (left right : Float)
  /-- A call with too many or too few arguments. A function without a name has none to show. -/
  | wrongArity (callee : Option String) (expected got : Nat)
  /-- An evaluation that nests deeper than its limit. -/
  | tooDeep (limit : DepthLimit)
  /-- An expression that nests deeper than can be handled. -/
  | tooNested
  /-- A file that cannot be read. -/
  | unreadable (path : String)
  /-- A path that no file can have. -/
  | impossiblePath
  /-- An evaluation under a limit that is no number. -/
  | incomparableLimit
deriving DecidableEq

namespace Fault

/-! ## Words and spans -/

/-- How a token is quoted in a message. The end of the text has words of its own, without quotes. -/
def quoteToken : Option Token → String
  | some t => "'" ++ t.lexeme.text ++ "'"
  | none => "end of input"

/-- The words for a token with which an expression cannot go on. The token is quoted as it is
written, a numeral with all its points. -/
def syntaxWords (problem : SyntaxProblem) (found : Option Token) : String :=
  match problem with
  | .unexpected => "unexpected token " ++ quoteToken found
  | .invalidNumber => "invalid number " ++ quoteToken found
  | .expected what => "expected " ++ what.words ++ ", got " ++ quoteToken found
  | .trailing => "unexpected trailing tokens starting at " ++ quoteToken found

/-- How a call without a name is shown. No function can have this name. -/
def anonymous : String := "<anonymous>"

/-- Where a name is searched for in its statement: at its first occurrence, be it a part of
another word. The empty name is nowhere. -/
def locate? (name statement : String) : Option Nat :=
  if name.isEmpty then none else Text.find? name.toList statement.toList

/-- The report of a fault. Those of tokens and of names that are found in their statement have a
span to point at. The others are about a whole text, which is not shown again, or about none. -/
def report : Fault → Report
  | badCharacter text position character =>
    .within ["'", .snippet text, "' contains unexpected character '",
      .snippet (String.singleton character), "'"] text position (position + 1)
  | badSyntax problem found text =>
    match found with
    | some t => .within [syntaxWords problem found] text t.position t.stop
    | none => .about [syntaxWords problem found] text
  | missingEquals statement =>
    .about ["'", .snippet statement, "' is missing '=': expected let NAME = EXPRESSION"] statement
  | malformedDefinition statement =>
    .about ["'", .snippet statement,
      "' is not a valid function definition: expected def NAME(PARAMS) = EXPRESSION"] statement
  | invalidName role name statement =>
    let message : Message := ["invalid ", .snippet role.word, " name '", .snippet name, "'"]
    match locate? name statement with
    | some start => .within message statement start (start + name.length)
    | none => ⟨message, statement, 0, name.length, false, false⟩
  | duplicateParameter name statement =>
    .about ["duplicate parameter '", .snippet name, "' in '", .snippet statement, "'"] name
  | undefinedVariable name =>
    .about ["undefined variable '", .snippet name, "'"] name
  | undefinedFunction name =>
    .about ["undefined function or closure '", .snippet name, "'"] name
  | functionOperand op function =>
    let symbol := String.singleton op.symbol
    .about ["cannot apply '", .snippet symbol, "' to function value ", .snippet function] symbol
  | notAFunction value =>
    let shown := Number.display value
    .about ["expected a function, got '", .snippet shown, "'"] shown
  | divisionByZero left right =>
    let shown := Number.display left ++ " / " ++ Number.display right
    .about ["division by zero in '", .snippet shown, "'"] shown
  | wrongArity callee expected got =>
    let name := callee.getD anonymous
    .about ["'", .snippet name, "' expects ", .snippet (toString expected), " argument(s), got ",
      .snippet (toString got)] name
  | tooDeep limit =>
    .about ["maximum evaluation depth of ", .snippet limit.text, " exceeded"] limit.text
  | tooNested => .about ["maximum nesting depth exceeded"] ""
  | unreadable path => .about ["'", .snippet path, "' could not be opened"] path
  | impossiblePath => .internal "ValueError" "embedded null byte"
  | incomparableLimit =>
    .internal "TypeError" "'>=' not supported between instances of 'int' and 'list'"

/-- The words of a fault, without emphasis. -/
def message (f : Fault) : String := f.report.message.plain

end Fault

end Abacus
