import Abacus.Expr.Chain
import Abacus.Fault
import Abacus.Limits
import Abacus.Token.Scan

/-!
# Reading an expression

Expressions are read from lexemes by the grammar

```
expression ::= operand (operator operand)*
operand    ::= number
             | "fn" "(" parameters? ")" "=>" expression
             | name ("(" arguments? ")")?
             | "(" lambda ")" ("(" arguments? ")")?
             | "(" expression ")"
parameters ::= name ("," name)*
arguments  ::= expression ("," expression)*
```

where a chain of operators groups by precedence, and operators of one precedence to the left. A
lambda takes in everything that follows it. A reader of the expressions one level further inside is
an argument of all other readers, so that the depth of nesting is the only recursion between them.

## Main definitions

* `Abacus.Reader` — readers of a value from the front of a sequence of lexemes.
* `Abacus.Reader.expression` — reads an expression that nests less deeply than a given number.
* `Abacus.tokensOf` — the tokens of a text.
* `Abacus.itemsOf` — the tokens of a text and its end.
* `Abacus.Expr.ofTokens`, `Abacus.Expr.parse` — the expression that tokens or a text form.
-/

namespace Abacus

/-- Why reading stops. -/
inductive Stuck where
  /-- Reading cannot go on with these lexemes. They reach to the end of the text, and the first of
  them is the one to blame. -/
  | on (problem : SyntaxProblem) (rest : List Lexeme)
  /-- The expression nests too deeply, whatever its lexemes are. -/
  | tooNested
deriving DecidableEq, Repr

/-- The fault of tokens that form no expression. The lexemes that reading could not go on with are
the last ones, so their number gives the place of the first of them. If there are none, the end of
the text is to blame. -/
def Stuck.fault (tokens : List Token) (text : String) : Stuck → Fault
  | .on problem rest => .badSyntax problem tokens[tokens.length - rest.length]? text
  | .tooNested => .tooNested

/-- Readers of a value from the front of a sequence of lexemes. They return the lexemes that
follow, and never look at a lexeme twice: which rule applies shows in the next one or two of
them. -/
abbrev Reader (α : Type) := List Lexeme → Except Stuck (α × List Lexeme)

namespace Reader

/-! ## Readers -/

/-- Reads the one lexeme that fits here. `what` names the lexeme in the message that blames
another one. -/
def expect (wanted : Lexeme) (what : Expectation) : Reader Unit
  | [] => .error (.on (.expected what) [])
  | l :: ls => if l = wanted then .ok ((), ls) else .error (.on (.expected what) (l :: ls))

/-- Reads the parameters that follow the first one, and the closing parenthesis. A comma must have
a parameter behind it. -/
def moreParams : Reader (List String)
  | .comma :: .identifier p :: ls => (moreParams ls).map fun (ps, rest) => (p :: ps, rest)
  | .comma :: ls => .error (.on (.expected .nextParameter) ls)
  | .closeParen :: ls => .ok ([], ls)
  | ls => .error (.on (.expected .closeAfterParameters) ls)

/-- Reads parameters up to the closing parenthesis. There may be none. -/
def params : Reader (List String)
  | .closeParen :: ls => .ok ([], ls)
  | .identifier p :: ls => (moreParams ls).map fun (ps, rest) => (p :: ps, rest)
  | ls => .error (.on (.expected .parameter) ls)

/-- Reads a lambda behind its first word. Its body is a whole expression of the next level, so it
takes in all operators that follow. -/
def lambda (inner : Reader Expr) : Reader Expr := fun ls => do
  let ((), ls) ← expect .openParen .openAfterFn ls
  let (ps, ls) ← params ls
  let ((), ls) ← expect .arrow .arrow ls
  let (body, ls) ← inner ls
  return (.lambda ps body, ls)

/-- Reads the arguments that follow the first one. Each takes at least one lexeme, so the number of
lexemes bounds the number of arguments. -/
def moreArgs (inner : Reader Expr) : Nat → Reader (List Expr)
  | n + 1, .comma :: ls => do
    let (arg, ls) ← inner ls
    let (args, ls) ← moreArgs inner n ls
    return (arg :: args, ls)
  | _, .closeParen :: ls => .ok ([], ls)
  | _, ls => .error (.on (.expected .closeAfterArguments) ls)

/-- Reads arguments up to the closing parenthesis. There may be none. The opening parenthesis has
been read already. -/
def args (inner : Reader Expr) : Reader (List Expr)
  | .closeParen :: ls => .ok ([], ls)
  | ls => do
    let (arg, ls) ← inner ls
    let (args, ls) ← moreArgs inner ls.length ls
    return (arg :: args, ls)

/-- Reads what stands between operators: one of the five forms of the grammar. A name with a
parenthesis behind it is a call, and a lambda in parentheses can be called at its place. Another
expression in parentheses cannot: in `(f)(1)` the second parenthesis is left over. -/
def operand (inner : Reader Expr) : Reader Expr
  | .number numeral :: ls =>
    match Number.literal? numeral.toList with
    | some value => .ok (.number value, ls)
    | none => .error (.on .invalidNumber (.number numeral :: ls))
  | .keyword .fnWord :: ls => lambda inner ls
  | .identifier name :: .openParen :: ls => do
    let (arguments, ls) ← args inner ls
    return (.call name arguments, ls)
  | .identifier name :: ls => .ok (.var name, ls)
  | .openParen :: .keyword .fnWord :: ls => do
    let (function, ls) ← lambda inner ls
    let ((), ls) ← expect .closeParen .closeAfterLambda ls
    match ls with
    | .openParen :: ls =>
      let (arguments, ls) ← args inner ls
      return (.invoke function arguments, ls)
    | _ => return (function, ls)
  | .openParen :: ls => do
    let (e, ls) ← inner ls
    let ((), ls) ← expect .closeParen .closeParen ls
    return (e, ls)
  | ls => .error (.on .unexpected ls)

/-- Reads the operators that follow an operand, with their right operands. Each takes at least one
lexeme, so the number of lexemes bounds the length of the chain. -/
def chain (inner : Reader Expr) : Nat → Reader (List (Operator × Expr))
  | n + 1, .operator op :: ls => do
    let (e, ls) ← operand inner ls
    let (rest, ls) ← chain inner n ls
    return ((op, e) :: rest, ls)
  | _, ls => .ok ([], ls)

/-- Reads an expression that nests less deeply than the given number. The number goes down by one
for each parenthesis, call or lambda around a part, and not along a chain of operators. -/
def expression : Nat → Reader Expr
  | 0, _ => .error .tooNested
  | n + 1, ls => do
    let (first, ls) ← operand (expression n) ls
    let (rest, ls) ← chain (expression n) ls.length ls
    return (first.assemble rest, ls)

end Reader

/-- The tokens of a text, or the fault of the first character that starts no lexeme. The end of
the text is not among them. -/
def tokensOf (text : String) : Except Fault (List Token) :=
  (scan text).mapError fun i => .badCharacter text i (text.toList.getD i ' ')

/-- The tokens of a text and, behind them, its end, or the fault of the first character that
starts no lexeme. -/
def itemsOf (text : String) : Except Fault (List Item) :=
  (tokensOf text).map fun tokens => tokens.map Token.item ++ [.ending text.length]

namespace Expr

/-! ## Expressions of tokens and texts -/

/-- The expression that a whole sequence of lexemes forms. Lexemes that are left over behind an
expression are blamed as such. -/
def ofLexemes (nesting : Nat) (ls : List Lexeme) : Except Stuck Expr := do
  let (e, rest) ← Reader.expression nesting ls
  match rest with
  | [] => return e
  | rest => .error (.on .trailing rest)

/-- The expression that the tokens of a text form. The text itself is only used to point at the
token that is to blame. -/
def ofTokens (limits : Limits) (tokens : List Token) (text : String) : Except Fault Expr :=
  (ofLexemes limits.nesting (tokens.map (·.lexeme))).mapError fun stuck => stuck.fault tokens text

/-- The expression that a text forms. The whole text is split into tokens first, so a bad
character is reported before any fault of the grammar, wherever it stands. -/
def parse (limits : Limits) (text : String) : Except Fault Expr := do
  let tokens ← tokensOf text
  ofTokens limits tokens text

end Expr

end Abacus
