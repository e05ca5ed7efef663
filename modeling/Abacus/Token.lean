import Abacus.Number.Operator

/-!
# Tokens

The lexemes that a text of the calculator is made of, and the names among them.

## Main definitions

* `Abacus.Keyword` — the three reserved words.
* `Abacus.Lexeme` — the kinds of lexeme, with `Lexeme.chars`, how each is written.
* `Abacus.Token` — a lexeme and where it stands.
* `Abacus.Item` — a token, or the end of the text.
* `Abacus.isName` — the texts that can name a variable, a function or a parameter.
-/

namespace Abacus

/-- The reserved words. They have the form of a name but can name nothing. -/
inductive Keyword where
  /-- Opens the binding of a variable. -/
  | letWord
  /-- Opens the definition of a function. -/
  | defWord
  /-- Opens a lambda. -/
  | fnWord
deriving DecidableEq, Repr

namespace Keyword

/-- How a reserved word is written. -/
def text : Keyword → String
  | letWord => "let"
  | defWord => "def"
  | fnWord => "fn"

/-- The reserved word that a text is. The case of the letters counts: `Let` is a name. -/
def ofText? (s : String) : Option Keyword :=
  if s = "let" then some letWord
  else if s = "def" then some defWord
  else if s = "fn" then some fnWord
  else none

/-- A reserved word is recognised as it is written. -/
@[simp]
theorem ofText?_text (k : Keyword) : ofText? k.text = some k := by
  cases k <;> decide

end Keyword

/-- The lexemes. Numerals are kept as they are written, since a numeral with two points is a
lexeme that only the parser refuses. -/
inductive Lexeme where
  /-- A digit and all digits and points that follow it. -/
  | number (numeral : String)
  /-- A word that is not reserved. -/
  | identifier (name : String)
  /-- A reserved word. -/
  | keyword (word : Keyword)
  /-- One of the five operators. -/
  | operator (op : Operator)
  /-- An opening parenthesis. -/
  | openParen
  /-- A closing parenthesis. -/
  | closeParen
  /-- A comma, between parameters or arguments. -/
  | comma
  /-- An equals sign. Statements have one, and no expression does. -/
  | equals
  /-- The arrow of a lambda. -/
  | arrow
deriving DecidableEq, Repr

namespace Lexeme

/-- The characters of a lexeme, as they stand in the text. -/
def chars : Lexeme → List Char
  | number numeral => numeral.toList
  | identifier name => name.toList
  | keyword word => word.text.toList
  | operator op => [op.symbol]
  | openParen => ['(']
  | closeParen => [')']
  | comma => [',']
  | equals => ['=']
  | arrow => ['=', '>']

/-- The text of a lexeme, which a message about it quotes. -/
def text (l : Lexeme) : String := String.ofList l.chars

end Lexeme

/-- A lexeme with the position of its first character in the text. Positions count characters from
zero. -/
structure Token where
  /-- What stands there. -/
  lexeme : Lexeme
  /-- Where it starts. -/
  position : Nat
deriving DecidableEq, Repr

/-- The position after the last character of a token, where the next token starts at the
earliest. -/
def Token.stop (t : Token) : Nat := t.position + t.lexeme.chars.length

/-- What a scan finds at a position of a text: a lexeme, or the end of the text. Every text has
one item more than it has tokens. -/
structure Item where
  /-- The lexeme, or nothing at the end of the text. -/
  lexeme : Option Lexeme
  /-- Where it starts, which is the length of the text for its end. -/
  position : Nat
deriving DecidableEq, Repr

/-- A token as one of the items of a text, at the same place. -/
def Token.item (t : Token) : Item := ⟨some t.lexeme, t.position⟩

namespace Item

/-- The end of a text of the given length, as an item behind its last character. -/
def ending (length : Nat) : Item := ⟨none, length⟩

/-- The characters of an item. The end of a text has none. -/
def chars (i : Item) : List Char := (i.lexeme.map Lexeme.chars).getD []

/-- The text of an item, which is empty for the end of a text. -/
def text (i : Item) : String := String.ofList i.chars

/-- The position after the last character of an item. For the end of a text it is the position of
the item itself. -/
def stop (i : Item) : Nat := i.position + i.chars.length

end Item

/-! ## Character classes -/

/-- The characters that a name can start with: ASCII letters and the underscore. Letters of other
alphabets start no lexeme at all. -/
def isNameStart (c : Char) : Bool := c.isAlpha || c == '_'

/-- The characters that a name can go on with: also ASCII digits. -/
def isNameChar (c : Char) : Bool := c.isAlphanum || c == '_'

/-- The characters that a numeral can go on with, after the digit that it starts with. There may
be any number of points among them. -/
def isNumeralChar (c : Char) : Bool := c.isDigit || c == '.'

/-- The identifier or reserved word that a run of name characters is. Only a whole run can be
reserved: `letter` is an identifier. -/
def Lexeme.ofWord (word : String) : Lexeme :=
  match Keyword.ofText? word with
  | some k => .keyword k
  | none => .identifier word

/-- Whether a text has the form of a word: it starts like a name and goes on like one. Reserved
words have this form too. -/
def isWordText : List Char → Bool
  | [] => false
  | c :: cs => isNameStart c && cs.all isNameChar

/-- Whether a text can be a name of a variable, a function or a parameter: a word that is not
reserved. -/
def isName (cs : List Char) : Bool :=
  isWordText cs && (Keyword.ofText? (String.ofList cs)).isNone

/-- A character that starts a name can also stand inside it. -/
theorem isNameChar_of_isNameStart {c : Char} (h : isNameStart c = true) : isNameChar c = true := by
  simp only [isNameStart, Bool.or_eq_true] at h
  rcases h with h | h <;> simp [isNameChar, Char.isAlphanum, h]

end Abacus
