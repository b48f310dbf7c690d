import GraphWire.Text.Inspected
import GraphWire.Value

/-!
# `GraphWire.Syntax.Token` — tokens, their places, and syntax errors

## Contents
- **`Position`**, a line and a column, both counted from one, and the position behind a text.
- **`Token`** and `Token.describe`, its description in messages.
- **`SyntaxError`**, the place of the fault, what the format needs there, and what stands there.
-/

namespace GraphWire

/-- A place in a text: line and column, counted in characters from one. -/
structure Position where
  line : Nat
  column : Nat
  deriving DecidableEq

namespace Position

def start : Position := ⟨1, 1⟩

/-- The place behind one more character. -/
def step (p : Position) (c : Char) : Position :=
  if c = '\n' then ⟨p.line + 1, 1⟩ else ⟨p.line, p.column + 1⟩

/-- The place behind a piece of text. -/
def after (p : Position) (cs : List Char) : Position := cs.foldl step p

theorem after_append (p : Position) (cs ds : List Char) : p.after (cs ++ ds) = (p.after cs).after ds :=
  List.foldl_append

end Position

inductive Token where
  | name (s : String)
  | text (s : String)
  | number (n : Number)
  | dot
  | arrow
  | semicolon
  | comma
  | leftBracket
  | rightBracket
  deriving DecidableEq

def Token.describe : Token → String
  | name s => "identifier " ++ inspectText s
  | text s => "string " ++ quoted s
  | number n => "number " ++ n.text
  | dot => "'.'"
  | arrow => "'<-'"
  | semicolon => "';'"
  | comma => "','"
  | leftBracket => "'['"
  | rightBracket => "']'"

/-- A token with the place of its first character. -/
structure Located where
  token : Token
  position : Position
  deriving DecidableEq

/-- What the format needs at a place. -/
inductive Expectation where
  | arrowEnd
  | digits
  | exponentDigits
  | finiteNumber
  | closingQuote
  | token
  | assignment
  | objectName
  | fieldName
  | mark (t : Token)
  | value
  | listItem
  | textItem
  | numberItem
  deriving DecidableEq

def Expectation.describe : Expectation → String
  | arrowEnd => "'-' after '<'"
  | digits => "digits"
  | exponentDigits => "exponent digits"
  | finiteNumber => "a finite number"
  | closingQuote => "closing quote"
  | token => "a token"
  | assignment => "an assignment"
  | objectName => "object name"
  | fieldName => "field name"
  | mark t => t.describe
  | value => "a string, number or list"
  | listItem => "a list element"
  | textItem => "a string list element"
  | numberItem => "a number list element"

/-- What stands at a place instead. -/
inductive Found where
  | endOfInput
  | character (c : Char)
  | spelling (cs : List Char)
  | token (t : Token)
  deriving DecidableEq

/-- The character that a text begins with, or its end. -/
def Found.first : List Char → Found
  | [] => .endOfInput
  | c :: _ => .character c

def Found.describe : Found → String
  | endOfInput => "end of input"
  | character c => inspectChar c
  | spelling cs => String.ofList cs
  | token t => t.describe

structure SyntaxError where
  position : Position
  expected : Expectation
  found : Found
  deriving DecidableEq

def SyntaxError.message (e : SyntaxError) : String :=
  s!"parse error at {e.position.line}:{e.position.column}: expected {e.expected.describe}, " ++
    s!"found {e.found.describe}"

end GraphWire
