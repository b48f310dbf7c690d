import GraphWire.Number.Shortest

/-!
# `GraphWire.Value` — what a field holds

A value is a text or a number, or a list of one of the two. Lists are kinds of their own: a list of
one text is not that text.

## Contents
- **`Value`**, its kinds and accessors.
- **`Value.same`**, equality of values with numbers compared as numbers.
- **Written form.** `quoted`, `Value.written`, and `Value.unquotable?`, the first text that has no
  written form.
-/

namespace GraphWire

inductive Value where
  | text (s : String)
  | number (n : Number)
  | texts (items : List String)
  | numbers (items : List Number)
  deriving DecidableEq

instance : Inhabited Value := ⟨.text ""⟩

/-- The four kinds of values. -/
inductive ValueKind where
  | text
  | number
  | texts
  | numbers
  deriving DecidableEq

/-- The kind's name in messages. -/
def ValueKind.name : ValueKind → String
  | text => "string"
  | number => "number"
  | texts => "string list"
  | numbers => "number list"

/-- A text between single quotes. Only the quote itself is escaped. -/
def quoted (s : String) : String :=
  String.ofList ('\'' :: (s.toList.flatMap fun c => if c = '\'' then ['\\', c] else [c]) ++ ['\''])

namespace Value

def kind : Value → ValueKind
  | text _ => .text
  | number _ => .number
  | texts _ => .texts
  | numbers _ => .numbers

def asText? : Value → Option String
  | text s => some s
  | _ => none

def asNumber? : Value → Option Number
  | number n => some n
  | _ => none

def isList : Value → Bool
  | texts _ | numbers _ => true
  | _ => false

/-- Lists without items have no written form and are never stored. -/
def isEmptyList : Value → Bool
  | texts [] | numbers [] => true
  | _ => false

/-- Equality of values: texts by their characters, numbers as numbers, lists item by item. -/
def same : Value → Value → Bool
  | text a, text b => a == b
  | number a, number b => a.equal b
  | texts a, texts b => a == b
  | numbers a, numbers b => a.length == b.length && (a.zip b).all fun (x, y) => x.equal y
  | _, _ => false

/-- Whether the quoted form of the text ends where it should: behind a final backslash the closing
    quote would be read as an escaped one. -/
def isUnquotable (s : String) : Bool := s.toList.getLast? == some '\\'

/-- The first text in the value that has no written form. -/
def unquotable? : Value → Option String
  | text s => if isUnquotable s then some s else none
  | texts items => items.find? isUnquotable
  | _ => none

/-- The items between brackets. -/
def bracketed (items : List String) : String :=
  "[" ++ ", ".intercalate items ++ "]"

/-- The value as it stands on the right of an assignment. -/
def written : Value → String
  | text s => quoted s
  | number n => n.text
  | texts items => bracketed (items.map quoted)
  | numbers items => bracketed (items.map Number.text)

end Value

end GraphWire
