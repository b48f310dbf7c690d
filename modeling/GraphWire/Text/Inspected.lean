import GraphWire.Text.Unprintable
import GraphWire.Text.Extending

/-!
# `GraphWire.Text.Inspected` — texts and characters as diagnostics show them

In a message a text stands between double quotes and a character between single quotes, with
escapes for the quote, the backslash, the common controls, and every character that would not show.

## Contents
- **`escaped`**, the spelling of one character under a given quote.
- **`inspectText`** and **`inspectChar`**.
-/

namespace GraphWire

/-- The lower-case hexadecimal digits of a number. -/
def hexDigits (n : Nat) : String := String.ofList (Nat.toDigits 16 n)

/-- The character as it stands between two quotes of the given kind. -/
def escaped (quote c : Char) : String :=
  if c = '\x00' then "\\0"
  else if c = '\t' then "\\t"
  else if c = '\n' then "\\n"
  else if c = '\x0d' then "\\r"
  else if c = '\\' then "\\\\"
  else if c = quote then String.ofList ['\\', quote]
  else if isExtending c || isUnprintable c then
    "\\u\x7b" ++ hexDigits c.toNat ++ "\x7d"
  else String.singleton c

/-- The text between double quotes. -/
def inspectText (s : String) : String :=
  "\"" ++ String.join (s.toList.map (escaped '"')) ++ "\""

/-- The character between single quotes. -/
def inspectChar (c : Char) : String :=
  "'" ++ escaped '\'' c ++ "'"

end GraphWire
