/-!
# `GraphWire.Text.Blank` — white space

The characters with the property *White_Space*, and the cutting of texts at them. Bytes of a
stream are blank only if they are one of five ASCII characters.

## Contents
- **`isBlank`** and **`isBlankByte`**.
- **`trimEnd`**, a text without the white space at its end.
-/

namespace GraphWire

/-- Whether the character is white space. -/
def isBlank (c : Char) : Bool :=
  let n := c.toNat
  (9 ≤ n && n ≤ 13) || n == 0x20 || n == 0x85 || n == 0xA0 || n == 0x1680
    || (0x2000 ≤ n && n ≤ 0x200A) || n == 0x2028 || n == 0x2029 || n == 0x202F
    || n == 0x205F || n == 0x3000

/-- Whether the byte is a space, a tab, a line feed, a form feed or a carriage return. -/
def isBlankByte (b : UInt8) : Bool :=
  b == 32 || b == 9 || b == 10 || b == 12 || b == 13

/-- The text without the white space at its end. -/
def trimEnd (cs : List Char) : List Char :=
  (cs.reverse.dropWhile isBlank).reverse

end GraphWire
