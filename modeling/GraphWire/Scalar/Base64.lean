/-!
# `GraphWire.Scalar.Base64` — bytes as text

Three bytes are written as four symbols of six bits each; one or two bytes at the end are filled up
with padding. Only the canonical form is read: full padding, and no bits set that stand for nothing.

## Contents
- **Symbols.** `Base64.symbol` and `Base64.sextet?`.
- **`Base64.encode`**.
- **`Base64.decode`** with its faults; the blocks before the last hold symbols only, the last one
  may hold padding.
-/

namespace GraphWire

namespace Base64

/-! ## Symbols -/

/-- The sixty-four symbols in the order of their values. -/
def alphabet : List Char :=
  "ABCDEFGHIJKLMNOPQRSTUVWXYZabcdefghijklmnopqrstuvwxyz0123456789+/".toList

/-- The symbol of a value below sixty-four. -/
def symbol (sextet : Nat) : Char := alphabet.getD sextet 'A'

def padding : UInt8 := 61

/-- The value of a symbol, given as a byte. -/
def sextet? (b : UInt8) : Option Nat :=
  let n := b.toNat
  if 65 ≤ n ∧ n ≤ 90 then some (n - 65)
  else if 97 ≤ n ∧ n ≤ 122 then some (n - 71)
  else if 48 ≤ n ∧ n ≤ 57 then some (n + 4)
  else if n = 43 then some 62
  else if n = 47 then some 63
  else none

/-! ## Encoding -/

/-- The symbols of the bytes. -/
def encodeBytes : List UInt8 → List Char
  | a :: b :: c :: rest =>
    let n := a.toNat * 65536 + b.toNat * 256 + c.toNat
    symbol (n / 262144) :: symbol (n / 4096 % 64) :: symbol (n / 64 % 64) :: symbol (n % 64)
      :: encodeBytes rest
  | [a, b] =>
    let n := a.toNat * 1024 + b.toNat * 4
    [symbol (n / 4096), symbol (n / 64 % 64), symbol (n % 64), '=']
  | [a] =>
    let n := a.toNat * 16
    [symbol (n / 64), symbol (n % 64), '=', '=']
  | [] => []

def encode (bytes : List UInt8) : String := String.ofList (encodeBytes bytes)

/-! ## Decoding -/

/-- Why bytes are not the encoding of anything. -/
inductive Fault where
  | invalidSymbol (symbol : UInt8) (offset : Nat)
  | invalidLength (length : Nat)
  | invalidLastSymbol (symbol : UInt8) (offset : Nat)
  | invalidPadding
  deriving DecidableEq

def Fault.message : Fault → String
  | invalidSymbol symbol offset => s!"Invalid symbol {symbol.toNat}, offset {offset}."
  | invalidLength length => s!"Invalid input length: {length}"
  | invalidLastSymbol symbol offset => s!"Invalid last symbol {symbol.toNat}, offset {offset}."
  | invalidPadding => "Invalid padding"

/-- The values of symbols, the first of which has the given offset. -/
def sextets (offset : Nat) : List UInt8 → Except Fault (List Nat)
  | [] => .ok []
  | b :: rest =>
    match sextet? b with
    | none => .error (.invalidSymbol b offset)
    | some n => (sextets (offset + 1) rest).map (n :: ·)

/-- The last block: symbols, then padding. It has four characters unless the text is cut short. -/
structure Tail where
  symbols : List UInt8
  padding : Nat

/-- Parts the last block, which has the given offset. Padding stands in the last two places only,
    and nothing but padding follows it. -/
def splitTail (offset : Nat) (bytes : List UInt8) : Except Fault Tail :=
  let symbols := bytes.takeWhile (· != padding)
  let rest := bytes.dropWhile (· != padding)
  match sextets offset symbols with
  | .error fault => .error fault
  | .ok _ =>
    if !rest.isEmpty && (symbols.length < 2 || rest.any (· != padding)) then
      .error (.invalidSymbol padding (offset + symbols.length))
    else .ok ⟨symbols, rest.length⟩

/-- The bits of the last symbol that no byte uses. -/
def spareBits (sextets : List Nat) : Nat :=
  match sextets with
  | [_, b] => b % 16
  | [_, _, c] => c % 4
  | _ => 0

/-- The values of the symbols of the last block, which has the given offset. -/
def decodeTail (offset : Nat) (bytes : List UInt8) : Except Fault (List Nat) := do
  let tail ← splitTail offset bytes
  let values ← sextets offset tail.symbols
  let count := tail.symbols.length
  if count < 2 then .error (.invalidLength (offset + count))
  else if (count + tail.padding) % 4 ≠ 0 then .error .invalidPadding
  else if spareBits values ≠ 0 then
    .error (.invalidLastSymbol (tail.symbols.getLastD 0) (offset + count - 1))
  else .ok values

/-- The bytes whose bits the values are. -/
def pack : List Nat → List UInt8
  | a :: b :: c :: d :: rest =>
    let n := a * 262144 + b * 4096 + c * 64 + d
    .ofNat (n / 65536) :: .ofNat (n / 256 % 256) :: .ofNat (n % 256) :: pack rest
  | [a, b, c] =>
    let n := a * 1024 + b * 16 + c / 4
    [.ofNat (n / 256), .ofNat (n % 256)]
  | [a, b] => [.ofNat (a * 4 + b / 16)]
  | _ => []

/-- A single byte behind the last full block that is neither symbol nor padding, such as the end of
    a line: it is reported before anything else. -/
def stray? (bytes : List UInt8) : Option Fault :=
  match bytes.getLast? with
  | some b =>
    if bytes.length % 4 = 1 ∧ b ≠ padding ∧ sextet? b = none then
      some (.invalidSymbol b (bytes.length - 1))
    else none
  | none => none

/-- How many bytes stand before the last block. -/
def headLength (length : Nat) : Nat := (length - 1) / 4 * 4

/-- The bytes that a text, given as bytes itself, is the encoding of. -/
def decode (bytes : List UInt8) : Except Fault (List UInt8) :=
  if bytes.isEmpty then .ok []
  else
    match stray? bytes with
    | some fault => .error fault
    | none => do
      let cut := headLength bytes.length
      let head ← sextets 0 (bytes.take cut)
      let tail ← decodeTail cut (bytes.drop cut)
      return pack (head ++ tail)

end Base64

end GraphWire
