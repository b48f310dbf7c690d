import GraphWire.Number.Decimal
import GraphWire.Scalar.Integer

/-!
# `GraphWire.Scalar.Address` — network addresses

An address is written `host:port`. The last colon separates the two, so a host may hold colons of
its own; it must not be empty.

## Contents
- **`Address`**, `Address.text` and `Address.ofText?`.
-/

namespace GraphWire

structure Address where
  host : String
  port : Ranged .u16
  deriving DecidableEq

namespace Address

/-- The text around the last colon. -/
def splitLastColon? (cs : List Char) : Option (List Char × List Char) :=
  match cs.reverse.dropWhile (· != ':') with
  | [] => none
  | _ :: before => some (before.reverse, (cs.reverse.takeWhile (· != ':')).reverse)

/-- A port: digits, perhaps behind a plus sign. -/
def portOfText? (cs : List Char) : Option (Ranged .u16) :=
  let digits := match cs with
    | '+' :: rest => rest
    | _ => cs
  if digits.isEmpty || !digits.all Char.isDigit then none
  else Ranged.ofInt? .u16 (natOfDigits digits)

def ofText? (s : String) : Option Address := do
  let (host, port) ← splitLastColon? s.toList
  if host.isEmpty then none
  else return ⟨String.ofList host, ← portOfText? port⟩

def text (a : Address) : String :=
  a.host ++ ":" ++ String.ofList (digitsOfNat a.port.val.toNat)

end Address

end GraphWire
