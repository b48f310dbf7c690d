import GraphWire.Scalar.Address
import GraphWire.Scalar.Base64
import GraphWire.Text.Inspected
import GraphWire.Value

/-!
# `GraphWire.Scalar.Basic` — what one value can stand for

A scalar type says how a single stored value is read: as a text, a number, a truth value, an integer
of a range, an address, bytes, or as it is.

## Contents
- **`ScalarType`** and `ScalarType.Carrier`, what it is read as.
- **`ScalarFault`**, a value that the type does not admit.
- **`ScalarType.read`** and **`ScalarType.store`**.
-/

namespace GraphWire

inductive ScalarType where
  | text
  | number
  | boolean
  | integer (t : IntegerType)
  | value
  | address
  | base64
  deriving DecidableEq

/-- What values of the type are read as. -/
abbrev ScalarType.Carrier : ScalarType → Type
  | text => String
  | number => Number
  | boolean => Bool
  | integer t => Ranged t
  | value => Value
  | address => Address
  | base64 => List UInt8

/-- Why a value is none of the type. -/
inductive ScalarFault where
  /-- The value is of another kind, or a number that is no such integer. -/
  | mismatch (t : ScalarType) (found : Value)
  | badAddress (text : String)
  | badBase64 (fault : Base64.Fault)
  deriving DecidableEq

namespace ScalarFault

/-- What the type admits, in messages. -/
def expectedOf : ScalarType → String
  | .text => "string"
  | .number => "number"
  | .boolean => "number (boolean)"
  | .integer t => "integer (" ++ t.name ++ ")"
  | .value => "value"
  | .address => "address host:port"
  | .base64 => "base64 string"

def expected : ScalarFault → String
  | mismatch t _ => expectedOf t
  | badAddress _ => expectedOf .address
  | badBase64 _ => expectedOf .base64

def found : ScalarFault → String
  | mismatch _ v => v.kind.name ++ " " ++ v.written
  | badAddress text => inspectText text
  | badBase64 fault => fault.message

end ScalarFault

namespace ScalarType

/-- Reads a value. Any number but zero is true. -/
def read : (t : ScalarType) → Value → Except ScalarFault t.Carrier
  | text, .text s => .ok s
  | number, .number n => .ok n
  | boolean, .number n => .ok !n.isZero
  | integer t, .number n =>
    match Ranged.ofNumber? t n with
    | some k => .ok k
    | none => .error (.mismatch (integer t) (.number n))
  | value, v => .ok v
  | address, .text s =>
    match Address.ofText? s with
    | some a => .ok a
    | none => .error (.badAddress s)
  | base64, .text s =>
    match Base64.decode s.toUTF8.data.toList with
    | .ok bytes => .ok bytes
    | .error fault => .error (.badBase64 fault)
  | t, v => .error (.mismatch t v)

/-- The value that is stored. -/
def store : (t : ScalarType) → t.Carrier → Value
  | text, s => .text s
  | number, n => .number n
  | boolean, b => .number (if b then .one else .zero)
  | integer _, k => .number k.toNumber
  | value, v => v
  | address, a => .text a.text
  | base64, bytes => .text (Base64.encode bytes)

end ScalarType

end GraphWire
