import GraphWire.Config.Error
import GraphWire.Config.Reference
import GraphWire.Schema.Basic

/-!
# `GraphWire.Schema.Error` — what can go wrong with typed objects

## Contents
- **`ValueFault`**, a stored value that does not have the declared shape, or a value that cannot be
  stored; `ValueFault.expected` and `ValueFault.found` word the two halves of its message.
- **`TypedError`** and its `message`.
- **`ScalarType.convert`**, a value read as of a type.
-/

namespace GraphWire

inductive ValueFault where
  | scalar (fault : ScalarFault)
  /-- Something else stands where a reference to an object with the tag should. -/
  | notReference (tag : String) (found : Resolved)
  | notList (found : Resolved)
  /-- A list cannot be an item of a list. -/
  | nestedItem (item : Value)
  | mixedItems
  | notKeys (found : ValueKind)
  | lengthMismatch (keys values : Nat)
  deriving DecidableEq

namespace ValueFault

/-- A list value in the form of listings for inspection. -/
def inspectItem : Value → String
  | .texts items => "Value(StrList([" ++ ", ".intercalate (items.map inspectText) ++ "]))"
  | .numbers items => "Value(NumList([" ++ ", ".intercalate (items.map Number.scientific) ++ "]))"
  | .text s => "Value(Str(" ++ inspectText s ++ "))"
  | .number n => "Value(Num(" ++ n.scientific ++ "))"

def expected : ValueFault → String
  | scalar fault => fault.expected
  | notReference tag _ => "reference to a " ++ tag ++ " object"
  | notList _ => "a list"
  | nestedItem _ => "a scalar or object element"
  | mixedItems => "elements of one kind"
  | notKeys _ => "a list of keys"
  | lengthMismatch keys _ => s!"{keys} values"

def found : ValueFault → String
  | scalar fault => fault.found
  | notReference _ r => r.describe
  | notList r => r.describe
  | nestedItem item => inspectItem item
  | mixedItems => "mixed elements"
  | notKeys kind => kind.name
  | lengthMismatch _ values => s!"{values} values"

end ValueFault

inductive TypedError where
  | config (e : ConfigError)
  | missingTypeTag (object : String)
  | unknownType (tag : String)
  | typeMismatch (expected actual : String)
  | duplicateTag (tag : String)
  | unknownField (schema field : String)
  | invalidValue (fault : ValueFault)
  deriving DecidableEq

def TypedError.message : TypedError → String
  | config e => e.message
  | missingTypeTag object => "object " ++ object ++ " has no type tag"
  | unknownType tag => "unknown type tag: " ++ tag
  | typeMismatch expected actual =>
    "type mismatch: expected " ++ expected ++ ", found " ++ actual
  | duplicateTag tag => "type tag registered twice: " ++ tag
  | unknownField schema field => "schema " ++ schema ++ " has no field " ++ field
  | invalidValue fault =>
    "invalid value: expected " ++ fault.expected ++ ", found " ++ fault.found

/-- Reads a value as of the type; what does not fit is an invalid value. -/
def ScalarType.convert (t : ScalarType) (v : Value) : Except TypedError t.Carrier :=
  match t.read v with
  | .ok x => .ok x
  | .error fault => .error (.invalidValue (.scalar fault))

end GraphWire
