import GraphWire.Config.Error
import GraphWire.Object

/-!
# `GraphWire.Config.Reference` — fields that name other objects

A text that is the name of an object stands for that object, except in the field `type`. Whether it
does is decided when the field is read, so a reference may be written before its object is there.
The items of a list of texts are resolved one by one.

## Contents
- **`Resolved`**, a field as it is read, and `Resolved.stored`, the value behind it.
- **`Config.resolve`** and **`Config.resolveItem`**.
- **Access.** `Config.raw?`, `Config.resolved?` and `Config.required` read a field of an object,
  `Config.resolvedFields` all of them, and `Config.item?` an item of a sequence.
-/

namespace GraphWire

/-- A field as it is read. -/
inductive Resolved where
  | object (name : String)
  | sequence (names : List String)
  | text (s : String)
  | number (n : Number)
  | numbers (items : List Number)
  deriving DecidableEq

namespace Resolved

/-- The stored value. -/
def stored : Resolved → Value
  | object name => .text name
  | sequence names => .texts names
  | text s => .text s
  | number n => .number n
  | numbers items => .numbers items

/-- What was read, in messages. -/
def describe : Resolved → String
  | object _ => "object reference"
  | sequence _ => "string list"
  | text _ => "string"
  | number _ => "number"
  | numbers _ => "number list"

def isObject : Resolved → Bool
  | object _ => true
  | _ => false

/-- Equality of what is read: references by name, numbers as numbers. -/
def same : Resolved → Resolved → Bool
  | object a, object b => a == b
  | sequence a, sequence b => a == b
  | text a, text b => a == b
  | number a, number b => a.equal b
  | numbers a, numbers b => Value.same (.numbers a) (.numbers b)
  | _, _ => false

end Resolved

namespace Config

/-- A text as an object reference, if there is such an object. -/
def resolveItem (config : Config) (s : String) : Resolved :=
  if config.contains s then .object s else .text s

/-- The value of a field as it is read. -/
def resolve (config : Config) (field : String) : Value → Resolved
  | .text s => if field = typeField then .text s else config.resolveItem s
  | .number n => .number n
  | .texts names => .sequence names
  | .numbers items => .numbers items

/-- The type tag of an object. -/
def typeTag? (config : Config) (object : String) : Option String :=
  (config.get? object).bind Object.typeTag?

/-- The value that is stored in a field. -/
def raw? (config : Config) (object field : String) : Option Value := do
  (← config.get? object).get? field

/-- A field, if both the object and the field are there. -/
def resolved? (config : Config) (object field : String) : Option Resolved :=
  (config.raw? object field).map (config.resolve field)

/-- All fields of an object, none if there is no such object. -/
def resolvedFields (config : Config) (object : String) : List (String × Resolved) :=
  (((config.get? object).map (·.entries)).getD []).map fun (field, value) =>
    (field, config.resolve field value)

/-- The item of a sequence at the given place. -/
def item? (config : Config) (names : List String) (i : Nat) : Option Resolved :=
  names[i]?.map config.resolveItem

/-- A field that must be there. -/
def required (config : Config) (object field : String) : Except ConfigError Resolved :=
  match config.get? object with
  | none => .error (.objectMissing object)
  | some fields =>
    match fields.get? field with
    | none => .error (.fieldMissing object field)
    | some value => .ok (config.resolve field value)

end Config

end GraphWire
