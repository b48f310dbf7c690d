import GraphWire.OrderedMap
import GraphWire.SortedMap
import GraphWire.Value

/-!
# `GraphWire.Object` — named objects and the configurations they form

An object is a list of fields in the order in which they were first written; a configuration is a
set of objects under distinct names. The field `type` names the schema of an object.

## Contents
- **`Object`**, with `Object.typed` and `Object.typeTag?`.
- **`Config`**, with `Config.assign`, the effect of one assignment, and `Config.editObject`.
- **`Config.same`**, equality up to the order of fields.
-/

namespace GraphWire

/-- The reserved field that names an object's schema. -/
def typeField : String := "type"

abbrev Object := OrderedMap Value

abbrev Config := SortedMap Object

namespace Object

/-- An object that holds nothing but its type tag. -/
def typed (tag : String) : Object := OrderedMap.empty.insert typeField (.text tag)

/-- The text in the field `type`. -/
def typeTag? (object : Object) : Option String := (object.get? typeField).bind Value.asText?

/-- Equality of objects as maps: the order of the fields does not matter. -/
def same (a b : Object) : Bool := OrderedMap.agrees Value.same a b

end Object

namespace Config

/-- Writes a field of an object, making the object if there is none. -/
def assign (config : Config) (object field : String) (value : Value) : Config :=
  config.insert object (((config.get? object).getD ∅).insert field value)

/-- Replaces an object by its image, if there is such an object. -/
def editObject (config : Config) (name : String) (edit : Object → Object) : Config :=
  match config.get? name with
  | some object => config.insert name (edit object)
  | none => config

/-- Equality of configurations: the same names with the same objects behind them. -/
def same (a b : Config) : Bool :=
  a.keys == b.keys && (a.entries.zip b.entries).all fun (x, y) => Object.same x.2 y.2

end Config

end GraphWire
