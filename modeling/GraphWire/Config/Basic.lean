import GraphWire.Config.Error
import GraphWire.Object

/-!
# `GraphWire.Config.Basic` — adding objects to a configuration

## Contents
- **`Config.tryAdd`**, one new object, and **`Config.merge`**, all objects of another
  configuration. Neither overwrites an object that is there.
- **`Config.restrict`**, the objects of a list of names.
-/

namespace GraphWire.Config

/-- Adds an object under a name that must be free. -/
def tryAdd (config : Config) (name : String) (object : Object) : Except ConfigError Config :=
  if config.contains name then .error (.nameCollision name)
  else .ok (config.insert name object)

/-- Adds all objects of another configuration. All names must be free; the first that is not, in
    order, is reported. -/
def merge (config other : Config) : Except ConfigError Config :=
  match config.collision? other with
  | some name => .error (.nameCollision name)
  | none => .ok (config.union other)

/-- The objects with these names. -/
def restrict (config : Config) (names : List String) : Config :=
  names.foldl
    (fun out name =>
      match config.get? name with
      | some object => out.insert name object
      | none => out)
    SortedMap.empty

end GraphWire.Config
