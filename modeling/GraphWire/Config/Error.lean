import GraphWire.Syntax.Token

/-!
# `GraphWire.Config.Error` — what can go wrong with configurations

## Contents
- **`ConfigError`** and its `message`.
-/

namespace GraphWire

inductive ConfigError where
  /-- The text is malformed. -/
  | syntaxError (e : SyntaxError)
  /-- An object of this name is there already. -/
  | nameCollision (name : String)
  /-- There is no object of this name. -/
  | objectMissing (name : String)
  /-- The object does not have a field that it needs. -/
  | fieldMissing (object field : String)
  /-- The text has no written form. -/
  | unrepresentable (object field text : String)
  deriving DecidableEq

def ConfigError.message : ConfigError → String
  | syntaxError e => e.message
  | nameCollision name => "object name collision: " ++ name
  | objectMissing name => "object not found: " ++ name
  | fieldMissing object field => "missing field " ++ object ++ "." ++ field
  | unrepresentable object field text =>
    "cannot write " ++ object ++ "." ++ field ++ ": string " ++ inspectText text
      ++ " ends in a backslash"

end GraphWire
