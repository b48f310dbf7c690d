import GraphWire.Config.Error
import GraphWire.Object
import GraphWire.Syntax.Statement

/-!
# `GraphWire.Config.Text` — configurations as text

A text is read statement by statement, and a later assignment to the same field wins. The canonical
text of a configuration has its objects in the order of their names, and the fields of an object in
the order of theirs.

## Contents
- **Reading.** `Config.ofStatements` and `Config.parse`.
- **Writing.** `Statement.written`, `writeStatements`, and `Config.write`, which fail at a text that
  could not be read back; `Config.display` shows such a text as it is.
-/

namespace GraphWire

/-! ## Reading -/

/-- The configuration that assignments, made in turn, result in. -/
def Config.ofStatements (statements : List Statement) : Config :=
  statements.foldl (fun config s => config.assign s.object s.field s.value) SortedMap.empty

/-- The configuration that a text describes. -/
def Config.parse (text : String) : Except ConfigError Config :=
  match statements text with
  | .ok statements => .ok (Config.ofStatements statements)
  | .error e => .error (.syntaxError e)

/-! ## Writing -/

namespace Statement

/-- The statement on a line of its own, whether or not it could be read back. -/
def display (s : Statement) : String :=
  s.object ++ "." ++ s.field ++ " <- " ++ s.value.written ++ ";"

/-- The written form of the statement, without the end of the line. -/
def written (s : Statement) : Except ConfigError String :=
  match s.value.unquotable? with
  | some text => .error (.unrepresentable s.object s.field text)
  | none => .ok s.display

end Statement

/-- The written forms of the statements, one a line. -/
def writeStatements (statements : List Statement) : Except ConfigError String := do
  let lines ← statements.mapM Statement.written
  return String.join (lines.map (· ++ "\n"))

namespace Config

/-- The fields of an object in the order of their names. -/
def sortedFields (object : Object) : List (String × Value) :=
  object.entries.mergeSort fun a b => decide (a.1 ≤ b.1)

/-- The assignments that make up the configuration, in canonical order. -/
def canonical (config : Config) : List Statement :=
  config.entries.flatMap fun (name, object) =>
    (sortedFields object).map fun (field, value) => ⟨name, field, value⟩

/-- The canonical text. -/
def write (config : Config) : Except ConfigError String := writeStatements config.canonical

/-- The canonical text, with texts that could not be read back shown as they are. -/
def display (config : Config) : String :=
  String.join (config.canonical.map (·.display ++ "\n"))

end Config

end GraphWire
