import GraphWire.Schema.Validity
import GraphWire.Session

/-!
# `GraphWire.Schema.View` — making, reading and writing typed objects

A view is a walker that is read and written through a schema. Making an object stamps it with the
schema's tag; a walker is taken as a view of a schema if its tag is assignable to it.

## Contents
- **Fields.** `FieldKind.fetch`, `FieldKind.assign` and `FieldKind.check`.
- **Objects.** `Schema.createIn`, `Schema.create` and `Schema.createWith`.
- **Checks.** `Schema.accept`, the check of a walker, and `Schema.check`, that of all it leads to.
-/

namespace GraphWire

namespace FieldKind

/-- Reads a field of the owner. -/
def fetch (kind : FieldKind) (owner : Walker) (name : String) : Action TypedError kind.Carrier := do
  Action.ofExcept (kind.read owner.store (← Action.contents owner.store) owner.name name)

/-- Writes a field of the owner. A mapping writes its values first, then its keys. -/
def assign (owner : Walker) (name : String) :
    (kind : FieldKind) → kind.Carrier → Action TypedError Unit
  | single e, x => Action.setField owner name (e.toField x)
  | optional _, none => Action.setField owner name .unset
  | optional e, some x => Action.setField owner name (e.toField x)
  | sequence e, items => do
    let field ← Action.ofExcept (e.toFields items)
    Action.setField owner name field
  | mapping e, m => do
    let field ← Action.ofExcept (e.toFields m.values)
    Action.setField owner name field
    Action.setField owner (keysField name) (.value (.texts m.keys))

/-- Checks a field of the owner and all it refers to. -/
def check (catalogue : Catalogue) (kind : FieldKind) (owner : Walker) (name : String)
    (visited : List (String × String)) :
    Action TypedError (Bool × List (String × String)) := do
  let config ← Action.contents owner.store
  let (valid, state) :=
    kind.validate catalogue config ⟨(← get).registry, visited⟩ owner.name name
  modify fun session => { session with registry := state.registry }
  return (valid, state.visited)

end FieldKind

namespace Schema

/-- Makes an object of the schema in a store, under the given name or a new one. -/
def createIn (schema : Schema) (store : StoreId) (name? : Option String) :
    Action TypedError Walker := do
  Action.register schema
  let name ← match name? with
    | some name => pure name
    | none => Action.issueName schema.tag
  Action.addObject store name (Object.typed schema.tag)
  return ⟨store, name⟩

/-- Makes an object of the schema in a store of its own. -/
def create (schema : Schema) (name? : Option String) : Action TypedError Walker := do
  let store ← Action.addStore SortedMap.empty
  schema.createIn store name?

/-- The first name in the list that the schema does not declare. -/
def unknownField? (schema : Schema) (names : List String) : Option String :=
  names.find? fun name => !schema.fields.any (·.name = name)

/-- The values in the order in which the schema declares their fields; of several values for a field
    the last one counts, and a field that is declared twice is written once. -/
def inDeclaredOrder (schema : Schema) (values : List (String × FieldValue)) :
    List (String × FieldValue) :=
  (schema.fields.map FieldDecl.name).eraseDups.filterMap fun name =>
    ((OrderedMap.ofList values).get? name).map (name, ·)

/-- Makes an object of the schema and writes its fields. -/
def createWith (schema : Schema) (store : StoreId) (name? : Option String)
    (values : List (String × FieldValue)) : Action TypedError Walker := do
  if let some field := schema.unknownField? (values.map Prod.fst) then
    throw (.unknownField schema.tag field)
  let walker ← schema.createIn store name?
  for (field, value) in schema.inDeclaredOrder values do
    Action.setField walker field value
  return walker

/-- The tag of the walker's object, if it is registered and assignable to the schema. -/
def resolve (schema : Schema) (walker : Walker) : Action TypedError String := do
  let config ← Action.contents walker.store
  Action.ofExcept ((← get).registry.resolve config walker.name schema.tag)

/-- Registers the schema and checks that the walker's object is of it. -/
def accept (schema : Schema) (walker : Walker) : Action TypedError Unit := do
  Action.register schema
  let _ ← schema.resolve walker

/-- Checks the object and all it refers to, leaving out what was looked at before. -/
def checkFrom (catalogue : Catalogue) (schema : Schema) (walker : Walker)
    (visited : List (String × String)) : Action TypedError (Bool × List (String × String)) := do
  let config ← Action.contents walker.store
  let (valid, state) := schema.validate catalogue config ⟨(← get).registry, visited⟩ walker.name
  modify fun session => { session with registry := state.registry }
  return (valid, state.visited)

/-- Whether the object and all it refers to fit their schemas. -/
def check (catalogue : Catalogue) (schema : Schema) (walker : Walker) : Action TypedError Bool := do
  return (← schema.checkFrom catalogue walker []).1

end Schema

end GraphWire
