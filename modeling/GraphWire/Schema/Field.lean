import GraphWire.Schema.Error

/-!
# `GraphWire.Schema.Field` — reading fields by their shapes

An optional field and a sequence may be absent. A mapping is two lists beside each other, the values
under the name of the field and the keys under the name that `keysField` gives. A number list is
read number by number, a list of texts as references where there are such objects.

## Contents
- **`Element.convert`**, one element as it is read.
- **`FieldKind.read`**, a field of an object.
- **`Element.toField`** and **`Element.toFields`**, what is written for one element and for several.
- **`FieldKind.references`**, the objects that were read through a schema.
-/

namespace GraphWire

namespace Element

/-- Reads one element of a field in the given store. A scalar is read from the stored value even if
    that names an object. -/
def convert (store : StoreId) (r : Resolved) : (e : Element) → Except TypedError e.Carrier
  | scalar t => t.convert r.stored
  | object schema =>
    match r with
    | .object name => .ok ⟨store, name⟩
    | other => .error (.invalidValue (.notReference schema.tag other))

/-- What is written for one element. -/
def toField : (e : Element) → e.Carrier → FieldValue
  | scalar t, x => .value (t.store x)
  | object _, walker => .ref walker

/-- The object that was read through a schema, with that schema. -/
def references : (e : Element) → e.Carrier → List (String × SchemaRef)
  | scalar _, _ => []
  | object schema, walker => [(walker.name, schema)]

end Element

/-! ## Reading -/

namespace FieldKind

/-- A field that may be absent. -/
def resolvedOrAbsent (config : Config) (owner name : String) :
    Except TypedError (Option Resolved) :=
  match config.required owner name with
  | .ok r => .ok (some r)
  | .error (.fieldMissing _ _) => .ok none
  | .error e => .error (.config e)

/-- The elements of a list field, none if it is absent. -/
def readSequence (e : Element) (store : StoreId) (config : Config) (owner name : String) :
    Except TypedError (List e.Carrier) := do
  match ← resolvedOrAbsent config owner name with
  | none => return []
  | some (.sequence names) => names.mapM fun s => e.convert store (config.resolveItem s)
  | some (.numbers items) => items.mapM fun n => e.convert store (.number n)
  | some other => throw (.invalidValue (.notList other))

/-- The keys of a mapping, none if they are absent. -/
def readKeys (config : Config) (owner name : String) : Except TypedError (List String) :=
  match config.raw? owner (keysField name) with
  | none => .ok []
  | some (.texts keys) => .ok keys
  | some other => .error (.invalidValue (.notKeys other.kind))

/-- Reads a field of an object. -/
def read (store : StoreId) (config : Config) (owner name : String) :
    (kind : FieldKind) → Except TypedError kind.Carrier
  | single e =>
    match config.required owner name with
    | .ok r => e.convert store r
    | .error fault => .error (.config fault)
  | optional e => do
    match ← resolvedOrAbsent config owner name with
    | none => return none
    | some r => return some (← e.convert store r)
  | sequence e => readSequence e store config owner name
  | mapping e => do
    let keys ← readKeys config owner name
    let values ← readSequence e store config owner name
    if keys.length ≠ values.length then
      throw (.invalidValue (.lengthMismatch keys.length values.length))
    return OrderedMap.ofList (keys.zip values)

/-- The objects that were read through a schema, in order. -/
def references : (kind : FieldKind) → kind.Carrier → List (String × SchemaRef)
  | single e, x => e.references x
  | optional e, x => x.toList.flatMap e.references
  | sequence e, xs => xs.flatMap e.references
  | mapping e, m => m.values.flatMap e.references

end FieldKind

/-! ## Writing -/

/-- The texts and the numbers among values. A list cannot be an item of a list. -/
def partItems : List Value → Except ValueFault (List String × List Number)
  | [] => .ok ([], [])
  | .text s :: rest => (partItems rest).map fun (texts, numbers) => (s :: texts, numbers)
  | .number n :: rest => (partItems rest).map fun (texts, numbers) => (texts, n :: numbers)
  | item :: _ => .error (.nestedItem item)

/-- The list of the values, which must be all texts or all numbers. -/
def listOfItems (items : List Value) : Except ValueFault Value :=
  match partItems items with
  | .error fault => .error fault
  | .ok (texts, []) => .ok (.texts texts)
  | .ok ([], numbers) => .ok (.numbers numbers)
  | .ok _ => .error .mixedItems

/-- What is written for several elements. Without elements there is no field. -/
def Element.toFields (e : Element) (items : List e.Carrier) : Except TypedError FieldValue :=
  match e, items with
  | _, [] => .ok .unset
  | .object _, walkers => .ok (.refs walkers)
  | .scalar t, items =>
    match listOfItems (items.map t.store) with
    | .ok v => .ok (.value v)
    | .error fault => .error (.invalidValue fault)

end GraphWire
