import GraphWire.Config.Basic
import GraphWire.Config.Reach
import GraphWire.Config.Reference

/-!
# `GraphWire.Store` — several configurations at a time

A store holds one configuration. A walker is a name in a store; nothing need be there under the
name. Writing a reference to a walker of another store first copies everything that it leads to.

## Contents
- **`Stores`**, the stores in use, by number. A store that does not exist reads as empty.
- **`Walker`** and **`FieldValue`**, what may be written into a field.
- **`Stores.imports`**, what references bring along from other stores.
- **`Stores.write`** and **`Stores.remove`**, the changes of a field.
-/

namespace GraphWire

abbrev StoreId := Nat

/-- The stores in use. -/
structure Stores where
  configs : List Config
  deriving DecidableEq

namespace Stores

def empty : Stores := ⟨[]⟩

def get (stores : Stores) (id : StoreId) : Config := stores.configs.getD id SortedMap.empty

def set (stores : Stores) (id : StoreId) (config : Config) : Stores :=
  ⟨stores.configs.set id config⟩

/-- A further store with the given contents. -/
def add (stores : Stores) (config : Config) : StoreId × Stores :=
  (stores.configs.length, ⟨stores.configs ++ [config]⟩)

end Stores

/-- A name in a store. -/
structure Walker where
  store : StoreId
  name : String
  deriving DecidableEq

/-- Walkers are told apart by their names alone, whatever stores they are in. -/
def Walker.same (a b : Walker) : Bool := a.name == b.name

/-- The walker in listings for inspection. -/
def Walker.inspect (walker : Walker) : String := "Walker(" ++ inspectText walker.name ++ ")"

/-- The names of a sequence in listings for inspection. -/
def inspectSequence (names : List String) : String :=
  "WalkerSequence([" ++ ", ".intercalate (names.map inspectText) ++ "])"

/-- A store's contents in listings for inspection. -/
def Config.inspect (config : Config) : String :=
  "SharedConfig \x7b object_count: " ++ toString config.size ++ " \x7d"

/-- What is written into a field. -/
inductive FieldValue where
  /-- The field is removed. -/
  | unset
  | value (v : Value)
  | ref (target : Walker)
  | refs (targets : List Walker)
  deriving DecidableEq

namespace FieldValue

/-- The walkers that are written as references. -/
def walkers : FieldValue → List Walker
  | ref target => [target]
  | refs targets => targets
  | _ => []

/-- The value to store; empty lists have no written form and are removed instead. -/
def stored? : FieldValue → Option Value
  | unset => none
  | value v => if v.isEmptyList then none else some v
  | ref target => some (.text target.name)
  | refs [] => none
  | refs targets => some (.texts (targets.map Walker.name))

end FieldValue

namespace Stores

/-- Everything that the walkers of other stores lead to. Walkers of one store are searched from
    together, so what they share comes along once; two stores must not bring the same name. -/
def imports (stores : Stores) (home : StoreId) (walkers : List Walker) :
    Except ConfigError Config :=
  let foreign := walkers.filter (·.store ≠ home)
  let sources := (foreign.map Walker.store).eraseDups
  sources.foldlM
    (fun gathered source =>
      let roots := (foreign.filter (·.store = source)).map Walker.name
      gathered.merge ((stores.get source).extract roots))
    SortedMap.empty

/-- Writes a field of the owner. What the references bring along is added to the owner's store; it
    must not clash with what is there. -/
def write (stores : Stores) (owner : Walker) (field : String) (v : FieldValue) :
    Except ConfigError Stores := do
  let imported ← stores.imports owner.store v.walkers
  let home := stores.get owner.store
  if !home.contains owner.name then
    throw (.objectMissing owner.name)
  let grown ← home.merge imported
  let changed := grown.editObject owner.name fun object =>
    match v.stored? with
    | some value => object.insert field value
    | none => object.erase field
  return stores.set owner.store changed

/-- Removes a field of the owner, if it is there. -/
def remove (stores : Stores) (owner : Walker) (field : String) : Stores :=
  stores.set owner.store ((stores.get owner.store).editObject owner.name (·.erase field))

end Stores

end GraphWire
