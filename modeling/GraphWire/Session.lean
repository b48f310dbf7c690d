import GraphWire.Schema.Registry

/-!
# `GraphWire.Session` — what a run of typed operations works on

Operations read and change the stores, register schemas as they go, and issue names for objects
made without one. An operation that fails keeps what it has done so far.

## Contents
- **`Session`** and **`Action`**, an operation with its kind of error.
- **`Action.outcome`**, the result of an operation with the session behind it.
- **Steps.** Making stores, changing them, adding objects, registering schemas, issuing names.
-/

namespace GraphWire

/-- The stores in use, the schemas registered, and how many names were issued. -/
structure Session where
  stores : Stores
  registry : Registry
  issued : Nat
  deriving DecidableEq

/-- A session in which nothing has happened yet. -/
def Session.fresh : Session := ⟨.empty, SortedMap.empty, 0⟩

/-- An operation on a session. -/
abbrev Action (ε : Type) : Type → Type := EStateM ε Session

namespace Action

/-- The result of an operation, and the session that it leaves. -/
def outcome {ε α : Type} (action : Action ε α) (session : Session) : Except ε α × Session :=
  match action session with
  | .ok a session => (.ok a, session)
  | .error e session => (.error e, session)

/-- The operation with its errors seen as errors of another kind. -/
def mapError {ε ε' α : Type} (f : ε → ε') (action : Action ε α) : Action ε' α := fun session =>
  match action session with
  | .ok a session => .ok a session
  | .error e session => .error (f e) session

instance : MonadLift (Action ConfigError) (Action TypedError) := ⟨mapError .config⟩

/-- The result of a computation that changes nothing. -/
def ofExcept {ε α : Type} : Except ε α → Action ε α
  | .ok a => pure a
  | .error e => throw e

/-- The contents of a store. -/
def contents {ε : Type} (id : StoreId) : Action ε Config := do return (← get).stores.get id

/-- A further store with the given contents. -/
def addStore {ε : Type} (config : Config) : Action ε StoreId :=
  modifyGet fun session =>
    let (id, stores) := session.stores.add config
    (id, { session with stores })

/-- Replaces the contents of a store. -/
def setContents {ε : Type} (id : StoreId) (config : Config) : Action ε Unit :=
  modify fun session => { session with stores := session.stores.set id config }

/-- Adds an object to a store under a name that must be free. -/
def addObject (id : StoreId) (name : String) (object : Object) : Action ConfigError Unit := do
  setContents id (← ofExcept ((← contents id).tryAdd name object))

/-- Writes a field of the owner. -/
def setField (owner : Walker) (field : String) (v : FieldValue) : Action ConfigError Unit := do
  let stores ← ofExcept ((← get).stores.write owner field v)
  modify fun session => { session with stores }

/-- Removes a field of the owner, and says whether it was there. -/
def removeField {ε : Type} (owner : Walker) (field : String) : Action ε Bool :=
  modifyGet fun session =>
    let isThere := ((session.stores.get owner.store).raw? owner.name field).isSome
    (isThere, { session with stores := session.stores.remove owner field })

/-- Registers a schema without its ancestors. -/
def registerAlone (schema : Schema) : Action TypedError Unit := do
  let registry ← ofExcept ((← get).registry.add schema.entry)
  modify fun session => { session with registry }

/-- Registers a schema and its ancestors. -/
def register (schema : Schema) : Action TypedError Unit := do
  let (registry, result) := (← get).registry.register schema
  modify fun session => { session with registry }
  ofExcept result

/-- The part of an issued name behind the tag: thirty-two hexadecimal digits, growing with every
    name. -/
def issuedSuffix (n : Nat) : String :=
  let digits := Nat.toDigits 16 (0x0190 * Nat.pow 2 112 + n)
  String.ofList (List.replicate (32 - digits.length) '0' ++ digits)

/-- A new name for an object with the tag. -/
def issueName {ε : Type} (tag : String) : Action ε String :=
  modifyGet fun session =>
    (tag ++ "_" ++ issuedSuffix session.issued, { session with issued := session.issued + 1 })

end Action

end GraphWire
