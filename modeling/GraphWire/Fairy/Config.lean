import GraphWire.Wire.Message

/-!
# `GraphWire.Fairy.Config` — the parent's configuration

The object named `ppf`, or as asked for, says which engine to start and where its payloads go.

## Contents
- **`FairyConfig`**, the fields and the schema; `fairySchemas`, all schemas that there are.
- **`FairyError`** and its `message`.
- **`FairyConfig.parse`** and **`FairyConfig.load`**.
-/

namespace GraphWire

namespace FairyConfig

/-- The command line that starts the engine. -/
abbrev executable : FieldDecl := ⟨"executable", .single (.scalar .text)⟩
abbrev feed : FieldDecl := ⟨"feed", .single (.object Feed.schema.ref)⟩
/-- Where payloads go. -/
abbrev downAddress : FieldDecl := ⟨"down_address", .single (.scalar .address)⟩
/-- What the engine subscribes to from the start. -/
abbrev trigger : FieldDecl := ⟨"trigger", .optional (.object Trigger.schema.ref)⟩
abbrev datagramAddress : FieldDecl := ⟨"datagram_address", .optional (.scalar .address)⟩
abbrev disposablePayload : FieldDecl := ⟨"disposable_payload", .optional (.scalar .boolean)⟩

def schema : Schema :=
  .declare "FairyConfig" "fairy"
    [executable, feed, downAddress, trigger, datagramAddress, disposablePayload]

/-- The name of the object that is looked up if no other is asked for. -/
def defaultRoot : String := "ppf"

end FairyConfig

/-- The schemas of messages, their parts, and the parent's configuration. -/
def fairySchemas : Catalogue := messageSchemas ++ [FairyConfig.schema]

inductive FairyError where
  /-- The engine has not been started. -/
  | notStarted
  /-- The address does not answer, for the reason given. -/
  | connect (address : Address) (reason : String)
  /-- A file cannot be read, for the reason given. -/
  | io (reason : String)
  | config (e : ConfigError)
  | typed (e : TypedError)
  | wire (e : WireError)
  deriving DecidableEq

def FairyError.message : FairyError → String
  | notStarted => "fairy is not started; call setup() first"
  | connect address reason => "failed to connect to " ++ address.text ++ ": " ++ reason
  | io reason => "I/O error: " ++ reason
  | config e => e.message
  | typed e => e.message
  | wire e => e.message

instance : MonadLift (Action TypedError) (Action FairyError) := ⟨Action.mapError .typed⟩

/-- Registers all schemas that there are. -/
def registerAllSchemas {ε : Type} : Action ε Unit := do
  registerMessages
  modify fun session =>
    { session with registry := (session.registry.register FairyConfig.schema).1 }

namespace FairyConfig

/-- The configuration object of the given name in a text. -/
def parse (text root : String) : Action FairyError Walker := do
  registerAllSchemas
  match Config.parse text with
  | .error e => throw (.config e)
  | .ok config =>
    let walker : Walker := ⟨← Action.addStore config, root⟩
    schema.accept walker
    return walker

/-- The configuration object of the given name in a file, given by its text or by the reason why it
    cannot be read. -/
def load (file : Except String String) (root : String) : Action FairyError Walker := do
  match file with
  | .error reason => throw (.io reason)
  | .ok text => parse text root

end FairyConfig

end GraphWire
