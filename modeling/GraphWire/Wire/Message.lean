import GraphWire.Text.Utf8
import GraphWire.Wire.Frame
import GraphWire.Wire.Objects

/-!
# `GraphWire.Wire.Message` — commands to the engine and requests from it

Every command extends `Command`, every request `Request`. The initial `dust` is sent under the name
`config`, every other command under `entrypoint`; requests arrive under the name `request`.

## Contents
- **The schemas of messages**, `messageSchemas`, and `registerMessages`.
- **`WireError`**, what can go wrong between frames and messages.
- **Making messages:** `newCommand`, `newRequest`, `newUnsubscribe` and `newUpdate`.
- **Reading messages:** `Frame.text`, `Frame.config`, `CommandKind.ofWalker`, `RequestKind.ofWalker`
  and `Request.ofFrame`.
-/

namespace GraphWire

/-! ## Schemas -/

def commandSchema : Schema := .declare "Command" "command" []

def requestSchema : Schema := .declare "Request" "request" []

namespace Dust

abbrev feed : FieldDecl := ⟨"feed", .single (.object Feed.schema.ref)⟩
abbrev send : FieldDecl := ⟨"send", .single (.object SendConfig.schema.ref)⟩
abbrev subscription : FieldDecl := ⟨"subscription", .optional (.object Subscription.schema.ref)⟩
abbrev commandOutFd : FieldDecl := ⟨"command_out_fd", .single (.scalar (.integer .i64))⟩

/-- The first command: all that the engine needs to start. -/
def schema : Schema := commandSchema.extend "Dust" "dust" [feed, send, subscription, commandOutFd]

end Dust

namespace Subscribe

abbrev subscription : FieldDecl := ⟨"subscription", .single (.object Subscription.schema.ref)⟩

def schema : Schema := commandSchema.extend "Subscribe" "subscribe" [subscription]

end Subscribe

namespace Unsubscribe

abbrev instrument : FieldDecl := ⟨"instrument", .single (.scalar (.integer .u32))⟩

def schema : Schema := commandSchema.extend "Unsubscribe" "unsubscribe" [instrument]

end Unsubscribe

namespace UpdatePayload

abbrev instrument : FieldDecl := ⟨"instrument", .single (.scalar (.integer .u32))⟩
abbrev payload : FieldDecl := ⟨"payload", .single (.object Payload.schema.ref)⟩

def schema : Schema :=
  commandSchema.extend "UpdatePayload" "update_payload" [instrument, payload]

end UpdatePayload

def quitSchema : Schema := commandSchema.extend "Quit" "quit" []

/-- The engine is done; no further requests are read. -/
def exitSchema : Schema := requestSchema.extend "Exit" "exit" []

namespace RequestPayload

abbrev instrument : FieldDecl := ⟨"instrument", .single (.scalar (.integer .u32))⟩

/-- The engine wants a new payload for an instrument. -/
def schema : Schema := requestSchema.extend "RequestPayload" "request_payload" [instrument]

end RequestPayload

/-- All schemas of messages and their parts. -/
def messageSchemas : Catalogue :=
  [Feed.schema, Trigger.schema, SendConfig.schema, Payload.schema, Subscription.schema,
    Dust.schema, Subscribe.schema, Unsubscribe.schema, UpdatePayload.schema, quitSchema,
    exitSchema, RequestPayload.schema, commandSchema, requestSchema]

/-- Registers all schemas of messages. A tag that another schema holds already keeps its schema. -/
def registerMessages {ε : Type} : Action ε Unit :=
  modify fun session =>
    { session with
      registry := messageSchemas.foldl (fun registry s => (registry.register s).1)
        session.registry }

/-! ## Errors -/

inductive WireError where
  | frame (e : FrameError)
  | utf8 (fault : Utf8Fault)
  /-- The engine could not be started. -/
  | spawn
  | config (e : ConfigError)
  | typed (e : TypedError)
  deriving DecidableEq

def WireError.message : WireError → String
  | frame e => e.message
  | utf8 fault => "frame is not valid UTF-8: " ++ fault.message
  | spawn => "failed to spawn"
  | config e => e.message
  | typed e => e.message

instance : MonadLift (Action TypedError) (Action WireError) := ⟨Action.mapError .typed⟩

/-! ## Making messages -/

/-- The name under which a command with the tag is sent. -/
def commandRoot (tag : String) : String :=
  if tag = Dust.schema.tag then "config" else "entrypoint"

/-- The name under which requests arrive. -/
def requestRoot : String := "request"

/-- A command in a store of its own. -/
def newCommand (schema : Schema) : Action TypedError Walker :=
  schema.create (some (commandRoot schema.tag))

/-- A request in a store of its own. -/
def newRequest (schema : Schema) : Action TypedError Walker :=
  schema.create (some requestRoot)

/-- The command that ends the subscription to an instrument. -/
def newUnsubscribe (instrument : Instrument) : Action TypedError Walker := do
  let command ← newCommand Unsubscribe.schema
  Unsubscribe.instrument.assign command instrument
  return command

/-- The command that brings a new payload for an instrument. -/
def newUpdate (instrument : Instrument) (payload : Walker) : Action TypedError Walker := do
  let command ← newCommand UpdatePayload.schema
  UpdatePayload.instrument.assign command instrument
  UpdatePayload.payload.assign command payload
  return command

/-! ## Reading messages -/

inductive CommandKind where
  | dust
  | subscribe
  | unsubscribe
  | updatePayload
  | quit
  deriving DecidableEq

namespace CommandKind

def schema : CommandKind → Schema
  | dust => Dust.schema
  | subscribe => Subscribe.schema
  | unsubscribe => Unsubscribe.schema
  | updatePayload => UpdatePayload.schema
  | quit => quitSchema

def all : List CommandKind := [dust, subscribe, unsubscribe, updatePayload, quit]

/-- The kind of command that the walker's object is stamped as. -/
def ofWalker (walker : Walker) : Action TypedError CommandKind := do
  registerMessages
  let tag ← commandSchema.resolve walker
  match all.find? (·.schema.tag = tag) with
  | some kind => return kind
  | none => throw (.unknownType tag)

end CommandKind

inductive RequestKind where
  | exit
  | requestPayload
  deriving DecidableEq

namespace RequestKind

def schema : RequestKind → Schema
  | exit => exitSchema
  | requestPayload => RequestPayload.schema

def all : List RequestKind := [exit, requestPayload]

/-- The kind of request that the walker's object is stamped as. -/
def ofWalker (walker : Walker) : Action TypedError RequestKind := do
  registerMessages
  let tag ← requestSchema.resolve walker
  match all.find? (·.schema.tag = tag) with
  | some kind => return kind
  | none => throw (.unknownType tag)

end RequestKind

/-- The text of a frame's bytes. -/
def Frame.text (body : ByteArray) : Except WireError String :=
  match decodeUtf8 body with
  | .ok text => .ok text
  | .error fault => .error (.utf8 fault)

/-- The configuration that a frame describes. -/
def Frame.config (body : ByteArray) : Except WireError Config := do
  match Config.parse (← Frame.text body) with
  | .ok config => return config
  | .error e => throw (.config e)

/-- The frame's configuration in a store of its own, seen from the given name. -/
def Frame.walker (body : ByteArray) (root : String) : Action WireError Walker := do
  let config ← Action.ofExcept (Frame.config body)
  return ⟨← Action.addStore config, root⟩

/-- A request that arrived. -/
structure Request where
  kind : RequestKind
  walker : Walker
  deriving DecidableEq

/-- The request that a frame holds. -/
def Request.ofFrame (body : ByteArray) : Action WireError Request := do
  let walker ← Frame.walker body requestRoot
  return ⟨← RequestKind.ofWalker walker, walker⟩

end GraphWire
