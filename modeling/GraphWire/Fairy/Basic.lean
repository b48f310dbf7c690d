import GraphWire.Fairy.Payload
import GraphWire.Wire.Engine

/-!
# `GraphWire.Fairy.Basic` — driving one engine

A fairy starts the engine, sends it the initial `dust`, answers its requests for payloads, and sends
further commands while it runs.

## Contents
- **`Fairy`** and **`FairyAction`**, an operation that keeps what it has done when it fails.
- **Commands:** `Fairy.dust`, `Fairy.subscription`, and what is sent: `sendPayload`,
  `sendSubscribe`, `sendUnsubscribe`.
- **Requests:** `Fairy.onRequest`.
- **The course of a run:** `Fairy.setup`, `Fairy.start`, `Fairy.run` and `Fairy.quit`.
-/

namespace GraphWire

structure Fairy where
  session : Session
  config : Walker
  book : InstrumentBook
  engine : Option Engine

/-- An operation of a fairy. -/
abbrev FairyAction : Type → Type := EStateM FairyError Fairy

namespace Fairy

def new (session : Session) (config : Walker) : Fairy := ⟨session, config, .empty, none⟩

/-- An operation on the session as one of the fairy. -/
def onSession {ε α : Type} (f : ε → FairyError) (action : Action ε α) : FairyAction α :=
  fun fairy =>
    match action fairy.session with
    | .ok a session => .ok a { fairy with session }
    | .error e session => .error (f e) { fairy with session }

instance : MonadLift (Action TypedError) FairyAction := ⟨onSession .typed⟩
instance : MonadLift (Action WireError) FairyAction := ⟨onSession .wire⟩
instance : MonadLift (Action FairyError) FairyAction := ⟨onSession id⟩

/-- The running engine, if it was started. -/
def runningEngine : FairyAction Engine := do
  match (← get).engine with
  | some engine => return engine
  | none => throw .notStarted

/-! ## Commands -/

/-- The next payload for an instrument. Its number is taken even if making the payload fails. -/
def nextPayload (instrument : Instrument) : FairyAction Walker := do
  let (serial, book) := (← get).book.nextSerial instrument
  modify fun fairy => { fairy with book }
  (buildPayload instrument serial : Action TypedError Walker)

/-- A subscription to a trigger, with the next payload for its instrument. -/
def subscription (trigger : Walker) : FairyAction Walker := do
  let payload ← nextPayload (← Trigger.instrument.fetch trigger)
  let subscription ← Subscription.schema.create (some "subscription")
  Subscription.trigger.assign subscription trigger
  Subscription.payload.assign subscription payload
  return subscription

/-- The initial command: the configuration with the given descriptor to write payloads to. -/
def dust (fd : Ranged .i32) : FairyAction Walker := do
  let config := (← get).config
  let send ← SendConfig.schema.create (some "send")
  SendConfig.fd.assign send fd
  SendConfig.datagram.assign send (← FairyConfig.datagramAddress.fetch config)
  let disposable ← FairyConfig.disposablePayload.fetch config
  SendConfig.disposablePayload.assign send (disposable.getD false)
  let dust ← newCommand Dust.schema
  Dust.feed.assign dust (← FairyConfig.feed.fetch config)
  Dust.send.assign dust send
  Dust.commandOutFd.assign dust ⟨1, by decide, by decide⟩
  if let some trigger ← FairyConfig.trigger.fetch config then
    Dust.subscription.assign dust (some (← subscription trigger))
  return dust

/-- Sends everything that the root leads to. -/
def send (root : Walker) : FairyAction SendStatus := do
  let (result, engine) := (← runningEngine).send (← get).session.stores root
  modify fun fairy => { fairy with engine := some engine }
  match result with
  | .ok status => return status
  | .error e => throw (.wire e)

/-- Sends a new payload for an instrument. -/
def sendPayload (instrument : Instrument) : FairyAction SendStatus := do
  let _ ← runningEngine
  let payload ← nextPayload instrument
  send (← newUpdate instrument payload)

/-- Subscribes to a trigger. -/
def sendSubscribe (trigger : Walker) : FairyAction SendStatus := do
  let _ ← runningEngine
  let subscribe ← newCommand Subscribe.schema
  Subscribe.subscription.assign subscribe (← subscription trigger)
  send subscribe

/-- Ends the subscription to an instrument. -/
def sendUnsubscribe (instrument : Instrument) : FairyAction SendStatus := do
  let _ ← runningEngine
  send (← newUnsubscribe instrument)

/-! ## Requests -/

/-- The operation with its failure as its result. -/
def attempt {α : Type} (action : FairyAction α) : FairyAction (Except FairyError α) := fun fairy =>
  match action fairy with
  | .ok a fairy => .ok (.ok a) fairy
  | .error e fairy => .ok (.error e) fairy

/-- Answers a request: a payload is sent if the instrument can be read, and `exit` ends the run. -/
def onRequest (request : Request) : FairyAction Bool := do
  match request.kind with
  | .exit => return true
  | .requestPayload =>
    let _ ← attempt do
      let instrument ← RequestPayload.instrument.fetch request.walker
      sendPayload instrument
    return false

/-- The request that a frame holds, if it holds one. -/
def request? (body : ByteArray) : FairyAction (Option Request) := do
  return (← attempt (Request.ofFrame body : Action WireError Request)).toOption

/-! ## The course of a run -/

/-- Connects downstream. The outcome of dialling is given for every address. -/
def setup (dial : Address → Except String (Ranged .i32)) : FairyAction (Ranged .i32) := do
  (registerAllSchemas : Action TypedError Unit)
  let address ← FairyConfig.downAddress.fetch (← get).config
  match dial address with
  | .ok fd => return fd
  | .error reason => throw (.connect address reason)

/-- Starts the engine, sends it the dust, and serves its requests. The engine counts as started once
    the dust is sent. -/
def start (behaviour : Behaviour) (fd : Ranged .i32) : FairyAction SendStatus := do
  let dust ← dust fd
  let executable ← FairyConfig.executable.fetch (← get).config
  let engine ← (Action.ofExcept (Engine.launch behaviour (.shell executable)) :
    Action WireError Engine)
  modify fun fairy => { fairy with engine := some engine }
  match ← attempt (send dust) with
  | .error e =>
    modify fun fairy => { fairy with engine := none }
    throw e
  | .ok status =>
    let served ← serve request? onRequest engine.frames
    let engine ← runningEngine
    modify fun fairy => { fairy with engine := some { engine with served := some served } }
    return status

/-- Why the requests ended; asked a second time, nothing. -/
def run : FairyAction (Option ServeEnd) := do
  let (served, engine) := (← runningEngine).join
  modify fun fairy => { fairy with engine := some engine }
  return served

/-- Asks the engine to quit and waits for it. -/
def quit : FairyAction ExitStatus := do
  let _ ← runningEngine
  let _ ← send (← newCommand quitSchema)
  let (status, engine) := (← runningEngine).close.wait
  modify fun fairy => { fairy with engine := some engine }
  return status

end Fairy

end GraphWire
