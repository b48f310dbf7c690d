import GraphWire.Schema.View

/-!
# `GraphWire.Wire.Objects` — the objects that parent and engine exchange

## Contents
- **`FieldDecl.fetch`** and **`FieldDecl.assign`**, access to a declared field.
- **Parts of messages:** `Feed`, `Trigger`, `SendConfig`, `Payload` and `Subscription`, each with
  its fields and its schema.
-/

namespace GraphWire

/-- Reads the declared field of the owner. -/
def FieldDecl.fetch (field : FieldDecl) (owner : Walker) : Action TypedError field.kind.Carrier :=
  field.kind.fetch owner field.name

/-- Writes the declared field of the owner. -/
def FieldDecl.assign (field : FieldDecl) (owner : Walker) (x : field.kind.Carrier) :
    Action TypedError Unit :=
  FieldKind.assign owner field.name field.kind x

/-- The type of instrument numbers. -/
abbrev Instrument := Ranged .u32

/-! ## Feed: where market data comes from -/

namespace Feed

abbrev snapshot : FieldDecl := ⟨"snapshot", .single (.scalar .address)⟩
abbrev update : FieldDecl := ⟨"update", .single (.scalar .address)⟩
abbrev spinDuration : FieldDecl := ⟨"spin_duration", .single (.scalar (.integer .i64))⟩

def schema : Schema := .declare "Feed" "feed" [snapshot, update, spinDuration]

end Feed

/-! ## Trigger: when the engine fires for an instrument -/

namespace Trigger

abbrev instrument : FieldDecl := ⟨"instrument", .single (.scalar (.integer .u32))⟩
abbrev instantThreshold : FieldDecl := ⟨"instant_threshold", .single (.scalar .number)⟩
abbrev threshold : FieldDecl := ⟨"threshold", .optional (.scalar .number)⟩
abbrev period : FieldDecl := ⟨"period", .optional (.scalar (.integer .i64))⟩
abbrev cooldown : FieldDecl := ⟨"cooldown", .single (.scalar (.integer .i64))⟩

def schema : Schema :=
  .declare "Trigger" "trigger" [instrument, instantThreshold, threshold, period, cooldown]

end Trigger

/-! ## SendConfig: where the engine writes payloads -/

namespace SendConfig

/-- A descriptor that the engine inherits. -/
abbrev fd : FieldDecl := ⟨"fd", .single (.scalar (.integer .i32))⟩
abbrev datagram : FieldDecl := ⟨"datagram", .optional (.scalar .address)⟩
abbrev disposablePayload : FieldDecl := ⟨"disposable_payload", .single (.scalar .boolean)⟩

def schema : Schema := .declare "SendConfig" "send" [fd, datagram, disposablePayload]

end SendConfig

/-! ## Payload: what the engine writes -/

namespace Payload

abbrev message : FieldDecl := ⟨"message", .single (.scalar .base64)⟩
abbrev datagram : FieldDecl := ⟨"datagram", .optional (.scalar .base64)⟩

def schema : Schema := .declare "Payload" "payload" [message, datagram]

end Payload

/-! ## Subscription: a trigger with the payload it fires -/

namespace Subscription

abbrev trigger : FieldDecl := ⟨"trigger", .single (.object Trigger.schema.ref)⟩
abbrev payload : FieldDecl := ⟨"payload", .single (.object Payload.schema.ref)⟩

def schema : Schema := .declare "Subscription" "subscription" [trigger, payload]

end Subscription

end GraphWire
