import GraphWire.Fairy.Config

/-!
# `GraphWire.Fairy.Payload` — numbered payloads

Every payload is numbered, per instrument, from zero in the order in which payloads were asked for.

## Contents
- **`InstrumentBook`**, the payloads asked for so far, with `nextSerial`.
- **`buildPayload`**, a payload with its documents.
-/

namespace GraphWire

/-- The instruments for which payloads were asked for, last one first. -/
structure InstrumentBook where
  history : List Instrument
  deriving DecidableEq

namespace InstrumentBook

def empty : InstrumentBook := ⟨[]⟩

/-- How many payloads were asked for the instrument before, and the book with one more. -/
def nextSerial (book : InstrumentBook) (instrument : Instrument) : Nat × InstrumentBook :=
  (book.history.count instrument, ⟨instrument :: book.history⟩)

end InstrumentBook

/-- The document that a payload carries, as text. -/
def payloadDocument (instrument : Instrument) (content : String) : String :=
  "\x7b\"instrument\":" ++ toString instrument.val ++ ",\"content\":\"" ++ content ++ "\"\x7d"

/-- The bytes of a document. -/
def payloadBytes (instrument : Instrument) (content : String) : List UInt8 :=
  (payloadDocument instrument content).toUTF8.data.toList

/-- A payload in a store of its own, with the serial number in its documents. -/
def buildPayload (instrument : Instrument) (serial : Nat) : Action TypedError Walker := do
  let payload ← Payload.schema.create none
  Payload.message.assign payload (payloadBytes instrument ("hit #" ++ toString serial))
  Payload.datagram.assign payload
    (some (payloadBytes instrument ("datagram hit #" ++ toString serial)))
  return payload

end GraphWire
