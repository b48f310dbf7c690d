import GraphWire.Proofs.Reading

/-!
# `Proofs.Ending` — what a decoder says when its stream ends

Before the end a decoder has been through anything: bytes have arrived in pieces, and it was asked for frames
in between, often or never. What carries over from one call to the next is that the frames delivered and
those still in the buffer are the frames of what has arrived. At the end the decoder delivers what it would
have delivered anyway, and then says whether something is missing: what follows the last cut is a frame that
was not finished, unless it is white space. It is then as it was in the beginning.

## Contents
- **Histories.** `Decoder.Call` and `Decoder.run`; **`next_of_fits`** is what one call keeps, **`run_spec`**
  what a run keeps.
- **The end.** `drain_finish`, what the end adds to a drain, and **`finish_delivers_rest`**.
-/

namespace GraphWire

open Split

/-! ## Histories -/

/-- The frame that was delivered, if there is one. -/
def Delivery.bodies : Delivery → List ByteArray
  | frame body => [body]
  | _ => []

namespace Decoder

/-- What is done with a decoder: bytes arrive, or it is asked for the next frame. -/
inductive Call where
  | append (bytes : ByteArray)
  | next

/-- The bytes that arrive with a call. -/
def Call.bytes : Call → List UInt8
  | append bytes => octets bytes
  | next => []

/-- The frames that are delivered by calls, made in turn, and the decoder after them. -/
def run (d : Decoder) : List Call → List ByteArray × Decoder
  | [] => ([], d)
  | .append bytes :: calls => (d.append bytes).run calls
  | .next :: calls => (d.next.1.bodies ++ (d.next.2.run calls).1, (d.next.2.run calls).2)

/-- What a call delivers and what it leaves are the frames and the rest of what it found. -/
theorem Tells.bodies {d rest : Decoder} {delivery : Delivery} (h : d.Tells delivery rest) :
    frames d.bytes = delivery.bodies.map octets ++ frames rest.bytes ∧
      Split.rest d.bytes = Split.rest rest.bytes := by
  cases delivery with
  | frame body => exact h
  | nothing => exact ⟨h.1, h.2.1⟩
  | failed e => exact ⟨h.1, h.2.1⟩

/-- A call that finds what fits leaves what fits, with whatever is still to come. -/
theorem fits_of_next {d : Decoder} (h : d.Resumable) {more : List UInt8} (hfits : Fits (d.bytes ++ more)) :
    Fits (d.next.2.bytes ++ more) := by
  induction hsize : d.buffer.size using Nat.strongRecOn generalizing d with
  | ind n ih =>
    cases hcut : cut? d.bytes with
    | none =>
      obtain ⟨rest, -, hbuffer, hnext⟩ := next_of_no_cut h hcut
      have hbytes : rest.bytes = d.bytes := congrArg octets hbuffer
      rw [hnext]
      split <;> exact hbytes ▸ hfits
    | some found =>
      obtain ⟨part, tail⟩ := found
      obtain ⟨rest, body, hkeeps, rfl, hless, rfl, hnext⟩ := next_of_cut h hcut
      obtain ⟨-, hfits⟩ := hfits.of_cut? (cut?_append hcut more)
      rw [hnext]
      split
      · exact hfits
      · split
        · -- a blank part is passed over, and the call goes on with less
          exact ih _ (hsize ▸ hless) hkeeps hfits rfl
        · exact hfits

/-- **A call keeps what is known of a decoder**: what it delivers and what it leaves, with whatever is still to
    come, has the frames and the rest of what it found. -/
theorem next_of_fits {d : Decoder} (h : d.Resumable) {more : List UInt8} (hfits : Fits (d.bytes ++ more)) :
    frames (d.bytes ++ more) = d.next.1.bodies.map octets ++ frames (d.next.2.bytes ++ more) ∧
      Split.rest (d.bytes ++ more) = Split.rest (d.next.2.bytes ++ more) ∧
      d.next.2.Resumable ∧ Fits (d.next.2.bytes ++ more) := by
  obtain ⟨htells, hkeeps⟩ := next_spec h
  obtain ⟨hframes, hrest⟩ := htells.bodies
  refine ⟨?_, ?_, hkeeps, fits_of_next h hfits⟩
  · rw [frames_append, hframes, hrest, List.append_assoc, ← frames_append]
  · rw [rest_append, hrest, ← rest_append]

/-- **Whatever a decoder has been through**, the frames that it delivered and those in its buffer are the frames
    of what has arrived, and what follows the last cut is still there. -/
theorem run_spec {d : Decoder} (h : d.Resumable) {calls : List Call}
    (hfits : Fits (d.bytes ++ calls.flatMap Call.bytes)) :
    (d.run calls).1.map octets ++ frames (d.run calls).2.bytes = frames (d.bytes ++ calls.flatMap Call.bytes) ∧
      Split.rest (d.run calls).2.bytes = Split.rest (d.bytes ++ calls.flatMap Call.bytes) ∧
      (d.run calls).2.Resumable ∧ Fits (d.run calls).2.bytes := by
  induction calls generalizing d with
  | nil =>
    rw [List.flatMap_nil, List.append_nil] at hfits ⊢
    exact ⟨rfl, rfl, h, hfits⟩
  | cons call calls ih =>
    rw [List.flatMap_cons] at hfits ⊢
    cases call with
    | append bytes =>
      have hbytes : d.bytes ++ (octets bytes ++ calls.flatMap Call.bytes)
          = (d.append bytes).bytes ++ calls.flatMap Call.bytes := by
        rw [bytes_append, List.append_assoc]
      rw [Call.bytes, hbytes] at hfits ⊢
      exact ih (h.append bytes) hfits
    | next =>
      rw [Call.bytes, List.nil_append] at hfits ⊢
      obtain ⟨hframes, hrest, hkeeps, hfits⟩ := next_of_fits h hfits
      obtain ⟨ihframes, ihrest, ihkeeps, ihfits⟩ := ih hkeeps hfits
      rw [run, hframes, hrest, ← ihframes, ← ihrest, List.map_append, List.append_assoc]
      exact ⟨rfl, rfl, ihkeeps, ihfits⟩

/-! ## The end -/

/-- **The end of the stream adds one thing to a drain**: what no frame was made of is dropped, and reported
    unless it is white space. -/
theorem drain_finish {d rest : Decoder} {bodies : List ByteArray} (h : d.drain false = (bodies, none, rest)) :
    d.drain true =
      (bodies, if isBlankFrom rest.buffer 0 then none else some (.unterminated rest.buffer.size), fresh) := by
  induction hsize : d.buffer.size using Nat.strongRecOn generalizing d bodies with
  | ind n ih =>
    rw [drain_eq, if_neg Bool.false_ne_true] at h
    rw [drain_eq, if_pos rfl, finish]
    cases hnext : d.next with
    | mk delivery after =>
      rw [hnext] at h
      cases delivery with
      | frame body =>
        obtain ⟨hbodies, hdrain⟩ := Prod.mk.inj h
        have hless : after.buffer.size < n := hsize ▸ size_lt_of_next hnext
        have hlast := ih _ hless (Prod.ext rfl hdrain) rfl
        simp only [hlast, hbodies]
      | nothing =>
        cases h
        by_cases hblank : isBlankFrom rest.buffer 0 = true
        · simp only [if_pos hblank]
        · simp only [if_neg hblank]
      | failed e => cases h

end Decoder

/-- **The end of a stream.** Let a decoder have been through any calls, with a stream whose parts and whose rest
    are within the limit. When the stream ends it delivers the frames that it would have delivered anyway, and
    these with the ones delivered before are the frames of the stream. Then it reports a frame that is not
    finished, with the size of what follows the last cut, exactly if there is something in it that is not white
    space; and it is as if nothing had ever arrived. -/
theorem finish_delivers_rest {calls : List Decoder.Call} (hfits : Fits (calls.flatMap Decoder.Call.bytes)) :
    ∃ bodies rest failure,
      (Decoder.fresh.run calls).2.drain false = (bodies, none, rest) ∧
      (Decoder.fresh.run calls).2.drain true = (bodies, failure, .fresh) ∧
      ((Decoder.fresh.run calls).1 ++ bodies).map octets = frames (calls.flatMap Decoder.Call.bytes) ∧
      (failure = some (.unterminated (Split.rest (calls.flatMap Decoder.Call.bytes)).length) ↔
        ∃ b ∈ Split.rest (calls.flatMap Decoder.Call.bytes), isBlankByte b = false) ∧
      (failure = none ↔ ∀ b ∈ Split.rest (calls.flatMap Decoder.Call.bytes), isBlankByte b = true) := by
  obtain ⟨hframes, hrest, hkeeps, hleft⟩ :=
    Decoder.run_spec (d := .fresh) (Decoder.resumable_ofBytes .empty) hfits
  have hnothing : Decoder.fresh.bytes = [] := rfl
  rw [hnothing, List.nil_append] at hframes hrest
  generalize calls.flatMap Decoder.Call.bytes = stream at hframes hrest ⊢
  rw [← List.append_nil (Decoder.fresh.run calls).2.bytes] at hleft
  obtain ⟨bodies, rest, hdrain, hbodies, hbytes, -, -⟩ := Decoder.drain_of_fits hkeeps hleft
  rw [hrest] at hbytes
  have hsize : rest.buffer.size = (Split.rest stream).length := congrArg List.length hbytes
  have hblank : isBlankFrom rest.buffer 0 = (Split.rest stream).all isBlankByte := by
    rw [Decoder.isBlankFrom_iff, List.drop_zero, ← hbytes]
  have hsome : (∃ b ∈ Split.rest stream, isBlankByte b = false) ↔
      (Split.rest stream).all isBlankByte = false := by
    simp
  have hfinish := Decoder.drain_finish hdrain
  rw [hsize, hblank] at hfinish
  refine ⟨bodies, rest, _, hdrain, hfinish, ?_, ?_, ?_⟩
  · rw [List.map_append, hbodies, hframes]
  · rw [hsome]
    cases (Split.rest stream).all isBlankByte <;> simp
  · rw [← List.all_eq_true]
    cases (Split.rest stream).all isBlankByte <;> simp

/-- A decoder that is asked too early, and receives a stream in pieces that end within its empty lines. -/
def tornCalls : List Decoder.Call :=
  [.append "a\n\r".toUTF8, .next, .next, .append "\n \n\nb\n".toUTF8, .append "\nc".toUTF8]

/-- The end delivers the two frames that are there, passes over the blank part between them, and reports the
    letter behind them. -/
theorem finish_delivers_rest_torn :
    Fits (tornCalls.flatMap Decoder.Call.bytes) ∧
      ∃ bodies, (Decoder.fresh.run tornCalls).2.drain true = (bodies, some (.unterminated 1), .fresh) ∧
        ((Decoder.fresh.run tornCalls).1 ++ bodies).map octets = [[97, 10], [98, 10]] := by
  have hfits : Fits (tornCalls.flatMap Decoder.Call.bytes) := ⟨by decide +kernel, by decide +kernel⟩
  obtain ⟨bodies, rest, failure, -, hfinish, hframes, hfailure, -⟩ := finish_delivers_rest hfits
  have hrest : Split.rest (tornCalls.flatMap Decoder.Call.bytes) = [99] := by decide +kernel
  have hsplit : frames (tornCalls.flatMap Decoder.Call.bytes) = [[97, 10], [98, 10]] := by decide +kernel
  rw [hrest] at hfailure
  rw [hfailure.2 (by decide)] at hfinish
  exact ⟨hfits, bodies, hfinish, hframes.trans hsplit⟩

end GraphWire
