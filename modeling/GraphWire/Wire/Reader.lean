import GraphWire.Wire.Link

/-!
# `GraphWire.Wire.Reader` — frames taken from a stream as it arrives

A reader takes frames from its decoder as long as there may be one in the buffer, and otherwise waits for the
next piece of the stream. When the stream has ended, the decoder is asked for what remains. A failure of the
decoder is passed on, and then the reader rests: asked for the next frame it says once that there is none, and
only when it is asked again does it read on. Requests are served until there is no next frame.

## Contents
- **`FrameReader`**, and `FrameReader.reading` for a stream of which nothing has arrived.
- **`FrameReader.next`**, the next frame or failure.
- **Many frames:** `FrameReader.serve`, and `FrameReader.yields`, all that comes up to the first time that there
  is no next frame.
-/

namespace GraphWire

/-- A reader, with the pieces of its stream that have not arrived yet. -/
structure FrameReader where
  decoder : Decoder
  coming : List ByteArray
  /-- There may be a frame in the buffer. -/
  isReadable : Bool
  /-- The end of the stream was seen. -/
  atEnd : Bool
  /-- The decoder has failed, and the reader rests. -/
  hasFailed : Bool

/-- A call leaves no more than it found. -/
theorem Decoder.size_le_of_next (d : Decoder) : d.next.2.buffer.size ≤ d.buffer.size := by
  fun_induction next d with
  | case1 => exact Nat.le_refl _
  | case2 => exact Nat.le_refl _
  | case3 d start finish _ _ _ rest =>
    simp only [rest, ofBytes, ByteArray.size_extract]
    omega
  | case4 d start finish _ _ _ rest _ body _ ih =>
    have hrest : rest.buffer.size ≤ d.buffer.size := by
      simp only [rest, ofBytes, ByteArray.size_extract]
      omega
    exact Nat.le_trans ih hrest
  | case5 d start finish _ _ _ rest _ body _ =>
    simp only [rest, ofBytes, ByteArray.size_extract]
    omega

namespace FrameReader

/-- A reader of a stream of which nothing has arrived. -/
def reading (pieces : List ByteArray) : FrameReader := ⟨.fresh, pieces, false, false, false⟩

/-- What the decoder says when it is asked for a frame. -/
def ask (reader : FrameReader) : Delivery × Decoder :=
  if reader.atEnd then reader.decoder.finish else reader.decoder.next

/-- The next frame or failure, if there is one. -/
def next (reader : FrameReader) : Option (Except FrameError ByteArray) × FrameReader :=
  if reader.hasFailed then (none, { reader with hasFailed := false, isReadable := false })
  else if _hreadable : reader.isReadable then
    match reader.ask with
    | (.frame body, decoder) => (some (.ok body), { reader with decoder })
    | (.failed e, decoder) => (some (.error e), { reader with decoder, hasFailed := true })
    | (.nothing, decoder) =>
      if reader.atEnd then (none, { reader with decoder, isReadable := false })
      else next { reader with decoder, isReadable := false }
  else
    match _hcoming : reader.coming with
    | piece :: coming =>
      next ⟨reader.decoder.append piece, coming, true, false, reader.hasFailed⟩
    | [] =>
      if _hend : reader.atEnd then (none, reader)
      else next { reader with isReadable := true, atEnd := true }
  termination_by 4 * reader.coming.length + 2 * (!reader.atEnd).toNat + reader.isReadable.toNat
  decreasing_by
    · simp [_hreadable]
    · simp [_hcoming]
      cases reader.atEnd <;> cases reader.isReadable <;> simp <;> omega
    · simp [_hend, _hreadable]

/-- How many bytes are not delivered yet. -/
def pending (reader : FrameReader) : Nat :=
  reader.decoder.buffer.size + reader.coming.foldr (fun piece size => piece.size + size) 0

/-- How often there can be a frame or a failure before there is none, at most; behind a failure not once. -/
def left (reader : FrameReader) : Nat := if reader.hasFailed then 0 else reader.pending + 1

theorem size_lt_of_ask {reader : FrameReader} {body : ByteArray} {decoder : Decoder}
    (h : reader.ask = (.frame body, decoder)) : decoder.buffer.size < reader.decoder.buffer.size := by
  unfold ask at h
  split at h
  · exact Decoder.size_lt_of_finish h
  · exact Decoder.size_lt_of_next h

/-- A reader that goes on has either failed, or fewer bytes are pending. -/
theorem pending_lt_of_next {reader rest : FrameReader} {item : Except FrameError ByteArray}
    (h : reader.next = (some item, rest)) :
    reader.hasFailed = false ∧
      (rest.hasFailed = true ∨ rest.hasFailed = false ∧ rest.pending < reader.pending) := by
  fun_induction next reader with
  | case1 => cases h
  | case2 reader hfailed hreadable body decoder hask =>
    cases h
    exact ⟨Bool.eq_false_iff.2 hfailed, Or.inr ⟨Bool.eq_false_iff.2 hfailed,
      Nat.add_lt_add_right (size_lt_of_ask hask) _⟩⟩
  | case3 reader hfailed hreadable e decoder hask =>
    cases h
    exact ⟨Bool.eq_false_iff.2 hfailed, Or.inl rfl⟩
  | case4 => cases h
  | case5 reader hfailed hreadable decoder hask hend ih =>
    -- blank parts may have been passed over
    have hsize : decoder.buffer.size ≤ reader.decoder.buffer.size := by
      rw [ask, if_neg hend] at hask
      have hle := reader.decoder.size_le_of_next
      rwa [hask] at hle
    obtain ⟨hnow, hlater⟩ := ih h
    refine ⟨hnow, hlater.imp_right fun ⟨hrest, hless⟩ => ⟨hrest, Nat.lt_of_lt_of_le hless ?_⟩⟩
    exact Nat.add_le_add_right hsize _
  | case6 reader hfailed hreadable piece coming hcoming ih =>
    obtain ⟨hnow, hlater⟩ := ih h
    refine ⟨hnow, hlater.imp_right fun ⟨hrest, hless⟩ => ⟨hrest, ?_⟩⟩
    have hsame : (FrameReader.mk (reader.decoder.append piece) coming true false reader.hasFailed).pending
        = reader.pending := by
      rw [pending, pending, hcoming, List.foldr_cons, ← Nat.add_assoc]
      exact congrArg (· + _) ByteArray.size_append
    rwa [hsame] at hless
  | case7 => cases h
  | case8 reader hfailed hreadable hcoming hend ih => exact ih h

theorem left_lt_of_next {reader rest : FrameReader} {item : Except FrameError ByteArray}
    (h : reader.next = (some item, rest)) : rest.left < reader.left := by
  obtain ⟨hreader, hrest | ⟨hrest, hless⟩⟩ := pending_lt_of_next h
  · rw [left, left, hreader, hrest]
    exact Nat.succ_pos _
  · rw [left, left, hreader, hrest]
    exact Nat.succ_lt_succ hless

/-- All frames and failures up to the first time that there is no next one, and the reader then. -/
def yields (reader : FrameReader) : List (Except FrameError ByteArray) × FrameReader :=
  match _h : reader.next with
  | (none, rest) => ([], rest)
  | (some item, rest) => (item :: rest.yields.1, rest.yields.2)
  termination_by reader.left
  decreasing_by all_goals exact left_lt_of_next _h

/-- Hands the requests among the frames to the handler, until it answers true or there is no next frame.
    Failures, and frames that hold no request, are passed over. -/
def serve {m : Type → Type} [Monad m] (reader : FrameReader) (request? : ByteArray → m (Option Request))
    (handle : Request → m Bool) : m ServeEnd :=
  match _h : reader.next with
  | (none, _) => pure .closed
  | (some (.error _), rest) => rest.serve request? handle
  | (some (.ok body), rest) => do
    match ← request? body with
    | none => rest.serve request? handle
    | some request =>
      if ← handle request then pure .handled
      else rest.serve request? handle
  termination_by reader.left
  decreasing_by all_goals exact left_lt_of_next _h

end FrameReader

end GraphWire
