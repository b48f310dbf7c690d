import GraphWire.Proofs.Encoding

/-!
# `Proofs.Reading` — a stream whose parts are within the limit is read to its end

Behind a failure nothing more is read, so a reader gets all frames of a stream only if no call of its decoder
fails. A call can fail because what has arrived is too large, and that is never more than a part with its
empty line, or what follows the last one. If all of these are within the limit, the frames that are read are
those of the reference, in whatever pieces the stream arrives, and the only failure is that the stream may
end within a frame.

## Contents
- **`Split.spans`**, how much of the stream the parts take, and **`Split.Fits`**.
- **Between cuts.** `length_lt_of_cut?_append`, and **`Fits.length_le`**: what has arrived of a part fits.
- **Runs.** **`Decoder.drain_of_fits`** and **`Decoder.readStream_of_fits`**.
-/

namespace GraphWire

open Split

/-! ## Parts with their empty lines -/

namespace Split

/-- How many bytes each part takes, with the empty line that ends it. -/
def spans (stream : List UInt8) : List Nat :=
  match _h : cut? stream with
  | none => []
  | some (_, rest) => (stream.length - rest.length) :: spans rest
  termination_by stream.length
  decreasing_by exact length_lt_of_cut? _h

theorem spans_of_some {stream body rest : List UInt8} (h : cut? stream = some (body, rest)) :
    spans stream = (stream.length - rest.length) :: spans rest := by
  rw [spans]
  split
  · next hnone =>
    rw [h] at hnone
    cases hnone
  · next hsome =>
    rw [h] at hsome
    cases hsome
    rfl

/-- Every part, its empty line included, and what follows the last one are within the limit. -/
def Fits (stream : List UInt8) : Prop :=
  (∀ span ∈ spans stream, span ≤ maxFrameSize) ∧ (rest stream).length ≤ maxFrameSize

theorem Fits.of_cut? {stream body tail : List UInt8} (h : Fits stream)
    (hcut : cut? stream = some (body, tail)) :
    stream.length - tail.length ≤ maxFrameSize ∧ Fits tail := by
  obtain ⟨hspans, hrest⟩ := h
  rw [spans_of_some hcut] at hspans
  rw [rest_of_some hcut] at hrest
  obtain ⟨hspan, hspans⟩ := List.forall_mem_cons.1 hspans
  exact ⟨hspan, hspans, hrest⟩

/-- **The first cut of a stream that grows is in what was added**, if there was none before. -/
theorem length_lt_of_cut?_append {stream more body tail : List UInt8} (hnone : cut? stream = none)
    (h : cut? (stream ++ more) = some (body, tail)) : tail.length < more.length := by
  fun_induction cut? stream generalizing body with
  | case1 stream hline =>
    -- the first line ends in what was added
    rw [cut?_eq] at h
    split at h
    · cases h
    · next line rest hfirst =>
      obtain ⟨heq, hnot⟩ := firstLine?_eq_some_iff.1 hfirst
      have hless : rest.length < more.length := by
        rcases List.append_eq_append_iff.1 heq with ⟨front, -, hmore⟩ | ⟨back, hstream, hback⟩
        · rw [hmore, List.length_append, List.length_cons]
          omega
        · cases back with
          | nil =>
            rw [List.nil_append] at hback
            rw [← hback]
            exact Nat.lt_succ_self _
          | cons b back =>
            cases hback
            have hfeed : lineFeed ∈ stream := hstream ▸ List.mem_append_right _ List.mem_cons_self
            exact absurd hfeed (firstLine?_eq_none_iff.1 hline)
      split at h
      · cases h
        exact hless
      · obtain ⟨⟨body', tail'⟩, hcut, hpair⟩ := Option.map_eq_some_iff.1 h
        cases hpair
        exact Nat.lt_trans (length_lt_of_cut? hcut) hless
  | case2 stream line rest hline hempty => cases hnone
  | case3 stream line rest hline hempty ih =>
    obtain ⟨rfl, hnot⟩ := firstLine?_eq_some_iff.1 hline
    rw [List.append_assoc, List.cons_append, cut?_line hnot, if_neg hempty] at h
    obtain ⟨⟨body', tail'⟩, hcut, hpair⟩ := Option.map_eq_some_iff.1 h
    cases hpair
    exact ih (Option.map_eq_none_iff.1 hnone) hcut

/-- What has arrived of a part is within the limit. -/
theorem Fits.length_le {stream more : List UInt8} (h : Fits (stream ++ more))
    (hnone : cut? stream = none) : stream.length ≤ maxFrameSize := by
  cases hcut : cut? (stream ++ more) with
  | none =>
    have hrest := h.2
    rw [rest_of_none hcut, List.length_append] at hrest
    omega
  | some found =>
    obtain ⟨body, tail⟩ := found
    obtain ⟨hspan, -⟩ := h.of_cut? hcut
    have hless := length_lt_of_cut?_append hnone hcut
    rw [List.length_append] at hspan
    omega

end Split

/-! ## Runs of a decoder -/

namespace Decoder

/-- **All frames that have arrived are delivered, and no call fails**, if the stream fits with what follows. -/
theorem drain_of_fits {d : Decoder} (h : d.Resumable) {more : List UInt8} (hfits : Fits (d.bytes ++ more)) :
    ∃ bodies rest, d.drain false = (bodies, none, rest) ∧ bodies.map octets = frames d.bytes ∧
      rest.bytes = Split.rest d.bytes ∧ rest.Resumable ∧ Fits (rest.bytes ++ more) := by
  induction hsize : d.buffer.size using Nat.strongRecOn generalizing d with
  | ind n ih =>
    cases hcut : cut? d.bytes with
    | none =>
      obtain ⟨rest, hkeeps, hbuffer, hnext⟩ := next_of_no_cut h hcut
      have hbytes : rest.bytes = d.bytes := congrArg octets hbuffer
      have hsmall : ¬ maxFrameSize < d.buffer.size := Nat.not_lt.2 (hfits.length_le hcut)
      rw [if_neg hsmall] at hnext
      refine ⟨[], rest, ?_, ?_, ?_, hkeeps, hbytes ▸ hfits⟩
      · rw [drain_eq, if_neg Bool.false_ne_true, hnext]
      · rw [frames_of_none hcut]
        rfl
      · rw [hbytes, rest_of_none hcut]
    | some found =>
      obtain ⟨part, tail⟩ := found
      obtain ⟨rest, body, hkeeps, rfl, hless, rfl, hnext⟩ := next_of_cut h hcut
      obtain ⟨hspan, hfits⟩ := hfits.of_cut? (cut?_append hcut more)
      have hpart : (octets body).length ≤ maxFrameSize := by
        have hlength := length_add_of_cut? hcut
        simp only [List.length_append] at hspan
        omega
      obtain ⟨bodies, last, hdrain, hframes, hrest, hlast, hfits⟩ := ih _ (hsize ▸ hless) hkeeps hfits rfl
      rw [if_neg (Nat.not_lt.2 hpart)] at hnext
      rw [frames_of_some hcut, rest_of_some hcut, isFrame, decide_eq_true hpart, Bool.true_and]
      by_cases hblank : (octets body).all isBlankByte = true
      · -- a blank part is passed over within the call
        rw [if_pos hblank] at hnext
        rw [hblank, Bool.not_true, if_neg Bool.false_ne_true]
        refine ⟨bodies, last, ?_, hframes, hrest, hlast, hfits⟩
        rw [drain_eq, if_neg Bool.false_ne_true, hnext]
        rw [drain_eq, if_neg Bool.false_ne_true] at hdrain
        exact hdrain
      · rw [if_neg hblank] at hnext
        rw [Bool.eq_false_iff.2 hblank, Bool.not_false, if_pos rfl]
        refine ⟨body :: bodies, last, ?_, by rw [List.map_cons, hframes], hrest, hlast, hfits⟩
        rw [drain_of_frame false hnext, hdrain]

/-- **A stream that fits is read as the reference splits it**, in whatever pieces it arrives. -/
theorem readStream_of_fits {d : Decoder} (h : d.Resumable) (hcut : cut? d.bytes = none)
    {pieces : List ByteArray} (hfits : Fits (d.bytes ++ pieces.flatMap octets)) :
    (d.readStream pieces).map octets = frames (d.bytes ++ pieces.flatMap octets) := by
  induction pieces generalizing d with
  | nil =>
    -- at the end only a failure can come, of a frame that is not finished
    obtain ⟨rest, -, -, hnext⟩ := next_of_no_cut h hcut
    have hsmall : ¬ maxFrameSize < d.buffer.size := Nat.not_lt.2 (hfits.length_le hcut)
    rw [if_neg hsmall] at hnext
    rw [readStream, drain_of_no_frame true (Or.inl hnext), List.flatMap_nil, List.append_nil,
      frames_of_none hcut]
    rfl
  | cons piece pieces ih =>
    rw [List.flatMap_cons, ← List.append_assoc, ← bytes_append] at hfits ⊢
    obtain ⟨bodies, rest, hdrain, hframes, hrest, hkeeps, hfits⟩ := drain_of_fits (h.append piece) hfits
    have hnone : cut? rest.bytes = none := by
      rw [hrest]
      exact cut?_parts _
    rw [readStream, hdrain]
    show (bodies ++ rest.readStream pieces).map octets = _
    rw [List.map_append, hframes, ih hkeeps hnone hfits, hrest, ← frames_append]

end Decoder

end GraphWire
