import GraphWire.Proofs.Requests
import GraphWire.Proofs.Verdicts
import GraphWire.Wire.Reader
import Mathlib.Data.List.TakeWhile

/-!
# `Proofs.Oversized` — a frame that is too large ends the requests

The loop that serves requests passes over failures and asks for the next frame. But a reader that has passed on
a failure of its decoder says next that there is none, and this is what the loop takes for the end of the
stream. So the first part that is refused ends the requests, and whatever stands behind it is lost. Which part
that is depends on the parts and on where the pieces of the stream end: a part is refused if it is beyond the
limit, and also if it is torn.

## Contents
- **Streams.** `exists_parts`, every stream falls into parts and a rest, and `exists_arrived_of_tail`.
- **What is refused.** `Part.IsRefused` and `accepted`, with **`Decoder.drain_spec`** for any buffer.
- **Readers.** **`FrameReader.yields_of_drain`**, **`FrameReader.frames_eq_readStream`** and
  **`FrameReader.serve_eq`**: a reader against its decoder, and the loop over a reader against that over frames.
- **Runs.** `FrameReader.Takes` and **`FrameReader.takes_accepted`**.
- **Requests.** **`serve_stops_at_refused`**, and a request that is lost.
-/

namespace GraphWire

open Split

/-! ## Streams of parts -/

namespace Split

/-- A line that is not empty can be put in front. -/
theorem Passed.cons {line body : List UInt8} (hfeed : lineFeed ∉ line) (hheld : ¬ IsEmptyLine line)
    (h : Passed body) : Passed (line ++ lineFeed :: body) := by
  induction h with
  | nothing => exact .line .nothing hfeed hheld
  | @line front last _ hlast hnonempty ih =>
    have hassoc : line ++ lineFeed :: (front ++ last ++ [lineFeed])
        = line ++ lineFeed :: front ++ last ++ [lineFeed] := by simp
    rw [hassoc]
    exact .line ih hlast hnonempty

/-- What stands before a cut is a part. -/
theorem exists_part_of_cut? {stream body rest : List UInt8} (h : cut? stream = some (body, rest)) :
    ∃ part : Part, part.body = body ∧ stream = part.bytes ++ rest := by
  fun_induction cut? stream generalizing body with
  | case1 stream hnone => cases h
  | case2 stream line rest' hline hempty =>
    cases h
    obtain ⟨rfl, -⟩ := firstLine?_eq_some_iff.1 hline
    rcases hempty with rfl | rfl
    · exact ⟨⟨[], .nothing, false⟩, rfl, rfl⟩
    · exact ⟨⟨[], .nothing, true⟩, rfl, rfl⟩
  | case3 stream line rest' hline hempty ih =>
    obtain ⟨⟨body', rest''⟩, hcut, heq⟩ := Option.map_eq_some_iff.1 h
    cases heq
    obtain ⟨rfl, hfeed⟩ := firstLine?_eq_some_iff.1 hline
    obtain ⟨part, rfl, rfl⟩ := ih hcut
    refine ⟨⟨line ++ lineFeed :: part.body, part.passed.cons hfeed hempty, part.withReturn⟩, rfl, ?_⟩
    simp [Part.bytes, Part.ending]

/-- **Every stream falls into parts**, and a rest in which there is no cut. -/
theorem exists_parts (stream : List UInt8) :
    ∃ (parts : List Part) (tail : List UInt8), stream = parts.flatMap Part.bytes ++ tail ∧ cut? tail = none := by
  fun_induction parts stream with
  | case1 stream hcut => exact ⟨[], stream, rfl, hcut⟩
  | case2 stream body rest hcut ih =>
    obtain ⟨part, -, rfl⟩ := exists_part_of_cut? hcut
    obtain ⟨parts, tail, rfl, htail⟩ := ih
    exact ⟨part :: parts, tail, by rw [List.flatMap_cons, List.append_assoc], htail⟩

theorem parts_flatMap (parts : List Part) {tail : List UInt8} (htail : cut? tail = none) :
    Split.parts (parts.flatMap Part.bytes ++ tail) = (parts.map Part.body, tail) := by
  induction parts with
  | nil => exact parts_of_none htail
  | cons part parts ih =>
    rw [List.flatMap_cons, List.append_assoc, parts_of_some (part.cut?_bytes _), ih]
    rfl

/-- What has arrived of a stream with a rest. -/
theorem exists_arrived_of_tail {parts : List Part} {front more tail : List UInt8} (htail : cut? tail = none)
    (h : front ++ more = parts.flatMap Part.bytes ++ tail) :
    ∃ (done remaining : List Part) (held : List UInt8), parts = done ++ remaining ∧
      front = done.flatMap Part.bytes ++ held ∧ held ++ more = remaining.flatMap Part.bytes ++ tail ∧
      Split.parts front = (done.map Part.body, held) ∧
      ∀ part ∈ remaining.head?, held.length < part.bytes.length := by
  rcases List.append_eq_append_iff.1 h with ⟨later, hparts, hmore⟩ | ⟨held, hfront, hrest⟩
  · -- not all parts have arrived, or no more than these
    obtain ⟨done, remaining, held, rfl, hfront, hheld, harrived, hshort⟩ := exists_arrived hparts.symm
    refine ⟨done, remaining, held, rfl, hfront, ?_, harrived, hshort⟩
    rw [hmore, ← List.append_assoc, hheld]
  · refine ⟨parts, [], held, (List.append_nil parts).symm, hfront, hrest.symm, ?_, by simp⟩
    have hnone : cut? held = none := by
      cases hcut : cut? held with
      | none => rfl
      | some found =>
        rw [hrest, cut?_append hcut more] at htail
        cases htail
    rw [hfront, parts_flatMap parts hnone]

/-! ## What is refused -/

/-- The part is beyond the limit, or it is torn. -/
def Part.IsRefused (part : Part) (cuts : List Nat) (start : Nat) : Prop :=
  maxFrameSize < part.body.length ∨ part.IsTorn cuts start

instance (part : Part) (cuts : List Nat) (start : Nat) : Decidable (part.IsRefused cuts start) :=
  inferInstanceAs (Decidable (_ ∨ (_ ∧ _ ∧ _)))

/-- The parts in front of the first one that is refused. -/
def accepted (cuts : List Nat) (start : Nat) : List Part → List Part
  | [] => []
  | part :: parts =>
    if part.IsRefused cuts start then [] else part :: accepted cuts (start + part.bytes.length) parts

/-- A part in which no piece ends is refused for its size alone. -/
theorem Part.isRefused_iff {part : Part} {cuts : List Nat} {start : Nat}
    (h : ∀ e ∈ cuts, start + part.bytes.length ≤ e) :
    part.IsRefused cuts start ↔ maxFrameSize < part.body.length := by
  refine or_iff_left ?_
  rintro ⟨hlength, hreturn, hmem⟩
  have hle := h _ hmem
  rw [part.length_bytes, hreturn, if_pos rfl] at hle
  omega

/-- A piece that ends within what may be in the buffer makes no difference. -/
theorem accepted_cons_of_le {cuts : List Nat} {start e : Nat} (h : e ≤ start + maxFrameSize) (parts : List Part) :
    accepted (e :: cuts) start parts = accepted cuts start parts := by
  induction parts generalizing start with
  | nil => rfl
  | cons part parts ih =>
    have hother : start + maxFrameSize + 1 ≠ e := by omega
    have hsame : part.IsRefused (e :: cuts) start ↔ part.IsRefused cuts start := by
      rw [Part.IsRefused, Part.IsRefused, Part.IsTorn, Part.IsTorn, List.mem_cons, or_iff_right hother]
    have hnext : e ≤ start + part.bytes.length + maxFrameSize := by omega
    rw [accepted, accepted, ih hnext]
    simp only [hsame]

/-- Parts in which no piece ends are accepted up to the first that is beyond the limit. -/
theorem accepted_append {cuts : List Nat} {start : Nat} {done : List Part}
    (h : ∀ e ∈ cuts, start + (done.flatMap Part.bytes).length ≤ e) (parts : List Part) :
    accepted cuts start (done ++ parts) =
      if ∀ part ∈ done, part.body.length ≤ maxFrameSize then
        done ++ accepted cuts (start + (done.flatMap Part.bytes).length) parts
      else done.takeWhile fun part => part.body.length ≤ maxFrameSize := by
  induction done generalizing start with
  | nil => simp
  | cons part done ih =>
    rw [List.flatMap_cons, List.length_append, ← Nat.add_assoc] at h ⊢
    have hrefused : part.IsRefused cuts start ↔ maxFrameSize < part.body.length :=
      part.isRefused_iff fun e he => by have hle := h e he; omega
    rw [List.cons_append, accepted, ih h]
    simp only [hrefused, List.forall_mem_cons]
    by_cases hlarge : maxFrameSize < part.body.length
    · rw [if_pos hlarge, if_neg (fun hall => Nat.not_le.2 hlarge hall.1), List.takeWhile_cons_of_neg]
      simpa using hlarge
    · rw [if_neg hlarge]
      simp only [Nat.not_lt.1 hlarge, true_and, decide_true, List.takeWhile_cons_of_pos]
      split <;> rfl

/-- A part of which too much has arrived is refused. -/
theorem accepted_eq_nil {cuts : List Nat} {start : Nat} {parts : List Part} {held : List UInt8}
    (hshort : ∀ part ∈ parts.head?, held.length < part.bytes.length) (hlarge : maxFrameSize < held.length)
    (hmem : start + held.length ∈ cuts) : accepted cuts start parts = [] := by
  cases parts with
  | nil => rfl
  | cons part parts =>
    have hlength := hshort part rfl
    rw [part.length_bytes] at hlength
    rw [accepted, if_pos]
    by_cases hbody : maxFrameSize < part.body.length
    · exact Or.inl hbody
    · -- then all but the last byte of its empty line has arrived
      refine Or.inr ⟨?_, ?_⟩
      · split at hlength <;> omega
      · cases hreturn : part.withReturn with
        | false =>
          rw [hreturn, if_neg Bool.false_ne_true] at hlength
          omega
        | true =>
          rw [hreturn, if_pos rfl] at hlength
          have hplace : start + held.length = start + maxFrameSize + 1 := by omega
          exact ⟨rfl, hplace ▸ hmem⟩

/-- All parts that have their end, and what follows them, are within the limit. -/
def Within (stream : List UInt8) : Prop :=
  (∀ body ∈ (Split.parts stream).1, body.length ≤ maxFrameSize) ∧ (Split.rest stream).length ≤ maxFrameSize

/-- The frames in front of the first part that is beyond the limit. -/
def leading (stream : List UInt8) : List (List UInt8) :=
  ((Split.parts stream).1.takeWhile fun body => body.length ≤ maxFrameSize).filter isFrame

theorem within_of_none {stream : List UInt8} (h : cut? stream = none) :
    Within stream ↔ stream.length ≤ maxFrameSize := by
  rw [Within, rest_of_none h, parts_of_none h]
  exact and_iff_right fun body hbody => absurd hbody List.not_mem_nil

theorem within_of_some {stream body tail : List UInt8} (h : cut? stream = some (body, tail)) :
    Within stream ↔ body.length ≤ maxFrameSize ∧ Within tail := by
  rw [Within, Within, rest_of_some h, parts_of_some h, List.forall_mem_cons, and_assoc]

theorem leading_of_none {stream : List UInt8} (h : cut? stream = none) : leading stream = [] := by
  rw [leading, parts_of_none h]
  rfl

theorem leading_of_gt {stream body tail : List UInt8} (h : cut? stream = some (body, tail))
    (hlarge : maxFrameSize < body.length) : leading stream = [] := by
  rw [leading, parts_of_some h, List.takeWhile_cons_of_neg (by simpa using hlarge)]
  rfl

theorem leading_of_le {stream body tail : List UInt8} (h : cut? stream = some (body, tail))
    (hsmall : body.length ≤ maxFrameSize) :
    leading stream = if body.all isBlankByte then leading tail else body :: leading tail := by
  rw [leading, parts_of_some h, List.takeWhile_cons_of_pos (by simpa using hsmall), List.filter_cons, isFrame,
    decide_eq_true hsmall, Bool.true_and]
  cases body.all isBlankByte <;> rfl

end Split

namespace Decoder

/-- **A drain delivers what leads**, and fails exactly if something in the buffer is beyond the limit. -/
theorem drain_spec {d : Decoder} (h : d.Resumable) :
    ∃ bodies failure rest, d.drain false = (bodies, failure, rest) ∧ bodies.map octets = leading d.bytes ∧
      (Within d.bytes → failure = none ∧ rest.bytes = Split.rest d.bytes ∧ rest.Resumable) ∧
      (¬ Within d.bytes → ∃ size, maxFrameSize < size ∧ failure = some (.tooLarge size)) := by
  induction hsize : d.buffer.size using Nat.strongRecOn generalizing d with
  | ind n ih =>
    have hdrain := drain_eq false d
    rw [if_neg Bool.false_ne_true] at hdrain
    cases hcut : cut? d.bytes with
    | none =>
      obtain ⟨rest, hkeeps, hbuffer, hnext⟩ := next_of_no_cut h hcut
      have hbytes : rest.bytes = d.bytes := congrArg octets hbuffer
      have hlength : d.bytes.length = d.buffer.size := rfl
      rw [within_of_none hcut, leading_of_none hcut, rest_of_none hcut, hlength]
      rw [hnext] at hdrain
      by_cases hlarge : maxFrameSize < d.buffer.size
      · rw [if_pos hlarge] at hdrain
        exact ⟨[], _, rest, hdrain, rfl, fun hle => absurd hlarge (Nat.not_lt.2 hle), fun _ => ⟨_, hlarge, rfl⟩⟩
      · rw [if_neg hlarge] at hdrain
        exact ⟨[], _, rest, hdrain, rfl, fun _ => ⟨rfl, hbytes, hkeeps⟩,
          fun hnot => absurd (Nat.not_lt.1 hlarge) hnot⟩
    | some found =>
      obtain ⟨part, tail⟩ := found
      obtain ⟨after, body, hkeeps, rfl, hless, rfl, hnext⟩ := next_of_cut h hcut
      rw [within_of_some hcut, rest_of_some hcut]
      rw [hnext] at hdrain
      by_cases hlarge : maxFrameSize < (octets body).length
      · rw [if_pos hlarge] at hdrain
        rw [leading_of_gt hcut hlarge]
        exact ⟨[], _, after, hdrain, rfl, fun hle => absurd hlarge (Nat.not_lt.2 hle.1),
          fun _ => ⟨_, hlarge, rfl⟩⟩
      · obtain ⟨bodies, failure, rest, hlater, hbodies, hwithin, hfailure⟩ := ih _ (hsize ▸ hless) hkeeps rfl
        rw [if_neg hlarge] at hdrain
        rw [leading_of_le hcut (Nat.not_lt.1 hlarge), and_iff_right (Nat.not_lt.1 hlarge)]
        by_cases hblank : (octets body).all isBlankByte = true
        · -- a blank part is passed over within the call
          rw [if_pos hblank] at hdrain ⊢
          rw [drain_eq, if_neg Bool.false_ne_true] at hlater
          exact ⟨bodies, failure, rest, hdrain.trans hlater, hbodies, hwithin, hfailure⟩
        · rw [if_neg hblank] at hdrain ⊢
          dsimp only at hdrain
          rw [hlater] at hdrain
          exact ⟨body :: bodies, failure, rest, hdrain, by rw [List.map_cons, hbodies], hwithin, hfailure⟩

end Decoder

/-! ## The reader and its decoder -/

namespace FrameReader

theorem yields_of_none {reader rest : FrameReader} (h : reader.next = (none, rest)) :
    reader.yields = ([], rest) := by
  rw [yields]
  split
  · next hnone =>
    rw [h] at hnone
    cases hnone
    rfl
  · next hsome =>
    rw [h] at hsome
    cases hsome

theorem yields_of_some {reader rest : FrameReader} {item : Except FrameError ByteArray}
    (h : reader.next = (some item, rest)) : reader.yields = (item :: rest.yields.1, rest.yields.2) := by
  rw [yields]
  split
  · next hnone =>
    rw [h] at hnone
    cases hnone
  · next hsome =>
    rw [h] at hsome
    cases hsome
    rfl

/-- What comes up depends on the next call alone. -/
theorem yields_congr {reader other : FrameReader} (h : reader.next = other.next) :
    reader.yields = other.yields := by
  cases hnext : other.next with
  | mk item? rest =>
    cases item? with
    | none => rw [yields_of_none hnext, yields_of_none (h.trans hnext)]
    | some item => rw [yields_of_some hnext, yields_of_some (h.trans hnext)]

/-- What comes up when the decoder has no more frames: its failure, or what comes later. -/
def behind (reader : FrameReader) : Option FrameError → List (Except FrameError ByteArray) × FrameReader
  | some e => ([.error e], reader)
  | none => if reader.atEnd then ([], reader) else reader.yields

/-- A failure is passed on once, and then there is no next frame. -/
theorem yields_of_hasFailed {reader : FrameReader} (h : reader.hasFailed = true) :
    reader.yields = ([], { reader with hasFailed := false, isReadable := false }) := by
  apply yields_of_none
  rw [next, if_pos h]

/-- **A reader that may find frames in its buffer drains its decoder.** -/
theorem yields_of_drain {d rest : Decoder} (coming : List ByteArray) {atEnd : Bool} {bodies : List ByteArray}
    {failure : Option FrameError} (h : d.drain atEnd = (bodies, failure, rest)) :
    (FrameReader.mk d coming true atEnd false).yields =
      (bodies.map .ok ++ (behind ⟨rest, coming, false, atEnd, false⟩ failure).1,
        (behind ⟨rest, coming, false, atEnd, false⟩ failure).2) := by
  induction hsize : d.buffer.size using Nat.strongRecOn generalizing d bodies with
  | ind n ih =>
    have hnext := next.eq_1 ⟨d, coming, true, atEnd, false⟩
    have hask : (FrameReader.mk d coming true atEnd false).ask = if atEnd then d.finish else d.next := rfl
    rw [if_neg Bool.false_ne_true, dif_pos rfl] at hnext
    rw [Decoder.drain_eq, ← hask] at h
    cases hdelivery : (FrameReader.mk d coming true atEnd false).ask with
    | mk delivery after =>
      rw [hdelivery] at h hnext
      cases delivery with
      | frame body =>
        obtain ⟨rfl, hdrain⟩ := Prod.mk.inj h
        have hless : after.buffer.size < n := hsize ▸ size_lt_of_ask hdelivery
        have hlater := ih _ hless (Prod.ext rfl hdrain) rfl
        rw [yields_of_some hnext, hlater]
        rfl
      | failed e =>
        cases h
        rw [yields_of_some hnext, yields_of_hasFailed rfl]
        rfl
      | nothing =>
        cases h
        cases atEnd with
        | true => exact yields_of_none hnext
        | false => exact yields_congr hnext

/-- The next piece arrives. -/
theorem yields_cons (decoder : Decoder) (piece : ByteArray) (coming : List ByteArray) :
    (FrameReader.mk decoder (piece :: coming) false false false).yields =
      (FrameReader.mk (decoder.append piece) coming true false false).yields := by
  apply yields_congr
  rw [next, if_neg Bool.false_ne_true, dif_neg Bool.false_ne_true]

/-- The stream has ended. -/
theorem yields_nil (decoder : Decoder) :
    (FrameReader.mk decoder [] false false false).yields =
      (FrameReader.mk decoder [] true true false).yields := by
  apply yields_congr
  rw [next, if_neg Bool.false_ne_true, dif_neg Bool.false_ne_true, dif_neg Bool.false_ne_true]

/-- The frames up to the first time that there is no next one. -/
def frames (reader : FrameReader) : List ByteArray := reader.yields.1.filterMap Except.toOption

theorem frames_of_drain {d rest : Decoder} (coming : List ByteArray) {atEnd : Bool} {bodies : List ByteArray}
    {failure : Option FrameError} (h : d.drain atEnd = (bodies, failure, rest)) :
    (FrameReader.mk d coming true atEnd false).frames =
      bodies ++ (behind ⟨rest, coming, false, atEnd, false⟩ failure).1.filterMap Except.toOption := by
  have hbodies : (bodies.map (Except.ok (ε := FrameError))).filterMap Except.toOption = bodies := by
    rw [List.filterMap_map]
    exact List.filterMap_some
  rw [frames, yields_of_drain coming h, List.filterMap_append, hbodies]

/-- **The frames that come up are those of the stream up to the first failure.** -/
theorem frames_eq_readStream (d : Decoder) (pieces : List ByteArray) :
    (FrameReader.mk d pieces false false false).frames = d.readStream pieces := by
  induction pieces generalizing d with
  | nil =>
    cases hdrain : d.drain true with
    | mk bodies left =>
      obtain ⟨failure, rest⟩ := left
      rw [frames, yields_nil, ← frames, frames_of_drain [] hdrain, Decoder.readStream, hdrain]
      cases failure <;> exact List.append_nil bodies
  | cons piece pieces ih =>
    cases hdrain : (d.append piece).drain false with
    | mk bodies left =>
      obtain ⟨failure, rest⟩ := left
      rw [frames, yields_cons, ← frames, frames_of_drain pieces hdrain, Decoder.readStream, hdrain]
      cases failure with
      | none => exact congrArg (bodies ++ ·) (ih rest)
      | some e => exact List.append_nil bodies

/-- **The loop over a reader is the loop over the frames that come up.** -/
theorem serve_eq {m : Type → Type} [Monad m] (reader : FrameReader) (request? : ByteArray → m (Option Request))
    (handle : Request → m Bool) :
    reader.serve request? handle = GraphWire.serve request? handle reader.frames := by
  rw [frames]
  fun_induction yields reader with
  | case1 reader rest hnext =>
    rw [serve]
    split
    · rfl
    · next h =>
      rw [hnext] at h
      cases h
    · next h =>
      rw [hnext] at h
      cases h
  | case2 reader item rest hnext ih =>
    rw [serve]
    split
    · next h =>
      rw [hnext] at h
      cases h
    · next h =>
      rw [hnext] at h
      cases h
      exact ih
    · next h =>
      rw [hnext] at h
      cases h
      rw [ih]
      rfl

end FrameReader

/-! ## What comes up of a stream -/

namespace Split

section

variable {cuts : List Nat} {start : Nat} {done remaining : List Part} {held more tail : List UInt8}

/-- If all that has arrived is within the limit, the parts that are there are accepted, and the others as if
    nothing had been measured before. -/
theorem accepted_of_within (hcuts : ∀ e ∈ cuts, start + (done.flatMap Part.bytes).length ≤ e)
    (hdone : ∀ part ∈ done, part.body.length ≤ maxFrameSize) (hheld : held.length ≤ maxFrameSize) :
    accepted ((start + (done.flatMap Part.bytes).length + held.length) :: cuts) start (done ++ remaining) =
      done ++ accepted cuts (start + (done.flatMap Part.bytes).length) remaining := by
  rw [accepted_append, if_pos hdone, accepted_cons_of_le (Nat.add_le_add_left hheld _)]
  exact List.forall_mem_cons.2 ⟨Nat.le_add_right _ _, hcuts⟩

/-- If something that has arrived is beyond the limit, the parts that lead are accepted, and it is not all. -/
theorem accepted_of_not_within (hcuts : ∀ e ∈ cuts, start + (done.flatMap Part.bytes).length ≤ e)
    (hstream : held ++ more = remaining.flatMap Part.bytes ++ tail)
    (hshort : ∀ part ∈ remaining.head?, held.length < part.bytes.length)
    (h : ¬ ((∀ part ∈ done, part.body.length ≤ maxFrameSize) ∧ held.length ≤ maxFrameSize)) :
    accepted ((start + (done.flatMap Part.bytes).length + held.length) :: cuts) start (done ++ remaining) =
        done.takeWhile (fun part => part.body.length ≤ maxFrameSize) ∧
      ¬ (done.takeWhile (fun part => part.body.length ≤ maxFrameSize) = done ++ remaining ∧
        tail.length ≤ maxFrameSize) := by
  have hcuts' : ∀ e ∈ (start + (done.flatMap Part.bytes).length + held.length) :: cuts,
      start + (done.flatMap Part.bytes).length ≤ e :=
    List.forall_mem_cons.2 ⟨Nat.le_add_right _ _, hcuts⟩
  rw [accepted_append hcuts']
  by_cases hdone : ∀ part ∈ done, part.body.length ≤ maxFrameSize
  · -- then it is what has arrived of the next part, or of the rest
    have hlarge : maxFrameSize < held.length := Nat.not_le.1 fun hheld => h ⟨hdone, hheld⟩
    have hall : done.takeWhile (fun part => part.body.length ≤ maxFrameSize) = done :=
      List.takeWhile_eq_self_iff.2 fun part hpart => decide_eq_true (hdone part hpart)
    rw [if_pos hdone, accepted_eq_nil hshort hlarge List.mem_cons_self, List.append_nil, hall]
    refine ⟨rfl, fun ⟨heq, hrest⟩ => ?_⟩
    have hnil : remaining = [] := List.self_eq_append_right.1 heq
    have hlength := congrArg List.length hstream
    rw [hnil, List.flatMap_nil, List.nil_append, List.length_append] at hlength
    omega
  · rw [if_neg hdone]
    refine ⟨rfl, fun ⟨heq, _⟩ => hdone fun part hpart => ?_⟩
    have hmem := List.mem_takeWhile_imp (heq ▸ List.mem_append_left remaining hpart)
    exact of_decide_eq_true hmem

end

end Split

namespace FrameReader

/-- What comes up of a stream with the given parts and rest if some of the parts are taken: the frames among
    these, and a failure, unless the stream is read to its end. -/
structure Takes (reader : FrameReader) (taken parts : List Part) (tail : List UInt8) : Prop where
  frames : reader.frames.map octets = (taken.map Part.body).filter isFrame
  atEnd : reader.yields.2.atEnd = true ↔ taken = parts ∧ tail.length ≤ maxFrameSize
  failure : reader.yields.2.atEnd = false →
    ∃ size, maxFrameSize < size ∧ reader.yields.1.getLast? = some (.error (.tooLarge size))

/-- At the end of the stream nothing more is taken of bytes without a cut. -/
theorem takes_nil {d : Decoder} (h : d.Resumable) (hcut : cut? d.bytes = none)
    (hsize : d.bytes.length ≤ maxFrameSize) :
    (FrameReader.mk d [] false false false).Takes [] [] d.bytes := by
  obtain ⟨rest, -, -, hnext⟩ := Decoder.next_of_no_cut h hcut
  have hsmall : ¬ maxFrameSize < d.buffer.size := Nat.not_lt.2 hsize
  rw [if_neg hsmall] at hnext
  have hbodies := Decoder.drain_of_no_frame true (Or.inl hnext)
  have hend : (FrameReader.mk d [] false false false).yields.2.atEnd = true := by
    cases hdrain : d.drain true with
    | mk bodies left =>
      obtain ⟨failure, after⟩ := left
      rw [yields_nil, yields_of_drain [] hdrain]
      cases failure <;> rfl
  constructor
  · rw [frames_eq_readStream, Decoder.readStream, hbodies]
    rfl
  · exact ⟨fun _ => ⟨rfl, hsize⟩, fun _ => hend⟩
  · intro hnot
    rw [hend] at hnot
    cases hnot

section

variable {d rest : Decoder} {piece : ByteArray} {pieces bodies : List ByteArray} {done taken parts : List Part}
  {tail : List UInt8}

/-- The reader goes on behind a piece if its decoder does. -/
theorem takes_cons (hdrain : (d.append piece).drain false = (bodies, none, rest))
    (hbodies : bodies.map octets = (done.map Part.body).filter isFrame)
    (h : (FrameReader.mk rest pieces false false false).Takes taken parts tail) :
    (FrameReader.mk d (piece :: pieces) false false false).Takes (done ++ taken) (done ++ parts) tail := by
  have hyields := (yields_cons d piece pieces).trans (yields_of_drain pieces hdrain)
  constructor
  · rw [frames, yields_cons, ← frames, frames_of_drain pieces hdrain]
    show (bodies ++ frames ⟨rest, pieces, false, false, false⟩).map octets = _
    rw [List.map_append, hbodies, h.frames, List.map_append, List.filter_append]
  · rw [hyields, List.append_cancel_left_eq]
    exact h.atEnd
  · rw [hyields]
    intro hnot
    obtain ⟨size, hlarge, hlast⟩ := h.failure hnot
    refine ⟨size, hlarge, ?_⟩
    show (bodies.map Except.ok ++ (yields ⟨rest, pieces, false, false, false⟩).1).getLast? = _
    rw [List.getLast?_append, hlast]
    rfl

/-- The reader rests if its decoder fails. -/
theorem takes_of_failure {size : Nat} (hlarge : maxFrameSize < size)
    (hdrain : (d.append piece).drain false = (bodies, some (.tooLarge size), rest))
    (hbodies : bodies.map octets = (taken.map Part.body).filter isFrame)
    (hnot : ¬ (taken = parts ∧ tail.length ≤ maxFrameSize)) :
    (FrameReader.mk d (piece :: pieces) false false false).Takes taken parts tail := by
  have hyields := (yields_cons d piece pieces).trans (yields_of_drain pieces hdrain)
  constructor
  · rw [frames, yields_cons, ← frames, frames_of_drain pieces hdrain]
    exact (congrArg (List.map octets) (List.append_nil bodies)).trans hbodies
  · rw [hyields]
    exact ⟨fun hend => (Bool.false_ne_true hend).elim, fun htaken => absurd htaken hnot⟩
  · intro _
    rw [hyields]
    exact ⟨size, hlarge, List.getLast?_concat⟩

end

/-- **A reader takes the parts in front of the first that is refused**, and reads no further. -/
theorem takes_accepted {d : Decoder} (h : d.Resumable) (hcut : cut? d.bytes = none)
    (hsize : d.bytes.length ≤ maxFrameSize) (start : Nat) {pieces : List ByteArray} {parts : List Part}
    {tail : List UInt8} (hstream : d.bytes ++ pieces.flatMap octets = parts.flatMap Part.bytes ++ tail)
    (htail : cut? tail = none) :
    (FrameReader.mk d pieces false false false).Takes
      (accepted (ends (start + d.bytes.length) pieces) start parts) parts tail := by
  induction pieces generalizing d start parts with
  | nil =>
    rw [List.flatMap_nil, List.append_nil] at hstream
    obtain rfl := eq_nil_of_no_cut hcut hstream
    rw [List.flatMap_nil, List.nil_append] at hstream
    exact hstream ▸ takes_nil h hcut hsize
  | cons piece pieces ih =>
    rw [List.flatMap_cons, ← List.append_assoc, ← Decoder.bytes_append] at hstream
    obtain ⟨done, remaining, held, rfl, hfront, hheld, hparts, hshort⟩ := exists_arrived_of_tail htail hstream
    obtain ⟨bodies, failure, rest, hdrain, hbodies, hwithin, hfails⟩ := Decoder.drain_spec (h.append piece)
    rw [leading, hparts, List.takeWhile_map] at hbodies
    rw [Within, Split.rest, hparts] at hwithin hfails
    simp only [List.forall_mem_map] at hwithin hfails
    have hcuts : ∀ e ∈ ends (start + (done.flatMap Part.bytes).length + held.length) pieces,
        start + (done.flatMap Part.bytes).length ≤ e :=
      fun e he => Nat.le_trans (Nat.le_add_right _ _) (le_of_mem_ends he)
    rw [ends_cons hfront]
    by_cases hall : (∀ part ∈ done, part.body.length ≤ maxFrameSize) ∧ held.length ≤ maxFrameSize
    · obtain ⟨rfl, rfl, hkeeps⟩ := hwithin hall
      have hnone := cut?_parts (d.append piece).bytes
      rw [hparts] at hnone
      have hlater := ih hkeeps hnone hall.2 (start + (done.flatMap Part.bytes).length) hheld
      have hdone : (done.map Part.body).takeWhile (fun body => body.length ≤ maxFrameSize) = done.map Part.body :=
        List.takeWhile_eq_self_iff.2 (by simpa using hall.1)
      rw [← List.takeWhile_map, hdone] at hbodies
      rw [accepted_of_within hcuts hall.1 hall.2]
      exact takes_cons hdrain hbodies hlater
    · obtain ⟨size, hlarge, rfl⟩ := hfails hall
      obtain ⟨htaken, hnot⟩ := accepted_of_not_within hcuts hheld hshort hall
      rw [htaken]
      exact takes_of_failure hlarge hdrain hbodies hnot

end FrameReader

/-! ## The requests of an engine -/

theorem accepted_isPrefix (cuts : List Nat) (start : Nat) (parts : List Part) :
    accepted cuts start parts <+: parts := by
  induction parts generalizing start with
  | nil => exact List.nil_prefix
  | cons part parts ih =>
    rw [accepted]
    split
    · exact List.nil_prefix
    · exact (List.prefix_cons_inj part).2 (ih _)

/-- What is accepted is within the limit. -/
theorem length_le_of_mem_accepted {cuts : List Nat} {start : Nat} {parts : List Part} {part : Part}
    (h : part ∈ accepted cuts start parts) : part.body.length ≤ maxFrameSize := by
  induction parts generalizing start with
  | nil => cases h
  | cons first parts ih =>
    rw [accepted] at h
    split at h
    · cases h
    · next hkept =>
      rcases List.mem_cons.1 h with rfl | h
      · exact Nat.not_lt.1 fun hlarge => hkept (Or.inl hlarge)
      · exact ih h

/-- The frames of a stream of parts. -/
theorem frames_flatMap (parts : List Part) {tail : List UInt8} (htail : cut? tail = none) :
    Split.frames (parts.flatMap Part.bytes ++ tail) = (parts.map Part.body).filter isFrame := by
  rw [Split.frames, parts_flatMap parts htail]

section

variable {ε σ : Type} {place : SessionIn σ} {handle : Request → σ → Bool × σ}

/-- **A part that is refused ends the requests.** Let an engine that keeps running write any stream, in any
    pieces, and let a handler serve its requests that takes back no schema. The stream falls into parts, and
    those in front of the first one that is beyond the limit, or torn, are taken. The frames among them come
    up; the frames of the others are lost. The end of the stream is seen exactly if nothing is refused, and
    otherwise a failure is the last that comes up. The loop ends in any case, whether or not the calls are
    recorded, and they are those of the frames that came up and hold a request, in order, up to the first that
    is answered with true. -/
theorem serve_stops_at_refused {engine : Engine} (hrunning : engine.behaviour.isDead = false)
    (hkeeps : KeepsSchemas place handle) {state : σ}
    (hadmits : (place.get state).registry.Admits messageEntries) :
    ∃ (taken lost : List Part) (tail : List UInt8),
      octets (joined engine.behaviour.output) = (taken ++ lost).flatMap Part.bytes ++ tail ∧
      cut? tail = none ∧
      accepted (ends 0 engine.behaviour.output) 0 (taken ++ lost) = taken ∧
      (FrameReader.reading engine.behaviour.output).frames = engine.frames ∧
      (FrameReader.reading engine.behaviour.output).Takes taken (taken ++ lost) tail ∧
      Split.frames (octets (joined engine.behaviour.output)) =
        engine.frames.map octets ++ (lost.map Part.body).filter isFrame ∧
      ∃ ending after calls,
        ((FrameReader.reading engine.behaviour.output).serve place.request? (answering handle) :
          EStateM ε σ ServeEnd) state = .ok ending after ∧
        ((FrameReader.reading engine.behaviour.output).serve (place.beside (List (Request × σ))).request?
          (answering (recorded handle)) : EStateM ε (σ × List (Request × σ)) ServeEnd) (state, [])
          = .ok ending (after, calls) ∧
        Serves place handle (engine.frames.filterMap Frame.request?) calls ending := by
  obtain ⟨parts, tail, hstream, htail⟩ := exists_parts (octets (joined engine.behaviour.output))
  have hframes : (FrameReader.reading engine.behaviour.output).frames = engine.frames := by
    rw [Engine.frames, hrunning]
    exact FrameReader.frames_eq_readStream .fresh engine.behaviour.output
  have htakes : (FrameReader.reading engine.behaviour.output).Takes
      (accepted (ends 0 engine.behaviour.output) 0 parts) parts tail :=
    FrameReader.takes_accepted (Decoder.resumable_ofBytes .empty) (cut?_of_no_feed List.not_mem_nil)
      (Nat.zero_le _) 0 ((octets_joined _).symm.trans hstream) htail
  obtain ⟨lost, hparts⟩ := accepted_isPrefix (ends 0 engine.behaviour.output) 0 parts
  obtain ⟨taken, htaken⟩ : ∃ taken, accepted (ends 0 engine.behaviour.output) 0 parts = taken := ⟨_, rfl⟩
  rw [htaken] at htakes hparts
  subst hparts
  obtain ⟨ending, after, calls, hserve, hrecord, hserves⟩ :=
    serves_serve (ε := ε) hkeeps engine.frames hadmits []
  refine ⟨taken, lost, tail, hstream, htail, htaken, hframes, htakes, ?_, ending, after, calls, ?_, ?_, hserves⟩
  · rw [hstream, frames_flatMap _ htail, List.map_append, List.filter_append, ← htakes.frames, hframes]
  · rw [FrameReader.serve_eq, hframes, hserve]
  · rw [FrameReader.serve_eq, hframes, hrecord, List.nil_append]

/-- Letters beyond the limit, and the request to end behind them. -/
def oversizedEngine : Engine :=
  ⟨⟨[⟨⟨(Part.ofLetters maxFrameSize false).bytes⟩⟩, "request.type <- 'exit';\n\n".toUTF8], 0, false, false⟩,
    .opened, none⟩

/-- The stream of the letters falls into two parts, the first of which is beyond the limit. -/
theorem exists_parts_oversized :
    ∃ ending : Part, ending.body = octets "request.type <- 'exit';\n".toUTF8 ∧
      octets (joined oversizedEngine.behaviour.output) =
        [Part.ofLetters maxFrameSize false, ending].flatMap Part.bytes ++ [] := by
  have hcut : cut? (octets "request.type <- 'exit';\n\n".toUTF8)
      = some (octets "request.type <- 'exit';\n".toUTF8, []) := by
    decide +kernel
  obtain ⟨ending, hbody, hbytes⟩ := exists_part_of_cut? hcut
  refine ⟨ending, hbody, ?_⟩
  rw [List.append_nil] at hbytes
  rw [octets_joined, List.append_nil]
  show (Part.ofLetters maxFrameSize false).bytes ++ (octets "request.type <- 'exit';\n\n".toUTF8 ++ []) = _
  rw [hbytes]
  rfl

theorem lt_length_ofLetters (withReturn : Bool) :
    maxFrameSize < (Part.ofLetters maxFrameSize withReturn).body.length := by
  rw [Part.length_ofLetters]
  exact Nat.lt_succ_of_lt (Nat.lt_succ_self _)

/-- The loop over the letters ends, and not because the stream does. -/
theorem serve_stops_at_refused_letters :
    ∃ ending after,
      (FrameReader.reading oversizedEngine.behaviour.output).serve Fairy.request? (answering untilExit)
        (Fairy.new .fresh ⟨0, "config"⟩) = .ok ending after ∧
      (FrameReader.reading oversizedEngine.behaviour.output).yields.2.atEnd = false := by
  have hkeeps : KeepsSchemas .fairy untilExit := fun _ fairy => Registry.Within.refl fairy.session.registry
  have hadmits : (SessionIn.fairy.get (Fairy.new .fresh ⟨0, "config"⟩)).registry.Admits messageEntries := by
    intro e _ holder hget
    cases hget
  have hrunning : oversizedEngine.behaviour.isDead = false := rfl
  obtain ⟨taken, lost, tail, hstream, htail, htaken, -, htakes, -, ending, after, calls, hserve, -⟩ :=
    serve_stops_at_refused (ε := FairyError) hrunning hkeeps hadmits
  have hsame : Fairy.request? = SessionIn.fairy.request? := funext Fairy.request?_eq
  rw [hsame]
  refine ⟨ending, after, hserve, Bool.eq_false_iff.2 fun hend => ?_⟩
  -- otherwise the letters would be a part that is within the limit
  obtain ⟨last, -, hparts⟩ := exists_parts_oversized
  have hnone : cut? [] = none := cut?_of_no_feed List.not_mem_nil
  have hbodies := congrArg Split.parts (hparts.symm.trans hstream)
  rw [parts_flatMap _ htail, parts_flatMap _ hnone] at hbodies
  have hmem : (Part.ofLetters maxFrameSize false).body ∈ (taken ++ lost).map Part.body :=
    (Prod.mk.inj hbodies).1 ▸ List.mem_cons_self
  rw [← (htakes.atEnd.1 hend).1] at hmem
  obtain ⟨part, hpart, hbody⟩ := List.mem_map.1 hmem
  have hsmall := length_le_of_mem_accepted (htaken ▸ hpart)
  rw [hbody] at hsmall
  exact absurd (lt_length_ofLetters false) (Nat.not_lt.2 hsmall)

/-- **The request behind a frame that is too large is lost**: it is among the frames of the stream, and a request,
    but the loop ends without a call of the handler and before the end of the stream. -/
theorem request_behind_oversized_is_lost :
    octets "request.type <- 'exit';\n".toUTF8 ∈
        Split.frames (octets (joined oversizedEngine.behaviour.output)) ∧
      (Frame.request? "request.type <- 'exit';\n".toUTF8).map Prod.fst = some .exit ∧
      (FrameReader.reading oversizedEngine.behaviour.output).serve Fairy.request? (answering untilExit)
        (Fairy.new .fresh ⟨0, "config"⟩) = .ok .closed (Fairy.new .fresh ⟨0, "config"⟩) ∧
      (FrameReader.reading oversizedEngine.behaviour.output).yields.2.atEnd = false := by
  obtain ⟨ending, hbody, hstream⟩ := exists_parts_oversized
  have hnone : cut? [] = none := cut?_of_no_feed List.not_mem_nil
  have htakes : (FrameReader.reading oversizedEngine.behaviour.output).Takes
      (accepted (ends 0 oversizedEngine.behaviour.output) 0 [Part.ofLetters maxFrameSize false, ending])
      [Part.ofLetters maxFrameSize false, ending] [] :=
    FrameReader.takes_accepted (Decoder.resumable_ofBytes .empty) hnone (Nat.zero_le _) 0
      ((octets_joined _).symm.trans hstream) hnone
  have hrefused : (Part.ofLetters maxFrameSize false).IsRefused (ends 0 oversizedEngine.behaviour.output) 0 :=
    Or.inl (lt_length_ofLetters false)
  rw [accepted, if_pos hrefused] at htakes
  have hframes : (FrameReader.reading oversizedEngine.behaviour.output).frames = [] :=
    List.map_eq_nil_iff.1 htakes.frames
  refine ⟨?_, by decide +kernel, ?_, ?_⟩
  · rw [hstream, frames_flatMap _ hnone, ← hbody]
    refine List.mem_filter.2 ⟨List.mem_cons_of_mem _ List.mem_cons_self, ?_⟩
    rw [hbody]
    decide +kernel
  · rw [FrameReader.serve_eq, hframes]
    rfl
  · exact Bool.eq_false_iff.2 fun hend => List.cons_ne_nil _ _ (htakes.atEnd.1 hend).1.symm

end

end GraphWire
