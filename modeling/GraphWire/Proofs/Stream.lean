import GraphWire.Proofs.Split

/-!
# `Proofs.Stream` — the decoder delivers the split of its stream

The decoder searches each byte once: it remembers how far it has looked and where the line begins in
which it stopped. What makes that sound is the invariant `Searched`: the bytes before that line are
whole lines, none of them empty, and between its start and the place reached there is no line feed.
Under it the search finds the first cut of the whole buffer, so what a decoder delivers depends on
the stream alone and not on the pieces in which it arrived.

## Contents
- **`Searched`**, kept by every step of the search, with `search_spec`.
- **Runs.** `Decoder.pump` takes frames as long as there are any, `Decoder.feed` does so after each
  piece of a stream.
- **Checked search.** `checkedSearch` fails at an access out of range; `checkedSearch_eq`, it never
  does.
- **`feed_eq_split`**, the decoder against the reference.
-/

namespace GraphWire

open Split

/-! ## The search -/

/-- The bytes of a buffer. -/
abbrev octets (buffer : ByteArray) : List UInt8 := buffer.data.toList

theorem octets_extract (buffer : ByteArray) (start finish : Nat) :
    octets (buffer.extract start finish) = ((octets buffer).take finish).drop start := by
  rw [octets, ByteArray.data_extract, Array.toList_extract, List.extract_eq_take_drop,
    List.drop_take]

/-- What a search knows that stands at `i`, in the line that begins at `lineStart`. -/
structure Searched (bytes : List UInt8) (lineStart i : Nat) : Prop where
  passed : Passed (bytes.take lineStart)
  noFeed : lineFeed ∉ (bytes.take i).drop lineStart

theorem Searched.start (bytes : List UInt8) : Searched bytes 0 0 := ⟨.nothing, List.not_mem_nil⟩

theorem Searched.append {bytes : List UInt8} {lineStart i : Nat} (h : Searched bytes lineStart i)
    (hl : lineStart ≤ i) (hi : i ≤ bytes.length) (more : List UInt8) :
    Searched (bytes ++ more) lineStart i := by
  refine ⟨?_, ?_⟩
  · rw [List.take_append_of_le_length (Nat.le_trans hl hi)]
    exact h.passed
  · rw [List.take_append_of_le_length hi]
    exact h.noFeed

/-- The bytes fall into the lines passed over, the line of the search up to its place, and the rest. -/
theorem take_append_line (bytes : List UInt8) {lineStart i : Nat} (hl : lineStart ≤ i) :
    bytes.take lineStart ++ (bytes.take i).drop lineStart = bytes.take i := by
  have htake : bytes.take lineStart = (bytes.take i).take lineStart := by
    rw [List.take_take, Nat.min_eq_left hl]
  rw [htake, List.take_append_drop]

/-- A byte other than a line feed belongs to the line. -/
theorem Searched.byte {bytes : List UInt8} {lineStart i : Nat} (h : Searched bytes lineStart i)
    (hl : lineStart ≤ i) (hi : i < bytes.length) (hb : bytes[i] ≠ lineFeed) :
    Searched bytes lineStart (i + 1) := by
  refine ⟨h.passed, ?_⟩
  rw [List.take_succ_eq_append_getElem hi, List.drop_append_of_le_length (by simp; omega)]
  intro hm
  rcases List.mem_append.1 hm with hm | hm
  · exact h.noFeed hm
  · exact hb (List.mem_singleton.1 hm).symm

/-- A line feed behind a line that is not empty begins the next line. -/
theorem Searched.feed {bytes : List UInt8} {lineStart i : Nat} (h : Searched bytes lineStart i)
    (hl : lineStart ≤ i) (hi : i < bytes.length) (hb : bytes[i] = lineFeed)
    (held : ¬ IsEmptyLine ((bytes.take i).drop lineStart)) : Searched bytes (i + 1) (i + 1) := by
  refine ⟨?_, ?_⟩
  · rw [List.take_succ_eq_append_getElem hi, hb, ← take_append_line bytes hl]
    exact .line h.passed h.noFeed held
  · rw [List.drop_eq_nil_of_le (List.length_take_le _ _)]
    exact List.not_mem_nil

/-- A line feed behind an empty line is the first cut. -/
theorem Searched.cut {bytes : List UInt8} {lineStart i : Nat} (h : Searched bytes lineStart i)
    (hl : lineStart ≤ i) (hi : i < bytes.length) (hb : bytes[i] = lineFeed)
    (empty : IsEmptyLine ((bytes.take i).drop lineStart)) :
    cut? bytes = some (bytes.take lineStart, bytes.drop (i + 1)) := by
  have hsplit : bytes = bytes.take lineStart ++
      ((bytes.take i).drop lineStart ++ lineFeed :: bytes.drop (i + 1)) := by
    rw [← List.append_assoc, take_append_line bytes hl, ← hb, ← List.drop_eq_getElem_cons hi,
      List.take_append_drop]
  conv => lhs; rw [hsplit]
  rw [h.passed.cut?_append, cut?_line h.noFeed, if_pos empty]
  simp

/-- A search that reaches the end has found no cut. -/
theorem Searched.no_cut {bytes : List UInt8} {lineStart : Nat}
    (h : Searched bytes lineStart bytes.length) (hl : lineStart ≤ bytes.length) :
    cut? bytes = none := by
  have hsplit := take_append_line bytes hl
  rw [List.take_length] at hsplit
  rw [← hsplit, h.passed.cut?_append, cut?_of_no_feed]
  · rfl
  · have hfeed := h.noFeed
    rwa [List.take_length] at hfeed

/-- The test of the search says whether the line is empty. -/
theorem isEmptyLine_iff {buffer : ByteArray} {lineStart i : Nat} (hl : lineStart ≤ i)
    (hi : i < buffer.size) :
    isEmptyLine buffer lineStart i hi ↔ IsEmptyLine (((octets buffer).take i).drop lineStart) := by
  have hlen : (((octets buffer).take i).drop lineStart).length = i - lineStart := by
    have hsize : (octets buffer).length = buffer.size := rfl
    rw [List.length_drop, List.length_take]
    omega
  rw [isEmptyLine]
  by_cases h0 : lineStart = i
  · have hnil : ((octets buffer).take i).drop lineStart = [] :=
      List.eq_nil_of_length_eq_zero (by omega)
    rw [if_pos h0, hnil]
    exact ⟨fun _ => Or.inl rfl, fun _ => rfl⟩
  · rw [if_neg h0]
    by_cases h1 : lineStart + 1 = i
    · have hone : ((octets buffer).take i).drop lineStart = [buffer[lineStart]] := by
        subst h1
        have hlt : lineStart < (octets buffer).length := Nat.lt_of_succ_lt hi
        rw [List.drop_take, Nat.add_sub_cancel_left, List.drop_eq_getElem_cons hlt]
        rfl
      rw [dif_pos h1, hone, beq_iff_eq]
      exact ⟨fun h => Or.inr (by rw [h]), fun h => by simpa [IsEmptyLine] using h⟩
    · rw [dif_neg h1]
      refine ⟨fun h => absurd h Bool.false_ne_true, ?_⟩
      intro h
      rcases h with h | h <;> rw [h] at hlen <;> simp at hlen <;> omega

/-- What a search found: the first cut, or that there is none and where the last line begins. -/
theorem search_spec {buffer : ByteArray} {lineStart i : Nat} (hl : lineStart ≤ i)
    (hi : i ≤ buffer.size) (h : Searched (octets buffer) lineStart i) :
    match searchEmptyLine buffer lineStart i hl hi with
    | .emptyLine start finish _ _ =>
      cut? (octets buffer) = some ((octets buffer).take start, (octets buffer).drop finish)
    | .exhausted lineStart _ =>
      cut? (octets buffer) = none ∧ Searched (octets buffer) lineStart buffer.size := by
  fun_induction searchEmptyLine buffer lineStart i hl hi with
  | case1 lineStart i hl hi hlt hfeed hempty =>
    exact h.cut hl hlt hfeed ((isEmptyLine_iff hl hlt).1 hempty)
  | case2 lineStart i hl hi hlt hfeed hempty ih =>
    exact ih (h.feed hl hlt hfeed (mt (isEmptyLine_iff hl hlt).2 hempty))
  | case3 lineStart i hl hi hlt hfeed ih => exact ih (h.byte hl hlt hfeed)
  | case4 lineStart i hl hi hlt =>
    have hend : i = buffer.size := Nat.le_antisymm hi (Nat.not_lt.1 hlt)
    subst hend
    exact ⟨h.no_cut hl, h⟩

/-! ## Runs of the decoder -/

namespace Decoder

/-- The bytes that have arrived and are not yet delivered. -/
abbrev bytes (d : Decoder) : List UInt8 := octets d.buffer

/-- The invariant of a decoder between two calls. -/
def Resumable (d : Decoder) : Prop := Searched d.bytes d.lineStart d.scanned

theorem resumable_ofBytes (buffer : ByteArray) : (ofBytes buffer).Resumable := Searched.start _

theorem bytes_append (d : Decoder) (piece : ByteArray) :
    (d.append piece).bytes = d.bytes ++ octets piece := by
  show (d.buffer ++ piece).data.toList = _
  rw [ByteArray.data_append, Array.toList_append]

theorem Resumable.append {d : Decoder} (h : d.Resumable) (piece : ByteArray) :
    (d.append piece).Resumable := by
  rw [Resumable, bytes_append]
  exact Searched.append h d.lineStart_le d.scanned_le _

/-- The blank test of the decoder is that of the reference. -/
theorem isBlankFrom_iff {buffer : ByteArray} {i : Nat} :
    isBlankFrom buffer i = ((octets buffer).drop i).all isBlankByte := by
  fun_induction isBlankFrom buffer i with
  | case1 i hlt ih =>
    have hlt' : i < (octets buffer).length := hlt
    rw [List.drop_eq_getElem_cons hlt', List.all_cons, ih]
    rfl
  | case2 i hlt =>
    rw [List.drop_eq_nil_of_le (Nat.not_lt.1 hlt)]
    rfl

/-- What a call does if there is a cut: it drops a part that is too large, passes over one that is
    blank, and delivers any other. -/
theorem next_of_cut {d : Decoder} (h : d.Resumable) {part tail : List UInt8}
    (hcut : cut? d.bytes = some (part, tail)) :
    ∃ (rest : Decoder) (body : ByteArray), rest.Resumable ∧ rest.bytes = tail ∧
      rest.buffer.size < d.buffer.size ∧ octets body = part ∧
      d.next =
        if maxFrameSize < part.length then (.failed (.tooLarge part.length), rest)
        else if part.all isBlankByte then rest.next
        else (.frame body, rest) := by
  have hspec := search_spec d.lineStart_le d.scanned_le h
  rw [next]
  split
  · -- a search that ends without a cut would mean that there is none
    next lineStart hle hsearch =>
    rw [hsearch] at hspec
    exact absurd (hspec.1.symm.trans hcut) (by simp)
  · next start finish hstart hfinish hsearch =>
    rw [hsearch, hcut] at hspec
    obtain ⟨hpart, htail⟩ := Prod.mk.inj (Option.some.inj hspec)
    have hall : d.bytes.take d.buffer.size = d.bytes := List.take_length
    have hbody : octets (d.buffer.extract 0 start) = part := by
      rw [octets_extract, List.drop_zero, hpart]
    have hlength : part.length = start := by
      rw [hpart, List.length_take]
      exact Nat.min_eq_left (Nat.le_trans (Nat.le_of_lt hstart) hfinish)
    have hblank : isBlankFrom (d.buffer.extract 0 start) 0 = part.all isBlankByte := by
      rw [isBlankFrom_iff, hbody, List.drop_zero]
    refine ⟨ofBytes (d.buffer.extract finish d.buffer.size), d.buffer.extract 0 start,
      resumable_ofBytes _, ?_, ?_, hbody, ?_⟩
    · show octets (d.buffer.extract finish d.buffer.size) = tail
      rw [octets_extract, hall, htail]
    · show (d.buffer.extract finish d.buffer.size).size < d.buffer.size
      rw [ByteArray.size_extract]
      omega
    · simp only [hlength, hblank]

/-- What a call does if there is no cut: everything stays, and is reported if it is too large. -/
theorem next_of_no_cut {d : Decoder} (h : d.Resumable) (hcut : cut? d.bytes = none) :
    ∃ rest : Decoder, rest.Resumable ∧ rest.buffer = d.buffer ∧
      d.next =
        if maxFrameSize < d.buffer.size then (.failed (.tooLarge d.buffer.size), rest)
        else (.nothing, rest) := by
  have hspec := search_spec d.lineStart_le d.scanned_le h
  rw [next]
  split
  · next lineStart hle hsearch =>
    rw [hsearch] at hspec
    exact ⟨⟨d.buffer, d.buffer.size, lineStart, hle, Nat.le_refl _⟩, hspec.2, rfl, rfl⟩
  · next start finish hstart hfinish hsearch =>
    rw [hsearch, hcut] at hspec
    cases hspec

/-- What a call of a decoder says about the stream in its buffer, and what it leaves. -/
def Tells (d : Decoder) : Delivery → Decoder → Prop
  | .frame body, rest =>
    frames d.bytes = octets body :: frames rest.bytes ∧ Split.rest d.bytes = Split.rest rest.bytes
  | .nothing, rest =>
    frames d.bytes = frames rest.bytes ∧ Split.rest d.bytes = Split.rest rest.bytes ∧
      cut? rest.bytes = none
  | .failed _, rest =>
    frames d.bytes = frames rest.bytes ∧ Split.rest d.bytes = Split.rest rest.bytes ∧
      (d.buffer.size ≤ rest.buffer.size → cut? rest.bytes = none)

/-- What a call tells about the rest of a stream it tells about the stream, if only a part that is no
    frame lies between. -/
theorem Tells.skip {d tail rest : Decoder} {delivery : Delivery} (h : tail.Tells delivery rest)
    (hframes : frames d.bytes = frames tail.bytes)
    (hrest : Split.rest d.bytes = Split.rest tail.bytes)
    (htail : tail.buffer.size < d.buffer.size) : d.Tells delivery rest := by
  cases delivery with
  | frame body => exact ⟨hframes.trans h.1, hrest.trans h.2⟩
  | nothing => exact ⟨hframes.trans h.1, hrest.trans h.2.1, h.2.2⟩
  | failed e =>
    exact ⟨hframes.trans h.1, hrest.trans h.2.1,
      fun hle => h.2.2 (Nat.le_trans (Nat.le_of_lt htail) hle)⟩

/-- **Every call of a decoder tells the truth about the stream, and keeps the invariant.** -/
theorem next_spec {d : Decoder} (h : d.Resumable) :
    d.Tells d.next.1 d.next.2 ∧ d.next.2.Resumable := by
  -- a call that passes over a blank part goes on with less, so the induction is on the size
  induction hsize : d.buffer.size using Nat.strongRecOn generalizing d with
  | ind n ih =>
    cases hcut : cut? d.bytes with
    | none =>
      obtain ⟨rest, hkeeps, hbuffer, hnext⟩ := next_of_no_cut h hcut
      have hbytes : rest.bytes = d.bytes := congrArg octets hbuffer
      rw [hnext]
      split
      · refine ⟨⟨by rw [hbytes], by rw [hbytes], ?_⟩, hkeeps⟩
        intro _
        rw [hbytes, hcut]
      · refine ⟨⟨by rw [hbytes], by rw [hbytes], ?_⟩, hkeeps⟩
        rw [hbytes, hcut]
    | some found =>
      obtain ⟨part, tail⟩ := found
      obtain ⟨rest, body, hkeeps, rfl, hless, rfl, hnext⟩ := next_of_cut h hcut
      have hframes := frames_of_some hcut
      have hrest := rest_of_some hcut
      rw [isFrame] at hframes
      rw [hnext]
      split
      · next hlarge =>
        rw [decide_eq_false (Nat.not_le.2 hlarge)] at hframes
        exact ⟨⟨hframes, hrest, fun hle => absurd hless (Nat.not_lt.2 hle)⟩, hkeeps⟩
      · split
        · next hblank =>
          rw [hblank, Bool.not_true, Bool.and_false] at hframes
          obtain ⟨htells, hkeeps⟩ := ih rest.buffer.size (hsize ▸ hless) hkeeps rfl
          exact ⟨htells.skip hframes hrest hless, hkeeps⟩
        · next hlarge hblank =>
          rw [decide_eq_true (Nat.not_lt.1 hlarge), Bool.eq_false_iff.2 hblank] at hframes
          exact ⟨⟨hframes, hrest⟩, hkeeps⟩

/-- The frames that calls deliver one after another, until one has nothing to say or reports an
    unfinished frame that is too large already; other failures take a part off the stream. -/
def pump (d : Decoder) : List ByteArray × Decoder :=
  match _h : d.next with
  | (.frame body, rest) => (body :: (pump rest).1, (pump rest).2)
  | (.nothing, rest) => ([], rest)
  | (.failed _, rest) => if rest.buffer.size < d.buffer.size then pump rest else ([], rest)
  termination_by d.buffer.size
  decreasing_by
    · exact size_lt_of_next _h
    · assumption

/-- The frames of a stream that arrives in pieces, with all that can be had taken after each. -/
def feed (d : Decoder) : List ByteArray → List ByteArray × Decoder
  | [] => ([], d)
  | piece :: pieces =>
    let (bodies, d) := (d.append piece).pump
    (bodies ++ (d.feed pieces).1, (d.feed pieces).2)

/-- **A run of calls delivers the frames in the buffer and leaves what follows the last cut.** -/
theorem pump_spec {d : Decoder} (h : d.Resumable) :
    d.pump.1.map octets = frames d.bytes ∧ d.pump.2.bytes = Split.rest d.bytes ∧
      d.pump.2.Resumable := by
  -- what one call tells, the rest of the run completes
  fun_induction pump d with
  | case1 d body rest hnext ih =>
    obtain ⟨⟨hframes, hrest⟩, hkeeps⟩ := by simpa only [hnext] using next_spec h
    obtain ⟨ihframes, ihrest, ihkeeps⟩ := ih hkeeps
    exact ⟨by rw [hframes, List.map_cons, ihframes], by rw [hrest, ihrest], ihkeeps⟩
  | case2 d rest hnext =>
    obtain ⟨⟨hframes, hrest, hcut⟩, hkeeps⟩ := by simpa only [hnext] using next_spec h
    exact ⟨by rw [hframes, frames_of_none hcut]; rfl, by rw [hrest, rest_of_none hcut], hkeeps⟩
  | case3 d e rest hnext hlt ih =>
    obtain ⟨⟨hframes, hrest, -⟩, hkeeps⟩ := by simpa only [hnext] using next_spec h
    obtain ⟨ihframes, ihrest, ihkeeps⟩ := ih hkeeps
    exact ⟨by rw [hframes, ihframes], by rw [hrest, ihrest], ihkeeps⟩
  | case4 d e rest hnext hlt =>
    obtain ⟨⟨hframes, hrest, hcut⟩, hkeeps⟩ := by simpa only [hnext] using next_spec h
    have hcut := hcut (Nat.not_lt.1 hlt)
    exact ⟨by rw [hframes, frames_of_none hcut]; rfl, by rw [hrest, rest_of_none hcut], hkeeps⟩

/-- A decoder behind whose last cut nothing is known is fed a stream as if it came in one piece. -/
theorem feed_spec {d : Decoder} (h : d.Resumable) (hcut : cut? d.bytes = none)
    (pieces : List ByteArray) :
    (d.feed pieces).1.map octets = frames (d.bytes ++ pieces.flatMap octets) ∧
      (d.feed pieces).2.bytes = Split.rest (d.bytes ++ pieces.flatMap octets) := by
  induction pieces generalizing d with
  | nil =>
    rw [List.flatMap_nil, List.append_nil, frames_of_none hcut, rest_of_none hcut]
    exact ⟨rfl, rfl⟩
  | cons piece pieces ih =>
    obtain ⟨hframes, hrest, hkeeps⟩ := pump_spec (h.append piece)
    rw [bytes_append] at hframes hrest
    -- what the run leaves has no cut, so the pieces that follow are split behind it
    have hnone : cut? ((d.append piece).pump.2).bytes = none := by
      rw [hrest]
      exact cut?_parts _
    obtain ⟨ihframes, ihrest⟩ := ih hkeeps hnone
    rw [hrest] at ihframes ihrest
    rw [List.flatMap_cons, ← List.append_assoc, frames_append,
      rest_append (d.bytes ++ octets piece)]
    refine ⟨?_, ihrest⟩
    show ((d.append piece).pump.1 ++ ((d.append piece).pump.2.feed pieces).1).map octets = _
    rw [List.map_append, hframes, ihframes]

end Decoder

/-! ## The search with its accesses checked -/

/-- The bytes from `start` up to `finish`, if there are such. -/
def slice? (buffer : ByteArray) (start finish : Nat) : Option ByteArray :=
  if start ≤ finish ∧ finish ≤ buffer.size then some (buffer.extract start finish) else none

/-- The search as it runs on two bare numbers, which fails at an access out of range: where the line
    begins in which it ends, and where that line ends if it is empty. -/
def checkedSearch (buffer : ByteArray) (lineStart i : Nat) : Option (Nat × Option Nat) :=
  if _h : i < buffer.size then do
    let byte ← buffer[i]?
    if byte = lineFeed then
      let line ← slice? buffer lineStart i
      if IsEmptyLine (octets line) then some (lineStart, some (i + 1))
      else checkedSearch buffer (i + 1) (i + 1)
    else checkedSearch buffer lineStart (i + 1)
  else some (lineStart, none)
  termination_by buffer.size - i

/-- What a search found, as the checked one says it. -/
def Search.place {size : Nat} : Search size → Nat × Option Nat
  | .emptyLine start finish _ _ => (start, some finish)
  | .exhausted lineStart _ => (lineStart, none)

/-- **The accesses of a search are in range**, and the checked search finds what it finds. -/
theorem checkedSearch_eq {buffer : ByteArray} {lineStart i : Nat} (hl : lineStart ≤ i)
    (hi : i ≤ buffer.size) :
    checkedSearch buffer lineStart i = some (searchEmptyLine buffer lineStart i hl hi).place := by
  have hslice : ∀ {lineStart i : Nat}, lineStart ≤ i → i < buffer.size →
      slice? buffer lineStart i = some (buffer.extract lineStart i) :=
    fun hl hlt => if_pos ⟨hl, Nat.le_of_lt hlt⟩
  fun_induction searchEmptyLine buffer lineStart i hl hi with
  | case1 lineStart i hl hi hlt hfeed hempty =>
    rw [isEmptyLine_iff hl hlt, ← octets_extract] at hempty
    rw [checkedSearch, dif_pos hlt, getElem?_pos buffer i hlt, Option.bind_eq_bind,
      Option.bind_some, if_pos hfeed, hslice hl hlt, Option.bind_eq_bind, Option.bind_some,
      if_pos hempty]
    rfl
  | case2 lineStart i hl hi hlt hfeed hempty ih =>
    rw [isEmptyLine_iff hl hlt, ← octets_extract] at hempty
    rw [checkedSearch, dif_pos hlt, getElem?_pos buffer i hlt, Option.bind_eq_bind,
      Option.bind_some, if_pos hfeed, hslice hl hlt, Option.bind_eq_bind, Option.bind_some,
      if_neg hempty]
    exact ih
  | case3 lineStart i hl hi hlt hfeed ih =>
    rw [checkedSearch, dif_pos hlt, getElem?_pos buffer i hlt, Option.bind_eq_bind,
      Option.bind_some, if_neg hfeed]
    exact ih
  | case4 lineStart i hl hi hlt =>
    rw [checkedSearch, dif_neg hlt]
    rfl

/-! ## The decoder against the reference -/

/-- The pieces of a stream as one. -/
def joined (pieces : List ByteArray) : ByteArray := pieces.foldl (· ++ ·) .empty

theorem octets_foldl_append (start : ByteArray) (pieces : List ByteArray) :
    octets (pieces.foldl (· ++ ·) start) = octets start ++ pieces.flatMap octets := by
  induction pieces generalizing start with
  | nil => simp
  | cons piece pieces ih => simp [ih]

theorem octets_joined (pieces : List ByteArray) : octets (joined pieces) = pieces.flatMap octets :=
  octets_foldl_append .empty pieces

theorem joined_singleton (piece : ByteArray) : joined [piece] = piece := ByteArray.empty_append

/-- **How bytes arrive does not matter.** A fresh decoder that is fed a stream in any pieces delivers
    the frames of the reference, which are those it delivers of the stream as one piece, and leaves
    the same bytes; and no access of its search is out of range, whatever it has been through. -/
theorem feed_eq_split (pieces : List ByteArray) :
    (Decoder.fresh.feed pieces).1.map octets = frames (octets (joined pieces)) ∧
    (Decoder.fresh.feed pieces).2.bytes = Split.rest (octets (joined pieces)) ∧
    (Decoder.fresh.feed pieces).1 = (Decoder.fresh.feed [joined pieces]).1 ∧
    (Decoder.fresh.feed pieces).2.buffer = (Decoder.fresh.feed [joined pieces]).2.buffer ∧
    ∀ d : Decoder, checkedSearch d.buffer d.lineStart d.scanned
      = some (searchEmptyLine d.buffer d.lineStart d.scanned d.lineStart_le d.scanned_le).place := by
  have hspec : ∀ pieces : List ByteArray,
      (Decoder.fresh.feed pieces).1.map octets = frames (pieces.flatMap octets) ∧
      (Decoder.fresh.feed pieces).2.bytes = Split.rest (pieces.flatMap octets) :=
    Decoder.feed_spec (Decoder.resumable_ofBytes .empty) (cut?_of_no_feed List.not_mem_nil)
  have hinj : Function.Injective octets := fun a b h => ByteArray.ext (Array.toList_inj.1 h)
  obtain ⟨hframes, hrest⟩ := hspec pieces
  obtain ⟨hwhole, hwholeRest⟩ := hspec [joined pieces]
  rw [List.flatMap_singleton, octets_joined] at hwhole hwholeRest
  rw [octets_joined]
  exact ⟨hframes, hrest, (List.map_inj_right fun _ _ h => hinj h).1 (hframes.trans hwhole.symm),
    hinj (hrest.trans hwholeRest.symm), fun d => checkedSearch_eq d.lineStart_le d.scanned_le⟩

end GraphWire
