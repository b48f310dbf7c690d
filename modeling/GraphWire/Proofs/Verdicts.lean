import GraphWire.Proofs.Encoding

/-!
# `Proofs.Verdicts` — what a reader is told about the sizes of frames

A frame is measured twice: what has arrived of it while its end is missing, and all of it when the end is
there. The two measures are not of the same bytes. The first counts what has arrived of the empty line, and
so a frame of the greatest size is reported as too large if a piece of the stream ends between the carriage
return and the line feed of its empty line, and is delivered all the same. This is the only case in which
what is reported does not depend on the frame alone. The encoder measures a third thing, the text without
the line feed that ends its last line, and so it accepts texts of the greatest size, which no decoder delivers.

## Contents
- **`Split.Part`**, lines with the empty line that ends them; `cut?_bytes`, parts are cut at their ends.
- **`Decoder.report`** and **`Decoder.reports`**, all that calls say, with `report_spec` for the bytes at hand.
- **Runs.** `ends`, where the pieces of a stream end, `Part.reports`, what is said about a part, and
  `reports_spec`, what is said about a stream of parts.
- **The verdict.** `Part.IsTorn`, and **`reports_eq_verdict_iff`**, what is said about parts within the limit
  and beyond it.
- **What is encoded.** **`encoded_arrives_iff`**, which of the texts that are accepted are delivered.
-/

namespace GraphWire

open Split

/-! ## Parts -/

namespace Split

/-- Whole lines, none of them empty, and the empty line that ends them, which may hold a carriage return. -/
structure Part where
  body : List UInt8
  passed : Passed body
  withReturn : Bool

namespace Part

/-- The empty line. -/
def ending (part : Part) : List UInt8 :=
  if part.withReturn then [carriageReturn, lineFeed] else [lineFeed]

def bytes (part : Part) : List UInt8 := part.body ++ part.ending

/-- Whether the part is passed over without a word. -/
def isBlank (part : Part) : Bool := part.body.all isBlankByte

theorem length_bytes (part : Part) :
    part.bytes.length = part.body.length + if part.withReturn then 2 else 1 := by
  rw [bytes, List.length_append, ending]
  cases part.withReturn <;> rfl

/-- **A part is cut at its end.** -/
theorem cut?_bytes (part : Part) (more : List UInt8) :
    cut? (part.bytes ++ more) = some (part.body, more) := by
  obtain ⟨line, hempty, hfeed, hending⟩ :
      ∃ line, IsEmptyLine line ∧ lineFeed ∉ line ∧ part.ending = line ++ [lineFeed] := by
    rw [ending]
    cases part.withReturn with
    | true => exact ⟨[carriageReturn], Or.inr rfl, by decide, rfl⟩
    | false => exact ⟨[], Or.inl rfl, List.not_mem_nil, rfl⟩
  have harrived : part.bytes ++ more = part.body ++ (line ++ lineFeed :: more) := by
    rw [bytes, hending]
    simp
  rw [harrived, part.passed.cut?_append, cut?_line hfeed, if_pos hempty]
  simp

/-- There is no cut in what has arrived of a part. -/
theorem cut?_of_length_lt {part : Part} {front more tail : List UInt8}
    (h : front ++ more = part.bytes ++ tail) (hlength : front.length < part.bytes.length) :
    cut? front = none := by
  cases hcut : cut? front with
  | none => rfl
  | some found =>
    -- a cut in what has arrived would be the one at the end of the part
    obtain ⟨body, rest⟩ := found
    have hwhole := cut?_append hcut more
    rw [h, cut?_bytes] at hwhole
    cases hwhole
    have htotal := congrArg List.length h
    simp only [List.length_append] at htotal
    omega

end Part

/-- Bytes without a cut are no parts. -/
theorem eq_nil_of_no_cut {parts : List Part} {bytes tail : List UInt8} (hcut : cut? bytes = none)
    (h : bytes = parts.flatMap Part.bytes ++ tail) : parts = [] := by
  cases parts with
  | nil => rfl
  | cons part parts =>
    rw [h, List.flatMap_cons, List.append_assoc, part.cut?_bytes] at hcut
    cases hcut

/-- **What has arrived of a stream of parts** is some of them, and less than the whole of the next one. -/
theorem exists_arrived {parts : List Part} {front more : List UInt8}
    (h : front ++ more = parts.flatMap Part.bytes) :
    ∃ (done remaining : List Part) (held : List UInt8), parts = done ++ remaining ∧
      front = done.flatMap Part.bytes ++ held ∧ held ++ more = remaining.flatMap Part.bytes ∧
      Split.parts front = (done.map Part.body, held) ∧
      ∀ part ∈ remaining.head?, held.length < part.bytes.length := by
  induction parts generalizing front with
  | nil =>
    obtain ⟨rfl, rfl⟩ := List.append_eq_nil_iff.1 h
    have hnone : cut? [] = none := cut?_of_no_feed List.not_mem_nil
    exact ⟨[], [], [], rfl, rfl, rfl, parts_of_none hnone, by simp⟩
  | cons part parts ih =>
    rw [List.flatMap_cons] at h
    by_cases hlength : front.length < part.bytes.length
    · refine ⟨[], part :: parts, front, rfl, rfl, by rw [List.flatMap_cons, h], ?_, by simpa using hlength⟩
      exact parts_of_none (Part.cut?_of_length_lt h hlength)
    · -- the first part is there, and what has arrived behind it is a beginning of the others
      obtain ⟨front', rfl⟩ : ∃ front', front = part.bytes ++ front' := by
        obtain ⟨front', hfront⟩ := List.prefix_of_prefix_length_le (List.prefix_append part.bytes _)
          (h ▸ List.prefix_append front more) (Nat.not_lt.1 hlength)
        exact ⟨front', hfront.symm⟩
      rw [List.append_assoc] at h
      obtain ⟨done, remaining, held, rfl, rfl, hheld, hparts, hshort⟩ := ih (List.append_cancel_left h)
      refine ⟨part :: done, remaining, held, rfl, by rw [List.flatMap_cons, List.append_assoc], hheld,
        ?_, hshort⟩
      rw [parts_of_some (part.cut?_bytes _), hparts]
      rfl

/-- What is said about a part when its end is there. -/
def verdict (body : List UInt8) : Except FrameError (List UInt8) :=
  if maxFrameSize < body.length then .error (.tooLarge body.length) else .ok body

/-- What is said about bytes whose end is missing. -/
def early (held : List UInt8) : List (Except FrameError (List UInt8)) :=
  if maxFrameSize < held.length then [.error (.tooLarge held.length)] else []

end Split

/-! ## What calls say -/

namespace Decoder

/-- All that calls say one after another, until one has nothing to say or reports an unfinished frame that
    is too large already. -/
def report (d : Decoder) : List (Except FrameError ByteArray) × Decoder :=
  match _h : d.next with
  | (.frame body, rest) => (.ok body :: (report rest).1, (report rest).2)
  | (.nothing, rest) => ([], rest)
  | (.failed e, rest) =>
    if rest.buffer.size < d.buffer.size then (.error e :: (report rest).1, (report rest).2)
    else ([.error e], rest)
  termination_by d.buffer.size
  decreasing_by
    · exact size_lt_of_next _h
    · assumption

/-- All that is said about a stream that arrives in pieces, with calls made after each. -/
def reports (d : Decoder) : List ByteArray → List (Except FrameError ByteArray) × Decoder
  | [] => ([], d)
  | piece :: pieces =>
    let (said, d) := (d.append piece).report
    (said ++ (d.reports pieces).1, (d.reports pieces).2)

theorem report_eq (d : Decoder) :
    d.report =
      match d.next with
      | (.frame body, rest) => (.ok body :: rest.report.1, rest.report.2)
      | (.nothing, rest) => ([], rest)
      | (.failed e, rest) =>
        if rest.buffer.size < d.buffer.size then (.error e :: rest.report.1, rest.report.2)
        else ([.error e], rest) := by
  rw [report]
  split
  · next h => rw [h]
  · next h => rw [h]
  · next h => rw [h]

/-- **Calls say one thing about each part that is there**, and then whether what remains is too large
    already; blank parts excepted, of which there must be none. -/
theorem report_spec {d : Decoder} (h : d.Resumable)
    (hblank : ∀ body ∈ (parts d.bytes).1, body.all isBlankByte = false) :
    d.report.1.map (Except.map octets) = (parts d.bytes).1.map verdict ++ early (parts d.bytes).2 ∧
      d.report.2.bytes = (parts d.bytes).2 ∧ d.report.2.Resumable := by
  induction hsize : d.buffer.size using Nat.strongRecOn generalizing d with
  | ind n ih =>
    cases hcut : cut? d.bytes with
    | none =>
      obtain ⟨rest, hkeeps, hbuffer, hnext⟩ := next_of_no_cut h hcut
      have hbytes : rest.bytes = d.bytes := congrArg octets hbuffer
      have hlength : d.bytes.length = d.buffer.size := rfl
      rw [parts_of_none hcut, report_eq, hnext, early, hlength]
      by_cases hlarge : maxFrameSize < d.buffer.size
      · rw [if_pos hlarge, if_pos hlarge]
        have hnotless : ¬ rest.buffer.size < d.buffer.size := by
          rw [hbuffer]
          exact Nat.lt_irrefl _
        simp only [if_neg hnotless]
        exact ⟨rfl, hbytes, hkeeps⟩
      · rw [if_neg hlarge, if_neg hlarge]
        exact ⟨rfl, hbytes, hkeeps⟩
    | some found =>
      obtain ⟨part, tail⟩ := found
      obtain ⟨rest, body, hkeeps, rfl, hless, rfl, hnext⟩ := next_of_cut h hcut
      rw [parts_of_some hcut] at hblank ⊢
      obtain ⟨hbody, hblank⟩ := List.forall_mem_cons.1 hblank
      obtain ⟨hsaid, hrest, hlast⟩ := ih _ (hsize ▸ hless) hkeeps hblank rfl
      rw [hbody, if_neg Bool.false_ne_true] at hnext
      rw [report_eq, hnext, List.map_cons, verdict]
      by_cases hlarge : maxFrameSize < (octets body).length
      · rw [if_pos hlarge, if_pos hlarge]
        simp only [if_pos hless]
        exact ⟨by rw [List.map_cons, hsaid]; rfl, hrest, hlast⟩
      · rw [if_neg hlarge, if_neg hlarge]
        exact ⟨by rw [List.map_cons, hsaid]; rfl, hrest, hlast⟩

end Decoder

/-! ## Runs -/

/-- Where the pieces of a stream end, counted in bytes. -/
def ends (start : Nat) : List ByteArray → List Nat
  | [] => []
  | piece :: pieces => (start + piece.size) :: ends (start + piece.size) pieces

theorem le_of_mem_ends {start e : Nat} {pieces : List ByteArray} (h : e ∈ ends start pieces) :
    start ≤ e := by
  induction pieces generalizing start with
  | nil => cases h
  | cons piece pieces ih =>
    rcases List.mem_cons.1 h with rfl | h
    · exact Nat.le_add_right _ _
    · exact Nat.le_trans (Nat.le_add_right _ _) (ih h)

/-- A piece ends behind the parts that are done with it, and what is held of the next one. -/
theorem ends_cons {d : Decoder} {piece : ByteArray} {done : List Part} {held : List UInt8}
    (h : (d.append piece).bytes = done.flatMap Part.bytes ++ held) (start : Nat) (pieces : List ByteArray) :
    ends (start + d.bytes.length) (piece :: pieces) =
      (start + (done.flatMap Part.bytes).length + held.length) ::
        ends (start + (done.flatMap Part.bytes).length + held.length) pieces := by
  have hlength := congrArg List.length h
  rw [Decoder.bytes_append, List.length_append, List.length_append] at hlength
  have hpiece : (octets piece).length = piece.size := rfl
  have hend : start + d.bytes.length + piece.size
      = start + (done.flatMap Part.bytes).length + held.length := by omega
  rw [ends, hend]

namespace Split

/-- The parts of a stream with the places where they begin. -/
def placed (start : Nat) : List Part → List (Nat × Part)
  | [] => []
  | part :: parts => (start, part) :: placed (start + part.bytes.length) parts

/-- What is said about a part that begins at `start`: something each time that a piece ends in it behind more
    bytes than the limit allows, and then the verdict. -/
def Part.reports (cuts : List Nat) (start : Nat) (part : Part) : List (Except FrameError (List UInt8)) :=
  (cuts.filter fun e => start + maxFrameSize < e ∧ e < start + part.bytes.length).map
    (fun e => .error (.tooLarge (e - start))) ++ [verdict part.body]

/-- What is said about parts in turn. -/
def reportsOf (cuts : List Nat) (start : Nat) (parts : List Part) : List (Except FrameError (List UInt8)) :=
  (placed start parts).flatMap fun (start, part) => part.reports cuts start

theorem reportsOf_nil (cuts : List Nat) (start : Nat) : reportsOf cuts start [] = [] := rfl

theorem reportsOf_cons (cuts : List Nat) (start : Nat) (part : Part) (parts : List Part) :
    reportsOf cuts start (part :: parts) =
      part.reports cuts start ++ reportsOf cuts (start + part.bytes.length) parts := rfl

/-- A piece that ends where a part begins, or before that, does not matter to it. -/
theorem reports_cons_of_le {cuts : List Nat} {start e : Nat} (h : e ≤ start) (part : Part) :
    part.reports (e :: cuts) start = part.reports cuts start := by
  rw [Part.reports, List.filter_cons_of_neg, Part.reports]
  simp only [decide_eq_true_eq, not_and]
  omega

theorem reportsOf_cons_of_le {cuts : List Nat} {start e : Nat} (h : e ≤ start) (parts : List Part) :
    reportsOf (e :: cuts) start parts = reportsOf cuts start parts := by
  induction parts generalizing start with
  | nil => rw [reportsOf_nil, reportsOf_nil]
  | cons part parts ih =>
    have hnext : e ≤ start + part.bytes.length := Nat.le_trans h (Nat.le_add_right _ _)
    rw [reportsOf_cons, reportsOf_cons, reports_cons_of_le h, ih hnext]

/-- About parts in which no piece ends only the verdicts are said. -/
theorem reportsOf_append {cuts : List Nat} {start : Nat} {done : List Part}
    (h : ∀ e ∈ cuts, start + (done.flatMap Part.bytes).length ≤ e) (parts : List Part) :
    reportsOf cuts start (done ++ parts) = (done.map Part.body).map verdict ++
      reportsOf cuts (start + (done.flatMap Part.bytes).length) parts := by
  induction done generalizing start with
  | nil => rfl
  | cons part done ih =>
    rw [List.flatMap_cons, List.length_append, ← Nat.add_assoc] at h ⊢
    have hnone : (cuts.filter fun e =>
        start + maxFrameSize < e ∧ e < start + part.bytes.length) = [] := by
      rw [List.filter_eq_nil_iff]
      intro e he
      have hle := h e he
      simp only [decide_eq_true_eq, not_and]
      omega
    rw [List.cons_append, reportsOf_cons, ih h, Part.reports, hnone]
    rfl

/-- A piece that ends within the first part is a moment at which what has arrived of it is measured. -/
theorem reportsOf_held {cuts : List Nat} {start : Nat} {parts : List Part} {held more : List UInt8}
    (hheld : held ++ more = parts.flatMap Part.bytes)
    (hshort : ∀ part ∈ parts.head?, held.length < part.bytes.length) :
    reportsOf ((start + held.length) :: cuts) start parts = early held ++ reportsOf cuts start parts := by
  cases parts with
  | nil =>
    obtain ⟨rfl, -⟩ := List.append_eq_nil_iff.1 hheld
    rfl
  | cons part parts =>
    have hlength := hshort part rfl
    have hbefore : start + held.length ≤ start + part.bytes.length := by omega
    rw [reportsOf_cons, reportsOf_cons, reportsOf_cons_of_le hbefore, ← List.append_assoc]
    congr 1
    rw [Part.reports, Part.reports, early, ← List.append_assoc]
    congr 1
    by_cases hlarge : maxFrameSize < held.length
    · rw [List.filter_cons_of_pos, if_pos hlarge, List.map_cons, Nat.add_sub_cancel_left]
      · rfl
      · simp only [decide_eq_true_eq]
        omega
    · rw [List.filter_cons_of_neg, if_neg hlarge]
      · rfl
      · simp only [decide_eq_true_eq, not_and]
        omega

end Split

namespace Decoder

/-- **What is said about a stream of parts**, in whatever pieces it arrives: each part is measured whenever a
    piece ends in it, and once more when its end is there. -/
theorem reports_spec {d : Decoder} (h : d.Resumable) (hcut : cut? d.bytes = none) (start : Nat)
    {pieces : List ByteArray} {parts : List Part}
    (hstream : d.bytes ++ pieces.flatMap octets = parts.flatMap Part.bytes)
    (hblank : ∀ part ∈ parts, part.isBlank = false) :
    (d.reports pieces).1.map (Except.map octets)
      = reportsOf (ends (start + d.bytes.length) pieces) start parts := by
  induction pieces generalizing d start parts with
  | nil =>
    rw [List.flatMap_nil, List.append_nil] at hstream
    obtain rfl := eq_nil_of_no_cut hcut (hstream.trans (List.append_nil _).symm)
    rfl
  | cons piece pieces ih =>
    rw [List.flatMap_cons, ← List.append_assoc, ← bytes_append] at hstream
    obtain ⟨done, remaining, held, rfl, hfront, hheld, hparts, hshort⟩ := exists_arrived hstream
    obtain ⟨hdone, hremaining⟩ := List.forall_mem_append.1 hblank
    have hblank' : ∀ body ∈ (Split.parts (d.append piece).bytes).1, body.all isBlankByte = false := by
      rw [hparts]
      intro body hbody
      obtain ⟨part, hpart, rfl⟩ := List.mem_map.1 hbody
      exact hdone part hpart
    obtain ⟨hsaid, hrest, hkeeps⟩ := report_spec (h.append piece) hblank'
    rw [hparts] at hsaid hrest
    have hnone : cut? (d.append piece).report.2.bytes = none := by
      rw [hrest]
      exact (congrArg Prod.snd hparts) ▸ cut?_parts (d.append piece).bytes
    have hlater := ih hkeeps hnone (start + (done.flatMap Part.bytes).length)
      (by rw [hrest]; exact hheld) hremaining
    rw [hrest] at hlater
    show (((d.append piece).report.1 ++ ((d.append piece).report.2.reports pieces).1).map _) = _
    rw [List.map_append, hsaid, hlater, ends_cons hfront, reportsOf_append, reportsOf_held hheld hshort,
      List.append_assoc]
    · intro e he
      rcases List.mem_cons.1 he with rfl | he
      · exact Nat.le_add_right _ _
      · exact Nat.le_trans (Nat.le_add_right _ _) (le_of_mem_ends he)

end Decoder

/-! ## The verdict on a part -/

theorem map_octets_injective : Function.Injective (Except.map octets (ε := FrameError)) := by
  intro a b h
  cases a with
  | error e =>
    cases b with
    | error e' =>
      cases h
      rfl
    | ok y => cases h
  | ok x =>
    cases b with
    | error e' => cases h
    | ok y => rw [octets_injective (Except.ok.inj h)]

namespace Split

/-- A piece ends behind the carriage return of the empty line that ends a body of the greatest size. -/
def Part.IsTorn (part : Part) (cuts : List Nat) (start : Nat) : Prop :=
  part.body.length = maxFrameSize ∧ part.withReturn = true ∧ start + maxFrameSize + 1 ∈ cuts

/-- **Nothing is said early about a part within the limit**, unless it is torn. -/
theorem filter_eq_nil_iff_not_isTorn {part : Part} (h : part.body.length ≤ maxFrameSize) (cuts : List Nat)
    (start : Nat) :
    (cuts.filter fun e => start + maxFrameSize < e ∧ e < start + part.bytes.length) = [] ↔
      ¬ part.IsTorn cuts start := by
  rw [List.filter_eq_nil_iff, Part.IsTorn, part.length_bytes]
  simp only [decide_eq_true_eq]
  constructor
  · rintro hnone ⟨hlength, hreturn, hmem⟩
    refine hnone _ hmem ?_
    rw [if_pos hreturn]
    omega
  · rintro hnot e he ⟨hlow, hhigh⟩
    -- only the place behind a carriage return is beyond the limit and still in the part
    cases hreturn : part.withReturn with
    | false =>
      rw [hreturn, if_neg Bool.false_ne_true] at hhigh
      omega
    | true =>
      rw [hreturn, if_pos rfl] at hhigh
      have hplace : e = start + maxFrameSize + 1 := by omega
      exact hnot ⟨by omega, hreturn, hplace ▸ he⟩

theorem verdict_of_le {body : List UInt8} (h : body.length ≤ maxFrameSize) : verdict body = .ok body :=
  if_neg (Nat.not_lt.2 h)

theorem verdict_of_lt {body : List UInt8} (h : maxFrameSize < body.length) :
    verdict body = .error (.tooLarge body.length) := if_pos h

/-- About a part within the limit nothing but its delivery is said, exactly if it is not torn. -/
theorem Part.reports_eq_iff {part : Part} (h : part.body.length ≤ maxFrameSize) (cuts : List Nat)
    (start : Nat) : part.reports cuts start = [.ok part.body] ↔ ¬ part.IsTorn cuts start := by
  rw [← filter_eq_nil_iff_not_isTorn h, Part.reports, verdict_of_le h]
  constructor
  · intro hone
    have hlength := congrArg List.length hone
    rw [List.length_append, List.length_map, List.length_singleton] at hlength
    exact List.length_eq_zero_iff.1 (Nat.succ_inj.1 hlength)
  · intro hnone
    rw [hnone]
    rfl

/-- About a part beyond the limit nothing is said but that it is too large. -/
theorem Part.eq_tooLarge_of_mem_reports {part : Part} (h : maxFrameSize < part.body.length)
    {cuts : List Nat} {start : Nat} {said : Except FrameError (List UInt8)}
    (hsaid : said ∈ part.reports cuts start) :
    ∃ size, maxFrameSize < size ∧ size < part.bytes.length ∧ said = .error (.tooLarge size) := by
  rw [Part.reports, verdict_of_lt h] at hsaid
  have hbytes : part.body.length < part.bytes.length := by
    rw [part.length_bytes]
    split <;> omega
  rcases List.mem_append.1 hsaid with hearly | hlast
  · obtain ⟨e, he, rfl⟩ := List.mem_map.1 hearly
    have hplace := of_decide_eq_true (List.mem_filter.1 he).2
    exact ⟨e - start, by omega, by omega, rfl⟩
  · exact ⟨_, h, hbytes, List.mem_singleton.1 hlast⟩

end Split

/-- About one part alone the same is said as about any part that stands first. -/
theorem reports_of_part {part : Part} {pieces : List ByteArray} (hblank : part.isBlank = false)
    (hbytes : octets (joined pieces) = part.bytes) :
    (Decoder.fresh.reports pieces).1.map (Except.map octets) = part.reports (ends 0 pieces) 0 := by
  rw [octets_joined] at hbytes
  have hstream : Decoder.fresh.bytes ++ pieces.flatMap octets = [part].flatMap Part.bytes := by
    rw [hbytes, List.flatMap_singleton]
    rfl
  have hsaid := Decoder.reports_spec (Decoder.resumable_ofBytes .empty)
    (cut?_of_no_feed List.not_mem_nil) 0 hstream (by simpa using hblank)
  rw [reportsOf_cons, reportsOf_nil, List.append_nil] at hsaid
  exact hsaid

namespace Split

/-- One line of letters, with an empty line behind it. -/
def Part.ofLetters (n : Nat) (withReturn : Bool) : Part where
  body := List.replicate (n + 1) 97 ++ [lineFeed]
  passed := by
    have hfeed : lineFeed ∉ List.replicate (n + 1) 97 := fun hmem =>
      absurd (List.eq_of_mem_replicate hmem) (by decide)
    have hheld : ¬ IsEmptyLine (List.replicate (n + 1) 97) := by
      rintro (hnil | hone)
      · cases hnil
      · exact absurd (List.cons.inj hone).1 (by decide)
    exact .line .nothing hfeed hheld
  withReturn

theorem Part.length_ofLetters (n : Nat) (withReturn : Bool) :
    (Part.ofLetters n withReturn).body.length = n + 2 := by
  rw [Part.ofLetters, List.length_append, List.length_replicate, List.length_singleton]

theorem Part.isBlank_ofLetters (n : Nat) (withReturn : Bool) :
    (Part.ofLetters n withReturn).isBlank = false := rfl

/-- A part in two pieces, the second of which is the line feed of the empty line. -/
def Part.torn (part : Part) : List ByteArray :=
  [⟨⟨part.body ++ [carriageReturn]⟩⟩, ⟨⟨[lineFeed]⟩⟩]

theorem Part.octets_torn {part : Part} (h : part.withReturn = true) :
    octets (joined part.torn) = part.bytes := by
  rw [octets_joined, Part.bytes, Part.ending, if_pos h]
  exact List.append_assoc part.body [carriageReturn] [lineFeed]

/-- About a part of the greatest size that is torn, two things are said: that it is too large, and then the
    part. -/
theorem Part.reports_torn {part : Part} (hlength : part.body.length = maxFrameSize)
    (hreturn : part.withReturn = true) (hblank : part.isBlank = false) :
    (Decoder.fresh.reports part.torn).1.map (Except.map octets) =
      [.error (.tooLarge (maxFrameSize + 1)), .ok part.body] := by
  have hbytes : part.bytes.length = maxFrameSize + 2 := by
    rw [part.length_bytes, if_pos hreturn, hlength]
  have hends : ends 0 part.torn = [maxFrameSize + 1, maxFrameSize + 2] := by
    have hfirst : (⟨⟨part.body ++ [carriageReturn]⟩⟩ : ByteArray).size = maxFrameSize + 1 := by
      rw [← hlength]
      exact List.length_append
    rw [Part.torn, ends, ends, ends, hfirst, Nat.zero_add]
    rfl
  rw [reports_of_part hblank (part.octets_torn hreturn), hends, Part.reports, hbytes,
    verdict_of_le (Nat.le_of_eq hlength), List.filter_cons_of_pos, List.filter_cons_of_neg]
  · rfl
  · simp only [decide_eq_true_eq, not_and]
    omega
  · simp only [decide_eq_true_eq]
    omega

end Split

/-- **The verdict on a part depends on the part alone**, but for one case. Let a stream fall into parts, none
    of them blank, and arrive in any pieces. What is said is what is said about each of the parts in turn. A
    part within the limit is delivered, and nothing else is said about it exactly if it is not torn; a part
    beyond the limit is reported when its end is there, and all that is said about it is that it is too
    large. -/
theorem reports_eq_verdict_iff {parts : List Part} {pieces : List ByteArray}
    (hstream : octets (joined pieces) = parts.flatMap Part.bytes)
    (hblank : ∀ part ∈ parts, part.isBlank = false) :
    (Decoder.fresh.reports pieces).1.map (Except.map octets) = reportsOf (ends 0 pieces) 0 parts ∧
    ∀ start part, (start, part) ∈ placed 0 parts →
      (part.body.length ≤ maxFrameSize →
        .ok part.body ∈ part.reports (ends 0 pieces) start ∧
        (part.reports (ends 0 pieces) start = [.ok part.body] ↔ ¬ part.IsTorn (ends 0 pieces) start)) ∧
      (maxFrameSize < part.body.length →
        .error (.tooLarge part.body.length) ∈ part.reports (ends 0 pieces) start ∧
        ∀ said ∈ part.reports (ends 0 pieces) start,
          ∃ size, maxFrameSize < size ∧ size < part.bytes.length ∧ said = .error (.tooLarge size)) := by
  constructor
  · rw [octets_joined] at hstream
    exact Decoder.reports_spec (Decoder.resumable_ofBytes .empty) (cut?_of_no_feed List.not_mem_nil) 0
      hstream hblank
  · intro start part _
    have hlast : verdict part.body ∈ part.reports (ends 0 pieces) start :=
      List.mem_append_right _ (List.mem_singleton.2 rfl)
    constructor
    · intro hle
      rw [verdict_of_le hle] at hlast
      exact ⟨hlast, part.reports_eq_iff hle _ _⟩
    · intro hlt
      rw [verdict_of_lt hlt] at hlast
      exact ⟨hlast, fun said hsaid => Part.eq_tooLarge_of_mem_reports hlt hsaid⟩

/-- A stream of two parts in three pieces, one of which ends behind a carriage return. Nothing is torn in it,
    since no part is of the greatest size. -/
theorem reports_eq_verdict_iff_crlf :
    octets (joined ["a\n\r".toUTF8, "\naa".toUTF8, "\n\n".toUTF8]) =
        [Part.ofLetters 0 true, Part.ofLetters 1 false].flatMap Part.bytes ∧
      (Decoder.fresh.reports ["a\n\r".toUTF8, "\naa".toUTF8, "\n\n".toUTF8]).1.map (Except.map octets)
        = [.ok [97, 10], .ok [97, 97, 10]] := by
  have hstream : octets (joined ["a\n\r".toUTF8, "\naa".toUTF8, "\n\n".toUTF8]) =
      [Part.ofLetters 0 true, Part.ofLetters 1 false].flatMap Part.bytes := by
    decide +kernel
  refine ⟨hstream, ?_⟩
  obtain ⟨hsaid, -⟩ := reports_eq_verdict_iff hstream (by decide +kernel)
  rw [hsaid]
  rfl

/-- **A frame of the greatest size is reported as too large and delivered all the same** if it is torn. -/
theorem letters_reported_and_delivered :
    (Part.ofLetters (maxFrameSize - 2) true).body.length = maxFrameSize ∧
    (Part.ofLetters (maxFrameSize - 2) true).isBlank = false ∧
    octets (joined (Part.ofLetters (maxFrameSize - 2) true).torn) =
      (Part.ofLetters (maxFrameSize - 2) true).bytes ∧
    (Decoder.fresh.reports (Part.ofLetters (maxFrameSize - 2) true).torn).1.map (Except.map octets) =
      [.error (.tooLarge (maxFrameSize + 1)), .ok (Part.ofLetters (maxFrameSize - 2) true).body] := by
  have hlength : (Part.ofLetters (maxFrameSize - 2) true).body.length = maxFrameSize := by
    rw [Part.length_ofLetters]
    exact Nat.sub_add_cancel (by decide)
  exact ⟨hlength, Part.isBlank_ofLetters _ _, Part.octets_torn rfl,
    Part.reports_torn hlength rfl (Part.isBlank_ofLetters _ _)⟩

/-! ## What is encoded -/

/-- What is written for an accepted text is one part without a carriage return, and not a blank one. -/
theorem exists_part_of_encodeFrame {text : String} {bytes : ByteArray} (h : encodeFrame text = .ok bytes) :
    ∃ part : Part, part.body = octets (frameOf text) ∧ part.withReturn = false ∧ part.isBlank = false ∧
      part.bytes = octets (encodingOf text) := by
  obtain ⟨init, c, htrim, hc, hlines, -⟩ := encodeFrame_eq_ok h
  have hpassed : Passed (bytesOf (init ++ [c]) ++ [lineFeed]) :=
    passed_lines [] .nothing List.not_mem_nil hc hlines
  refine ⟨⟨_, hpassed, false⟩, ?_, rfl, ?_, ?_⟩
  · rw [octets_frameOf, htrim]
  · show (bytesOf (init ++ [c]) ++ [lineFeed]).all isBlankByte = false
    rw [List.all_append, not_blank_bytesOf (List.mem_append_right init (List.mem_singleton.2 rfl)) hc,
      Bool.false_and]
  · rw [octets_encodingOf, htrim]
    exact List.append_assoc _ [lineFeed] [lineFeed]

/-- The encoder measures the trimmed text. -/
theorem size_trimmedText_le {text : String} {bytes : ByteArray} (h : encodeFrame text = .ok bytes) :
    (trimmedText text).toUTF8.size ≤ maxFrameSize := by
  unfold encodeFrame at h
  dsimp only at h
  split at h
  · cases h
  · split at h
    · cases h
    · split at h
      · cases h
      · next hsize => exact Nat.not_lt.1 hsize

theorem length_octets_frameOf (text : String) :
    (octets (frameOf text)).length = (trimmedText text).toUTF8.size + 1 := by
  rw [octets_frameOf, size_toUTF8, toList_trimmedText, List.length_append, List.length_singleton]

/-- What is said about an encoded text, seen as a part. -/
theorem reports_of_encodeFrame {text : String} {bytes : ByteArray} (h : encodeFrame text = .ok bytes)
    {pieces : List ByteArray} (hbytes : joined pieces = encodingOf text) :
    ∃ part : Part, part.body = octets (frameOf text) ∧ part.withReturn = false ∧
      part.body.length = (trimmedText text).toUTF8.size + 1 ∧
      (Decoder.fresh.reports pieces).1.map (Except.map octets) = part.reports (ends 0 pieces) 0 := by
  obtain ⟨part, hbody, hreturn, hblank, hpart⟩ := exists_part_of_encodeFrame h
  refine ⟨part, hbody, hreturn, ?_, reports_of_part hblank (hpart ▸ congrArg octets hbytes)⟩
  rw [hbody, length_octets_frameOf]

/-- A smaller text is delivered. -/
theorem reports_of_smaller {text : String} {bytes : ByteArray} (h : encodeFrame text = .ok bytes)
    (hsize : (trimmedText text).toUTF8.size < maxFrameSize) {pieces : List ByteArray}
    (hbytes : joined pieces = encodingOf text) :
    (Decoder.fresh.reports pieces).1 = [.ok (frameOf text)] := by
  obtain ⟨part, hbody, hreturn, hlength, hsaid⟩ := reports_of_encodeFrame h hbytes
  have hwhole : ¬ part.IsTorn (ends 0 pieces) 0 := by
    rintro ⟨-, htorn, -⟩
    rw [hreturn] at htorn
    cases htorn
  rw [(part.reports_eq_iff (by omega) _ _).2 hwhole, hbody] at hsaid
  exact (List.map_inj_right fun _ _ heq => map_octets_injective heq).1 hsaid

/-- A text of the greatest size is reported as a frame that is one byte greater. -/
theorem reports_of_greatest {text : String} {bytes : ByteArray} (h : encodeFrame text = .ok bytes)
    (hsize : (trimmedText text).toUTF8.size = maxFrameSize) {pieces : List ByteArray}
    (hbytes : joined pieces = encodingOf text) :
    (Decoder.fresh.reports pieces).1 ≠ [] ∧
      ∀ said ∈ (Decoder.fresh.reports pieces).1, said = .error (.tooLarge (maxFrameSize + 1)) := by
  obtain ⟨part, -, hreturn, hlength, hsaid⟩ := reports_of_encodeFrame h hbytes
  have hlarge : maxFrameSize < part.body.length := by omega
  have hwhole : part.bytes.length = part.body.length + 1 := by
    rw [part.length_bytes, hreturn, if_neg Bool.false_ne_true]
  constructor
  · intro hnil
    rw [hnil, Part.reports] at hsaid
    simp at hsaid
  · intro said hmem
    have hmem' : said.map octets ∈ part.reports (ends 0 pieces) 0 := hsaid ▸ List.mem_map_of_mem hmem
    obtain ⟨size, hlow, hhigh, herror⟩ := part.eq_tooLarge_of_mem_reports hlarge hmem'
    obtain rfl : size = maxFrameSize + 1 := by omega
    exact map_octets_injective herror

/-- A text of letters. -/
def letters (n : Nat) : String := String.ofList (List.replicate n 'a')

theorem trimEnd_letters (n : Nat) : trimEnd (List.replicate n 'a') = List.replicate n 'a' := by
  cases n with
  | zero => rfl
  | succ n =>
    have htrim : trimEnd (List.replicate n 'a' ++ ['a'] ++ []) = List.replicate n 'a' ++ ['a'] :=
      trimEnd_append (by decide) (by simp)
    rwa [List.append_nil, ← List.replicate_succ'] at htrim

theorem size_letters (n : Nat) : (letters n).toUTF8.size = n := by
  have hletter : String.utf8EncodeChar 'a' = [97] := by decide
  rw [size_toUTF8, letters, String.toList_ofList, bytesOf, List.flatMap_replicate, hletter]
  simp

theorem trimmedText_letters (n : Nat) : trimmedText (letters n) = letters n := by
  rw [trimmedText, letters, String.toList_ofList, trimEnd_letters]

/-- Letters are accepted up to the greatest size. -/
theorem encodeFrame_letters {n : Nat} (hpos : 0 < n) (hle : n ≤ maxFrameSize) :
    encodeFrame (letters n) = .ok (encodingOf (letters n)) := by
  have hsize := size_letters n
  have hline : hasEmptyLine (List.replicate n 'a') = false :=
    hasEmptyLine_of_not_mem fun hmem => absurd (List.eq_of_mem_replicate hmem) (by decide)
  cases hencode : encodeFrame (letters n) with
  | ok bytes => rw [eq_encodingOf hencode]
  | error e =>
    unfold encodeFrame at hencode
    dsimp only at hencode
    rw [letters] at hsize
    rw [letters, String.toList_ofList, trimEnd_letters, if_neg, hline, if_neg Bool.false_ne_true,
      if_neg] at hencode
    · cases hencode
    · rw [hsize]
      exact Nat.not_lt.2 hle
    · rw [List.isEmpty_iff, List.replicate_eq_nil_iff]
      exact Nat.ne_of_gt hpos

/-- **Which encoded texts arrive.** A text that is accepted is at most of the greatest size when trimmed. If
    it is smaller it is delivered, in whatever pieces its bytes arrive, and nothing else is said; if it is of
    the greatest size it is never delivered, and all that is said, once at least, is that a frame one byte
    greater is too large. -/
theorem encoded_arrives_iff {buffer : ByteArray} {text : String} {pieces : List ByteArray}
    (h : appendFrame buffer text = (.ok (), buffer ++ joined pieces)) :
    (trimmedText text).toUTF8.size ≤ maxFrameSize ∧
    ((trimmedText text).toUTF8.size < maxFrameSize ↔
      (Decoder.fresh.reports pieces).1 = [.ok (frameOf text)]) ∧
    ((trimmedText text).toUTF8.size = maxFrameSize →
      (Decoder.fresh.reports pieces).1 ≠ [] ∧
      ∀ said ∈ (Decoder.fresh.reports pieces).1, said = .error (.tooLarge (maxFrameSize + 1))) := by
  cases hencode : encodeFrame text with
  | error e =>
    rw [appendFrame_of_error hencode] at h
    cases h
  | ok bytes =>
    rw [appendFrame_of_ok hencode] at h
    have hbytes : joined pieces = encodingOf text :=
      (ByteArray.append_right_inj buffer).1 (Prod.mk.inj h).2.symm
    have hsize := size_trimmedText_le hencode
    refine ⟨hsize, ⟨fun hless => reports_of_smaller hencode hless hbytes, ?_⟩,
      fun hequal => reports_of_greatest hencode hequal hbytes⟩
    intro harrives
    rcases Nat.lt_or_eq_of_le hsize with hless | hequal
    · exact hless
    · -- of the greatest size it would be reported
      obtain ⟨-, hall⟩ := reports_of_greatest hencode hequal hbytes
      have hfalse := hall (.ok (frameOf text)) (harrives ▸ List.mem_singleton.2 rfl)
      cases hfalse

/-- A text of two lines, without the white space at its end; its carriage return stands before the end of the
    first piece. -/
theorem encoded_arrives_iff_crlf :
    appendFrame .empty "a\r\nb \n" =
        (.ok (), .empty ++ joined ["a\r".toUTF8, "\nb\n".toUTF8, "\n".toUTF8]) ∧
      (Decoder.fresh.reports ["a\r".toUTF8, "\nb\n".toUTF8, "\n".toUTF8]).1 = [.ok "a\r\nb\n".toUTF8] := by
  have hencoded : appendFrame .empty "a\r\nb \n" =
      (.ok (), .empty ++ joined ["a\r".toUTF8, "\nb\n".toUTF8, "\n".toUTF8]) := rfl
  have hframe : frameOf "a\r\nb \n" = "a\r\nb\n".toUTF8 := by decide +kernel
  refine ⟨hencoded, ?_⟩
  rw [← hframe]
  exact (encoded_arrives_iff hencoded).2.1.1 (by decide +kernel)

/-- **The encoder accepts a text that is not delivered**: letters of the greatest size. -/
theorem letters_accepted_and_refused :
    appendFrame .empty (letters maxFrameSize) =
        (.ok (), .empty ++ joined [encodingOf (letters maxFrameSize)]) ∧
      .error (.tooLarge (maxFrameSize + 1)) ∈
        (Decoder.fresh.reports [encodingOf (letters maxFrameSize)]).1 ∧
      .ok (frameOf (letters maxFrameSize)) ∉
        (Decoder.fresh.reports [encodingOf (letters maxFrameSize)]).1 := by
  have hencode : encodeFrame (letters maxFrameSize) = .ok (encodingOf (letters maxFrameSize)) :=
    encodeFrame_letters (by decide) (Nat.le_refl _)
  have hsize : (trimmedText (letters maxFrameSize)).toUTF8.size = maxFrameSize := by
    rw [trimmedText_letters, size_letters]
  obtain ⟨hsome, hall⟩ := reports_of_greatest hencode hsize (joined_singleton _)
  refine ⟨by rw [appendFrame_of_ok hencode, joined_singleton], ?_, ?_⟩
  · obtain ⟨said, hmem⟩ := List.exists_mem_of_ne_nil _ hsome
    exact hall said hmem ▸ hmem
  · intro hmem
    have hfalse := hall _ hmem
    cases hfalse

end GraphWire
