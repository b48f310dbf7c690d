import GraphWire.Wire.Frame

/-!
# `Proofs.Split` — how a stream of bytes falls into frames

The reference for the decoder, said of the whole stream and without any memory of how it arrived: cut
the stream behind every empty line, the lines counted from the previous cut. What stands before an
empty line is a frame, unless it is white space alone or larger than the limit; what follows the last
cut is not a frame yet.

## Contents
- **Lines.** `Split.firstLine?` and `Split.IsEmptyLine`.
- **Cuts.** `Split.cut?`, the first one, with an equation for each kind of first line, and
  `Split.parts`, all of them; `Split.frames` and `Split.rest` are what a reader gets.
- **Streams that grow.** `cut?_append` and `parts_append`: bytes behind a cut do not move it.
- **`Split.Passed`**, lines none of which is empty, over which the first cut can be looked for.
-/

namespace GraphWire.Split

/-! ## Lines -/

/-- The first line of a stream, without its line feed, and what follows it. -/
def firstLine? : List UInt8 → Option (List UInt8 × List UInt8)
  | [] => none
  | b :: rest =>
    if b = lineFeed then some ([], rest)
    else (firstLine? rest).map fun (line, rest) => (b :: line, rest)

/-- A line is empty when it holds nothing, or a carriage return. -/
def IsEmptyLine (line : List UInt8) : Prop := line = [] ∨ line = [carriageReturn]

instance (line : List UInt8) : Decidable (IsEmptyLine line) :=
  inferInstanceAs (Decidable (line = [] ∨ line = [carriageReturn]))

theorem firstLine?_eq_some_iff {stream line rest : List UInt8} :
    firstLine? stream = some (line, rest) ↔
      stream = line ++ lineFeed :: rest ∧ lineFeed ∉ line := by
  induction stream generalizing line with
  | nil => simp [firstLine?]
  | cons b stream ih =>
    rw [firstLine?]
    by_cases hb : b = lineFeed
    · rw [if_pos hb, hb]
      constructor
      · intro h
        cases h
        exact ⟨rfl, List.not_mem_nil⟩
      · rintro ⟨h, hnot⟩
        cases line with
        | nil => cases h; rfl
        | cons c line =>
          cases h
          exact absurd List.mem_cons_self hnot
    · rw [if_neg hb, Option.map_eq_some_iff]
      constructor
      · rintro ⟨⟨line', rest'⟩, h, heq⟩
        cases heq
        obtain ⟨rfl, hnot⟩ := ih.1 h
        exact ⟨rfl, List.not_mem_cons_of_ne_of_not_mem (Ne.symm hb) hnot⟩
      · rintro ⟨h, hnot⟩
        cases line with
        | nil => cases h; exact absurd rfl hb
        | cons c line =>
          cases h
          exact ⟨(line, rest), ih.2 ⟨rfl, mt (List.mem_cons_of_mem _) hnot⟩, rfl⟩

theorem firstLine?_eq_none_iff {stream : List UInt8} :
    firstLine? stream = none ↔ lineFeed ∉ stream := by
  induction stream with
  | nil => simp [firstLine?]
  | cons b stream ih =>
    rw [firstLine?]
    by_cases hb : b = lineFeed
    · simp [hb]
    · rw [if_neg hb, Option.map_eq_none_iff, ih, List.mem_cons, not_or]
      exact ⟨fun h => ⟨Ne.symm hb, h⟩, And.right⟩

theorem length_lt_of_firstLine? {stream line rest : List UInt8}
    (h : firstLine? stream = some (line, rest)) : rest.length < stream.length := by
  obtain ⟨rfl, _⟩ := firstLine?_eq_some_iff.1 h
  rw [List.length_append, List.length_cons]
  omega

/-! ## Cuts -/

/-- Cuts a stream behind its first empty line: what stands before that line, and what follows it. -/
def cut? (stream : List UInt8) : Option (List UInt8 × List UInt8) :=
  match _h : firstLine? stream with
  | none => none
  | some (line, rest) =>
    if IsEmptyLine line then some ([], rest)
    else (cut? rest).map fun (body, rest) => (line ++ lineFeed :: body, rest)
  termination_by stream.length
  decreasing_by exact length_lt_of_firstLine? _h

theorem cut?_eq (stream : List UInt8) :
    cut? stream =
      match firstLine? stream with
      | none => none
      | some (line, rest) =>
        if IsEmptyLine line then some ([], rest)
        else (cut? rest).map fun (body, rest) => (line ++ lineFeed :: body, rest) := by
  rw [cut?]
  split
  · next hline => rw [hline]
  · next hline => rw [hline]

theorem cut?_of_no_feed {stream : List UInt8} (h : lineFeed ∉ stream) : cut? stream = none := by
  rw [cut?_eq, firstLine?_eq_none_iff.2 h]

theorem cut?_line {line : List UInt8} (hnot : lineFeed ∉ line) (rest : List UInt8) :
    cut? (line ++ lineFeed :: rest) =
      if IsEmptyLine line then some ([], rest)
      else (cut? rest).map fun (body, rest) => (line ++ lineFeed :: body, rest) := by
  have hline : firstLine? (line ++ lineFeed :: rest) = some (line, rest) :=
    firstLine?_eq_some_iff.2 ⟨rfl, hnot⟩
  rw [cut?_eq, hline]

/-- **Bytes behind a cut do not move it.** -/
theorem cut?_append {stream body rest : List UInt8} (h : cut? stream = some (body, rest))
    (more : List UInt8) : cut? (stream ++ more) = some (body, rest ++ more) := by
  fun_induction cut? stream generalizing body with
  | case1 stream hnone => cases h
  | case2 stream line rest' hline hempty =>
    cases h
    obtain ⟨rfl, hnot⟩ := firstLine?_eq_some_iff.1 hline
    rw [List.append_assoc, List.cons_append, cut?_line hnot, if_pos hempty]
  | case3 stream line rest' hline hempty ih =>
    obtain ⟨⟨body', rest''⟩, hcut, heq⟩ := Option.map_eq_some_iff.1 h
    cases heq
    obtain ⟨rfl, hnot⟩ := firstLine?_eq_some_iff.1 hline
    rw [List.append_assoc, List.cons_append, cut?_line hnot, if_neg hempty, ih hcut]
    rfl

theorem length_lt_of_cut? {stream body rest : List UInt8} (h : cut? stream = some (body, rest)) :
    rest.length < stream.length := by
  fun_induction cut? stream generalizing body with
  | case1 stream hnone => cases h
  | case2 stream line rest' hline hempty =>
    cases h
    exact length_lt_of_firstLine? hline
  | case3 stream line rest' hline hempty ih =>
    obtain ⟨⟨body', rest''⟩, hcut, heq⟩ := Option.map_eq_some_iff.1 h
    cases heq
    exact Nat.lt_trans (ih hcut) (length_lt_of_firstLine? hline)

/-- What stands before each empty line, and what follows the last one. -/
def parts (stream : List UInt8) : List (List UInt8) × List UInt8 :=
  match _h : cut? stream with
  | none => ([], stream)
  | some (body, rest) => (body :: (parts rest).1, (parts rest).2)
  termination_by stream.length
  decreasing_by all_goals exact length_lt_of_cut? _h

theorem parts_eq (stream : List UInt8) :
    parts stream =
      match cut? stream with
      | none => ([], stream)
      | some (body, rest) => (body :: (parts rest).1, (parts rest).2) := by
  rw [parts]
  split
  · next hcut => rw [hcut]
  · next hcut => rw [hcut]

theorem parts_of_none {stream : List UInt8} (h : cut? stream = none) :
    parts stream = ([], stream) := by
  rw [parts_eq, h]

theorem parts_of_some {stream body rest : List UInt8} (h : cut? stream = some (body, rest)) :
    parts stream = (body :: (parts rest).1, (parts rest).2) := by
  rw [parts_eq, h]

/-- **A stream is split in one go or piece by piece alike:** what was not a frame yet is split together
    with what follows. -/
theorem parts_append (stream more : List UInt8) :
    parts (stream ++ more) =
      ((parts stream).1 ++ (parts ((parts stream).2 ++ more)).1,
        (parts ((parts stream).2 ++ more)).2) := by
  fun_induction parts stream with
  | case1 stream hnone => simp
  | case2 stream body rest hcut ih =>
    rw [parts_of_some (cut?_append hcut more), ih]
    rfl

/-- Behind the last cut there is none. -/
theorem cut?_parts (stream : List UInt8) : cut? (parts stream).2 = none := by
  fun_induction parts stream with
  | case1 stream hnone => exact hnone
  | case2 stream body rest hcut ih => exact ih

/-- Whether what stands before an empty line is a frame: it is within the limit and not blank. -/
def isFrame (body : List UInt8) : Bool :=
  decide (body.length ≤ maxFrameSize) && !body.all isBlankByte

/-- The frames of a stream. -/
def frames (stream : List UInt8) : List (List UInt8) := (parts stream).1.filter isFrame

/-- What follows the last empty line of a stream. -/
def rest (stream : List UInt8) : List UInt8 := (parts stream).2

theorem frames_of_none {stream : List UInt8} (h : cut? stream = none) : frames stream = [] := by
  rw [frames, parts_of_none h]
  rfl

theorem rest_of_none {stream : List UInt8} (h : cut? stream = none) : rest stream = stream := by
  rw [rest, parts_of_none h]

theorem frames_of_some {stream body tail : List UInt8} (h : cut? stream = some (body, tail)) :
    frames stream = if isFrame body then body :: frames tail else frames tail := by
  rw [frames, parts_of_some h, List.filter_cons]
  rfl

theorem rest_of_some {stream body tail : List UInt8} (h : cut? stream = some (body, tail)) :
    rest stream = rest tail := by
  rw [rest, parts_of_some h]
  rfl

theorem frames_append (stream more : List UInt8) :
    frames (stream ++ more) = frames stream ++ frames (rest stream ++ more) := by
  rw [frames, parts_append, List.filter_append]
  rfl

theorem rest_append (stream more : List UInt8) :
    rest (stream ++ more) = rest (rest stream ++ more) := by
  rw [rest, parts_append]
  rfl

/-! ## Lines that were passed over -/

/-- Whole lines, none of them empty. -/
inductive Passed : List UInt8 → Prop where
  | nothing : Passed []
  | line {front line : List UInt8} (passed : Passed front) (noFeed : lineFeed ∉ line)
      (held : ¬ IsEmptyLine line) : Passed (front ++ line ++ [lineFeed])

/-- The first cut behind lines that were passed over is the first cut. -/
theorem Passed.cut?_append {front : List UInt8} (h : Passed front) (tail : List UInt8) :
    cut? (front ++ tail) = (cut? tail).map fun (body, rest) => (front ++ body, rest) := by
  induction h generalizing tail with
  | nothing => simp
  | @line front line _ noFeed held ih =>
    rw [List.append_assoc, List.append_assoc, ih, List.singleton_append, cut?_line noFeed,
      if_neg held, Option.map_map]
    congr 1
    funext ⟨body, rest⟩
    simp

end GraphWire.Split
