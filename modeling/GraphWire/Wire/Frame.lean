import GraphWire.Text.Blank

/-!
# `GraphWire.Wire.Frame` — frames in a stream of bytes

A frame is a piece of text that ends with an empty line, one that holds nothing or a carriage return
before its line feed. A stream arrives in pieces, so the decoder keeps what it has and how far it
has looked; frames of white space alone are passed over. There is a limit to the size of a frame.

## Contents
- **`FrameError`** and `maxFrameSize`.
- **`searchEmptyLine`**, the search for the first empty line.
- **`Decoder`**, its buffer and its place; `Decoder.append`, `Decoder.next`, and `Decoder.finish`
  for the end of the stream.
- **Many frames:** `Decoder.drain` and `Decoder.readStream`.
- **`encodeFrame`**, a text as a frame, with `hasEmptyLine`, and `appendFrame`, the frame in a buffer.
-/

namespace GraphWire

/-- The greatest size of a frame in bytes, 16 MiB. -/
def maxFrameSize : Nat := 16 * 1024 * 1024

inductive FrameError where
  /-- The stream ended inside a frame of so many bytes. -/
  | unterminated (size : Nat)
  /-- There is nothing but white space to encode. -/
  | emptyFrame
  /-- An empty line inside a text would end the frame early. -/
  | emptyLine
  | tooLarge (size : Nat)
  deriving DecidableEq

def FrameError.message : FrameError → String
  | unterminated size => s!"framing error: unterminated frame of {size} bytes at end of stream"
  | emptyFrame => "framing error: empty frame"
  | emptyLine => "framing error: frame text contains a blank line"
  | tooLarge size => s!"frame too large: {size} bytes (max {maxFrameSize})"

/-! ## The search for an empty line -/

def lineFeed : UInt8 := 10

def carriageReturn : UInt8 := 13

/-- Whether the line from `lineStart` to the line feed at `i` holds nothing or a carriage return. -/
def isEmptyLine (buffer : ByteArray) (lineStart i : Nat) (hi : i < buffer.size) : Bool :=
  if lineStart = i then true
  else if h : lineStart + 1 = i then buffer[lineStart] == carriageReturn
  else false

/-- What a search in so many bytes found: where the first empty line begins and where it ends, or
    where the last line begins, if there is no empty one. -/
inductive Search (size : Nat) where
  | emptyLine (start finish : Nat) (start_lt : start < finish) (finish_le : finish ≤ size)
  | exhausted (lineStart : Nat) (lineStart_le : lineStart ≤ size)

/-- Searches from `i` on, inside the line that begins at `lineStart`. -/
def searchEmptyLine (buffer : ByteArray) (lineStart i : Nat) (hl : lineStart ≤ i)
    (hi : i ≤ buffer.size) : Search buffer.size :=
  if h : i < buffer.size then
    if buffer[i] = lineFeed then
      if isEmptyLine buffer lineStart i h then
        .emptyLine lineStart (i + 1) (Nat.lt_succ_of_le hl) h
      else searchEmptyLine buffer (i + 1) (i + 1) (Nat.le_refl _) h
    else searchEmptyLine buffer lineStart (i + 1) (Nat.le_succ_of_le hl) h
  else .exhausted lineStart (Nat.le_trans hl hi)
  termination_by buffer.size - i

/-- Whether all bytes from `i` on are white space. -/
def isBlankFrom (bytes : ByteArray) (i : Nat) : Bool :=
  if h : i < bytes.size then isBlankByte bytes[i] && isBlankFrom bytes (i + 1) else true
  termination_by bytes.size - i

/-! ## The decoder -/

/-- The bytes that have arrived and are not yet delivered, how many of them have been searched, and
    where the line that the search stands in begins. -/
structure Decoder where
  buffer : ByteArray
  scanned : Nat
  lineStart : Nat
  lineStart_le : lineStart ≤ scanned
  scanned_le : scanned ≤ buffer.size

/-- What the decoder has to say. -/
inductive Delivery where
  | frame (body : ByteArray)
  /-- There is no whole frame in the buffer. -/
  | nothing
  | failed (e : FrameError)

namespace Decoder

/-- A decoder that has searched none of its bytes. -/
def ofBytes (buffer : ByteArray) : Decoder := ⟨buffer, 0, 0, Nat.le_refl _, Nat.zero_le _⟩

/-- A decoder to which nothing has arrived. -/
def fresh : Decoder := ofBytes .empty

instance : Inhabited Decoder := ⟨fresh⟩

/-- More bytes arrive. -/
def append (d : Decoder) (bytes : ByteArray) : Decoder :=
  ⟨d.buffer ++ bytes, d.scanned, d.lineStart, d.lineStart_le, by
    rw [ByteArray.size_append]
    exact Nat.le_trans d.scanned_le (Nat.le_add_right _ _)⟩

/-- The next frame in the buffer. What is longer than the limit is reported: if its end is there it
    is dropped, if not it stays. -/
def next (d : Decoder) : Delivery × Decoder :=
  match searchEmptyLine d.buffer d.lineStart d.scanned d.lineStart_le d.scanned_le with
  | .exhausted lineStart lineStart_le =>
    let searched : Decoder :=
      ⟨d.buffer, d.buffer.size, lineStart, lineStart_le, Nat.le_refl _⟩
    if maxFrameSize < d.buffer.size then (.failed (.tooLarge d.buffer.size), searched)
    else (.nothing, searched)
  | .emptyLine start finish _start_lt _finish_le =>
    let rest := ofBytes (d.buffer.extract finish d.buffer.size)
    if maxFrameSize < start then (.failed (.tooLarge start), rest)
    else
      let body := d.buffer.extract 0 start
      if isBlankFrom body 0 then next rest else (.frame body, rest)
  termination_by d.buffer.size
  decreasing_by
    simp only [ofBytes, ByteArray.size_extract]
    omega

/-- The next frame when no more bytes will arrive. What remains without an end is dropped, and
    reported unless it is white space. -/
def finish (d : Decoder) : Delivery × Decoder :=
  match d.next with
  | (.nothing, d) =>
    if isBlankFrom d.buffer 0 then (.nothing, fresh)
    else (.failed (.unterminated d.buffer.size), fresh)
  | other => other

theorem size_lt_of_next {d rest : Decoder} {body : ByteArray} (h : d.next = (.frame body, rest)) :
    rest.buffer.size < d.buffer.size := by
  fun_induction next d with
  | case1 => cases h
  | case2 => cases h
  | case3 => cases h
  | case4 d start finish start_lt finish_le _ rest' _ body' _ ih =>
    have := ih h
    simp only [rest', ofBytes, ByteArray.size_extract] at this
    omega
  | case5 d start finish start_lt finish_le _ rest' _ body' _ =>
    rw [← (Prod.mk.inj h).2]
    simp only [rest', ofBytes, ByteArray.size_extract]
    omega

theorem size_lt_of_finish {d rest : Decoder} {body : ByteArray}
    (h : d.finish = (.frame body, rest)) : rest.buffer.size < d.buffer.size := by
  unfold finish at h
  split at h
  · split at h <;> cases h
  · exact size_lt_of_next h

/-- The frames that the decoder delivers one after another, and the failure that ends them, if they
    do not just end; `atEnd` says that no more bytes will arrive. -/
def drain (atEnd : Bool) (d : Decoder) : List ByteArray × Option FrameError × Decoder :=
  match _h : if atEnd then d.finish else d.next with
  | (.frame body, rest) =>
    let (bodies, failure, rest) := drain atEnd rest
    (body :: bodies, failure, rest)
  | (.nothing, rest) => ([], none, rest)
  | (.failed e, rest) => ([], some e, rest)
  termination_by d.buffer.size
  decreasing_by
    split at _h
    · exact size_lt_of_finish _h
    · exact size_lt_of_next _h

/-- The frames of a stream that arrives in the given pieces and then ends, up to the first failure:
    behind a failure nothing is read. -/
def readStream (d : Decoder) : List ByteArray → List ByteArray
  | [] => (d.drain true).1
  | piece :: pieces =>
    match (d.append piece).drain false with
    | (bodies, none, rest) => bodies ++ readStream rest pieces
    | (bodies, some _, _) => bodies

end Decoder

/-! ## The encoder -/

/-- What a line has held so far: nothing, a carriage return, or more. -/
inductive LineSoFar where
  | nothing
  | carriageReturn
  | more
  deriving DecidableEq

/-- Whether a line that is ended by a line feed holds nothing but, perhaps, a carriage return. -/
def hasEmptyLineFrom : LineSoFar → List Char → Bool
  | _, [] => false
  | line, '\n' :: rest => line != .more || hasEmptyLineFrom .nothing rest
  | .nothing, '\x0d' :: rest => hasEmptyLineFrom .carriageReturn rest
  | _, _ :: rest => hasEmptyLineFrom .more rest

def hasEmptyLine (cs : List Char) : Bool := hasEmptyLineFrom .nothing cs

/-- The bytes of a text as a frame: without the white space at its end, and with the empty line that
    ends the frame. -/
def encodeFrame (text : String) : Except FrameError ByteArray :=
  let body := trimEnd text.toList
  if body.isEmpty then .error .emptyFrame
  else if hasEmptyLine body then .error .emptyLine
  else
    let bytes := (String.ofList body).toUTF8
    if maxFrameSize < bytes.size then .error (.tooLarge bytes.size)
    else .ok (bytes ++ ⟨#[lineFeed, lineFeed]⟩)

/-- Writes a text as a frame behind what the buffer holds. -/
def appendFrame (buffer : ByteArray) (text : String) : Except FrameError Unit × ByteArray :=
  match encodeFrame text with
  | .ok bytes => (.ok (), buffer ++ bytes)
  | .error e => (.error e, buffer)

end GraphWire
