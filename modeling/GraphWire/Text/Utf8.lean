/-!
# `GraphWire.Text.Utf8` — where bytes stop being UTF-8

A sequence that is not well formed is reported with its place: the bytes that begin no character
although they look like the start of one, or the start of a character cut short by the end.

## Contents
- **`Utf8Fault`** and its `message`.
- **`sequenceAt`**, what the bytes at one place are.
- **`utf8Fault?`**, the first fault of a byte string.
- **`decodeUtf8`**, a byte string as text.
-/

namespace GraphWire

/-- The place of the first ill-formed sequence, and its length unless it is cut short. -/
structure Utf8Fault where
  index : Nat
  length : Option Nat
  deriving DecidableEq

def Utf8Fault.message (fault : Utf8Fault) : String :=
  match fault.length with
  | some n => s!"invalid utf-8 sequence of {n} bytes from index {fault.index}"
  | none => s!"incomplete utf-8 byte sequence from index {fault.index}"

/-- What the bytes at one place are: a character of so many bytes, an ill-formed sequence of so many
    bytes, or the start of a character that the end cuts short. -/
inductive Utf8Sequence where
  | character (length : Nat)
  | malformed (length : Nat)
  | unfinished
  deriving DecidableEq

/-- Whether the byte continues a character. -/
def isContinuation (b : UInt8) : Bool := 0x80 ≤ b && b ≤ 0xBF

/-- The bytes that may follow a first byte of a character of three or four bytes: overlong forms,
    surrogates and code points past the last are excluded here. -/
def mayFollow (first second : UInt8) : Bool :=
  let least : UInt8 := if first = 0xE0 then 0xA0 else if first = 0xF0 then 0x90 else 0x80
  let greatest : UInt8 := if first = 0xED then 0x9F else if first = 0xF4 then 0x8F else 0xBF
  least ≤ second && second ≤ greatest

/-- Checks the continuation bytes after the first `done` bytes of a character of `length` bytes. -/
def continueSequence (length done : Nat) : List UInt8 → Utf8Sequence
  | [] => if length ≤ done then .character length else .unfinished
  | b :: rest =>
    if length ≤ done then .character length
    else if isContinuation b then continueSequence length (done + 1) rest
    else .malformed done

/-- What begins with `first` and goes on with `rest`. -/
def sequenceAt (first : UInt8) (rest : List UInt8) : Utf8Sequence :=
  if first < 0x80 then .character 1
  else if first < 0xC2 || 0xF4 < first then .malformed 1
  else if first < 0xE0 then continueSequence 2 1 rest
  else
    match rest with
    | [] => .unfinished
    | second :: rest =>
      if mayFollow first second then continueSequence (if first < 0xF0 then 3 else 4) 2 rest
      else .malformed 1

/-- The first fault of the bytes, the first of which has the given index. -/
def utf8FaultFrom? (index : Nat) (bytes : List UInt8) : Option Utf8Fault :=
  match bytes with
  | [] => none
  | first :: rest =>
    match sequenceAt first rest with
    | .character n => utf8FaultFrom? (index + n) (rest.drop (n - 1))
    | .malformed n => some ⟨index, some n⟩
    | .unfinished => some ⟨index, none⟩
  termination_by bytes.length
  decreasing_by simp only [List.length_drop, List.length_cons]; omega

/-- The first fault of a byte string. -/
def utf8Fault? (bytes : List UInt8) : Option Utf8Fault := utf8FaultFrom? 0 bytes

/-- The text that the bytes are the UTF-8 form of, or the first fault. -/
def decodeUtf8 (bytes : ByteArray) : Except Utf8Fault String :=
  match String.fromUTF8? bytes with
  | some text => .ok text
  | none => .error ((utf8Fault? bytes.data.toList).getD ⟨0, none⟩)

end GraphWire
