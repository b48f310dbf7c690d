import GraphWire.Proofs.Stream

/-!
# `Proofs.Frames` — what is encoded as a frame is delivered

The encoder looks at characters, the decoder at bytes. The two agree on what an empty line is, since
line feeds and carriage returns are single bytes in UTF-8 and no part of any other character. So the
empty line that the encoder adds is the first one of its frame, and a fresh decoder delivers the text
without the white space at its end, but with the line feed that ends its last line.

## Contents
- **Bytes of characters.** `bytesOf`, with `mem_bytesOf_iff` for the characters of one byte.
- **Trimmed texts.** `trimEnd_cases`, nothing is left or something that does not end in white space.
- **Lines.** `LineSoFar.ofLine`, what the encoder keeps of a line; `hasEmptyLineFrom_iff_mem_linesFrom`, it
  looks for an empty line among the lines; `passed_lines`, no line of an accepted text is empty.
- **`encodeFrame_eq_ok`**, what is known of an encoded frame; **`next_of_encodeFrame`**, what a decoder
  in front of one does, and **`drain_encodeFrame`**.
-/

namespace GraphWire

open Split

/-! ## Bytes of characters -/

/-- The UTF-8 form of characters. -/
def bytesOf (cs : List Char) : List UInt8 := cs.flatMap String.utf8EncodeChar

theorem bytesOf_append (a b : List Char) : bytesOf (a ++ b) = bytesOf a ++ bytesOf b :=
  List.flatMap_append

theorem octets_toUTF8 (s : String) : octets s.toUTF8 = bytesOf s.toList := by
  have hutf8 : s.toUTF8 = s.toList.utf8Encode := by
    rw [String.toUTF8_eq_toByteArray, String.utf8Encode_toList]
  rw [hutf8, octets, List.utf8Encode, List.toList_data_toByteArray]
  rfl

theorem size_toUTF8 (s : String) : s.toUTF8.size = (bytesOf s.toList).length := by
  rw [← octets_toUTF8]
  rfl

/-- The bytes determine the characters. -/
theorem bytesOf_injective : Function.Injective bytesOf := by
  intro a b h
  have hbytes : (String.ofList a).toByteArray = (String.ofList b).toByteArray := by
    rw [String.toByteArray_ofList, String.toByteArray_ofList]
    exact congrArg List.toByteArray h
  exact String.ofList_injective (String.toByteArray_inj.1 hbytes)

/-- A byte below 128 stands for the character of its number, and is no part of any other. -/
theorem mem_utf8EncodeChar_iff {c : Char} {b : UInt8} (hb : b.toNat < 128) :
    b ∈ String.utf8EncodeChar c ↔ c.toNat = b.toNat := by
  have hval : c.val.toNat = c.toNat := rfl
  by_cases hone : c.toNat ≤ 127
  · have hbytes : String.utf8EncodeChar c = [UInt8.ofNat c.toNat] := if_pos hone
    rw [hbytes, List.mem_singleton, ← UInt8.toNat_inj, UInt8.toNat_ofNat']
    omega
  · -- longer forms have bytes from 128 on only
    have hlong : ∀ n, 128 ≤ n → n < 256 → b ≠ UInt8.ofNat n := by
      rintro n hn hlt rfl
      rw [UInt8.toNat_ofNat'] at hb
      omega
    refine ⟨fun hmem => False.elim ?_, fun h => absurd h (by omega)⟩
    unfold String.utf8EncodeChar at hmem
    simp only [hval, if_neg hone] at hmem
    split at hmem
    · simp only [List.mem_cons, List.not_mem_nil, or_false] at hmem
      rcases hmem with h | h <;> exact hlong _ (by omega) (by omega) h
    · split at hmem
      · simp only [List.mem_cons, List.not_mem_nil, or_false] at hmem
        rcases hmem with h | h | h <;> exact hlong _ (by omega) (by omega) h
      · simp only [List.mem_cons, List.not_mem_nil, or_false] at hmem
        rcases hmem with h | h | h | h <;> exact hlong _ (by omega) (by omega) h

/-- A character of one byte is met among the bytes where it is met among the characters. -/
theorem mem_bytesOf_iff {cs : List Char} {c : Char} (hc : c.toNat < 128) :
    UInt8.ofNat c.toNat ∈ bytesOf cs ↔ c ∈ cs := by
  have hnat : (UInt8.ofNat c.toNat).toNat = c.toNat := by
    rw [UInt8.toNat_ofNat']
    omega
  rw [bytesOf, List.mem_flatMap]
  constructor
  · rintro ⟨d, hd, hmem⟩
    have heq : d.toNat = c.toNat := by
      rw [mem_utf8EncodeChar_iff (by omega), hnat] at hmem
      exact hmem
    rwa [← Char.toNat_inj.1 heq]
  · intro hmem
    exact ⟨c, hmem, (mem_utf8EncodeChar_iff (by omega)).2 hnat.symm⟩

theorem lineFeed_mem_bytesOf_iff {cs : List Char} : lineFeed ∈ bytesOf cs ↔ '\n' ∈ cs :=
  mem_bytesOf_iff (by decide : '\n'.toNat < 128)

theorem isEmptyLine_bytesOf_iff {line : List Char} :
    IsEmptyLine (bytesOf line) ↔ line = [] ∨ line = ['\r'] := by
  have hreturn : bytesOf ['\r'] = [carriageReturn] := by decide
  show bytesOf line = bytesOf [] ∨ bytesOf line = [carriageReturn] ↔ _
  rw [← hreturn, bytesOf_injective.eq_iff, bytesOf_injective.eq_iff]

theorem toNat_of_isBlankByte {b : UInt8} (h : isBlankByte b = true) :
    b.toNat = 32 ∨ b.toNat = 9 ∨ b.toNat = 10 ∨ b.toNat = 12 ∨ b.toNat = 13 := by
  simp only [isBlankByte, Bool.or_eq_true, beq_iff_eq] at h
  rcases h with (((rfl | rfl) | rfl) | rfl) | rfl <;> decide

/-- White space among bytes is white space among characters. -/
theorem isBlank_of_isBlankByte {b : UInt8} {c : Char} (hb : isBlankByte b = true)
    (hc : c.toNat = b.toNat) : isBlank c = true := by
  have hcases := toNat_of_isBlankByte hb
  simp only [isBlank, hc, Bool.or_eq_true, Bool.and_eq_true, decide_eq_true_eq, beq_iff_eq]
  omega

/-- A text with a character that is not white space does not encode to white space alone. -/
theorem not_blank_bytesOf {cs : List Char} {c : Char} (hmem : c ∈ cs) (hc : isBlank c = false) :
    (bytesOf cs).all isBlankByte = false := by
  obtain ⟨b, hb⟩ := List.exists_mem_of_ne_nil _ (@String.utf8EncodeChar_ne_nil c)
  refine List.all_eq_false.2 ⟨b, List.mem_flatMap.2 ⟨c, hmem, hb⟩, ?_⟩
  intro hblank
  have hlt : b.toNat < 128 := by
    have hcases := toNat_of_isBlankByte hblank
    omega
  have hblankChar := isBlank_of_isBlankByte hblank ((mem_utf8EncodeChar_iff hlt).1 hb)
  rw [hc] at hblankChar
  cases hblankChar

/-! ## Trimmed texts -/

/-- A trimmed text is empty, or ends in a character that is not white space. -/
theorem trimEnd_cases (cs : List Char) :
    trimEnd cs = [] ∨ ∃ init c, trimEnd cs = init ++ [c] ∧ isBlank c = false := by
  cases h : cs.reverse.dropWhile isBlank with
  | nil =>
    left
    rw [trimEnd, h]
    rfl
  | cons c rest =>
    right
    refine ⟨rest.reverse, c, ?_, ?_⟩
    · rw [trimEnd, h, List.reverse_cons]
    · have hhead := List.head?_dropWhile_not isBlank cs.reverse
      rw [h] at hhead
      exact hhead

/-- What stands before white space that is trimmed off stays. -/
theorem trimEnd_append {init tail : List Char} {c : Char} (hc : isBlank c = false)
    (htail : ∀ d ∈ tail, isBlank d = true) : trimEnd (init ++ [c] ++ tail) = init ++ [c] := by
  have hdrop : (tail.reverse ++ (c :: init.reverse)).dropWhile isBlank = c :: init.reverse := by
    rw [List.dropWhile_append_of_pos fun d hd => htail d (List.mem_reverse.1 hd),
      List.dropWhile_cons_of_neg (Bool.eq_false_iff.1 hc)]
  rw [trimEnd, List.reverse_append, List.reverse_append, List.reverse_singleton,
    List.singleton_append, hdrop, List.reverse_cons, List.reverse_reverse]

/-! ## Lines -/

/-- What the encoder keeps of a line that holds these characters so far. -/
def LineSoFar.ofLine : List Char → LineSoFar
  | [] => .nothing
  | ['\r'] => .carriageReturn
  | _ => .more

theorem LineSoFar.ofLine_eq_more_iff {line : List Char} :
    LineSoFar.ofLine line = .more ↔ ¬ (line = [] ∨ line = ['\r']) := by
  unfold LineSoFar.ofLine
  split <;> simp_all

/-- A character other than a line feed goes into the line. -/
theorem hasEmptyLineFrom_char {c : Char} (hc : c ≠ '\n') (line rest : List Char) :
    hasEmptyLineFrom (.ofLine line) (c :: rest) = hasEmptyLineFrom (.ofLine (line ++ [c])) rest := by
  cases line with
  | nil =>
    by_cases hreturn : c = '\r'
    · subst hreturn
      rfl
    · have hmore : LineSoFar.ofLine ([] ++ [c]) = .more :=
        LineSoFar.ofLine_eq_more_iff.2 (by simp [hreturn])
      rw [hmore]
      simp [LineSoFar.ofLine, hasEmptyLineFrom, hreturn]
  | cons d line =>
    have hmore : LineSoFar.ofLine (d :: line ++ [c]) = .more :=
      LineSoFar.ofLine_eq_more_iff.2 (by simp)
    have hsome : LineSoFar.ofLine (d :: line) ≠ .nothing := by
      unfold LineSoFar.ofLine
      split <;> simp_all
    rw [hmore]
    cases hstate : LineSoFar.ofLine (d :: line) with
    | nothing => exact absurd hstate hsome
    | carriageReturn => simp [hasEmptyLineFrom]
    | more => simp [hasEmptyLineFrom]

/-- A text of one line has no empty line. -/
theorem hasEmptyLine_of_not_mem {cs : List Char} (h : '\n' ∉ cs) : hasEmptyLine cs = false := by
  have hfrom (line : List Char) : hasEmptyLineFrom (.ofLine line) cs = false := by
    induction cs generalizing line with
    | nil => rfl
    | cons c cs ih =>
      rw [List.mem_cons, not_or] at h
      rw [hasEmptyLineFrom_char (Ne.symm h.1), ih h.2]
  exact hfrom []

/-- A line without the carriage return at its end. -/
def dropReturn (line : List Char) : List Char :=
  if line.getLast? = some '\r' then line.dropLast else line

/-- The lines of a text behind the part of a line: each ends with a line feed, or a carriage return and a line
    feed; the last one may end with the text. -/
def linesFrom (line : List Char) : List Char → List (List Char)
  | [] => if line = [] then [] else [line]
  | c :: rest =>
    if c = '\n' then dropReturn line :: linesFrom [] rest else linesFrom (line ++ [c]) rest

theorem dropReturn_eq_nil_iff {line : List Char} :
    dropReturn line = [] ↔ line = [] ∨ line = ['\r'] := by
  rcases List.eq_nil_or_concat line with rfl | ⟨init, c, rfl⟩
  · simp [dropReturn]
  · by_cases hc : c = '\r'
    · simp [dropReturn, hc]
    · have hne : init ++ [c] ≠ ['\r'] := by
        intro heq
        have hlast := congrArg List.getLast? heq
        rw [List.getLast?_concat] at hlast
        exact hc (Option.some.inj hlast)
      simp [dropReturn, hc, hne]

/-- **The encoder finds an empty line exactly when one of the lines of the text is empty.** -/
theorem hasEmptyLineFrom_iff_mem_linesFrom {line cs : List Char} :
    hasEmptyLineFrom (.ofLine line) cs = true ↔ [] ∈ linesFrom line cs := by
  induction cs generalizing line with
  | nil =>
    rw [hasEmptyLineFrom, linesFrom]
    by_cases hline : line = []
    · simp [hline]
    · simp [hline, Ne.symm hline]
  | cons c cs ih =>
    by_cases hc : c = '\n'
    · subst hc
      have hended : (LineSoFar.ofLine line != .more) = true ↔ [] = dropReturn line := by
        rw [bne_iff_ne, Ne, LineSoFar.ofLine_eq_more_iff, Decidable.not_not,
          ← dropReturn_eq_nil_iff, eq_comm]
      have hnothing : LineSoFar.nothing = .ofLine [] := rfl
      rw [hasEmptyLineFrom, linesFrom, if_pos rfl, Bool.or_eq_true, List.mem_cons, hended,
        hnothing, ih]
    · rw [hasEmptyLineFrom_char hc, linesFrom, if_neg hc]
      exact ih

/-- **No line of an accepted text is empty.** If the encoder finds no empty line, and the text ends in a
    character that is not white space, its lines can be passed over, the last one included. -/
theorem passed_lines (line : List Char) {front : List UInt8} {init : List Char} {c : Char}
    (hfront : Passed front) (hline : '\n' ∉ line) (hc : isBlank c = false)
    (h : hasEmptyLineFrom (.ofLine line) (init ++ [c]) = false) :
    Passed (front ++ bytesOf (line ++ init ++ [c]) ++ [lineFeed]) := by
  -- the characters go into the line one by one; a line feed ends it and begins the next one
  induction init generalizing front line with
  | nil =>
    have hfeed : c ≠ '\n' := by
      rintro rfl
      exact absurd hc (by decide)
    have hreturn : c ≠ '\r' := by
      rintro rfl
      exact absurd hc (by decide)
    rw [List.append_nil]
    apply Passed.line hfront
    · rw [lineFeed_mem_bytesOf_iff, List.mem_append, List.mem_singleton]
      rintro (hmem | heq)
      · exact hline hmem
      · exact hfeed heq.symm
    · rw [isEmptyLine_bytesOf_iff]
      rintro (hnil | hone)
      · simp at hnil
      · have hlast := congrArg List.getLast? hone
        rw [List.getLast?_concat] at hlast
        exact hreturn (Option.some.inj hlast)
  | cons d init ih =>
    by_cases hd : d = '\n'
    · subst hd
      rw [List.cons_append, hasEmptyLineFrom, Bool.or_eq_false_iff] at h
      obtain ⟨hstate, hrest⟩ := h
      have hheld : ¬ IsEmptyLine (bytesOf line) := by
        rw [isEmptyLine_bytesOf_iff, ← LineSoFar.ofLine_eq_more_iff]
        simpa using hstate
      have hpassed : Passed (front ++ bytesOf line ++ [lineFeed]) :=
        .line hfront (mt lineFeed_mem_bytesOf_iff.1 hline) hheld
      have hnext := ih [] hpassed List.not_mem_nil hrest
      have hfeed : bytesOf ['\n'] = [lineFeed] := by decide
      have hbytes : bytesOf (line ++ '\n' :: init ++ [c])
          = bytesOf line ++ [lineFeed] ++ bytesOf (init ++ [c]) := by
        rw [← hfeed, ← bytesOf_append, ← bytesOf_append]
        simp
      rw [hbytes]
      simpa using hnext
    · rw [List.cons_append, hasEmptyLineFrom_char hd] at h
      have hline' : '\n' ∉ line ++ [d] := by
        rw [List.mem_append, List.mem_singleton]
        rintro (hmem | heq)
        · exact hline hmem
        · exact hd heq.symm
      have hnext := ih (line ++ [d]) hfront hline' h
      rwa [List.append_assoc line, List.singleton_append] at hnext

/-! ## Encoding and decoding -/

/-- What is known of an encoded frame: its text does not end in white space, none of its lines is empty,
    and only an empty line follows. -/
theorem encodeFrame_eq_ok {text : String} {bytes : ByteArray} (h : encodeFrame text = .ok bytes) :
    ∃ init c, trimEnd text.toList = init ++ [c] ∧ isBlank c = false ∧
      hasEmptyLine (init ++ [c]) = false ∧
      octets bytes = bytesOf (init ++ [c]) ++ [lineFeed, lineFeed] := by
  unfold encodeFrame at h
  dsimp only at h
  rcases trimEnd_cases text.toList with hnil | ⟨init, c, htrim, hc⟩
  · rw [hnil] at h
    cases h
  · rw [htrim, if_neg (by simp)] at h
    split at h
    · cases h
    · next hlines =>
      split at h
      · cases h
      · cases h
        refine ⟨init, c, htrim, hc, Bool.eq_false_iff.2 hlines, ?_⟩
        show (_ ++ _ : ByteArray).data.toList = _
        rw [ByteArray.data_append, Array.toList_append]
        congr 1
        exact (octets_toUTF8 _).trans (by rw [String.toList_ofList])

namespace Decoder

/-- What a drain does with what the decoder has to say. -/
theorem drain_eq (atEnd : Bool) (d : Decoder) :
    d.drain atEnd =
      match (if atEnd then d.finish else d.next) with
      | (.frame body, rest) => (body :: (rest.drain atEnd).1, (rest.drain atEnd).2)
      | (.nothing, rest) => ([], none, rest)
      | (.failed e, rest) => ([], some e, rest) := by
  rw [drain]
  split
  · next h => rw [h]
  · next h => rw [h]
  · next h => rw [h]

/-- A frame is delivered alike whether or not more bytes will arrive. -/
theorem finish_of_frame {d rest : Decoder} {body : ByteArray} (h : d.next = (.frame body, rest)) :
    d.finish = (.frame body, rest) := by
  rw [finish, h]

/-- Without bytes there is nothing to deliver, and nothing is left. -/
theorem drain_of_empty (atEnd : Bool) {d : Decoder} (h : d.Resumable) (hempty : d.buffer = .empty) :
    ∃ rest : Decoder, d.drain atEnd = ([], none, rest) ∧ rest.buffer = .empty := by
  have hbytes : d.bytes = [] := congrArg octets hempty
  have hcut : cut? d.bytes = none := by
    rw [hbytes]
    exact cut?_of_no_feed List.not_mem_nil
  obtain ⟨rest, -, hbuffer, hnext⟩ := Decoder.next_of_no_cut h hcut
  rw [hempty] at hbuffer hnext
  rw [if_neg (by decide)] at hnext
  cases atEnd with
  | false =>
    refine ⟨rest, ?_, hbuffer⟩
    rw [drain_eq, if_neg Bool.false_ne_true, hnext]
  | true =>
    have hblank : isBlankFrom rest.buffer 0 = true := by
      rw [hbuffer, isBlankFrom_iff]
      rfl
    have hfinish : d.finish = (.nothing, fresh) := by
      rw [finish, hnext]
      exact if_pos hblank
    refine ⟨fresh, ?_, rfl⟩
    rw [drain_eq, if_pos rfl, hfinish]

end Decoder

/-- The bytes of an encoded frame: the text without the white space at its end, and two line feeds. -/
theorem octets_of_encodeFrame {text : String} {bytes : ByteArray} (h : encodeFrame text = .ok bytes) :
    octets bytes = bytesOf (trimEnd text.toList) ++ [lineFeed, lineFeed] := by
  obtain ⟨init, c, htrim, -, -, hbytes⟩ := encodeFrame_eq_ok h
  rw [hbytes, htrim]

/-- The first cut of an encoded frame, and of whatever follows it, is at its end. -/
theorem cut?_of_encodeFrame {text : String} {bytes : ByteArray} (h : encodeFrame text = .ok bytes)
    (more : List UInt8) :
    cut? (octets bytes ++ more) = some (bytesOf (trimEnd text.toList) ++ [lineFeed], more) := by
  obtain ⟨init, c, htrim, hc, hlines, hencoded⟩ := encodeFrame_eq_ok h
  have hpassed : Passed (bytesOf (init ++ [c]) ++ [lineFeed]) :=
    passed_lines [] .nothing List.not_mem_nil hc hlines
  have harrived : octets bytes ++ more
      = bytesOf (init ++ [c]) ++ [lineFeed] ++ ([] ++ lineFeed :: more) := by
    rw [hencoded]
    simp
  have hend : cut? ([] ++ lineFeed :: more) = some ([], more) := by
    rw [cut?_line List.not_mem_nil]
    rfl
  rw [harrived, hpassed.cut?_append, hend, Option.map_some, htrim]
  simp only [List.append_nil]

/-- **A decoder in front of an encoded frame delivers it**, and what follows the frame remains; the frame is
    the trimmed text with a line feed, which must be within the limit. -/
theorem next_of_encodeFrame {text : String} {bytes : ByteArray} (h : encodeFrame text = .ok bytes)
    (hsize : (String.ofList (trimEnd text.toList)).toUTF8.size < maxFrameSize) {d : Decoder}
    (hd : d.Resumable) {more : List UInt8} (hbytes : d.bytes = octets bytes ++ more) :
    ∃ rest : Decoder, rest.Resumable ∧ rest.bytes = more ∧
      d.next = (.frame (String.ofList (trimEnd text.toList ++ ['\n'])).toUTF8, rest) := by
  obtain ⟨init, c, htrim, hc, -, -⟩ := encodeFrame_eq_ok h
  have hfeed : bytesOf (trimEnd text.toList) ++ [lineFeed] = bytesOf (trimEnd text.toList ++ ['\n']) := by
    rw [bytesOf_append _ ['\n']]
    rfl
  have hcut := cut?_of_encodeFrame h more
  rw [← hbytes] at hcut
  obtain ⟨rest, body, hkeeps, hrest, -, hbody, hnext⟩ := Decoder.next_of_cut hd hcut
  -- the part is neither too large nor blank
  have hlength : ¬ maxFrameSize < (bytesOf (trimEnd text.toList) ++ [lineFeed]).length := by
    rw [size_toUTF8, String.toList_ofList] at hsize
    rw [List.length_append, List.length_singleton]
    omega
  have hblank : (bytesOf (trimEnd text.toList ++ ['\n'])).all isBlankByte = false :=
    not_blank_bytesOf (by simp [htrim]) hc
  rw [if_neg hlength, hfeed, hblank, if_neg Bool.false_ne_true] at hnext
  have htext : body = (String.ofList (trimEnd text.toList ++ ['\n'])).toUTF8 := by
    apply ByteArray.ext
    apply Array.toList_inj.1
    show octets body = octets _
    rw [hbody, hfeed, octets_toUTF8, String.toList_ofList]
  exact ⟨rest, hkeeps, hrest, htext ▸ hnext⟩

/-- A drain delivers the next frame, and then what the rest delivers. -/
theorem Decoder.drain_of_frame (atEnd : Bool) {d rest : Decoder} {body : ByteArray}
    (h : d.next = (.frame body, rest)) :
    d.drain atEnd = (body :: (rest.drain atEnd).1, (rest.drain atEnd).2) := by
  have hcall : (if atEnd then d.finish else d.next) = (.frame body, rest) := by
    cases atEnd with
    | false => exact h
    | true => exact finish_of_frame h
  rw [drain_eq, hcall]

/-- **What is encoded is delivered.** A fresh decoder that receives an encoded frame delivers one frame
    and keeps nothing, whether or not more bytes will arrive; the frame is the trimmed text with a line
    feed, which must be within the limit. -/
theorem drain_encodeFrame {text : String} {bytes : ByteArray} (h : encodeFrame text = .ok bytes)
    (hsize : (String.ofList (trimEnd text.toList)).toUTF8.size < maxFrameSize) (atEnd : Bool) :
    ∃ rest : Decoder, (Decoder.fresh.append bytes).drain atEnd =
        ([(String.ofList (trimEnd text.toList ++ ['\n'])).toUTF8], none, rest) ∧
      rest.buffer = .empty := by
  have hfresh : Decoder.fresh.Resumable := Decoder.resumable_ofBytes .empty
  have harrived : (Decoder.fresh.append bytes).bytes = octets bytes ++ [] := by
    rw [Decoder.bytes_append, List.append_nil]
    rfl
  obtain ⟨rest, hkeeps, hrest, hnext⟩ :=
    next_of_encodeFrame h hsize (hfresh.append bytes) harrived
  have hempty : rest.buffer = .empty := ByteArray.ext (Array.toList_inj.1 hrest)
  obtain ⟨last, hdrain, hlast⟩ := Decoder.drain_of_empty atEnd hkeeps hempty
  refine ⟨last, ?_, hlast⟩
  rw [Decoder.drain_of_frame atEnd hnext, hdrain]

end GraphWire
