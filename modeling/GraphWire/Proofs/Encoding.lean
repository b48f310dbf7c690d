import GraphWire.Proofs.Frames

/-!
# `Proofs.Encoding` — the encoder accepts exactly what the decoder returns whole

A text that the encoder refuses could be written all the same, with two line feeds behind it. The decoder
would not return it: either it is white space alone, or it has an empty line, where the decoder cuts it. All
parts are shorter than the text then, so none of them is the whole text. What the encoder accepts stands
apart from what follows it, and so a buffer to which texts were encoded in turn falls into the accepted ones.

## Contents
- **Cuts.** `Split.length_add_of_cut?` and `Split.length_lt_of_mem_parts`, parts are shorter than their
  stream.
- **Empty lines.** `cut?_of_hasEmptyLine`, the decoder cuts where the encoder sees an empty line.
- **Refused texts.** `notMem_frames_of_error`, none of the frames is the whole text.
- **Many texts.** `Decoder.drain_encoded`.
- **`appendFrame_iff_drain`**.
-/

namespace GraphWire

open Split

/-! ## Cuts -/

namespace Split

/-- A cut takes away at least the line feed of an empty line. -/
theorem length_add_of_cut? {stream body rest : List UInt8} (h : cut? stream = some (body, rest)) :
    body.length + 1 + rest.length ≤ stream.length := by
  fun_induction cut? stream generalizing body with
  | case1 stream hnone => cases h
  | case2 stream line rest' hline hempty =>
    cases h
    obtain ⟨rfl, -⟩ := firstLine?_eq_some_iff.1 hline
    simp only [List.length_append, List.length_cons, List.length_nil]
    omega
  | case3 stream line rest' hline hempty ih =>
    obtain ⟨⟨body', rest''⟩, hcut, heq⟩ := Option.map_eq_some_iff.1 h
    cases heq
    obtain ⟨rfl, -⟩ := firstLine?_eq_some_iff.1 hline
    have hle := ih hcut
    simp only [List.length_append, List.length_cons]
    omega

/-- What stands before an empty line is shorter than the stream. -/
theorem length_lt_of_mem_parts {stream part : List UInt8} (h : part ∈ (parts stream).1) :
    part.length < stream.length := by
  fun_induction parts stream with
  | case1 stream hnone => cases h
  | case2 stream body rest hcut ih =>
    have hle := length_add_of_cut? hcut
    rcases List.mem_cons.1 h with rfl | h
    · omega
    · have hlt := ih h
      omega

end Split

/-! ## Empty lines -/

/-- **Where the encoder sees an empty line, the decoder cuts.** The characters looked at so far are whole
    lines, none of them empty, and a part of a line. -/
theorem cut?_of_hasEmptyLineFrom (line : List Char) {front : List UInt8} {cs : List Char}
    (hfront : Passed front) (hline : '\n' ∉ line) (h : hasEmptyLineFrom (.ofLine line) cs = true) :
    ∃ body tail, cut? (front ++ bytesOf (line ++ cs)) = some (body, tail) := by
  induction cs generalizing front line with
  | nil =>
    rw [hasEmptyLineFrom] at h
    cases h
  | cons d cs ih =>
    by_cases hd : d = '\n'
    · subst hd
      have hfeed : bytesOf ['\n'] = [lineFeed] := by decide
      have hbytes : bytesOf (line ++ '\n' :: cs) = bytesOf line ++ lineFeed :: bytesOf cs := by
        rw [bytesOf_append, ← List.singleton_append, bytesOf_append, hfeed, List.singleton_append]
      have hnot : lineFeed ∉ bytesOf line := mt lineFeed_mem_bytesOf_iff.1 hline
      by_cases hempty : IsEmptyLine (bytesOf line)
      · -- the line that ends here is the empty one
        refine ⟨front ++ [], bytesOf cs, ?_⟩
        rw [hbytes, hfront.cut?_append, cut?_line hnot, if_pos hempty]
        rfl
      · have hmore : LineSoFar.ofLine line = .more := by
          rw [LineSoFar.ofLine_eq_more_iff, ← isEmptyLine_bytesOf_iff]
          exact hempty
        rw [hasEmptyLineFrom, hmore] at h
        have hpassed : Passed (front ++ bytesOf line ++ [lineFeed]) := .line hfront hnot hempty
        obtain ⟨body, tail, hcut⟩ := ih [] hpassed List.not_mem_nil h
        refine ⟨body, tail, ?_⟩
        rw [hbytes]
        simpa using hcut
    · rw [hasEmptyLineFrom_char hd] at h
      have hline' : '\n' ∉ line ++ [d] := by
        rw [List.mem_append, List.mem_singleton]
        rintro (hmem | heq)
        · exact hline hmem
        · exact hd heq.symm
      have hcut := ih (line ++ [d]) hfront hline' h
      rwa [List.append_assoc line, List.singleton_append] at hcut

theorem cut?_of_hasEmptyLine {cs : List Char} (h : hasEmptyLine cs = true) :
    ∃ body tail, cut? (bytesOf cs) = some (body, tail) :=
  cut?_of_hasEmptyLineFrom [] .nothing List.not_mem_nil h

/-! ## Accepted texts and refused ones -/

/-- The text without the white space at its end. -/
def trimmedText (text : String) : String := String.ofList (trimEnd text.toList)

/-- What an encoded text is delivered as. -/
def frameOf (text : String) : ByteArray := (trimmedText text ++ "\n").toUTF8

/-- What a text is encoded as, if it is accepted. -/
def encodingOf (text : String) : ByteArray := (trimmedText text ++ "\n\n").toUTF8

theorem octets_injective : Function.Injective octets :=
  fun _ _ h => ByteArray.ext (Array.toList_inj.1 h)

theorem toList_trimmedText (text : String) : (trimmedText text).toList = trimEnd text.toList :=
  String.toList_ofList

theorem octets_frameOf (text : String) :
    octets (frameOf text) = bytesOf (trimEnd text.toList) ++ [lineFeed] := by
  rw [frameOf, octets_toUTF8, String.toList_append, bytesOf_append, toList_trimmedText]
  rfl

theorem octets_encodingOf (text : String) :
    octets (encodingOf text) = bytesOf (trimEnd text.toList) ++ [lineFeed, lineFeed] := by
  rw [encodingOf, octets_toUTF8, String.toList_append, bytesOf_append, toList_trimmedText]
  rfl

/-- What is written for an accepted text is the trimmed text and two line feeds. -/
theorem eq_encodingOf {text : String} {bytes : ByteArray} (h : encodeFrame text = .ok bytes) :
    bytes = encodingOf text := by
  apply octets_injective
  rw [octets_of_encodeFrame h, octets_encodingOf]

/-- A text within the limit is refused only if it is white space alone or has an empty line. -/
theorem of_encodeFrame_eq_error {text : String} {e : FrameError} (h : encodeFrame text = .error e)
    (hsize : (trimmedText text).toUTF8.size < maxFrameSize) :
    trimEnd text.toList = [] ∨ hasEmptyLine (trimEnd text.toList) = true := by
  unfold encodeFrame at h
  dsimp only at h
  split at h
  · next hnil => exact Or.inl (List.isEmpty_iff.1 hnil)
  · split at h
    · next hlines => exact Or.inr hlines
    · split at h
      · next hlarge => exact absurd hsize (Nat.lt_asymm hlarge)
      · cases h

/-- **A refused text is not returned whole**: it is not among the frames of its bytes. -/
theorem notMem_frames_of_error {text : String} {e : FrameError} (h : encodeFrame text = .error e)
    (hsize : (trimmedText text).toUTF8.size < maxFrameSize) :
    octets (frameOf text) ∉ frames (octets (encodingOf text)) := by
  intro hmem
  obtain ⟨hpart, hframe⟩ := List.mem_filter.1 hmem
  rw [octets_encodingOf] at hpart
  rw [octets_frameOf] at hpart hframe
  rcases of_encodeFrame_eq_error h hsize with hnil | hlines
  · -- a line feed alone is blank, and no frame
    rw [hnil] at hframe
    cases hframe
  · -- the first cut is inside the text, and what is on either side of it is too short
    obtain ⟨body, tail, hcut⟩ := cut?_of_hasEmptyLine hlines
    have hle := length_add_of_cut? hcut
    rw [parts_of_some (cut?_append hcut [lineFeed, lineFeed])] at hpart
    rcases List.mem_cons.1 hpart with heq | hpart
    · have hlength := congrArg List.length heq
      simp only [List.length_append, List.length_cons, List.length_nil] at hlength
      omega
    · have hlt := length_lt_of_mem_parts hpart
      simp only [List.length_append, List.length_cons, List.length_nil] at hlt
      omega

/-! ## What a drain delivers -/

/-- Whether the encoder accepts a text. -/
def accepts (text : String) : Bool := (encodeFrame text).isOk

theorem accepts_of_ok {text : String} {bytes : ByteArray} (h : encodeFrame text = .ok bytes) :
    accepts text = true := by
  rw [accepts, h]
  rfl

theorem not_accepts_of_error {text : String} {e : FrameError} (h : encodeFrame text = .error e) :
    ¬ accepts text = true := by
  rw [accepts, h]
  exact Bool.false_ne_true

namespace Decoder

/-- A drain delivers nothing if the first call does not. -/
theorem drain_of_no_frame (atEnd : Bool) {d rest : Decoder}
    (h : d.next = (.nothing, rest) ∨ ∃ e, d.next = (.failed e, rest)) : (d.drain atEnd).1 = [] := by
  rw [drain_eq]
  rcases h with hnext | ⟨e, hnext⟩
  · cases atEnd with
    | false => rw [if_neg Bool.false_ne_true, hnext]
    | true =>
      rw [if_pos rfl, finish, hnext]
      by_cases hblank : isBlankFrom rest.buffer 0 = true
      · simp only [if_pos hblank]
      · simp only [if_neg hblank]
  · cases atEnd with
    | false => rw [if_neg Bool.false_ne_true, hnext]
    | true => rw [if_pos rfl, finish, hnext]

/-- What a drain delivers are frames of the stream. -/
theorem mem_frames_of_mem_drain (atEnd : Bool) {d : Decoder} (h : d.Resumable) {body : ByteArray}
    (hmem : body ∈ (d.drain atEnd).1) : octets body ∈ frames d.bytes := by
  induction hsize : d.buffer.size using Nat.strongRecOn generalizing d with
  | ind n ih =>
    cases hnext : d.next with
    | mk delivery rest =>
      obtain ⟨htells, hkeeps⟩ : d.Tells delivery rest ∧ rest.Resumable := by
        have hspec := next_spec h
        rwa [hnext] at hspec
      cases delivery with
      | frame first =>
        rw [drain_of_frame atEnd hnext] at hmem
        rw [htells.1]
        rcases List.mem_cons.1 hmem with rfl | hmem
        · exact List.mem_cons_self
        · have hless : rest.buffer.size < n := hsize ▸ size_lt_of_next hnext
          exact List.mem_cons_of_mem _ (ih _ hless hkeeps hmem rfl)
      | nothing =>
        rw [drain_of_no_frame atEnd (Or.inl hnext)] at hmem
        cases hmem
      | failed e =>
        rw [drain_of_no_frame atEnd (Or.inr ⟨e, hnext⟩)] at hmem
        cases hmem

/-- **Texts that were encoded in turn are delivered in turn**, the refused ones left out. -/
theorem drain_encoded (atEnd : Bool) {items : List String}
    (hsize : ∀ item ∈ items, (trimmedText item).toUTF8.size < maxFrameSize) {d : Decoder}
    (h : d.Resumable)
    (hbytes : d.bytes = (items.filter accepts).flatMap fun item => octets (encodingOf item)) :
    ∃ rest : Decoder, rest.buffer = .empty ∧ d.drain atEnd =
      ((items.filter accepts).map frameOf, none, rest) := by
  induction items generalizing d with
  | nil =>
    have hempty : d.buffer = .empty := octets_injective hbytes
    obtain ⟨rest, hdrain, hrest⟩ := drain_of_empty atEnd h hempty
    exact ⟨rest, hrest, hdrain⟩
  | cons item items ih =>
    obtain ⟨hitem, hitems⟩ := List.forall_mem_cons.1 hsize
    cases hencode : encodeFrame item with
    | error e =>
      rw [List.filter_cons_of_neg (not_accepts_of_error hencode)] at hbytes ⊢
      exact ih hitems h hbytes
    | ok bytes =>
      rw [List.filter_cons_of_pos (accepts_of_ok hencode)] at hbytes ⊢
      rw [List.flatMap_cons, ← eq_encodingOf hencode] at hbytes
      obtain ⟨rest, hkeeps, hrest, hnext⟩ := next_of_encodeFrame hencode hitem h hbytes
      obtain ⟨last, hlast, hdrain⟩ := ih hitems hkeeps hrest
      have hframe : (String.ofList (trimEnd item.toList ++ ['\n'])).toUTF8 = frameOf item := by
        rw [frameOf, trimmedText, String.ofList_append]
      rw [hframe] at hnext
      refine ⟨last, hlast, ?_⟩
      rw [drain_of_frame atEnd hnext, hdrain, List.map_cons]

end Decoder

/-! ## The encoder against the decoder -/

/-- Encodes texts in turn: those that were accepted, and the buffer in the end. -/
def appendFrames (buffer : ByteArray) : List String → List String × ByteArray
  | [] => ([], buffer)
  | item :: items =>
    match appendFrame buffer item with
    | (.ok (), buffer) => (item :: (appendFrames buffer items).1, (appendFrames buffer items).2)
    | (.error _, buffer) => appendFrames buffer items

theorem appendFrame_of_ok {text : String} {bytes : ByteArray} (h : encodeFrame text = .ok bytes)
    (buffer : ByteArray) : appendFrame buffer text = (.ok (), buffer ++ encodingOf text) := by
  rw [appendFrame, h, eq_encodingOf h]

theorem appendFrame_of_error {text : String} {e : FrameError} (h : encodeFrame text = .error e)
    (buffer : ByteArray) : appendFrame buffer text = (.error e, buffer) := by
  rw [appendFrame, h]

/-- The buffer grows by the encodings of the texts that are accepted. -/
theorem appendFrames_spec (buffer : ByteArray) (items : List String) :
    (appendFrames buffer items).1 = items.filter accepts ∧
      octets (appendFrames buffer items).2 =
        octets buffer ++ (items.filter accepts).flatMap fun item => octets (encodingOf item) := by
  induction items generalizing buffer with
  | nil => exact ⟨rfl, (List.append_nil _).symm⟩
  | cons item items ih =>
    cases hencode : encodeFrame item with
    | error e =>
      rw [appendFrames, appendFrame_of_error hencode, List.filter_cons_of_neg (not_accepts_of_error hencode)]
      exact ih buffer
    | ok bytes =>
      obtain ⟨hitems, hbytes⟩ := ih (buffer ++ encodingOf item)
      have hgrown : octets (buffer ++ encodingOf item)
          = octets buffer ++ octets (encodingOf item) := by
        rw [octets, ByteArray.data_append, Array.toList_append]
      rw [appendFrames, appendFrame_of_ok hencode, List.filter_cons_of_pos (accepts_of_ok hencode),
        List.flatMap_cons, ← List.append_assoc, ← hgrown]
      exact ⟨congrArg (item :: ·) hitems, hbytes⟩

/-- A fresh decoder in front of a buffer has its bytes before it. -/
theorem bytes_fresh_append (bytes : ByteArray) :
    (Decoder.fresh.append bytes).bytes = octets bytes := by
  rw [Decoder.bytes_append]
  rfl

/-- A text within the limit is accepted exactly when the decoder returns it whole. -/
theorem accepts_iff_drain {text : String} (hsize : (trimmedText text).toUTF8.size < maxFrameSize)
    (atEnd : Bool) :
    accepts text = true ↔ ∃ rest : Decoder, rest.buffer = .empty ∧
      (Decoder.fresh.append (encodingOf text)).drain atEnd = ([frameOf text], none, rest) := by
  have hfresh : Decoder.fresh.Resumable := Decoder.resumable_ofBytes .empty
  constructor
  · intro haccepted
    have hone : [text].filter accepts = [text] := List.filter_cons_of_pos haccepted
    have hbytes : (Decoder.fresh.append (encodingOf text)).bytes
        = ([text].filter accepts).flatMap fun item => octets (encodingOf item) := by
      rw [bytes_fresh_append, hone, List.flatMap_singleton]
    have hdrain := Decoder.drain_encoded atEnd (fun item hitem => List.mem_singleton.1 hitem ▸ hsize)
      (hfresh.append (encodingOf text)) hbytes
    rwa [hone] at hdrain
  · rintro ⟨rest, -, hdrain⟩
    cases hencode : encodeFrame text with
    | ok bytes => exact accepts_of_ok hencode
    | error e =>
      -- the frame that is delivered would be one of the stream
      have hmem : frameOf text ∈ ((Decoder.fresh.append (encodingOf text)).drain atEnd).1 := by
        rw [hdrain]
        exact List.mem_cons_self
      have hframe := Decoder.mem_frames_of_mem_drain atEnd (hfresh.append _) hmem
      rw [bytes_fresh_append] at hframe
      exact absurd hframe (notMem_frames_of_error hencode hsize)

/-- **The encoder accepts exactly what the decoder returns whole.** Let texts be within the limit when
    trimmed. Each of them is accepted, whatever the buffer holds, exactly when a fresh decoder that receives
    it with two line feeds delivers it with one, as its only frame, and keeps nothing. The buffer grows by
    these bytes then, and stays as it was otherwise. And when the texts are encoded in turn into one buffer,
    a fresh decoder delivers those that were accepted, in order, and keeps nothing. -/
theorem appendFrame_iff_drain {items : List String}
    (hsize : ∀ item ∈ items, (trimmedText item).toUTF8.size < maxFrameSize) (atEnd : Bool) :
    (∀ item ∈ items, ∀ buffer : ByteArray,
      ((appendFrame buffer item).1 = .ok () ↔ ∃ rest : Decoder, rest.buffer = .empty ∧
        (Decoder.fresh.append (encodingOf item)).drain atEnd = ([frameOf item], none, rest)) ∧
      ((appendFrame buffer item).1 = .ok () →
        (appendFrame buffer item).2 = buffer ++ encodingOf item) ∧
      ∀ e, (appendFrame buffer item).1 = .error e → (appendFrame buffer item).2 = buffer) ∧
    ∃ rest : Decoder, rest.buffer = .empty ∧
      (Decoder.fresh.append (appendFrames .empty items).2).drain atEnd
        = ((appendFrames .empty items).1.map frameOf, none, rest) := by
  refine ⟨?_, ?_⟩
  · intro item hitem buffer
    have hiff := accepts_iff_drain (hsize item hitem) atEnd
    cases hencode : encodeFrame item with
    | ok bytes =>
      have hdrain := hiff.1 (accepts_of_ok hencode)
      rw [appendFrame_of_ok hencode]
      refine ⟨⟨fun _ => hdrain, fun _ => rfl⟩, fun _ => rfl, ?_⟩
      intro e he
      cases he
    | error e =>
      have hno := mt hiff.2 (not_accepts_of_error hencode)
      rw [appendFrame_of_error hencode]
      refine ⟨⟨?_, fun hdrain => absurd hdrain hno⟩, ?_, fun _ _ => rfl⟩
      · intro he
        cases he
      · intro he
        cases he
  · obtain ⟨hitems, hbytes⟩ := appendFrames_spec .empty items
    have hfresh : Decoder.fresh.Resumable := Decoder.resumable_ofBytes .empty
    have harrived : (Decoder.fresh.append (appendFrames .empty items).2).bytes
        = (items.filter accepts).flatMap fun item => octets (encodingOf item) := by
      rw [bytes_fresh_append, hbytes]
      rfl
    rw [hitems]
    exact Decoder.drain_encoded atEnd hsize (hfresh.append _) harrived

/-- Of four texts, one with an empty line and one of white space alone are refused; carriage returns and
    vertical tabs stay where they do not end the text. -/
theorem appendFrame_iff_drain_mixed :
    ∃ rest : Decoder, rest.buffer = .empty ∧
      (Decoder.fresh.append
          (appendFrames .empty ["a\r\n\x0b\nb \x0b\n", "x\n\r\ny", " \x0b\n", "\tz"]).2).drain false
        = (["a\r\n\x0b\nb\n".toUTF8, "\tz\n".toUTF8], none, rest) := by
  have hsize : ∀ item ∈ ["a\r\n\x0b\nb \x0b\n", "x\n\r\ny", " \x0b\n", "\tz"],
      (trimmedText item).toUTF8.size < maxFrameSize := by decide +kernel
  have hframes : (appendFrames .empty ["a\r\n\x0b\nb \x0b\n", "x\n\r\ny", " \x0b\n", "\tz"]).1.map
      frameOf = ["a\r\n\x0b\nb\n".toUTF8, "\tz\n".toUTF8] := by decide +kernel
  obtain ⟨-, hdrain⟩ := appendFrame_iff_drain hsize false
  rwa [hframes] at hdrain

end GraphWire
