import GraphWire.Proofs.Frames
import GraphWire.Proofs.Integers
import GraphWire.Proofs.Statements

/-!
# `Proofs.Scalars` — what is stored is read back

A scalar is stored as a text or a number, which a reader takes apart again. The port of an address stands
behind its last colon, whatever colons the host holds. The symbols of base64 are the six-bit values of the
bytes, four for three bytes, and the last of them has no bit that stands for nothing.

## Contents
- **Addresses.** `Address.ofText?_text`, and `Address.host_ne_of_ofText?`, what is read has a host.
- **Bytes.** `Base64.values`, what the symbols stand for, `Base64.decodeTail_encodedBytes` for the last block,
  and **`Base64.decode_encode`**.
- **`ScalarType.Storable`** and **`ScalarType.read_store`**, which puts the types together.
-/

namespace GraphWire

/-! ## Addresses -/

namespace Address

/-- A text is split at its last colon. -/
theorem splitLastColon?_append (before : List Char) {after : List Char} (h : ':' ∉ after) :
    splitLastColon? (before ++ ':' :: after) = some (before, after) := by
  have hreverse : (before ++ ':' :: after).reverse = after.reverse ++ ':' :: before.reverse := by simp
  have hnone : ∀ c ∈ after.reverse, (c != ':') = true := by
    intro c hc
    apply bne_iff_ne.2
    rintro rfl
    exact h (List.mem_reverse.1 hc)
  have hdrop : (after.reverse ++ ':' :: before.reverse).dropWhile (· != ':') = ':' :: before.reverse := by
    rw [List.dropWhile_append_of_pos hnone]
    rfl
  have htake : (after.reverse ++ ':' :: before.reverse).takeWhile (· != ':') = after.reverse := by
    rw [List.takeWhile_append_of_pos hnone]
    simp
  rw [splitLastColon?, hreverse, hdrop, htake]
  simp only [List.reverse_reverse]

/-- The digits of a port are read as the port. -/
theorem portOfText?_digits (port : Ranged .u16) :
    portOfText? (digitsOfNat port.val.toNat) = some port := by
  have hdigits : ∀ c ∈ digitsOfNat port.val.toNat, c.isDigit = true :=
    fun c hc => isDigit_of_mem_digitsOfNat hc
  have hempty : (digitsOfNat port.val.toNat).isEmpty = false :=
    List.isEmpty_eq_false_iff.2 (digitsOfNat_ne_nil _)
  have hall : (digitsOfNat port.val.toNat).all Char.isDigit = true := List.all_eq_true.2 hdigits
  have hnonneg : 0 ≤ port.val := port.least_le
  rw [portOfText?]
  · simp only [hempty, hall, Bool.not_true, Bool.or_self, Bool.false_eq_true, if_false,
      natOfDigits_digitsOfNat, Int.toNat_of_nonneg hnonneg]
    exact Ranged.ofInt?_val port
  · -- a plus sign is no digit
    intro rest heq
    rw [heq] at hdigits
    exact absurd (hdigits '+' List.mem_cons_self) (by decide)

/-- **The text of an address with a host is read as the address.** -/
theorem ofText?_text {a : Address} (h : a.host ≠ "") : ofText? a.text = some a := by
  have hcolon : ':' ∉ digitsOfNat a.port.val.toNat := by
    intro hmem
    exact absurd (isDigit_of_mem_digitsOfNat hmem) (by decide)
  have htext : a.text.toList = a.host.toList ++ ':' :: digitsOfNat a.port.val.toNat := by
    simp [text]
  have hhost : a.host.toList.isEmpty = false := by
    apply List.isEmpty_eq_false_iff.2
    intro hnil
    exact h (String.toList_eq_nil_iff.1 hnil)
  rw [ofText?, htext, splitLastColon?_append _ hcolon]
  show (if a.host.toList.isEmpty = true then none
    else portOfText? (digitsOfNat a.port.val.toNat) >>= fun port =>
      some ⟨String.ofList a.host.toList, port⟩) = some a
  rw [hhost, portOfText?_digits, String.ofList_toList]
  rfl

/-- What is read as an address has a host. -/
theorem host_ne_of_ofText? {s : String} {a : Address} (h : ofText? s = some a) : a.host ≠ "" := by
  rw [ofText?] at h
  obtain ⟨⟨host, port⟩, -, h⟩ := Option.bind_eq_some_iff.1 h
  dsimp only at h
  split at h
  · cases h
  · next hempty =>
    obtain ⟨port, -, h⟩ := Option.bind_eq_some_iff.1 h
    cases h
    intro hnil
    have hlist : host = [] := by
      have hback := congrArg String.toList hnil
      rwa [String.toList_ofList] at hback
    rw [hlist] at hempty
    exact hempty rfl

end Address

/-! ## Bytes -/

namespace Base64

/-- The byte of a symbol. -/
def symbolByte (sextet : Nat) : UInt8 := UInt8.ofNat (symbol sextet).toNat

/-- A symbol is one byte, other than padding, that stands for its value and does not end a text with a
    backslash. -/
theorem symbol_spec {sextet : Nat} (h : sextet < 64) :
    String.utf8EncodeChar (symbol sextet) = [symbolByte sextet] ∧ symbolByte sextet ≠ padding ∧
      sextet? (symbolByte sextet) = some sextet ∧ symbol sextet ≠ '\\' := by
  have hall : ∀ n : Fin 64, String.utf8EncodeChar (symbol n) = [symbolByte n] ∧
      symbolByte n ≠ padding ∧ sextet? (symbolByte n) = some n.val ∧ symbol n ≠ '\\' := by
    decide +kernel
  exact hall ⟨sextet, h⟩

/-- What the symbols of the bytes stand for. -/
def values : List UInt8 → List Nat
  | a :: b :: c :: rest =>
    let n := a.toNat * 65536 + b.toNat * 256 + c.toNat
    n / 262144 :: n / 4096 % 64 :: n / 64 % 64 :: n % 64 :: values rest
  | [a, b] =>
    let n := a.toNat * 1024 + b.toNat * 4
    [n / 4096, n / 64 % 64, n % 64]
  | [a] =>
    let n := a.toNat * 16
    [n / 64, n % 64]
  | [] => []

/-- How much padding the bytes need. -/
def paddingOf (bytes : List UInt8) : Nat := 2 * bytes.length % 3

theorem paddingOf_cons (a b c : UInt8) (rest : List UInt8) :
    paddingOf (a :: b :: c :: rest) = paddingOf rest := by
  simp only [paddingOf, List.length_cons]
  omega

theorem encodeBytes_eq (bytes : List UInt8) :
    encodeBytes bytes = (values bytes).map symbol ++ List.replicate (paddingOf bytes) '=' := by
  fun_induction values bytes with
  | case1 a b c rest n ih =>
    rw [encodeBytes, paddingOf_cons, ih]
    rfl
  | case2 a b n => simp [encodeBytes, paddingOf, n]
  | case3 a n => simp [encodeBytes, paddingOf, n]
  | case4 => rfl

theorem values_lt (bytes : List UInt8) : ∀ v ∈ values bytes, v < 64 := by
  fun_induction values bytes with
  | case1 a b c rest n ih =>
    have ha := a.toNat_lt
    have hb := b.toNat_lt
    have hc := c.toNat_lt
    simp only [List.mem_cons, forall_eq_or_imp]
    refine ⟨?_, Nat.mod_lt _ (by decide), Nat.mod_lt _ (by decide), Nat.mod_lt _ (by decide), ih⟩
    omega
  | case2 a b n =>
    have ha := a.toNat_lt
    have hb := b.toNat_lt
    simp only [List.mem_cons, forall_eq_or_imp, List.not_mem_nil, false_implies, implies_true, and_true]
    omega
  | case3 a n =>
    have ha := a.toNat_lt
    simp only [List.mem_cons, forall_eq_or_imp, List.not_mem_nil, false_implies, implies_true, and_true]
    omega
  | case4 => simp

/-- The values are those of whole blocks, once there is padding. -/
theorem length_values (bytes : List UInt8) :
    (values bytes).length + paddingOf bytes = 4 * ((bytes.length + 2) / 3) := by
  fun_induction values bytes with
  | case1 a b c rest n ih =>
    have hblocks : ((a :: b :: c :: rest).length + 2) / 3 = (rest.length + 2) / 3 + 1 := by
      simp only [List.length_cons]
      omega
    rw [paddingOf_cons, hblocks]
    simp only [List.length_cons]
    omega
  | case2 a b n => simp [paddingOf]
  | case3 a n => simp [paddingOf]
  | case4 => rfl

/-- Packing the values gives the bytes back. -/
theorem pack_values (bytes : List UInt8) : pack (values bytes) = bytes := by
  have hbyte : ∀ (b : UInt8) (n : Nat), n = b.toNat → UInt8.ofNat n = b := by
    rintro b n rfl
    exact UInt8.ofNat_toNat
  fun_induction values bytes with
  | case1 a b c rest n ih =>
    have ha := a.toNat_lt
    have hb := b.toNat_lt
    have hc := c.toNat_lt
    have hsum : n / 262144 * 262144 + n / 4096 % 64 * 4096 + n / 64 % 64 * 64 + n % 64 = n := by omega
    rw [pack, hsum, ih, hbyte a (n / 65536) (by omega), hbyte b (n / 256 % 256) (by omega),
      hbyte c (n % 256) (by omega)]
  | case2 a b n =>
    have ha := a.toNat_lt
    have hb := b.toNat_lt
    have hsum : n / 4096 * 1024 + n / 64 % 64 * 16 + n % 64 / 4 = a.toNat * 256 + b.toNat := by omega
    rw [pack]
    simp only [hsum]
    rw [hbyte a _ (by omega), hbyte b _ (by omega)]
  | case3 a n =>
    have ha := a.toNat_lt
    rw [pack, hbyte a (n / 64 * 4 + n % 64 / 16) (by omega)]
  | case4 => rfl

/-- Where the last block begins, behind as many blocks as there are whole ones before it. -/
def lastBlock (bytes : List UInt8) : Nat := 4 * ((bytes.length + 2) / 3 - 1)

theorem lastBlock_add_four {bytes : List UInt8} (hne : bytes ≠ []) :
    lastBlock bytes + 4 = (values bytes).length + paddingOf bytes := by
  have hpos : 0 < bytes.length := List.length_pos_iff.2 hne
  have hlength := length_values bytes
  rw [lastBlock]
  omega

theorem headLength_lastBlock (bytes : List UInt8) : headLength (lastBlock bytes + 4) = lastBlock bytes := by
  rw [headLength, lastBlock]
  omega

/-- The last block of values has no bit that stands for nothing. -/
theorem spareBits_values {bytes : List UInt8} (hne : bytes ≠ []) :
    spareBits ((values bytes).drop (lastBlock bytes)) = 0 := by
  fun_induction values bytes with
  | case1 a b c rest n ih =>
    by_cases hrest : rest = []
    · subst hrest
      simp [lastBlock, values, spareBits]
    · have hpos : 0 < rest.length := List.length_pos_iff.2 hrest
      have hcut : lastBlock (a :: b :: c :: rest) = lastBlock rest + 1 + 1 + 1 + 1 := by
        simp only [lastBlock, List.length_cons]
        omega
      rw [hcut, List.drop_succ_cons, List.drop_succ_cons, List.drop_succ_cons, List.drop_succ_cons]
      exact ih hrest
  | case2 a b n =>
    simp only [lastBlock, List.length_cons, List.length_nil, Nat.reduceAdd, Nat.reduceDiv, Nat.reduceSub,
      Nat.mul_zero, List.drop_zero, spareBits]
    omega
  | case3 a n =>
    simp only [lastBlock, List.length_cons, List.length_nil, Nat.reduceAdd, Nat.reduceDiv, Nat.reduceSub,
      Nat.mul_zero, List.drop_zero, spareBits]
    omega
  | case4 => exact absurd rfl hne

theorem sextets_map {vs : List Nat} (h : ∀ v ∈ vs, v < 64) (offset : Nat) :
    sextets offset (vs.map symbolByte) = .ok vs := by
  induction vs generalizing offset with
  | nil => rfl
  | cons v vs ih =>
    obtain ⟨hv, hvs⟩ := List.forall_mem_cons.1 h
    simp only [List.map_cons, sextets, (symbol_spec hv).2.2.1, ih hvs, Except.map]

/-- A last block of two, three or four symbols, filled up with padding. -/
theorem decodeTail_map {vs : List Nat} (h : ∀ v ∈ vs, v < 64) {padded : Nat}
    (hlength : vs.length + padded = 4) (htwo : 2 ≤ vs.length) (hspare : spareBits vs = 0)
    (offset : Nat) :
    decodeTail offset (vs.map symbolByte ++ List.replicate padded padding) = .ok vs := by
  have hsymbols : ∀ b ∈ vs.map symbolByte, (b != padding) = true := by
    intro b hb
    obtain ⟨v, hv, rfl⟩ := List.mem_map.1 hb
    exact bne_iff_ne.2 (symbol_spec (h v hv)).2.1
  have hpadding : ∀ b ∈ List.replicate padded padding, (b != padding) = false := by
    intro b hb
    rw [List.eq_of_mem_replicate hb]
    rfl
  have htake : (vs.map symbolByte ++ List.replicate padded padding).takeWhile (· != padding)
      = vs.map symbolByte := by
    rw [List.takeWhile_append_of_pos hsymbols]
    cases padded with
    | zero => simp
    | succ k => simp [List.replicate_succ]
  have hdrop : (vs.map symbolByte ++ List.replicate padded padding).dropWhile (· != padding)
      = List.replicate padded padding := by
    rw [List.dropWhile_append_of_pos hsymbols]
    cases padded with
    | zero => rfl
    | succ k => simp [List.replicate_succ]
  have hany : (List.replicate padded padding).any (· != padding) = false :=
    List.any_eq_false.2 fun b hb => by simp [hpadding b hb]
  have hshort : ¬ vs.length < 2 := by omega
  have hwhole : ¬ (vs.length + padded) % 4 ≠ 0 := by omega
  have hsplit : splitTail offset (vs.map symbolByte ++ List.replicate padded padding)
      = .ok ⟨vs.map symbolByte, padded⟩ := by
    simp only [splitTail, htake, hdrop, sextets_map h, hany, List.length_map, hshort, decide_false,
      Bool.or_self, Bool.and_false, Bool.false_eq_true, if_false, List.length_replicate]
  rw [decodeTail, hsplit]
  show (sextets offset (vs.map symbolByte) >>= _) = _
  rw [sextets_map h]
  show (if (vs.map symbolByte).length < 2 then _ else _) = _
  rw [List.length_map, if_neg hshort, if_neg hwhole, if_neg (not_not_intro hspare)]

/-- The base64 form as bytes: the symbols, then the padding. -/
def encodedBytes (bytes : List UInt8) : List UInt8 :=
  (values bytes).map symbolByte ++ List.replicate (paddingOf bytes) padding

theorem bytesOf_encodeBytes (bytes : List UInt8) : bytesOf (encodeBytes bytes) = encodedBytes bytes := by
  have hsymbols : ∀ vs : List Nat, (∀ v ∈ vs, v < 64) →
      bytesOf (vs.map symbol) = vs.map symbolByte := by
    intro vs h
    induction vs with
    | nil => rfl
    | cons v vs ih =>
      obtain ⟨hv, hvs⟩ := List.forall_mem_cons.1 h
      have hcons : bytesOf ((v :: vs).map symbol)
          = String.utf8EncodeChar (symbol v) ++ bytesOf (vs.map symbol) := rfl
      rw [hcons, (symbol_spec hv).1, ih hvs]
      rfl
  have hpadding : ∀ k, bytesOf (List.replicate k '=') = List.replicate k padding := by
    intro k
    induction k with
    | zero => rfl
    | succ k ih =>
      have hcons : bytesOf (List.replicate (k + 1) '=')
          = String.utf8EncodeChar '=' ++ bytesOf (List.replicate k '=') := rfl
      rw [hcons, ih]
      rfl
  rw [encodeBytes_eq, bytesOf_append, hsymbols _ (values_lt bytes), hpadding, encodedBytes]

section

variable {bytes : List UInt8}

theorem length_encodedBytes (hne : bytes ≠ []) : (encodedBytes bytes).length = lastBlock bytes + 4 := by
  rw [encodedBytes, List.length_append, List.length_map, List.length_replicate, lastBlock_add_four hne]

theorem lastBlock_le (hne : bytes ≠ []) : lastBlock bytes ≤ (values bytes).length := by
  have hcut := lastBlock_add_four hne
  have hpadding : paddingOf bytes < 3 := Nat.mod_lt _ (by decide)
  omega

/-- The blocks before the last one have no padding. -/
theorem take_encodedBytes (hne : bytes ≠ []) :
    (encodedBytes bytes).take (lastBlock bytes) = ((values bytes).take (lastBlock bytes)).map symbolByte := by
  have hle := lastBlock_le hne
  rw [encodedBytes, List.take_append_of_le_length (by rwa [List.length_map]), List.map_take]

theorem drop_encodedBytes (hne : bytes ≠ []) :
    (encodedBytes bytes).drop (lastBlock bytes)
      = ((values bytes).drop (lastBlock bytes)).map symbolByte
        ++ List.replicate (paddingOf bytes) padding := by
  have hle := lastBlock_le hne
  rw [encodedBytes, List.drop_append_of_le_length (by rwa [List.length_map]), List.map_drop]

theorem decodeTail_encodedBytes (hne : bytes ≠ []) :
    decodeTail (lastBlock bytes) ((encodedBytes bytes).drop (lastBlock bytes))
      = .ok ((values bytes).drop (lastBlock bytes)) := by
  have hcut := lastBlock_add_four hne
  have hpadding : paddingOf bytes < 3 := Nat.mod_lt _ (by decide)
  rw [drop_encodedBytes hne]
  apply decodeTail_map (fun v hv => values_lt bytes v (List.mem_of_mem_drop hv))
  · rw [List.length_drop]
    omega
  · rw [List.length_drop]
    omega
  · exact spareBits_values hne

/-- Nothing is stray behind whole blocks. -/
theorem stray?_eq_none (h : bytes.length % 4 ≠ 1) : stray? bytes = none := by
  rw [stray?]
  split
  · exact if_neg fun hstray => h hstray.1
  · rfl

end

/-- **Bytes are read back from their base64 form.** -/
theorem decode_encode (bytes : List UInt8) :
    decode (encode bytes).toUTF8.data.toList = .ok bytes := by
  have htext : (encode bytes).toUTF8.data.toList = encodedBytes bytes := by
    have hoctets := octets_toUTF8 (encode bytes)
    rw [encode, String.toList_ofList, bytesOf_encodeBytes] at hoctets
    exact hoctets
  rw [htext]
  by_cases hne : bytes = []
  · subst hne
    rfl
  · have hlength := length_encodedBytes hne
    have hempty : (encodedBytes bytes).isEmpty = false := by
      apply List.isEmpty_eq_false_iff.2
      apply List.ne_nil_of_length_pos
      omega
    have hstray : stray? (encodedBytes bytes) = none := by
      apply stray?_eq_none
      rw [hlength, lastBlock]
      omega
    have hhead : sextets 0 ((encodedBytes bytes).take (lastBlock bytes))
        = .ok ((values bytes).take (lastBlock bytes)) := by
      rw [take_encodedBytes hne]
      exact sextets_map (fun v hv => values_lt bytes v (List.mem_of_mem_take hv)) 0
    rw [decode, hempty, hstray]
    simp only [Bool.false_eq_true, if_false, hlength, headLength_lastBlock, hhead,
      decodeTail_encodedBytes hne]
    show Except.ok (pack ((values bytes).take (lastBlock bytes) ++ (values bytes).drop (lastBlock bytes)))
      = .ok bytes
    rw [List.take_append_drop, pack_values]

/-- No symbol, and no padding, is a backslash. -/
theorem ne_backslash_of_mem_encode {bytes : List UInt8} {c : Char} (h : c ∈ (encode bytes).toList) :
    c ≠ '\\' := by
  rw [encode, String.toList_ofList, encodeBytes_eq] at h
  rcases List.mem_append.1 h with h | h
  · obtain ⟨v, hv, rfl⟩ := List.mem_map.1 h
    exact (symbol_spec (values_lt bytes v hv)).2.2.2
  · rw [List.eq_of_mem_replicate h]
    decide

end Base64

/-! ## Stored values -/

/-- A text whose last character is no backslash can be quoted. -/
theorem isUnquotable_eq_false {s : String} (h : ∀ c, s.toList.getLast? = some c → c ≠ '\\') :
    Value.isUnquotable s = false := by
  rw [Value.isUnquotable, beq_eq_false_iff_ne]
  intro hlast
  exact h _ hlast rfl

theorem Address.isUnquotable_text (a : Address) : Value.isUnquotable a.text = false := by
  apply isUnquotable_eq_false
  intro c hlast
  have hne : digitsOfNat a.port.val.toNat ≠ [] := digitsOfNat_ne_nil _
  have htext : a.text.toList = (a.host.toList ++ [':']) ++ digitsOfNat a.port.val.toNat := by
    simp [Address.text]
  rw [htext, List.getLast?_append, List.getLast?_eq_some_getLast hne, Option.some_or] at hlast
  have hdigit : c.isDigit = true := by
    rw [← Option.some.inj hlast]
    exact isDigit_of_mem_digitsOfNat (List.getLast_mem hne)
  rintro rfl
  exact absurd hdigit (by decide)

namespace ScalarType

/-- Whether what is stored for the value can be written, and is the value again when it is read. -/
def Storable : (t : ScalarType) → t.Carrier → Prop
  | .text, s => Value.isUnquotable s = false
  | .number, n => n.isFinite = true
  | .integer _, k => k.Exact
  | .value, v => v.Writable
  | .address, a => a.host ≠ ""
  | .boolean, _ | .base64, _ => True

/-- **What is stored is read back.** -/
theorem read_store {t : ScalarType} {x : t.Carrier} (h : t.Storable x) : t.read (t.store x) = .ok x := by
  cases t with
  | text => rfl
  | number => rfl
  | boolean =>
    have hzero : ∀ b : Bool, (if b then Number.one else Number.zero).isZero = !b := by decide
    simp only [store, read, hzero, Bool.not_not]
  | integer t =>
    have hread : Ranged.ofNumber? t x.toNumber = some x := Ranged.ofNumber?_toNumber h
    rw [store, read, hread]
  | value => rfl
  | address =>
    have hread : Address.ofText? x.text = some x := Address.ofText?_text h
    rw [store, read, hread]
  | base64 =>
    have hread : Base64.decode (Base64.encode x).toUTF8.data.toList = .ok x := Base64.decode_encode x
    rw [store, read, hread]

/-- What is stored can be written. -/
theorem writable_store {t : ScalarType} {x : t.Carrier} (h : t.Storable x) : (t.store x).Writable := by
  cases t with
  | text => exact h
  | number => exact h
  | boolean => cases x <;> decide
  | integer t => exact x.isFinite_toNumber
  | value => exact h
  | address => exact x.isUnquotable_text
  | base64 =>
    apply isUnquotable_eq_false
    intro c hlast
    exact Base64.ne_backslash_of_mem_encode (List.mem_of_getLast? hlast)

end ScalarType

end GraphWire
