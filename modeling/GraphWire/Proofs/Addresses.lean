import GraphWire.Proofs.Scalars

/-!
# `Proofs.Addresses` — which texts are addresses

The last colon of a text parts host and port, so a host may hold colons of its own. A port has more than one
spelling: zeros in front and a plus sign do not count. What is read is written without them, and read from
that as the same address.

## Contents
- **Splitting.** `Address.splitLastColon?_eq_some_iff`.
- **Ports.** `Address.SpellsPort`, and `Address.portOfText?_eq_some_iff`.
- **`Address.ofText?_eq_some_iff`**, and **`Address.read_and_written`**, which puts both directions together.
-/

namespace GraphWire

/-- An integer is one of the type if it is its value. -/
theorem Ranged.ofInt?_eq_some_iff {t : IntegerType} {k : Int} {r : Ranged t} :
    ofInt? t k = some r ↔ r.val = k := by
  constructor
  · intro h
    rw [ofInt?] at h
    split at h
    · cases h
      rfl
    · cases h
  · rintro rfl
    exact ofInt?_val r

namespace Address

/-! ## Splitting -/

/-- **A text splits at its last colon**, and nowhere else. -/
theorem splitLastColon?_eq_some_iff {cs before after : List Char} :
    splitLastColon? cs = some (before, after) ↔ cs = before ++ ':' :: after ∧ ':' ∉ after := by
  constructor
  · intro h
    have hsplit := List.takeWhile_append_dropWhile (p := (· != ':')) (l := cs.reverse)
    rw [splitLastColon?] at h
    split at h
    · cases h
    · next c front hdrop =>
      cases h
      -- the first character that is not passed over from behind is the colon
      have hcolon : c = ':' := by
        have hhead := List.head?_dropWhile_not (fun c => c != ':') cs.reverse
        rw [hdrop] at hhead
        simpa using hhead
      subst hcolon
      refine ⟨?_, ?_⟩
      · have hback := congrArg List.reverse hsplit
        rw [hdrop, List.reverse_reverse, List.reverse_append, List.reverse_cons, List.append_assoc] at hback
        exact hback.symm
      · intro hmem
        have hpassed := List.all_eq_true.1 List.all_takeWhile ':' (List.mem_reverse.1 hmem)
        exact absurd rfl (bne_iff_ne.1 hpassed)
  · rintro ⟨rfl, hafter⟩
    exact splitLastColon?_append before hafter

/-! ## Ports -/

/-- The characters spell the number as a port may be spelled: digits, of which there is one at least, perhaps
    behind a plus sign. -/
def SpellsPort (cs : List Char) (n : Nat) : Prop :=
  ∃ digits, (cs = digits ∨ cs = '+' :: digits) ∧ digits ≠ [] ∧ (∀ c ∈ digits, c.isDigit = true) ∧
    natOfDigits digits = n

/-- Digits alone are read as their value, if that is in range. -/
theorem portOfDigits_iff {digits : List Char} {port : Ranged .u16} :
    (if digits.isEmpty || !digits.all Char.isDigit then none
      else Ranged.ofInt? .u16 (natOfDigits digits)) = some port ↔
    digits ≠ [] ∧ (∀ c ∈ digits, c.isDigit = true) ∧ port.val = natOfDigits digits := by
  have hcond : (digits.isEmpty || !digits.all Char.isDigit) = false ↔
      digits ≠ [] ∧ ∀ c ∈ digits, c.isDigit = true := by
    rw [Bool.or_eq_false_iff, List.isEmpty_eq_false_iff, Bool.not_eq_false', List.all_eq_true]
  by_cases hdigits : (digits.isEmpty || !digits.all Char.isDigit) = true
  · rw [if_pos hdigits, ← and_assoc, ← hcond, hdigits]
    simp
  · rw [if_neg hdigits, Ranged.ofInt?_eq_some_iff, ← and_assoc, ← hcond]
    exact (and_iff_right (Bool.eq_false_iff.2 hdigits)).symm

/-- **A port is read from its spellings**, and from no other text. -/
theorem portOfText?_eq_some_iff {cs : List Char} {port : Ranged .u16} :
    portOfText? cs = some port ↔ ∃ n, SpellsPort cs n ∧ n ≤ 65535 ∧ port.val = n := by
  have hle : ∀ n : Nat, port.val = n → n ≤ 65535 := by
    intro n hn
    have hgreatest : port.val ≤ 65535 := port.le_greatest
    omega
  constructor
  · intro h
    unfold portOfText? at h
    split at h
    · next digits =>
      obtain ⟨hne, hall, hval⟩ := portOfDigits_iff.1 h
      exact ⟨_, ⟨digits, Or.inr rfl, hne, hall, rfl⟩, hle _ hval, hval⟩
    · obtain ⟨hne, hall, hval⟩ := portOfDigits_iff.1 h
      exact ⟨_, ⟨cs, Or.inl rfl, hne, hall, rfl⟩, hle _ hval, hval⟩
  · rintro ⟨n, ⟨digits, hcs, hne, hall, rfl⟩, -, hval⟩
    rcases hcs with rfl | rfl
    · unfold portOfText?
      split
      · -- a plus sign is no digit
        exact absurd (hall '+' List.mem_cons_self) (by decide)
      · exact portOfDigits_iff.2 ⟨hne, hall, hval⟩
    · exact portOfDigits_iff.2 ⟨hne, hall, hval⟩

/-! ## Addresses -/

/-- **An address is read from a host and a port around the last colon.** -/
theorem ofText?_eq_some_iff {s : String} {a : Address} :
    ofText? s = some a ↔ a.host ≠ "" ∧ ∃ port, s.toList = a.host.toList ++ ':' :: port ∧
      ':' ∉ port ∧ portOfText? port = some a.port := by
  have hempty : ∀ host : List Char, host.isEmpty = true ↔ String.ofList host = "" := by
    intro host
    rw [List.isEmpty_iff, ← String.toList_eq_nil_iff, String.toList_ofList]
  constructor
  · intro h
    obtain ⟨⟨host, port⟩, hsplit, h⟩ := Option.bind_eq_some_iff.1 h
    obtain ⟨hs, hcolon⟩ := splitLastColon?_eq_some_iff.1 hsplit
    dsimp only at h
    split at h
    · cases h
    · next hne =>
      obtain ⟨n, hport, h⟩ := Option.bind_eq_some_iff.1 h
      cases h
      refine ⟨mt (hempty host).2 hne, port, ?_, hcolon, hport⟩
      rw [hs, String.toList_ofList]
  · rintro ⟨hhost, port, hs, hcolon, hport⟩
    refine Option.bind_eq_some_iff.2 ⟨(a.host.toList, port), splitLastColon?_eq_some_iff.2 ⟨hs, hcolon⟩, ?_⟩
    have hne : ¬ a.host.toList.isEmpty = true := by
      rw [hempty, String.ofList_toList]
      exact hhost
    dsimp only
    rw [if_neg hne, hport, String.ofList_toList]
    rfl

/-- An address without a host has a text that is read as none. -/
theorem ofText?_text_of_no_host {a : Address} (h : a.host = "") : ofText? a.text = none := by
  have hcolon : ':' ∉ digitsOfNat a.port.val.toNat := by
    intro hmem
    exact absurd (isDigit_of_mem_digitsOfNat hmem) (by decide)
  have htext : a.text.toList = [] ++ ':' :: digitsOfNat a.port.val.toNat := by
    simp [text, h]
  rw [ofText?, htext, splitLastColon?_append _ hcolon]
  rfl

/-- **The texts of addresses, and the texts that are addresses.** The text of an address is read as that
    address if it has a host, and as none otherwise. A text is read as an address exactly if it is the
    address's host, which is not empty, a colon, and behind it, without another colon, a spelling of its port, a
    number up to 65535. The text of what has been read is read as the same again. -/
theorem read_and_written (a : Address) (s : String) :
    ofText? a.text = (if a.host = "" then none else some a) ∧
    (ofText? s = some a ↔ ∃ port n, s = a.host ++ ":" ++ port ∧ ':' ∉ port.toList ∧ a.host ≠ "" ∧
      SpellsPort port.toList n ∧ n ≤ 65535 ∧ a.port.val = n) ∧
    (ofText? s).bind (fun read => ofText? read.text) = ofText? s := by
  refine ⟨?_, ?_, ?_⟩
  · by_cases hhost : a.host = ""
    · rw [if_pos hhost, ofText?_text_of_no_host hhost]
    · rw [if_neg hhost, ofText?_text hhost]
  · rw [ofText?_eq_some_iff]
    constructor
    · rintro ⟨hhost, port, hs, hcolon, hport⟩
      obtain ⟨n, hspells, hle, hval⟩ := portOfText?_eq_some_iff.1 hport
      refine ⟨String.ofList port, n, ?_, ?_, hhost, ?_, hle, hval⟩
      · apply String.toList_injective
        simp [hs]
      · rwa [String.toList_ofList]
      · rwa [String.toList_ofList]
    · rintro ⟨port, n, rfl, hcolon, hhost, hspells, hle, hval⟩
      refine ⟨hhost, port.toList, ?_, hcolon, portOfText?_eq_some_iff.2 ⟨n, hspells, hle, hval⟩⟩
      simp
  · cases hread : ofText? s with
    | none => rfl
    | some read => exact ofText?_text (host_ne_of_ofText? hread)

example : (Address.ofText? "[::1]:+0080").map Address.text = some "[::1]:80" := by decide +kernel

end Address

end GraphWire
