import GraphWire.Proofs.Decimals
import GraphWire.Syntax.Lexer

/-!
# `Proofs.Numerals` — scanning gets back what was written

A scanner takes what it can, so whether it stops behind a numeral depends on what follows. Digits, a
point or the letter of an exponent could carry the numeral on; before anything else it is read as it
was spelled, and the plain digits of a number are read as that number.

## Contents
- **`Stops`**, said of a text that does not go on with a character of a kind.
- **`Numeral.WellFormed`** and **`Numeral.goesOn`**: `Numeral.scan?_spelling`, what is well formed is read as it
  was spelled, and `Numeral.wellFormed_of_scan?` and `Numeral.stops_of_scan?`, what is read is so.
- **`Decimal.numeral`**, the numeral that the plain digits of a decimal form: `Decimal.spelling_numeral`,
  `Decimal.wellFormed_numeral`, and **`Decimal.toNumber_numeral`**, it reads as the decimal does.
-/

namespace GraphWire

/-- The text is over, or goes on with a character outside the kind. -/
def Stops (p : Char → Bool) (rest : List Char) : Prop := ∀ c, rest.head? = some c → p c = false

theorem stops_cons {p : Char → Bool} {c : Char} {rest : List Char} :
    Stops p (c :: rest) ↔ p c = false := by
  constructor
  · intro h
    exact h c rfl
  · intro h d hd
    cases hd
    exact h

theorem Stops.mono {p q : Char → Bool} {rest : List Char} (h : Stops q rest)
    (hpq : ∀ c, p c = true → q c = true) : Stops p rest := by
  intro c hc
  apply Bool.eq_false_iff.2
  intro hp
  exact Bool.eq_false_iff.1 (h c hc) (hpq c hp)

theorem Stops.takeWhile_eq {p : Char → Bool} {rest : List Char} (h : Stops p rest) :
    rest.takeWhile p = [] := by
  cases rest with
  | nil => rfl
  | cons c rest =>
    rw [List.takeWhile_cons, stops_cons.1 h]
    rfl

theorem Stops.dropWhile_eq {p : Char → Bool} {rest : List Char} (h : Stops p rest) :
    rest.dropWhile p = rest := by
  cases rest with
  | nil => rfl
  | cons c rest =>
    rw [List.dropWhile_cons, stops_cons.1 h]
    rfl

theorem Stops.takeWhile_append {p : Char → Bool} {rest cs : List Char} (h : Stops p rest)
    (hcs : ∀ c ∈ cs, p c = true) : (cs ++ rest).takeWhile p = cs := by
  rw [List.takeWhile_append_of_pos hcs, h.takeWhile_eq, List.append_nil]

theorem Stops.dropWhile_append {p : Char → Bool} {rest cs : List Char} (h : Stops p rest)
    (hcs : ∀ c ∈ cs, p c = true) : (cs ++ rest).dropWhile p = rest := by
  rw [List.dropWhile_append_of_pos hcs, h.dropWhile_eq]

theorem stops_dropWhile (p : Char → Bool) (cs : List Char) : Stops p (cs.dropWhile p) := by
  intro c hc
  have hnot := List.head?_dropWhile_not p cs
  rw [hc] at hnot
  exact hnot

/-- What follows a row that stops a kind matters only if the row is empty. -/
theorem stops_append_of_ne_nil {p : Char → Bool} {cs : List Char} (hne : cs ≠ [])
    (hcs : ∀ c ∈ cs, p c = false) (rest : List Char) : Stops p (cs ++ rest) := by
  cases cs with
  | nil => exact absurd rfl hne
  | cons c cs => exact stops_cons.2 (hcs c List.mem_cons_self)

namespace Numeral

theorem takeIf_append_stops {p : Char → Bool} {sign : Option Char} {rest : List Char}
    (hsign : ∀ c, sign = some c → p c = true) (hrest : Stops p rest) :
    takeIf p (sign.toList ++ rest) = (sign, rest) := by
  cases sign with
  | some c => exact if_pos (hsign c rfl)
  | none =>
    cases rest with
    | nil => rfl
    | cons c rest => exact if_neg (Bool.eq_false_iff.1 (stops_cons.1 hrest))

/-- Whether the character could carry a numeral on. -/
def mayContinue (c : Char) : Bool := c.isDigit || c == '.' || isExponentLetter c

/-- What a scanner can have read as the exponent of a numeral. -/
structure Exponent.WellFormed (e : Exponent) : Prop where
  letter : isExponentLetter e.letter = true
  sign : ∀ c, e.sign = some c → isSign c = true
  digits : ∀ c ∈ e.digits, c.isDigit = true
  ne_nil : e.digits ≠ []

/-- What a scanner can have read as a numeral. -/
structure WellFormed (n : Numeral) : Prop where
  sign : ∀ c, n.sign = some c → isSign c = true
  whole : ∀ c ∈ n.whole, c.isDigit = true
  fraction : ∀ digits, n.fraction = some digits → ∀ c ∈ digits, c.isDigit = true
  ne_nil : n.whole ++ n.fraction.getD [] ≠ []
  exponent : ∀ e, n.exponent = some e → e.WellFormed

/-! The kinds of characters that a numeral is made of exclude each other. -/

theorem not_isSign_of_isDigit {c : Char} (h : c.isDigit = true) : isSign c = false := by
  apply Bool.eq_false_iff.2
  intro hs
  rcases Bool.or_eq_true_iff.1 hs with hs | hs <;>
  · rw [beq_iff_eq.1 hs] at h
    exact absurd h (by decide)

theorem not_isDigit_of_isExponentLetter {c : Char} (h : isExponentLetter c = true) :
    c.isDigit = false := by
  rcases Bool.or_eq_true_iff.1 h with h | h <;>
  · rw [beq_iff_eq.1 h]
    decide

/-- Whether the character would carry this numeral on, by what it has already. -/
def goesOn (n : Numeral) (c : Char) : Bool :=
  c.isDigit || n.exponent.isNone && (isExponentLetter c || n.fraction.isNone && c == '.')

theorem mayContinue_of_goesOn {n : Numeral} {c : Char} (h : n.goesOn c = true) :
    mayContinue c = true := by
  simp only [goesOn, mayContinue, Bool.or_eq_true, Bool.and_eq_true] at *
  grind

theorem stops_isDigit_of_goesOn {n : Numeral} {rest : List Char} (h : Stops n.goesOn rest) :
    Stops Char.isDigit rest := by
  apply h.mono
  intro c hc
  rw [goesOn, hc]
  rfl

/-- What stands behind the digits of a numeral does not carry them on; nor does a point follow if there is
    none yet. -/
theorem stops_exponentSpelling {n : Numeral} {rest : List Char}
    (he : ∀ e, n.exponent = some e → e.WellFormed) (hrest : Stops n.goesOn rest) :
    Stops Char.isDigit (exponentSpelling n.exponent ++ rest) ∧
      (n.fraction = none → (exponentSpelling n.exponent ++ rest).head? ≠ some '.') := by
  cases hexponent : n.exponent with
  | none =>
    refine ⟨stops_isDigit_of_goesOn hrest, ?_⟩
    intro hfraction h
    have hpoint := hrest '.' h
    rw [goesOn, hexponent, hfraction] at hpoint
    exact absurd hpoint (by decide)
  | some e =>
    have hletter := (he e hexponent).letter
    refine ⟨stops_cons.2 (not_isDigit_of_isExponentLetter hletter), ?_⟩
    intro _ h
    rw [Option.some.inj h] at hletter
    exact absurd hletter (by decide)

theorem scanFraction_append_stops {fraction : Option (List Char)} {rest : List Char}
    (hfraction : ∀ digits, fraction = some digits → ∀ c ∈ digits, c.isDigit = true)
    (hrest : Stops Char.isDigit rest) (hpoint : fraction = none → rest.head? ≠ some '.') :
    scanFraction (fractionSpelling fraction ++ rest) = (fraction, rest) := by
  cases fraction with
  | none =>
    rw [fractionSpelling, List.nil_append, scanFraction]
    rintro tail rfl
    exact hpoint rfl rfl
  | some digits =>
    have hdigits := hfraction digits rfl
    show (some ((digits ++ rest).takeWhile Char.isDigit), (digits ++ rest).dropWhile Char.isDigit) = _
    rw [hrest.takeWhile_append hdigits, hrest.dropWhile_append hdigits]

theorem scanExponent_append_stops {e : Option Exponent} {rest : List Char}
    (he : ∀ e', e = some e' → e'.WellFormed) (hrest : Stops Char.isDigit rest)
    (hletter : e = none → Stops isExponentLetter rest) :
    scanExponent (exponentSpelling e ++ rest) = .ok (e, rest) := by
  cases e with
  | none =>
    have htake : takeIf isExponentLetter rest = (none, rest) := by
      have hnone : ∀ c, (none : Option Char) = some c → isExponentLetter c = true := by
        intro c h
        cases h
      exact takeIf_append_stops hnone (hletter rfl)
    rw [scanExponent, exponentSpelling, List.nil_append, htake]
  | some e =>
    obtain ⟨letter, sign, digits⟩ := e
    obtain ⟨hletter, hsign, hdigits, hne⟩ := he _ rfl
    have htake : takeIf isExponentLetter (letter :: (sign.toList ++ (digits ++ rest)))
        = (some letter, sign.toList ++ (digits ++ rest)) := if_pos hletter
    have hsigned : takeIf isSign (sign.toList ++ (digits ++ rest)) = (sign, digits ++ rest) :=
      takeIf_append_stops hsign
        (stops_append_of_ne_nil hne (fun c hc => not_isSign_of_isDigit (hdigits c hc)) rest)
    rw [exponentSpelling, Exponent.spelling, List.cons_append, List.append_assoc, scanExponent,
      htake]
    simp only [hsigned, hrest.takeWhile_append hdigits, hrest.dropWhile_append hdigits]
    rw [if_neg (by simpa using hne)]

/-- **A numeral is read as it was spelled**, if what follows does not carry it on. -/
theorem scan?_spelling {n : Numeral} (h : n.WellFormed) {rest : List Char}
    (hrest : Stops n.goesOn rest) : scan? (n.spelling ++ rest) = .ok (n, rest) := by
  have hletter : n.exponent = none → Stops isExponentLetter rest := by
    intro hnone
    apply hrest.mono
    intro c hc
    rw [goesOn, hnone, hc]
    exact Bool.or_true _
  obtain ⟨hdigit, hpoint⟩ := stops_exponentSpelling h.exponent hrest
  have hend := stops_isDigit_of_goesOn hrest
  obtain ⟨sign, whole, fraction, exponent⟩ := n
  obtain ⟨hsign, hwhole, hfraction, hne, hexponent⟩ := h
  -- the text behind the sign, and behind the whole part
  have hbehind : Stops Char.isDigit (fractionSpelling fraction ++ (exponentSpelling exponent ++ rest)) := by
    cases fraction with
    | none => exact hdigit
    | some digits => exact stops_cons.2 (by decide)
  have hunsigned : Stops isSign
      (whole ++ (fractionSpelling fraction ++ (exponentSpelling exponent ++ rest))) := by
    cases whole with
    | cons c whole => exact stops_cons.2 (not_isSign_of_isDigit (hwhole c List.mem_cons_self))
    | nil =>
      cases fraction with
      | none => exact absurd rfl hne
      | some digits => exact stops_cons.2 (by decide)
  have hspelling : spelling ⟨sign, whole, fraction, exponent⟩ ++ rest = sign.toList ++
      (whole ++ (fractionSpelling fraction ++ (exponentSpelling exponent ++ rest))) := by
    simp only [spelling, List.append_assoc]
  rw [hspelling, scan?]
  simp only [takeIf_append_stops hsign hunsigned, hbehind.takeWhile_append hwhole,
    hbehind.dropWhile_append hwhole, scanFraction_append_stops hfraction hdigit hpoint,
    scanExponent_append_stops hexponent hend hletter]
  rw [if_neg (by simpa using hne)]

theorem eq_some_of_takeIf {p : Char → Bool} {cs : List Char} {c : Char}
    (h : (takeIf p cs).1 = some c) : p c = true := by
  cases cs with
  | nil => cases h
  | cons d rest =>
    rw [takeIf] at h
    by_cases hd : p d = true
    · rw [if_pos hd] at h
      cases h
      exact hd
    · rw [if_neg hd] at h
      cases h

theorem isDigit_of_mem_takeWhile {cs : List Char} {c : Char}
    (h : c ∈ cs.takeWhile Char.isDigit) : c.isDigit = true :=
  List.all_eq_true.1 List.all_takeWhile c h

theorem stops_of_takeIf {p : Char → Bool} {cs : List Char} (h : (takeIf p cs).1 = none) :
    Stops p cs := by
  cases cs with
  | nil =>
    intro c hc
    cases hc
  | cons d rest =>
    apply stops_cons.2
    cases hd : p d with
    | false => rfl
    | true =>
      rw [takeIf, if_pos hd] at h
      cases h

theorem wellFormed_of_scanExponent {cs rest : List Char} {e : Exponent}
    (h : scanExponent cs = .ok (some e, rest)) : e.WellFormed := by
  unfold scanExponent at h
  split at h
  · cases h
  · next letter tail htake =>
    dsimp only at h
    split at h
    · cases h
    · next hne =>
      cases h
      refine ⟨eq_some_of_takeIf (by rw [htake]), fun _ => eq_some_of_takeIf,
        fun _ => isDigit_of_mem_takeWhile, ?_⟩
      exact fun hnil => hne (List.isEmpty_iff.2 hnil)

/-- **What is read as a numeral is well formed.** -/
theorem wellFormed_of_scan? {cs rest : List Char} {n : Numeral} (h : scan? cs = .ok (n, rest)) :
    n.WellFormed := by
  have hne := digits_of_scan? h
  unfold scan? at h
  dsimp only at h
  split at h
  · cases h
  · split at h
    · next e rest' he =>
      cases h
      refine ⟨fun _ => eq_some_of_takeIf, fun _ => isDigit_of_mem_takeWhile, ?_, hne, ?_⟩
      · intro digits hdigits c hc
        unfold scanFraction at hdigits
        split at hdigits
        · cases hdigits
          exact isDigit_of_mem_takeWhile hc
        · cases hdigits
      · rintro e' rfl
        exact wellFormed_of_scanExponent he
    · cases h

/-- The scanner takes the point and the digits that are there. -/
theorem stops_scanFraction {cs : List Char} (h : Stops Char.isDigit cs) :
    Stops Char.isDigit (scanFraction cs).2 ∧
      ((scanFraction cs).1 = none → (scanFraction cs).2.head? ≠ some '.') := by
  unfold scanFraction
  split
  · next rest => exact ⟨stops_dropWhile Char.isDigit rest, nofun⟩
  · next hpoint =>
    refine ⟨h, fun _ hhead => ?_⟩
    obtain ⟨rest, hcs⟩ := List.head?_eq_some_iff.1 hhead
    exact hpoint rest hcs

/-- The scanner takes the letter of an exponent and the digits behind it, if they are there. -/
theorem stops_of_scanExponent {cs rest : List Char} {e : Option Exponent}
    (h : scanExponent cs = .ok (e, rest)) :
    (e = none → rest = cs ∧ Stops isExponentLetter cs) ∧ (e ≠ none → Stops Char.isDigit rest) := by
  unfold scanExponent at h
  split at h
  · next htake =>
    cases h
    refine ⟨fun _ => ⟨rfl, ?_⟩, fun hne => absurd rfl hne⟩
    exact stops_of_takeIf (by rw [htake])
  · dsimp only at h
    split at h
    · cases h
    · cases h
      exact ⟨nofun, fun _ => stops_dropWhile Char.isDigit _⟩

/-- **Nothing follows that would carry on what is read as a numeral.** -/
theorem stops_of_scan? {cs rest : List Char} {n : Numeral} (h : scan? cs = .ok (n, rest)) :
    Stops n.goesOn rest := by
  unfold scan? at h
  dsimp only at h
  split at h
  · cases h
  · split at h
    · next e rest' he =>
      cases h
      obtain ⟨hdigit, hpoint⟩ := stops_scanFraction (stops_dropWhile Char.isDigit (takeIf isSign cs).2)
      obtain ⟨hnone, hsome⟩ := stops_of_scanExponent he
      intro c hc
      cases e with
      | some e =>
        rw [goesOn, hsome (Option.some_ne_none e) c hc]
        rfl
      | none =>
        obtain ⟨rfl, hletter⟩ := hnone rfl
        have hfraction : (scanFraction ((takeIf isSign cs).2.dropWhile Char.isDigit)).1 = none → c ≠ '.' := by
          rintro hfraction rfl
          exact hpoint hfraction hc
        simp only [goesOn, hdigit c hc, hletter c hc]
        simpa using hfraction
    · cases h

end Numeral

/-! ## The plain digits of a decimal -/

namespace Decimal

/-- The digits of the coefficient, with zeros in front up to one place before the point. -/
def padded (d : Decimal) : List Char :=
  List.replicate ((-d.exponent).toNat + 1 - (digitsOfNat d.coefficient).length) '0'
    ++ digitsOfNat d.coefficient

/-- The numeral that the plain digits form. -/
def numeral (d : Decimal) : Numeral where
  sign := if d.negative then some '-' else none
  whole :=
    if 0 ≤ d.exponent then
      digitsOfNat d.coefficient ++ List.replicate d.exponent.toNat '0'
    else d.padded.take (d.padded.length - (-d.exponent).toNat)
  fraction :=
    if 0 ≤ d.exponent then none
    else some (d.padded.drop (d.padded.length - (-d.exponent).toNat))
  exponent := none

theorem isDigit_of_mem_padded {d : Decimal} {c : Char} (h : c ∈ d.padded) : c.isDigit = true := by
  rcases List.mem_append.1 h with h | h
  · rw [List.eq_of_mem_replicate h]
    decide
  · exact isDigit_of_mem_digitsOfNat h

/-- There is a digit before the point. -/
theorem places_lt_length_padded (d : Decimal) : (-d.exponent).toNat < d.padded.length := by
  rw [padded, List.length_append, List.length_replicate]
  omega

theorem spelling_numeral (d : Decimal) : d.numeral.spelling = d.plain := by
  have hsign : (if d.negative then some '-' else none : Option Char).toList
      = if d.negative then ['-'] else [] := by cases d.negative <;> rfl
  rw [Numeral.spelling, numeral, plain, hsign]
  by_cases h : 0 ≤ d.exponent
  · simp only [if_pos h, Numeral.fractionSpelling, Numeral.exponentSpelling, List.append_nil,
      List.append_assoc]
  · simp only [if_neg h, Numeral.fractionSpelling, Numeral.exponentSpelling, List.append_nil,
      List.append_assoc]
    rfl

theorem wellFormed_numeral (d : Decimal) : d.numeral.WellFormed := by
  have hsign : ∀ c, d.numeral.sign = some c → Numeral.isSign c = true := by
    intro c hc
    cases hn : d.negative <;> simp [numeral, hn] at hc
    rw [← hc]
    rfl
  have hexponent : ∀ e, d.numeral.exponent = some e → e.WellFormed := by
    intro e he
    cases he
  -- zeros are appended for a positive exponent; otherwise a point cuts the padded digits
  by_cases h : 0 ≤ d.exponent
  · refine ⟨hsign, ?_, ?_, ?_, hexponent⟩
    · intro c hc
      simp only [numeral, if_pos h] at hc
      rcases List.mem_append.1 hc with hc | hc
      · exact isDigit_of_mem_digitsOfNat hc
      · rw [List.eq_of_mem_replicate hc]
        decide
    · intro digits hdigits
      simp [numeral, if_pos h] at hdigits
    · simp only [numeral, if_pos h]
      simp [digitsOfNat_ne_nil]
  · refine ⟨hsign, ?_, ?_, ?_, hexponent⟩
    · intro c hc
      simp only [numeral, if_neg h] at hc
      exact isDigit_of_mem_padded (List.mem_of_mem_take hc)
    · intro digits hdigits c hc
      simp only [numeral, if_neg h, Option.some.injEq] at hdigits
      rw [← hdigits] at hc
      exact isDigit_of_mem_padded (List.mem_of_mem_drop hc)
    · have hplaces := places_lt_length_padded d
      simp only [numeral, if_neg h, Option.getD_some, List.take_append_drop]
      intro hnil
      rw [hnil] at hplaces
      cases hplaces

/-- The numeral reads as the decimal does. -/
theorem toNumber_numeral (d : Decimal) : d.numeral.value.toNumber = d.toNumber := by
  obtain ⟨negative, c, e⟩ := d
  have hsign : decide ((numeral ⟨negative, c, e⟩).sign = some '-') = negative := by
    cases negative <;> rfl
  by_cases h : 0 ≤ e
  · have hvalue : (numeral ⟨negative, c, e⟩).value = ⟨negative, c * 10 ^ e.toNat, 0⟩ := by
      rw [Numeral.value, hsign]
      simp only [numeral, if_pos h, Option.getD_none, List.append_nil, natOfDigits_append_zeros,
        natOfDigits_digitsOfNat]
      rfl
    rw [hvalue, toNumber_mul_pow, Int.zero_add, Int.toNat_of_nonneg h]
  · have hplaces := places_lt_length_padded ⟨negative, c, e⟩
    have hvalue : (numeral ⟨negative, c, e⟩).value = ⟨negative, c, e⟩ := by
      rw [Numeral.value, hsign]
      simp only [numeral, if_neg h, Option.getD_some, List.take_append_drop, List.length_drop,
        Option.map_none, Option.getD_none]
      congr 1
      · rw [padded, natOfDigits_zeros_append, natOfDigits_digitsOfNat]
      · show (0 : Int) - _ = e
        simp only at hplaces
        omega
    rw [hvalue]

end Decimal

end GraphWire
