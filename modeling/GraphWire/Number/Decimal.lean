import GraphWire.Number.Rounding

/-!
# `GraphWire.Number.Decimal` — decimal numerals

A numeral is an optional sign, decimal digits with an optional point, and an optional exponent.

## Contents
- **`Decimal`**, the exact value `± coefficient · 10 ^ exponent`, with `Decimal.toNumber`, the
  number nearest to it.
- **`Numeral`**, a numeral in its spelled parts, with `Numeral.value` and `Numeral.spelling`.
- **Scanning.** `Numeral.scan?` reads the longest numeral that a text begins with;
  `Number.ofText?` reads a whole text.
- **What scanning reads.** `Numeral.scan?_append`: nothing is lost between spelling and rest.
- **Plain digits.** `Decimal.plain` writes a decimal without an exponent.
-/

namespace GraphWire

/-- A decimal digit as a number. -/
def digitValue (c : Char) : Nat := c.toNat - '0'.toNat

/-- The number that a row of digits spells in base ten. -/
def natOfDigits (digits : List Char) : Nat :=
  digits.foldl (fun n c => 10 * n + digitValue c) 0

/-- The digits of a number in base ten. -/
def digitsOfNat (n : Nat) : List Char := Nat.toDigits 10 n

/-! ## Exact decimals -/

/-- The exact value `± coefficient · 10 ^ exponent`. -/
structure Decimal where
  negative : Bool
  coefficient : Nat
  exponent : Int
  deriving DecidableEq

namespace Decimal

/-- The power of ten above the magnitude: the coefficient's digit count plus the exponent. -/
def magnitude (d : Decimal) : Int := (digitsOfNat d.coefficient).length + d.exponent

/-- The number nearest to the decimal. Magnitudes far outside the range of the numbers are settled
    without computing the power of ten. -/
def toNumber (d : Decimal) : Number :=
  if d.coefficient = 0 ∨ d.magnitude < -400 then
    .nearest d.negative 0 1
  else if 400 < d.magnitude then
    .infinite d.negative
  else if 0 ≤ d.exponent then
    .nearest d.negative (d.coefficient * Nat.pow 10 d.exponent.toNat) 1
  else
    .nearest d.negative d.coefficient (Nat.pow 10 (-d.exponent).toNat)

/-- The same value with a coefficient that does not end in zero. -/
def trimmed (d : Decimal) : Decimal :=
  if d.coefficient = 0 then { d with exponent := 0 }
  else if d.coefficient % 10 = 0 then
    trimmed { d with coefficient := d.coefficient / 10, exponent := d.exponent + 1 }
  else d
  termination_by d.coefficient
  decreasing_by omega

/-- A sign if negative, the digits before the point, and the digits behind it if there are any. -/
def plain (d : Decimal) : List Char :=
  let digits := digitsOfNat d.coefficient
  let sign := if d.negative then ['-'] else []
  if 0 ≤ d.exponent then
    sign ++ digits ++ List.replicate d.exponent.toNat '0'
  else
    let places := (-d.exponent).toNat
    let padded := List.replicate (places + 1 - digits.length) '0' ++ digits
    sign ++ padded.take (padded.length - places) ++ '.' :: padded.drop (padded.length - places)

end Decimal

/-! ## Numerals -/

/-- What a numeral still needs where its text breaks off. -/
inductive Numeral.Need where
  | digits
  | exponentDigits
  deriving DecidableEq

/-- The exponent part of a numeral: the letter, an optional sign, and digits. -/
structure Numeral.Exponent where
  letter : Char
  sign : Option Char
  digits : List Char
  deriving DecidableEq

/-- A numeral in its spelled parts; `fraction` is what follows the point, if there is a point. -/
structure Numeral where
  sign : Option Char
  whole : List Char
  fraction : Option (List Char)
  exponent : Option Numeral.Exponent
  deriving DecidableEq

namespace Numeral

def isSign (c : Char) : Bool := c == '+' || c == '-'

def isExponentLetter (c : Char) : Bool := c == 'e' || c == 'E'

def Exponent.spelling (e : Exponent) : List Char :=
  e.letter :: (e.sign.toList ++ e.digits)

def Exponent.value (e : Exponent) : Int :=
  if e.sign = some '-' then -natOfDigits e.digits else natOfDigits e.digits

/-- The point and the digits behind it. -/
def fractionSpelling : Option (List Char) → List Char
  | none => []
  | some digits => '.' :: digits

def exponentSpelling : Option Exponent → List Char
  | none => []
  | some e => e.spelling

/-- The characters of the numeral. -/
def spelling (n : Numeral) : List Char :=
  n.sign.toList ++ n.whole ++ fractionSpelling n.fraction ++ exponentSpelling n.exponent

/-- The exact value of the numeral. -/
def value (n : Numeral) : Decimal where
  negative := n.sign = some '-'
  coefficient := natOfDigits (n.whole ++ n.fraction.getD [])
  exponent := (n.exponent.map Exponent.value).getD 0 - (n.fraction.getD []).length

/-- Takes the first character if it passes the test. -/
def takeIf (p : Char → Bool) : List Char → Option Char × List Char
  | [] => (none, [])
  | c :: rest => if p c then (some c, rest) else (none, c :: rest)

/-- The digits behind a point, if the text begins with a point. -/
def scanFraction (cs : List Char) : Option (List Char) × List Char :=
  match cs with
  | '.' :: rest => (some (rest.takeWhile Char.isDigit), rest.dropWhile Char.isDigit)
  | _ => (none, cs)

/-- The exponent that the text begins with, if any; a letter without digits behind it is at fault,
    and the fault comes with the spelling up to it. -/
def scanExponent (cs : List Char) :
    Except (Need × List Char) (Option Exponent × List Char) :=
  match takeIf isExponentLetter cs with
  | (none, _) => .ok (none, cs)
  | (some letter, rest) =>
    let (sign, rest) := takeIf isSign rest
    let digits := rest.takeWhile Char.isDigit
    if digits.isEmpty then .error (.exponentDigits, letter :: sign.toList)
    else .ok (some ⟨letter, sign, digits⟩, rest.dropWhile Char.isDigit)

/-- The longest numeral that the text begins with, and the rest of the text. A fault says what was
    needed and which characters were read before it. -/
def scan? (cs : List Char) : Except (Need × List Char) (Numeral × List Char) :=
  let (sign, rest) := takeIf isSign cs
  let whole := rest.takeWhile Char.isDigit
  let (fraction, rest) := scanFraction (rest.dropWhile Char.isDigit)
  let mantissa : Numeral := ⟨sign, whole, fraction, none⟩
  if (whole ++ fraction.getD []).isEmpty then
    .error (.digits, mantissa.spelling)
  else
    match scanExponent rest with
    | .ok (exponent, rest) => .ok ({ mantissa with exponent }, rest)
    | .error (need, read) => .error (need, mantissa.spelling ++ read)

/-! ## What scanning reads -/

theorem takeIf_append (p : Char → Bool) (cs : List Char) :
    (takeIf p cs).1.toList ++ (takeIf p cs).2 = cs := by
  cases cs with
  | nil => rfl
  | cons c rest => simp only [takeIf]; split <;> rfl

theorem scanExponent_append {cs rest : List Char} {e : Option Exponent}
    (h : scanExponent cs = .ok (e, rest)) : exponentSpelling e ++ rest = cs := by
  have hl := takeIf_append isExponentLetter cs
  unfold scanExponent at h
  split at h
  · cases h; rfl
  · next letter tail hi =>
    dsimp only at h
    split at h
    · cases h
    · cases h
      rw [hi] at hl
      simp [← hl, exponentSpelling, Exponent.spelling, takeIf_append]

theorem scanFraction_append (cs : List Char) :
    fractionSpelling (scanFraction cs).1 ++ (scanFraction cs).2 = cs := by
  unfold scanFraction
  split <;> simp [fractionSpelling]

/-- A numeral that is read stands at the front of the text as it is spelled. -/
theorem scan?_append {cs rest : List Char} {n : Numeral} (h : scan? cs = .ok (n, rest)) :
    n.spelling ++ rest = cs := by
  unfold scan? at h
  dsimp only at h
  split at h
  · cases h
  · split at h
    · next e rest' he =>
      cases h
      simp only [spelling, List.append_assoc, scanExponent_append he, scanFraction_append,
        List.takeWhile_append_dropWhile, takeIf_append]
    · cases h

/-- A numeral that is read has a digit. -/
theorem digits_of_scan? {cs rest : List Char} {n : Numeral} (h : scan? cs = .ok (n, rest)) :
    n.whole ++ n.fraction.getD [] ≠ [] := by
  unfold scan? at h
  dsimp only at h
  split at h
  · cases h
  · next hd =>
    split at h
    · cases h; simpa using hd
    · cases h

theorem length_lt_of_scan? {cs rest : List Char} {n : Numeral} (h : scan? cs = .ok (n, rest)) :
    rest.length < cs.length := by
  have ha := congrArg List.length (scan?_append h)
  have hd : n.spelling ≠ [] := by
    intro hs
    have := digits_of_scan? h
    simp only [spelling, List.append_eq_nil_iff] at hs
    cases hf : n.fraction <;> simp_all [fractionSpelling]
  have := List.length_pos_iff.2 hd
  simp only [List.length_append] at ha
  omega

end Numeral

/-- The number that a whole text spells: a numeral, or one of `NaN`, `inf` and `-inf`. -/
def Number.ofText? (text : String) : Option Number :=
  match text with
  | "NaN" => some .nan
  | "inf" => some (.infinite false)
  | "-inf" => some (.infinite true)
  | _ =>
    match Numeral.scan? text.toList with
    | .ok (numeral, []) => some numeral.value.toNumber
    | _ => none

end GraphWire
