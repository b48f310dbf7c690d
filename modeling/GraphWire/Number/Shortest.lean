import GraphWire.Number.Decimal

/-!
# `GraphWire.Number.Shortest` — the text of a number

A finite number is written with the fewest digits that read back to it. On the grid of decimals
with a given digit count only the two neighbours of the exact value can be nearest to it, so these
two are tried, with one digit, then two, up to the seventeen that always suffice.

## Contents
- **`Number.shortest`**, the decimal written for a finite number.
- **`Number.text`**, the number in plain digits, without an exponent.
- **`Number.scientific`**, the form of listings for inspection: whole numbers show `.0`, and
  magnitudes outside `10 ^ -4 … 10 ^ 16` have an exponent.
-/

namespace GraphWire

namespace Number

/-- The least `k` with `num / den < 10 ^ k`, for a positive quotient. -/
def decimalExponent (num den : Nat) : Int :=
  if den ≤ num then (digitsOfNat (num / den)).length
  else 1 - (digitsOfNat ((den - 1) / num)).length

/-- The integers around `num / den · 10 ^ -exponent`: the one below or at it, whether the one above
    is as near or nearer. -/
def neighbours (num den : Nat) (exponent : Int) : Nat × Bool :=
  let num := if 0 ≤ exponent then num else num * Nat.pow 10 (-exponent).toNat
  let den := if 0 ≤ exponent then den * Nat.pow 10 exponent.toNat else den
  (num / den, decide (den ≤ 2 * (num % den)))

/-- The decimal with the given last place that reads as the number, the nearer one if both
    neighbours of its exact value do; of two equally near ones the larger. -/
def onGrid? (negative : Bool) (rank : Fin rankBound) (exponent : Int) : Option Decimal :=
  let (below, upper) := neighbours (units rank) unitsPerOne exponent
  let low : Decimal := ⟨negative, below, exponent⟩
  let high : Decimal := ⟨negative, below + 1, exponent⟩
  let reads (d : Decimal) : Bool := d.toNumber = .finite negative rank
  match reads low, reads high with
  | true, true => some (if upper then high else low)
  | true, false => some low
  | false, true => some high
  | false, false => none

/-- The exact value: every magnitude is a whole multiple of `2 ^ -1074 = 5 ^ 1074 · 10 ^ -1074`. -/
def exact (negative : Bool) (rank : Fin rankBound) : Decimal :=
  ⟨negative, units rank * Nat.pow 5 1074, -1074⟩

/-- The decimal with the fewest digits that reads as the finite number of this sign and rank. -/
def shortest (negative : Bool) (rank : Fin rankBound) : Decimal :=
  if rank.val = 0 then ⟨negative, 0, 0⟩
  else
    let top := decimalExponent (units rank) unitsPerOne
    let found := (List.range 17).findSome? fun i => onGrid? negative rank (top - (i + 1 : Nat))
    (found.getD (exact negative rank)).trimmed

/-- The number in plain digits. -/
def text : Number → String
  | nan => "NaN"
  | infinite false => "inf"
  | infinite true => "-inf"
  | finite negative rank => String.ofList (shortest negative rank).plain

/-- The number as listings for inspection show it. -/
def scientific : Number → String
  | finite negative rank =>
    let d := shortest negative rank
    let digits := digitsOfNat d.coefficient
    let leading := d.magnitude - 1
    if d.coefficient = 0 ∨ (-4 ≤ leading ∧ leading < 16) then
      String.ofList d.plain ++ (if 0 ≤ d.exponent then ".0" else "")
    else
      (if negative then "-" else "") ++ String.ofList (digits.take 1)
        ++ (if digits.length = 1 then "" else "." ++ String.ofList (digits.drop 1))
        ++ "e" ++ toString leading
  | n => n.text

end Number

end GraphWire
