import GraphWire.Number.Basic

/-!
# `GraphWire.Number.Rounding` — the number nearest to an exact quotient

Numbers read from text and integers stored as numbers are rounded once, from the exact value to the
nearest number; a value half-way between two goes to the one of even rank.

## Contents
- **`roundHalfEven`**, rounding of a quotient to an integer.
- **`Number.nearest`**, rounding of a signed quotient to a number; what is too large is infinite.
- **`Number.ofInt`**, the number nearest to an integer.
-/

namespace GraphWire

/-- The integer nearest to `num / den`; a half goes to the even neighbour. -/
def roundHalfEven (num den : Nat) : Nat :=
  let below := num / den
  let twice := 2 * (num % den)
  if twice < den then below
  else if den < twice then below + 1
  else below + below % 2

namespace Number

/-- The number nearest to `num / den` with the given sign. The first 53 binary digits of the value
    decide its rank: `shift` is how many further digits stand before the last step of `2 ^ -1074`,
    and rounding up to the next power of two lands on the next rank by itself. -/
def nearest (negative : Bool) (num den : Nat) : Number :=
  let scaled := num * unitsPerOne
  let shift := (scaled / den).log2 - 52
  let rank := shift * Nat.pow 2 52 + roundHalfEven scaled (den * Nat.pow 2 shift)
  if h : rank < rankBound then .finite negative ⟨rank, h⟩ else .infinite negative

/-- The number nearest to an integer. -/
def ofInt (k : Int) : Number :=
  nearest (decide (k < 0)) k.natAbs 1

end Number

end GraphWire
