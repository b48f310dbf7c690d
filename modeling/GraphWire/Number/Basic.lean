/-!
# `GraphWire.Number.Basic` — 64-bit binary floating-point numbers

A finite number is a sign and a *rank*: its place among the magnitudes in increasing order, zero
first, then the subnormal numbers, then the normal ones. Every magnitude is a whole multiple of
`2 ^ -1074`, so questions about exact values are questions about natural numbers.

## Contents
- **`Number`** with its constants, `units` (the magnitude in steps of `2 ^ -1074`) and `isFinite`.
- **Comparison.** `Number.equal`, where the two zeros are equal and nothing equals `nan`.
-/

namespace GraphWire

/-- How many finite magnitudes there are: 2047 exponents, 52 bits of fraction each. -/
def Number.rankBound : Nat := 2047 * Nat.pow 2 52

/-- A 64-bit floating-point number. -/
inductive Number where
  | nan
  | infinite (negative : Bool)
  | finite (negative : Bool) (rank : Fin Number.rankBound)
  deriving DecidableEq

namespace Number

/-- Steps of the smallest magnitude in one. -/
def unitsPerOne : Nat := Nat.pow 2 1074

/-- The magnitude of a rank in steps of `2 ^ -1074`: the subnormal numbers are equally spaced, and
    from then on the spacing doubles every `2 ^ 52` ranks. -/
def units (rank : Nat) : Nat :=
  if rank < Nat.pow 2 52 then rank
  else (Nat.pow 2 52 + rank % Nat.pow 2 52) * Nat.pow 2 (rank / Nat.pow 2 52 - 1)

def zero : Number := .finite false ⟨0, by decide⟩

def one : Number := .finite false ⟨1023 * Nat.pow 2 52, by decide⟩

instance : Inhabited Number := ⟨zero⟩

def isFinite : Number → Bool
  | finite _ _ => true
  | _ => false

def isZero : Number → Bool
  | finite _ rank => rank.val == 0
  | _ => false

/-- Numerical equality: the zeros are equal whatever their sign, `nan` equals nothing. -/
def equal : Number → Number → Bool
  | nan, _ => false
  | _, nan => false
  | a, b => a == b || (a.isZero && b.isZero)

end Number

end GraphWire
