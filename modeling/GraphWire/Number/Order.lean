import GraphWire.Number.Rounding

/-!
# `GraphWire.Number.Order` — which of two numbers is less, and what stands behind the point

Finite numbers are in the order of their ranks with their signs, so the two zeros share a place. The
infinities enclose them, and `nan` is not compared with anything.

## Contents
- **Order.** `Number.less` and `Number.atMost`.
- **`Number.fraction`**, what is left of a number without its whole part.
-/

namespace GraphWire.Number

/-- The place of a number among those that can be compared. -/
def place? : Number → Option Int
  | nan => none
  | infinite negative => some (if negative then -rankBound else rankBound)
  | finite negative rank => some (if negative then -rank.val else rank.val)

/-- Whether the first number is less than the second. -/
def less (a b : Number) : Bool :=
  match a.place?, b.place? with
  | some x, some y => decide (x < y)
  | _, _ => false

/-- Whether the first number is less than the second or equal to it. -/
def atMost (a b : Number) : Bool :=
  match a.place?, b.place? with
  | some x, some y => decide (x ≤ y)
  | _, _ => false

/-- The number less its whole part. An infinite number has no difference to itself. -/
def fraction : Number → Number
  | finite negative rank =>
    let rest := units rank % unitsPerOne
    if rest = 0 then zero else nearest negative rest unitsPerOne
  | _ => nan

end GraphWire.Number
