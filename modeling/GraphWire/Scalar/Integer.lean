import GraphWire.Number.Order

/-!
# `GraphWire.Scalar.Integer` — integers of a fixed range

Integers are stored as numbers. A number is read as an integer of a type if nothing stands behind its
point and it lies between bounds that are numbers themselves. The greatest integer of a type need not be
a number, so the upper bound is the integer behind it, a power of two, and is excluded.

## Contents
- **`IntegerType`** with its range and its `bounds`, and **`Ranged`**, the integers in the range.
- **`Ranged.saturating`**, a number cast to a type.
- **`Ranged.ofNumber?`** and **`Ranged.toNumber`**, reading and storing.
-/

namespace GraphWire

/-- Integer types by signedness and width. -/
inductive IntegerType where
  | i32
  | i64
  | u16
  | u32
  | u64
  deriving DecidableEq

namespace IntegerType

def name : IntegerType → String
  | i32 => "i32"
  | i64 => "i64"
  | u16 => "u16"
  | u32 => "u32"
  | u64 => "u64"

def least : IntegerType → Int
  | i32 => -0x80000000
  | i64 => -0x8000000000000000
  | u16 | u32 | u64 => 0

def greatest : IntegerType → Int
  | i32 => 0x7FFFFFFF
  | i64 => 0x7FFFFFFFFFFFFFFF
  | u16 => 0xFFFF
  | u32 => 0xFFFFFFFF
  | u64 => 0xFFFFFFFFFFFFFFFF

/-- How many binary digits an integer of the type has, one for the sign included. -/
def bits : IntegerType → Nat
  | u16 => 16
  | i32 | u32 => 32
  | i64 | u64 => 64

def isSigned : IntegerType → Bool
  | i32 | i64 => true
  | u16 | u32 | u64 => false

/-- The least integer of the type and the one behind the greatest, as numbers. -/
def bounds (t : IntegerType) : Number × Number :=
  if t.isSigned then
    let half : Int := Nat.pow 2 (t.bits - 1)
    (.ofInt (-half), .ofInt half)
  else
    (.zero, .ofInt (Nat.pow 2 t.bits))

theorem least_le_greatest (t : IntegerType) : t.least ≤ t.greatest := by
  cases t <;> decide

end IntegerType

/-- The integers in the range of a type. -/
structure Ranged (t : IntegerType) where
  val : Int
  least_le : t.least ≤ val
  le_greatest : val ≤ t.greatest
  deriving DecidableEq

namespace Ranged

/-- The integer as one of the type, if it is in range. -/
def ofInt? (t : IntegerType) (k : Int) : Option (Ranged t) :=
  if h : t.least ≤ k ∧ k ≤ t.greatest then some ⟨k, h.1, h.2⟩ else none

/-- The integer of the type that is nearest to the given one. -/
def clamp (t : IntegerType) (k : Int) : Ranged t :=
  ⟨max t.least (min k t.greatest), Int.le_max_left _ _,
    Int.max_le.2 ⟨t.least_le_greatest, Int.min_le_right _ _⟩⟩

/-- A number cast to the type: what stands behind the point is cut off, a number out of range becomes
    the least or the greatest integer, and `nan` becomes zero. -/
def saturating (t : IntegerType) : Number → Ranged t
  | .nan => clamp t 0
  | .infinite negative => clamp t (if negative then t.least else t.greatest)
  | .finite negative rank =>
    let magnitude : Int := (Number.units rank / Number.unitsPerOne : Nat)
    clamp t (if negative then -magnitude else magnitude)

/-- The integer that a number stands for, if it has no fraction and lies within the bounds. -/
def ofNumber? (t : IntegerType) (n : Number) : Option (Ranged t) :=
  let (low, high) := t.bounds
  if n.fraction.equal .zero && low.atMost n && n.less high then some (saturating t n) else none

/-- The number nearest to the integer. -/
def toNumber {t : IntegerType} (k : Ranged t) : Number := .ofInt k.val

end Ranged

end GraphWire
