import GraphWire.Proofs.Values
import GraphWire.Scalar.Basic

/-!
# `Proofs.Integers` — which numbers are integers of a type, and which integers survive as numbers

A number is read as an integer if it is one: the two bounds are numbers, and the cast behind them has
nothing to cut off. In the other direction the number nearest to an integer is stored, and that is
another integer as soon as there are more than 53 digits before the zeros. The greatest integers of 64
bits are rounded up to the bound itself, which is no integer of the type.

## Contents
- **Bounds.** `IntegerType.value?_bounds`.
- **Reading.** **`Ranged.ofNumber?_eq_some_iff`**, and `ScalarType.reads_integer_iff` for what is stored.
- **Storing.** `Ranged.value?_toNumber`, and **`ScalarType.integer_survives_iff`**, which integers are read
  back, and which are not read at all.
-/

namespace GraphWire

/-! ## Bounds -/

/-- An integer that is not rounded is the value of its number. -/
theorem Number.value?_ofInt_exact {k : Int} (hlog : k.natAbs.log2 < 1022)
    (h : rounded k.natAbs = k.natAbs) : (Number.ofInt k).value? = some (k : ℚ) := by
  rw [Number.value?_ofInt hlog, h, signed_natAbs]

namespace IntegerType

theorem bounds_eq (t : IntegerType) : t.bounds = (.ofInt t.least, .ofInt (t.greatest + 1)) := by
  have hsigned : t.isSigned = true →
      -(t.greatest + 1) = t.least ∧ (Nat.pow 2 (t.bits - 1) : Int) = t.greatest + 1 := by
    cases t <;> decide
  have hunsigned : t.isSigned = false → t.least = 0 ∧ (Nat.pow 2 t.bits : Int) = t.greatest + 1 := by
    cases t <;> decide
  have hzero : Number.zero = .ofInt 0 := by decide +kernel
  unfold bounds
  cases hsign : t.isSigned with
  | true =>
    obtain ⟨hleast, hgreatest⟩ := hsigned hsign
    simp only [if_true, hgreatest, hleast]
  | false =>
    obtain ⟨hleast, hgreatest⟩ := hunsigned hsign
    simp only [Bool.false_eq_true, if_false, hleast, hgreatest, hzero]

/-- The bounds are exact, since both are powers of two. -/
theorem value?_bounds (t : IntegerType) :
    t.bounds.1.value? = some (t.least : ℚ) ∧ t.bounds.2.value? = some ((t.greatest + 1 : Int) : ℚ) := by
  have hleast : t.least.natAbs.log2 < 1022 ∧ rounded t.least.natAbs = t.least.natAbs := by
    cases t <;> decide +kernel
  have hgreatest : (t.greatest + 1).natAbs.log2 < 1022 ∧
      rounded (t.greatest + 1).natAbs = (t.greatest + 1).natAbs := by
    cases t <;> decide +kernel
  rw [bounds_eq]
  dsimp only
  exact ⟨Number.value?_ofInt_exact hleast.1 hleast.2, Number.value?_ofInt_exact hgreatest.1 hgreatest.2⟩

end IntegerType

/-! ## Reading -/

namespace Ranged

variable {t : IntegerType}

theorem ofInt?_val (k : Ranged t) : ofInt? t k.val = some k :=
  dif_pos ⟨k.least_le, k.le_greatest⟩

theorem val_injective {a b : Ranged t} (h : a.val = b.val) : a = b := by
  cases a
  cases b
  cases h
  rfl

/-- An integer of the type is kept. -/
theorem val_clamp {z : Int} (hlow : t.least ≤ z) (hhigh : z ≤ t.greatest) : (clamp t z).val = z := by
  show max t.least (min z t.greatest) = z
  omega

/-- **A number is read as the integer that it stands for.** -/
theorem ofNumber?_eq_some_iff {n : Number} {k : Ranged t} :
    ofNumber? t n = some k ↔ n.value? = some (k.val : ℚ) := by
  obtain ⟨hleast, hgreatest⟩ := t.value?_bounds
  have hconditions : ofNumber? t n = some k ↔
      ((n.fraction.equal .zero = true ∧ t.bounds.1.atMost n = true) ∧ n.less t.bounds.2 = true) ∧
        saturating t n = k := by
    rw [ofNumber?]
    simp only [Option.ite_none_right_eq_some, Bool.and_eq_true, Option.some_inj]
  rw [hconditions, Number.fraction_equal_zero_iff]
  constructor
  · rintro ⟨⟨⟨⟨negative, rank, rfl, hmod⟩, hlow⟩, hhigh⟩, hcast⟩
    have hvalue : (Number.finite negative rank).value?
        = some (signed negative (Number.units rank / Number.unitsPerOne) : ℚ) :=
      Number.value?_eq_intCast_iff.2 ⟨hmod, rfl⟩
    rw [Number.atMost_iff hleast hvalue, Int.cast_le] at hlow
    rw [Number.less_iff hvalue hgreatest, Int.cast_lt] at hhigh
    have hval : (saturating t (.finite negative rank)).val
        = signed negative (Number.units rank / Number.unitsPerOne) :=
      val_clamp hlow (Int.le_of_lt_add_one hhigh)
    rw [hvalue, ← hval, hcast]
  · intro hvalue
    obtain ⟨negative, rank, rfl, -⟩ := Number.exists_finite_of_value? hvalue
    obtain ⟨hmod, hsigned⟩ := Number.value?_eq_intCast_iff.1 hvalue
    refine ⟨⟨⟨⟨negative, rank, rfl, hmod⟩, ?_⟩, ?_⟩, ?_⟩
    · rw [Number.atMost_iff hleast hvalue, Int.cast_le]
      exact k.least_le
    · rw [Number.less_iff hvalue hgreatest, Int.cast_lt]
      exact Int.lt_add_one_of_le k.le_greatest
    · apply val_injective
      have hval := val_clamp k.least_le k.le_greatest
      rw [← hsigned] at hval
      exact hval.trans hsigned

end Ranged

namespace ScalarType

theorem read_integer_iff {t : IntegerType} {n : Number} {k : Ranged t} :
    (integer t).read (.number n) = .ok k ↔ n.value? = some (k.val : ℚ) := by
  rw [← Ranged.ofNumber?_eq_some_iff, read]
  cases Ranged.ofNumber? t n with
  | none => simp
  | some k' => simp

/-- **A number is accepted as an integer of a type just if it is finite and whole and its exact value is in
the range of the type, and that value is what it is read as.** -/
theorem reads_integer_iff (t : IntegerType) (n : Number) :
    ((∃ k : Ranged t, (integer t).read (.number n) = .ok k) ↔
      ∃ z : Int, n.value? = some (z : ℚ) ∧ t.least ≤ z ∧ z ≤ t.greatest) ∧
    ∀ k : Ranged t, (integer t).read (.number n) = .ok k ↔ n.value? = some (k.val : ℚ) := by
  refine ⟨⟨?_, ?_⟩, fun k => read_integer_iff⟩
  · rintro ⟨k, hread⟩
    exact ⟨k.val, read_integer_iff.1 hread, k.least_le, k.le_greatest⟩
  · rintro ⟨z, hvalue, hlow, hhigh⟩
    exact ⟨⟨z, hlow, hhigh⟩, read_integer_iff.2 hvalue⟩

end ScalarType

/-! ## Storing -/

namespace Ranged

variable {t : IntegerType}

/-- Integers of 64 bits are far away from the greatest numbers. -/
theorem natAbs_le (k : Ranged t) : k.val.natAbs < 2 ^ 64 := by
  have hlow := k.least_le
  have hhigh := k.le_greatest
  cases t <;> simp only [IntegerType.least, IntegerType.greatest] at hlow hhigh <;> omega

theorem log2_natAbs_lt (k : Ranged t) : k.val.natAbs.log2 < 1022 := by
  by_cases h0 : k.val.natAbs = 0
  · rw [h0]
    decide +kernel
  · have hlt := (Nat.log2_lt h0).2 k.natAbs_le
    omega

/-- The integer that the stored number stands for. -/
def stored (k : Ranged t) : Int := signed (decide (k.val < 0)) (rounded k.val.natAbs)

theorem value?_toNumber (k : Ranged t) : k.toNumber.value? = some (k.stored : ℚ) :=
  Number.value?_ofInt k.log2_natAbs_lt

/-- The integer is below `2 ^ 53`, and so no other integer has the number that it is stored as. -/
def Exact (k : Ranged t) : Prop := k.val.natAbs < 2 ^ 53

theorem isFinite_toNumber (k : Ranged t) : k.toNumber.isFinite = true :=
  Number.isFinite_ofInt k.log2_natAbs_lt

theorem stored_eq_iff {k : Ranged t} : k.stored = k.val ↔ rounded k.val.natAbs = k.val.natAbs := by
  constructor
  · intro h
    have habs := congrArg Int.natAbs h
    rwa [stored, natAbs_signed] at habs
  · intro h
    rw [stored, h, signed_natAbs]

theorem Exact.stored_eq {k : Ranged t} (h : k.Exact) : k.stored = k.val :=
  stored_eq_iff.2 (rounded_of_lt h)

theorem ofNumber?_toNumber {k : Ranged t} (h : k.Exact) : ofNumber? t k.toNumber = some k := by
  rw [ofNumber?_eq_some_iff, value?_toNumber, h.stored_eq]

/-- Integers of 32 bits are small enough. -/
theorem exact_i32 (k : Ranged .i32) : k.Exact := by
  have hlow : -0x80000000 ≤ k.val := k.least_le
  have hhigh : k.val ≤ 0x7FFFFFFF := k.le_greatest
  rw [Exact]
  omega

theorem exact_u32 (k : Ranged .u32) : k.Exact := by
  have hlow : 0 ≤ k.val := k.least_le
  have hhigh : k.val ≤ 0xFFFFFFFF := k.le_greatest
  rw [Exact]
  omega

theorem exact_u16 (k : Ranged .u16) : k.Exact := by
  have hlow : 0 ≤ k.val := k.least_le
  have hhigh : k.val ≤ 0xFFFF := k.le_greatest
  rw [Exact]
  omega

/-- Signed integers are rounded up to the bound from `2 ^ 63 - 2 ^ 9` on. Their least one is a power of two
    and is not passed. -/
theorem stored_le_iff_i64 (k : Ranged .i64) :
    (IntegerType.i64.least ≤ k.stored ∧ k.stored ≤ IntegerType.i64.greatest) ↔ k.val < 2 ^ 63 - 2 ^ 9 := by
  have hlow : -0x8000000000000000 ≤ k.val := k.least_le
  have hhigh : k.val ≤ 0x7FFFFFFFFFFFFFFF := k.le_greatest
  have hrounded : rounded k.val.natAbs ≤ 2 ^ 63 := rounded_le_two_pow (by omega)
  show -0x8000000000000000 ≤ signed _ _ ∧ signed _ _ ≤ 0x7FFFFFFFFFFFFFFF ↔ _
  by_cases hneg : k.val < 0
  · simp only [signed, hneg, decide_true, if_true]
    omega
  · have hnext := rounded_lt_two_pow_iff (n := k.val.natAbs) (p := 9) (by omega)
    simp only [signed, hneg, decide_false, Bool.false_eq_true, if_false]
    omega

/-- Integers without a sign are rounded up to the bound from `2 ^ 64 - 2 ^ 10` on. -/
theorem stored_le_iff_u64 (k : Ranged .u64) :
    (IntegerType.u64.least ≤ k.stored ∧ k.stored ≤ IntegerType.u64.greatest) ↔ k.val < 2 ^ 64 - 2 ^ 10 := by
  have hlow : 0 ≤ k.val := k.least_le
  have hhigh : k.val ≤ 0xFFFFFFFFFFFFFFFF := k.le_greatest
  have hneg : ¬ k.val < 0 := by omega
  have hnext := rounded_lt_two_pow_iff (n := k.val.natAbs) (p := 10) (by omega)
  show 0 ≤ signed _ _ ∧ signed _ _ ≤ 0xFFFFFFFFFFFFFFFF ↔ _
  simp only [signed, hneg, decide_false, Bool.false_eq_true, if_false]
  omega

/-- **The stored number is out of range just for the greatest integers of 64 bits.** -/
theorem stored_out_of_range_iff (k : Ranged t) :
    ¬ (t.least ≤ k.stored ∧ k.stored ≤ t.greatest) ↔
      t = .i64 ∧ 2 ^ 63 - 2 ^ 9 ≤ k.val ∨ t = .u64 ∧ 2 ^ 64 - 2 ^ 10 ≤ k.val := by
  cases t with
  | i64 => simp [stored_le_iff_i64]
  | u64 => simp [stored_le_iff_u64]
  | i32 => simp [k.exact_i32.stored_eq, k.least_le, k.le_greatest]
  | u16 => simp [k.exact_u16.stored_eq, k.least_le, k.le_greatest]
  | u32 => simp [k.exact_u32.stored_eq, k.least_le, k.le_greatest]

end Ranged

namespace ScalarType

/-- **An integer that is stored is read back just if it is one of 53 binary digits with zeros behind them.** What
is read is the rounded integer. The greatest integers of 64 bits are not read at all, since they are rounded
up to the bound of the type. -/
theorem integer_survives_iff (t : IntegerType) (k : Ranged t) :
    ((integer t).read ((integer t).store k) = .ok k ↔
      ∃ m e, m < 2 ^ 53 ∧ k.val.natAbs = m * 2 ^ e) ∧
    ((∃ fault, (integer t).read ((integer t).store k) = .error fault) ↔
      t = .i64 ∧ 2 ^ 63 - 2 ^ 9 ≤ k.val ∨ t = .u64 ∧ 2 ^ 64 - 2 ^ 10 ≤ k.val) ∧
    ∀ k' : Ranged t, (integer t).read ((integer t).store k) = .ok k' ↔ k.stored = k'.val := by
  have hread : ∀ k' : Ranged t, (integer t).read ((integer t).store k) = .ok k' ↔ k.stored = k'.val := by
    intro k'
    rw [store, read_integer_iff, Ranged.value?_toNumber, Option.some_inj, Int.cast_inj]
  refine ⟨?_, ?_, hread⟩
  · rw [hread, Ranged.stored_eq_iff, rounded_eq_self_iff]
  · rw [← Ranged.stored_out_of_range_iff]
    constructor
    · rintro ⟨fault, hfault⟩ ⟨hlow, hhigh⟩
      have hok := (hread ⟨k.stored, hlow, hhigh⟩).2 rfl
      rw [hfault] at hok
      cases hok
    · intro hrange
      cases hresult : (integer t).read ((integer t).store k) with
      | error fault => exact ⟨fault, rfl⟩
      | ok k' =>
        have hstored := (hread k').1 hresult
        exact absurd ⟨hstored ▸ k'.least_le, hstored ▸ k'.le_greatest⟩ hrange

/-- The first integer that is lost, and the greatest one. -/
theorem integer_lost :
    (integer .i64).read ((integer .i64).store ⟨2 ^ 53 + 1, by decide, by decide⟩)
      = .ok ⟨2 ^ 53, by decide, by decide⟩ ∧
    (integer .i64).read ((integer .i64).store ⟨2 ^ 63 - 1, by decide, by decide⟩)
      = .error (.mismatch (integer .i64) (.number (.ofInt (2 ^ 63)))) := by
  decide +kernel

end ScalarType

end GraphWire
