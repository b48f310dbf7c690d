import GraphWire.Number.Order
import GraphWire.Proofs.Decimals
import Mathlib.Algebra.Order.Field.Rat
import Mathlib.Order.Monotone.Basic
import Mathlib.Tactic.FieldSimp
import Mathlib.Tactic.NormNum
import Mathlib.Tactic.Ring

/-!
# `Proofs.Values` — the rational number that a number stands for

Ranks, and not values, are what numbers are compared by, and the fraction of a number is a number that is
rounded again. Both give the answers that the exact values give: magnitudes grow with their ranks, and
what stands behind the point is never rounded to zero.

Integers are rounded to 53 binary digits. `rounded` says to which integer, so that the questions about it,
which integers stay as they are and which reach the next power of two, are questions about natural numbers.

## Contents
- **Signs.** `signed`, and `signed_lt_iff`.
- **Values.** **`Number.value?`**, `Number.less_iff` and `Number.atMost_iff`.
- **Whole numbers.** `Number.value?_eq_intCast_iff` and **`Number.fraction_equal_zero_iff`**.
- **Rounded integers.** `rounded_eq_self_iff`, `rounded_lt_two_pow_iff`, and **`Number.value?_ofInt`**.
-/

namespace GraphWire

/-! ## Signs -/

/-- The integer with this sign and this magnitude. -/
def signed (negative : Bool) (magnitude : Nat) : Int := if negative then -magnitude else magnitude

theorem signed_natAbs (k : Int) : signed (decide (k < 0)) k.natAbs = k := by
  by_cases hk : k < 0
  · simp only [signed, hk, decide_true, if_true]
    omega
  · simp only [signed, hk, decide_false, Bool.false_eq_true, if_false]
    omega

theorem natAbs_signed (negative : Bool) (magnitude : Nat) :
    (signed negative magnitude).natAbs = magnitude := by
  cases negative <;> simp [signed]

theorem signed_mul (negative : Bool) (m n : Nat) : signed negative (m * n) = signed negative m * n := by
  cases negative <;> simp [signed]

/-- A signed multiple, and the integer that it is a multiple by. -/
theorem signed_eq_mul_iff {negative : Bool} {m d : Nat} {z : Int} (hd : 0 < d) :
    signed negative m = z * d ↔ m % d = 0 ∧ signed negative (m / d) = z := by
  have hne : (d : Int) ≠ 0 := by omega
  constructor
  · intro h
    have hm : m = z.natAbs * d := by
      have habs := congrArg Int.natAbs h
      rwa [natAbs_signed, Int.natAbs_mul, Int.natAbs_natCast] at habs
    refine ⟨by rw [hm, Nat.mul_mod_left], ?_⟩
    rw [hm, signed_mul] at h
    rw [hm, Nat.mul_div_cancel _ hd]
    exact Int.eq_of_mul_eq_mul_right hne h
  · rintro ⟨hmod, rfl⟩
    rw [← signed_mul, Nat.div_mul_cancel (Nat.dvd_of_mod_eq_zero hmod)]

/-- Magnitudes that keep their order keep it with signs. -/
theorem signed_lt_iff {f : Nat → Nat} (hmono : StrictMono f) (hzero : f 0 = 0) (a b : Bool) (m n : Nat) :
    signed a (f m) < signed b (f n) ↔ signed a m < signed b n := by
  have hpos : ∀ k, 0 < f k ↔ 0 < k := by
    intro k
    have hlt := hmono.lt_iff_lt (a := 0) (b := k)
    rwa [hzero] at hlt
  have hlt := hmono.lt_iff_lt (a := m) (b := n)
  have hgt := hmono.lt_iff_lt (a := n) (b := m)
  have hm := hpos m
  have hn := hpos n
  cases a <;> cases b <;> simp only [signed, Bool.false_eq_true, if_false, if_true] <;> omega

namespace Number

/-! ## Values -/

/-- A rank that is given by the place of its exponent and the 53 digits of its magnitude. The last of the
    magnitudes belongs to the exponent behind it. -/
theorem units_add {shift digits : Nat} (hlow : 2 ^ 52 ≤ digits) (hhigh : digits ≤ 2 ^ 53) :
    units (shift * 2 ^ 52 + digits) = digits * 2 ^ shift := by
  rw [units_of_not_lt (by omega)]
  rcases Nat.lt_or_eq_of_le hhigh with hlt | heq
  · have hdiv : (shift * 2 ^ 52 + digits) / 2 ^ 52 - 1 = shift := by omega
    have hmod : 2 ^ 52 + (shift * 2 ^ 52 + digits) % 2 ^ 52 = digits := by omega
    rw [hdiv, hmod]
  · have hdiv : (shift * 2 ^ 52 + digits) / 2 ^ 52 - 1 = shift + 1 := by omega
    have hmod : (shift * 2 ^ 52 + digits) % 2 ^ 52 = 0 := by omega
    rw [hdiv, hmod, heq, Nat.pow_add_one 2 shift, Nat.mul_comm (2 ^ shift) 2, ← Nat.mul_assoc]
    rfl

/-- Each magnitude is greater than the one of the rank before. -/
theorem units_strictMono : StrictMono units := by
  apply strictMono_nat_of_lt_succ
  intro n
  by_cases hsub : n + 1 < 2 ^ 52
  · rw [units_of_lt hsub, units_of_lt (Nat.lt_of_succ_lt hsub)]
    exact Nat.lt_succ_self n
  by_cases hlast : n < 2 ^ 52
  · -- the last subnormal number
    have hn : n + 1 = 2 ^ 52 := by omega
    rw [units_of_lt hlast, units_of_not_lt hsub, hn]
    omega
  · -- the digits of the next magnitude are one more, at the same place
    obtain ⟨shift, digits, hlow, hhigh, heq⟩ :
        ∃ shift digits, 2 ^ 52 ≤ digits ∧ digits < 2 ^ 53 ∧ n = shift * 2 ^ 52 + digits :=
      ⟨n / 2 ^ 52 - 1, 2 ^ 52 + n % 2 ^ 52, by omega, by omega, by omega⟩
    have hnext : n + 1 = shift * 2 ^ 52 + (digits + 1) := by omega
    rw [hnext, heq, units_add hlow (by omega), units_add (by omega) hhigh]
    exact Nat.mul_lt_mul_of_pos_right (Nat.lt_succ_self digits) (Nat.two_pow_pos shift)

theorem units_zero : units 0 = 0 := units_of_lt (by decide)

theorem unitsPerOne_pos : 0 < unitsPerOne := by decide +kernel

/-- The exponent is kept apart from the power, which is too large to be looked at. -/
theorem exists_unitsPerOne : ∃ places, places = 1074 ∧ unitsPerOne = 2 ^ places :=
  ⟨1074, rfl, Nat.pow_eq⟩

/-- The exact value of a finite number. -/
def value? : Number → Option ℚ
  | finite negative rank => some (signed negative (units rank) / unitsPerOne)
  | _ => none

theorem exists_finite_of_value? {n : Number} {q : ℚ} (h : n.value? = some q) :
    ∃ negative rank, n = finite negative rank ∧ q = signed negative (units rank) / unitsPerOne := by
  cases n with
  | nan => cases h
  | infinite negative => cases h
  | finite negative rank =>
    cases h
    exact ⟨negative, rank, rfl, rfl⟩

/-- **Finite numbers are compared by their exact values.** -/
theorem less_iff {a b : Number} {p q : ℚ} (ha : a.value? = some p) (hb : b.value? = some q) :
    a.less b = true ↔ p < q := by
  obtain ⟨s, m, rfl, rfl⟩ := exists_finite_of_value? ha
  obtain ⟨t, n, rfl, rfl⟩ := exists_finite_of_value? hb
  have hpos : (0 : ℚ) < unitsPerOne := by exact_mod_cast unitsPerOne_pos
  rw [div_lt_div_iff_of_pos_right hpos, Int.cast_lt, signed_lt_iff units_strictMono units_zero]
  exact decide_eq_true_iff

theorem atMost_iff {a b : Number} {p q : ℚ} (ha : a.value? = some p) (hb : b.value? = some q) :
    a.atMost b = true ↔ p ≤ q := by
  rw [← not_lt, ← less_iff hb ha]
  obtain ⟨s, m, rfl, -⟩ := exists_finite_of_value? ha
  obtain ⟨t, n, rfl, -⟩ := exists_finite_of_value? hb
  simp only [atMost, less, place?, decide_eq_true_eq, not_lt]

/-! ## Whole numbers -/

/-- The value is an integer if the magnitude is a multiple of one. -/
theorem value?_eq_intCast_iff {negative : Bool} {rank : Fin rankBound} {z : Int} :
    (finite negative rank).value? = some (z : ℚ) ↔
      units rank % unitsPerOne = 0 ∧ signed negative (units rank / unitsPerOne) = z := by
  have hpos : (unitsPerOne : ℚ) ≠ 0 := by exact_mod_cast Nat.ne_of_gt unitsPerOne_pos
  rw [value?, Option.some_inj, div_eq_iff hpos, ← signed_eq_mul_iff unitsPerOne_pos,
    ← Int.cast_natCast (R := ℚ) unitsPerOne, ← Int.cast_mul, Int.cast_inj]

/-- A quotient of magnitudes below one is not rounded to zero. -/
theorem isZero_nearest {negative : Bool} {rest : Nat} (h : rest ≠ 0) :
    (nearest negative rest unitsPerOne).isZero = false := by
  have hdiv : rest * unitsPerOne / unitsPerOne = rest := Nat.mul_div_cancel _ unitsPerOne_pos
  have hround : ∀ shift, roundHalfEven (rest * unitsPerOne) (unitsPerOne * 2 ^ shift)
      = roundHalfEven rest (2 ^ shift) := by
    intro shift
    rw [Nat.mul_comm rest, roundHalfEven_scale unitsPerOne_pos]
  have hrank : (rest.log2 - 52) * 2 ^ 52 + roundHalfEven rest (2 ^ (rest.log2 - 52)) ≠ 0 := by
    by_cases hshift : rest.log2 - 52 = 0
    · have hone := roundHalfEven_mul Nat.one_pos rest
      rw [Nat.mul_one] at hone
      rw [hshift, Nat.pow_zero, hone]
      omega
    · omega
  simp only [nearest, Nat.pow_eq, hdiv, hround]
  split
  · exact beq_false_of_ne hrank
  · rfl

theorem equal_zero (n : Number) : n.equal zero = n.isZero := by
  cases n with
  | nan => rfl
  | infinite negative => rfl
  | finite negative rank =>
    have hzero : zero.isZero = true := rfl
    rw [equal, hzero, Bool.and_true, Bool.or_eq_right_iff_imp]
    · intro h
      rw [eq_of_beq h]
      rfl
    all_goals simp [zero]

/-- **Nothing stands behind the point of the finite numbers whose magnitude is a multiple of one, and of no
    others.** -/
theorem fraction_equal_zero_iff {n : Number} :
    n.fraction.equal zero = true ↔
      ∃ negative rank, n = finite negative rank ∧ units rank % unitsPerOne = 0 := by
  rw [equal_zero]
  cases n with
  | nan => simp [fraction, isZero]
  | infinite negative => simp [fraction, isZero]
  | finite negative rank =>
    by_cases hrest : units rank % unitsPerOne = 0
    · simp only [fraction, hrest, if_true]
      exact ⟨fun _ => ⟨negative, rank, rfl, hrest⟩, fun _ => rfl⟩
    · simp only [fraction, hrest, if_false, isZero_nearest hrest, Bool.false_eq_true, false_iff]
      rintro ⟨_, _, heq, hmod⟩
      cases heq
      exact hrest hmod

end Number

/-! ## Rounded integers -/

theorem le_roundHalfEven {m num den : Nat} (hden : 0 < den) (h : m * den ≤ num) :
    m ≤ roundHalfEven num den := by
  have hdiv : m ≤ num / den := (Nat.le_div_iff_mul_le hden).2 h
  simp only [roundHalfEven]
  split
  · exact hdiv
  · split <;> omega

/-- A half goes up to an even integer. -/
theorem roundHalfEven_lt_iff {m num den : Nat} (hden : 0 < den) (heven : m % 2 = 0) :
    roundHalfEven num den < m ↔ 2 * num + den < 2 * (m * den) := by
  have hrem := Nat.mod_lt num hden
  have hsplit := Nat.div_add_mod num den
  rcases Nat.lt_trichotomy (num / den + 1) m with hbelow | hlast | habove
  · have hmul : (num / den + 2) * den ≤ m * den := Nat.mul_le_mul_right den hbelow
    have hexpand : (num / den + 2) * den = den * (num / den) + 2 * den := by ring
    simp only [roundHalfEven]
    constructor
    · intro _
      omega
    · intro _
      split
      · omega
      · split <;> omega
  · -- the last integer before `m` is odd
    have hexpand : m * den = den * (num / den) + den := by rw [← hlast]; ring
    simp only [roundHalfEven]
    split
    · omega
    · split <;> omega
  · have hge : m ≤ num / den := by omega
    have hmul : m * den ≤ den * (num / den) := by
      rw [Nat.mul_comm den]
      exact Nat.mul_le_mul_right den hge
    have hround := le_roundHalfEven hden (Nat.le_trans hmul (Nat.mul_div_le num den))
    omega

theorem roundHalfEven_le {m num den : Nat} (hden : 0 < den) (h : num ≤ m * den) :
    roundHalfEven num den ≤ m := by
  rcases Nat.lt_or_eq_of_le h with hlt | heq
  · have hdiv : num / den < m := (Nat.div_lt_iff_lt_mul hden).2 hlt
    simp only [roundHalfEven]
    split
    · omega
    · split <;> omega
  · rw [heq, roundHalfEven_mul hden]

/-- The integer with 53 binary digits, and zeros behind them, that is nearest to the given one. -/
def rounded (n : Nat) : Nat := roundHalfEven n (2 ^ (n.log2 - 52)) * 2 ^ (n.log2 - 52)

/-- There are at most 53 digits before the zeros. -/
theorem le_digits_mul (n : Nat) : n ≤ 2 ^ 53 * 2 ^ (n.log2 - 52) := by
  have hlt : n < 2 ^ (n.log2 + 1) := Nat.lt_log2_self
  have hle : 2 ^ (n.log2 + 1) ≤ 2 ^ (53 + (n.log2 - 52)) := Nat.pow_le_pow_right (by decide) (by omega)
  rw [← Nat.pow_add]
  omega

theorem log2_mul_two_pow {m : Nat} (h0 : m ≠ 0) (e : Nat) : (m * 2 ^ e).log2 = m.log2 + e := by
  have hpos := Nat.two_pow_pos e
  obtain ⟨hlow, hhigh⟩ := (Nat.log2_eq_iff h0).1 rfl
  apply (Nat.log2_eq_iff (Nat.mul_ne_zero h0 (Nat.ne_of_gt hpos))).2
  constructor
  · rw [Nat.pow_add]
    exact Nat.mul_le_mul_right _ hlow
  · rw [Nat.add_right_comm, Nat.pow_add]
    exact Nat.mul_lt_mul_of_pos_right hhigh hpos

theorem rounded_of_mul {m e n : Nat} (hdigits : m < 2 ^ 53) (h : n = m * 2 ^ e) : rounded n = n := by
  by_cases h0 : m = 0
  · rw [h, h0, Nat.zero_mul]
    rfl
  · have hlog : n.log2 = m.log2 + e := by rw [h, log2_mul_two_pow h0]
    have hm : m.log2 < 53 := (Nat.log2_lt h0).2 hdigits
    have hsplit : n = m * 2 ^ (e - (n.log2 - 52)) * 2 ^ (n.log2 - 52) := by
      rw [Nat.mul_assoc, ← Nat.pow_add]
      have he : e - (n.log2 - 52) + (n.log2 - 52) = e := by omega
      rw [he, ← h]
    have hround := roundHalfEven_mul (Nat.two_pow_pos (n.log2 - 52)) (m * 2 ^ (e - (n.log2 - 52)))
    rw [← hsplit] at hround
    rw [rounded, hround]
    exact hsplit.symm

/-- **An integer of 53 digits, with zeros behind them, stays as it is, and no other does.** -/
theorem rounded_eq_self_iff {n : Nat} : rounded n = n ↔ ∃ m e, m < 2 ^ 53 ∧ n = m * 2 ^ e := by
  constructor
  · intro h
    have hle := roundHalfEven_le (Nat.two_pow_pos (n.log2 - 52)) (le_digits_mul n)
    rcases Nat.lt_or_eq_of_le hle with hlt | heq
    · exact ⟨_, _, hlt, h.symm⟩
    · -- a power of two has one digit
      refine ⟨1, 53 + (n.log2 - 52), by decide, ?_⟩
      rw [rounded, heq, ← Nat.pow_add] at h
      rw [Nat.one_mul, h]
  · rintro ⟨m, e, hdigits, h⟩
    exact rounded_of_mul hdigits h

theorem rounded_of_lt {n : Nat} (h : n < 2 ^ 53) : rounded n = n :=
  rounded_of_mul (e := 0) h (Nat.mul_one n).symm

/-- Rounding does not pass a power of two. -/
theorem rounded_le_two_pow {n p : Nat} (h : n ≤ 2 ^ p) : rounded n ≤ 2 ^ p := by
  have hlog : n.log2 ≤ p := by
    by_cases h0 : n = 0
    · rw [h0]
      exact Nat.zero_le p
    · have hlt := Nat.lt_of_le_of_lt h (Nat.pow_lt_pow_right (by decide) (Nat.lt_succ_self p))
      exact Nat.lt_succ_iff.1 ((Nat.log2_lt h0).2 hlt)
  have hsplit : 2 ^ (p - (n.log2 - 52)) * 2 ^ (n.log2 - 52) = 2 ^ p := by
    rw [← Nat.pow_add]
    congr 1
    omega
  calc rounded n
      ≤ 2 ^ (p - (n.log2 - 52)) * 2 ^ (n.log2 - 52) :=
        Nat.mul_le_mul_right _ (roundHalfEven_le (Nat.two_pow_pos _) (by rwa [hsplit]))
    _ = 2 ^ p := hsplit

/-- **An integer is rounded up to the power of two behind it from half a step before it on.** -/
theorem rounded_lt_two_pow_iff {n p : Nat} (h : n < 2 ^ (p + 54)) :
    rounded n < 2 ^ (p + 54) ↔ n < 2 ^ (p + 54) - 2 ^ p := by
  have hpos := Nat.two_pow_pos p
  have hwhole : 2 ^ (p + 54) = 2 ^ 54 * 2 ^ p := by rw [Nat.pow_add, Nat.mul_comm]
  have hhalf : 2 ^ (p + 53) = 2 ^ 53 * 2 ^ p := by rw [Nat.pow_add, Nat.mul_comm]
  have hstep : 2 ^ (p + 1) = 2 * 2 ^ p := by rw [Nat.pow_add, Nat.mul_comm]
  by_cases hsmall : n ≤ 2 ^ (p + 53)
  · -- too far away for either side
    have hrounded := rounded_le_two_pow hsmall
    omega
  · have hlog : n.log2 = p + 53 := (Nat.log2_eq_iff (by omega)).2 ⟨Nat.le_of_not_le hsmall, h⟩
    have hplace : n.log2 - 52 = p + 1 := by omega
    have hdigits : 2 ^ (p + 54) = 2 ^ 53 * 2 ^ (p + 1) := by
      omega
    calc rounded n < 2 ^ (p + 54)
        ↔ roundHalfEven n (2 ^ (p + 1)) < 2 ^ 53 := by
          rw [rounded, hplace, hdigits]
          exact Nat.mul_lt_mul_right (Nat.two_pow_pos (p + 1))
      _ ↔ 2 * n + 2 ^ (p + 1) < 2 * (2 ^ 53 * 2 ^ (p + 1)) :=
          roundHalfEven_lt_iff (Nat.two_pow_pos (p + 1)) (by decide)
      _ ↔ n < 2 ^ (p + 54) - 2 ^ p := by
          rw [hwhole, hstep]
          omega

namespace Number

/-- The digits of the number nearest to an integer, at their place. -/
theorem digits_mul_two_pow {n shift : Nat} (h0 : n ≠ 0) (hshift : shift = n.log2 + 1022) :
    roundHalfEven (n * unitsPerOne) (2 ^ shift) * 2 ^ shift = rounded n * unitsPerOne := by
  obtain ⟨places, hplaces, hone⟩ := exists_unitsPerOne
  by_cases hlog : n.log2 ≤ 52
  · -- there is room for all digits
    have hlt : n < 2 ^ 53 := (Nat.log2_lt h0).1 (by omega)
    have hsum : places = 52 - n.log2 + shift := by omega
    have hsplit : n * unitsPerOne = n * 2 ^ (52 - n.log2) * 2 ^ shift := by
      rw [hone, hsum, Nat.pow_add, Nat.mul_assoc]
    rw [rounded_of_lt hlt, hsplit, roundHalfEven_mul (Nat.two_pow_pos shift)]
  · have hsum : shift = places + (n.log2 - 52) := by omega
    have hsplit : 2 ^ shift = unitsPerOne * 2 ^ (n.log2 - 52) := by
      rw [hone, hsum, Nat.pow_add]
    rw [rounded, hsplit, Nat.mul_comm n, roundHalfEven_scale unitsPerOne_pos, Nat.mul_right_comm,
      Nat.mul_assoc]

/-- There are 53 of them, or one more in a power of two. -/
theorem digits_bounds {n shift : Nat} (h0 : n ≠ 0) (hshift : shift = n.log2 + 1022) :
    2 ^ 52 ≤ roundHalfEven (n * unitsPerOne) (2 ^ shift) ∧
      roundHalfEven (n * unitsPerOne) (2 ^ shift) ≤ 2 ^ 53 := by
  obtain ⟨places, hplaces, hone⟩ := exists_unitsPerOne
  obtain ⟨hlow, hhigh⟩ := (Nat.log2_eq_iff h0).1 rfl
  have hsum : 52 + shift = n.log2 + places := by omega
  have hnext : 53 + shift = n.log2 + 1 + places := by omega
  constructor
  · apply le_roundHalfEven (Nat.two_pow_pos shift)
    rw [← Nat.pow_add, hsum, hone, Nat.pow_add]
    exact Nat.mul_le_mul_right _ hlow
  · apply roundHalfEven_le (Nat.two_pow_pos shift)
    rw [← Nat.pow_add, hnext, hone, Nat.pow_add]
    exact Nat.mul_le_mul_right _ (Nat.le_of_lt hhigh)

/-- An integer of less than 1023 binary digits is stored as the rounded one. -/
theorem ofInt_eq_finite {k : Int} (h : k.natAbs.log2 < 1022) :
    ∃ rank : Fin rankBound, ofInt k = .finite (decide (k < 0)) rank ∧
      units rank = rounded k.natAbs * unitsPerOne := by
  by_cases h0 : k.natAbs = 0
  · have hzero : rounded k.natAbs = 0 := by
      rw [h0]
      rfl
    refine ⟨⟨0, by decide⟩, nearest_units _ _ Nat.one_pos ?_, ?_⟩
    · rw [h0, Nat.zero_mul, units_zero]
    · rw [hzero, Nat.zero_mul, units_zero]
  · obtain ⟨shift, hshift⟩ : ∃ shift, shift = k.natAbs.log2 + 1022 := ⟨_, rfl⟩
    obtain ⟨hlow, hhigh⟩ := digits_bounds h0 hshift
    obtain ⟨places, hplaces, hone⟩ := exists_unitsPerOne
    have hlog : (k.natAbs * unitsPerOne / 1).log2 - 52 = shift := by
      rw [Nat.div_one, hone, log2_mul_two_pow h0]
      omega
    have hrank : shift * 2 ^ 52 + roundHalfEven (k.natAbs * unitsPerOne) (2 ^ shift) < rankBound := by
      show _ < 2047 * 2 ^ 52
      omega
    refine ⟨⟨_, hrank⟩, ?_, ?_⟩
    · simp only [ofInt, nearest, Nat.pow_eq, hlog, Nat.one_mul]
      exact dif_pos hrank
    · rw [units_add hlow hhigh, digits_mul_two_pow h0 hshift]

/-- **The number nearest to an integer stands for the rounded one.** -/
theorem value?_ofInt {k : Int} (h : k.natAbs.log2 < 1022) :
    (ofInt k).value? = some (signed (decide (k < 0)) (rounded k.natAbs) : ℚ) := by
  obtain ⟨rank, hfinite, hunits⟩ := ofInt_eq_finite h
  rw [hfinite, value?_eq_intCast_iff, hunits, Nat.mul_mod_left, Nat.mul_div_cancel _ unitsPerOne_pos]
  exact ⟨rfl, rfl⟩

theorem isFinite_ofInt {k : Int} (h : k.natAbs.log2 < 1022) : (ofInt k).isFinite = true := by
  obtain ⟨rank, hfinite, -⟩ := ofInt_eq_finite h
  rw [hfinite]
  rfl

end Number

end GraphWire
