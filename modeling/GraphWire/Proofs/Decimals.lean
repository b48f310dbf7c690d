import GraphWire.Number.Shortest
import Mathlib.Algebra.Group.Nat.Defs

/-!
# `Proofs.Decimals` — the decimal written for a number reads as that number

A number is written as the shortest decimal found on a grid, or, if there were none, as its exact
value. What is found on a grid has been read before it is taken, so the argument is about the exact
value: rounding gives every number back from its own magnitude, and neither the scale of a quotient
nor zeros at the end of a coefficient change what a decimal reads as.

## Contents
- **Digits.** How many there are, and what they spell.
- **Rounding.** `Number.nearest_scale` and `Number.nearest_units`.
- **Decimals of one value.** `Decimal.toNumber_tenfold`, for one zero more or less at the end.
- **`Number.toNumber_shortest`**, the result.
-/

namespace GraphWire

/-! ## Digits -/

theorem natOfDigits_eq (digits : List Char) : natOfDigits digits = Nat.ofDigitChars 10 digits 0 :=
  Nat.ofDigitChars_eq_foldl.symm

/-- The digits of a number spell it. -/
theorem natOfDigits_digitsOfNat (n : Nat) : natOfDigits (digitsOfNat n) = n := by
  rw [natOfDigits_eq]
  exact Nat.ofDigitChars_ten_toDigits

/-- Zeros in front do not count. -/
theorem natOfDigits_zeros_append (k : Nat) (digits : List Char) :
    natOfDigits (List.replicate k '0' ++ digits) = natOfDigits digits := by
  rw [natOfDigits_eq, natOfDigits_eq, Nat.ofDigitChars_append, Nat.ofDigitChars_replicate_zero,
    Nat.mul_zero]

/-- Zeros behind multiply by powers of ten. -/
theorem natOfDigits_append_zeros (digits : List Char) (k : Nat) :
    natOfDigits (digits ++ List.replicate k '0') = natOfDigits digits * 10 ^ k := by
  rw [natOfDigits_eq, natOfDigits_eq, Nat.ofDigitChars_append, Nat.ofDigitChars_replicate_zero,
    Nat.mul_comm]

theorem digitsOfNat_ne_nil (n : Nat) : digitsOfNat n ≠ [] := Nat.toDigits_ne_nil

theorem isDigit_of_mem_digitsOfNat {n : Nat} {c : Char} (h : c ∈ digitsOfNat n) : c.isDigit :=
  Nat.isDigit_of_mem_toDigits (by decide) (by decide) h

theorem length_digitsOfNat_le_iff {n k : Nat} (hk : 0 < k) :
    (digitsOfNat n).length ≤ k ↔ n < 10 ^ k := Nat.length_toDigits_le_iff (by decide) hk

/-- A positive number times ten has one digit more. -/
theorem length_digitsOfNat_tenfold {n : Nat} (hn : 0 < n) :
    (digitsOfNat (10 * n)).length = (digitsOfNat n).length + 1 := by
  rw [digitsOfNat, digitsOfNat, Nat.toDigits_of_base_le (by decide) (by omega), List.length_append,
    Nat.mul_div_cancel_left n (by decide)]
  rfl

/-! ## Rounding -/

/-- Rounding depends on the quotient alone. -/
theorem roundHalfEven_scale {k : Nat} (hk : 0 < k) (num den : Nat) :
    roundHalfEven (k * num) (k * den) = roundHalfEven num den := by
  have hscale : ∀ a b : Nat, k * a < k * b ↔ a < b := fun a b => Nat.mul_lt_mul_left hk
  have htwice : 2 * (k * num % (k * den)) = k * (2 * (num % den)) := by
    rw [Nat.mul_mod_mul_left]
    exact Nat.mul_left_comm 2 k _
  simp only [roundHalfEven, htwice, hscale, Nat.mul_div_mul_left _ _ hk]

/-- A whole quotient is not rounded. -/
theorem roundHalfEven_mul {den : Nat} (hden : 0 < den) (n : Nat) :
    roundHalfEven (n * den) den = n := by
  have hrem : 2 * (n * den % den) < den := by rwa [Nat.mul_mod_left]
  simp only [roundHalfEven]
  rw [if_pos hrem, Nat.mul_div_cancel n hden]

namespace Number

/-- A subnormal number is its own rank. -/
theorem units_of_lt {rank : Nat} (h : rank < 2 ^ 52) : units rank = rank := if_pos h

theorem units_of_not_lt {rank : Nat} (h : ¬ rank < 2 ^ 52) :
    units rank = (2 ^ 52 + rank % 2 ^ 52) * 2 ^ (rank / 2 ^ 52 - 1) := if_neg h

/-- The number nearest to a quotient depends on the quotient alone. -/
theorem nearest_scale {k : Nat} (hk : 0 < k) (negative : Bool) (num den : Nat) :
    nearest negative (k * num) (k * den) = nearest negative num den := by
  simp only [nearest, Nat.mul_assoc, Nat.mul_div_mul_left _ _ hk, roundHalfEven_scale hk]

/-- The place of a magnitude among the powers of two, and the magnitude in steps of that place, give
    its rank. -/
theorem rank_of_units (rank : Nat) :
    ((units rank).log2 - 52) * 2 ^ 52 + roundHalfEven (units rank) (2 ^ ((units rank).log2 - 52))
      = rank := by
  by_cases hsub : rank < 2 ^ 52
  · -- a subnormal number has no bit to be rounded away
    have hunits := units_of_lt hsub
    have hlog : rank.log2 - 52 = 0 := by
      by_cases h0 : rank = 0
      · rw [h0]; rfl
      · have hlt := (Nat.log2_lt h0).2 hsub
        omega
    rw [hunits, hlog, Nat.zero_mul, Nat.zero_add]
    have hround := roundHalfEven_mul Nat.one_pos rank
    rwa [Nat.mul_one] at hround
  · have hunits := units_of_not_lt hsub
    have hfraction : rank % 2 ^ 52 < 2 ^ 52 := Nat.mod_lt _ (by decide)
    have hlog : (units rank).log2 = 52 + (rank / 2 ^ 52 - 1) := by
      rw [hunits, Nat.log2_eq_iff]
      · constructor
        · rw [Nat.pow_add]
          exact Nat.mul_le_mul_right _ (Nat.le_add_right _ _)
        · rw [show 52 + (rank / 2 ^ 52 - 1) + 1 = 53 + (rank / 2 ^ 52 - 1) by omega, Nat.pow_add]
          exact Nat.mul_lt_mul_of_pos_right (by omega) (Nat.two_pow_pos _)
      · exact Nat.mul_ne_zero (by omega) (Nat.ne_of_gt (Nat.two_pow_pos _))
    rw [hlog, Nat.add_sub_cancel_left, hunits, roundHalfEven_mul (Nat.two_pow_pos _)]
    have hpos : 1 ≤ rank / 2 ^ 52 := (Nat.one_le_div_iff (by decide)).2 (Nat.not_lt.1 hsub)
    have hdiv := Nat.div_add_mod rank (2 ^ 52)
    omega

/-- **A magnitude rounds to its own number.** -/
theorem nearest_units {num den : Nat} (negative : Bool) (rank : Fin rankBound) (hden : 0 < den)
    (h : num * unitsPerOne = units rank * den) :
    nearest negative num den = .finite negative rank := by
  have hdiv : num * unitsPerOne / den = units rank := by
    rw [h, Nat.mul_div_cancel _ hden]
  have hround : ∀ shift, roundHalfEven (num * unitsPerOne) (den * 2 ^ shift)
      = roundHalfEven (units rank) (2 ^ shift) := by
    intro shift
    rw [h, Nat.mul_comm (units rank), roundHalfEven_scale hden]
  simp only [nearest, Nat.pow_eq, hdiv, hround, rank_of_units]
  exact dif_pos rank.isLt

end Number

/-! ## Decimals of one value -/

namespace Decimal

theorem toNumber_zero (negative : Bool) (exponent : Int) :
    toNumber ⟨negative, 0, exponent⟩ = .nearest negative 0 1 := if_pos (Or.inl rfl)

/-- **A zero at the end of the coefficient is as good as one more in the exponent.** -/
theorem toNumber_tenfold (negative : Bool) (c : Nat) (e : Int) :
    toNumber ⟨negative, 10 * c, e⟩ = toNumber ⟨negative, c, e + 1⟩ := by
  by_cases hc : c = 0
  · rw [hc, Nat.mul_zero, toNumber_zero, toNumber_zero]
  · have hmagnitude : magnitude ⟨negative, 10 * c, e⟩ = magnitude ⟨negative, c, e + 1⟩ := by
      simp only [magnitude, length_digitsOfNat_tenfold (Nat.pos_of_ne_zero hc)]
      omega
    have hzero : (10 * c = 0) = (c = 0) := propext (by omega)
    -- the two quotients differ by a factor of ten above and below, at most
    have hquotient :
        (if 0 ≤ e then Number.nearest negative (10 * c * 10 ^ e.toNat) 1
          else Number.nearest negative (10 * c) (10 ^ (-e).toNat)) =
        (if 0 ≤ e + 1 then Number.nearest negative (c * 10 ^ (e + 1).toNat) 1
          else Number.nearest negative c (10 ^ (-(e + 1)).toNat)) := by
      rcases Int.lt_trichotomy e (-1) with he | he | he
      · have hplaces : (-e).toNat = (-(e + 1)).toNat + 1 := by omega
        rw [if_neg (by omega), if_neg (by omega), hplaces, Nat.pow_succ, Nat.mul_comm _ 10,
          Number.nearest_scale (by decide)]
      · subst he
        have hscale := Number.nearest_scale (k := 10) (by decide) negative c 1
        simpa using hscale
      · have hplaces : (e + 1).toNat = e.toNat + 1 := by omega
        rw [if_pos (by omega), if_pos (by omega), hplaces, Nat.pow_succ, Nat.mul_comm 10 c,
          Nat.mul_assoc, Nat.mul_comm 10]
    simp only [toNumber, Nat.pow_eq, hmagnitude, hzero, hquotient]

/-- Any number of zeros at the end of the coefficient. -/
theorem toNumber_mul_pow (negative : Bool) (c k : Nat) (e : Int) :
    toNumber ⟨negative, c * 10 ^ k, e⟩ = toNumber ⟨negative, c, e + k⟩ := by
  induction k generalizing e with
  | zero => simp
  | succ k ih =>
    rw [Nat.pow_succ, ← Nat.mul_assoc, Nat.mul_comm _ 10, toNumber_tenfold, ih]
    congr 2
    omega

theorem toNumber_trimmed (d : Decimal) : d.trimmed.toNumber = d.toNumber := by
  fun_induction trimmed d with
  | case1 d hc =>
    obtain ⟨negative, c, e⟩ := d
    cases hc
    rw [toNumber_zero, toNumber_zero]
  | case2 d hc hten ih =>
    obtain ⟨negative, c, e⟩ := d
    rw [ih, ← toNumber_tenfold, Nat.mul_div_cancel' (Nat.dvd_of_mod_eq_zero hten)]
  | case3 d hc hten => rfl

end Decimal

namespace Number

theorem units_pos {rank : Nat} (h : rank ≠ 0) : 0 < units rank := by
  by_cases hsub : rank < 2 ^ 52
  · rw [units_of_lt hsub]
    exact Nat.pos_of_ne_zero h
  · rw [units_of_not_lt hsub]
    exact Nat.mul_pos (by omega) (Nat.two_pow_pos _)

/-- All magnitudes are below the one that the rank `rankBound` would have, which is `2 ^ 1024`. -/
theorem units_lt (rank : Fin rankBound) : units rank < 2 ^ 53 * 2 ^ 2045 := by
  have hrank : rank.val < 2047 * 2 ^ 52 := rank.isLt
  by_cases hsub : rank.val < 2 ^ 52
  · rw [units_of_lt hsub]
    apply Nat.lt_of_lt_of_le (Nat.lt_trans hsub (show 2 ^ 52 < 2 ^ 53 by decide))
    apply Nat.le_mul_of_pos_right
    apply Nat.two_pow_pos
  · rw [units_of_not_lt hsub]
    have hfraction : 2 ^ 52 + rank.val % 2 ^ 52 < 2 ^ 53 := by omega
    have hexponent : rank.val / 2 ^ 52 - 1 ≤ 2045 := by omega
    exact Nat.mul_lt_mul_of_lt_of_le hfraction (Nat.pow_le_pow_right (by decide) hexponent)
      (Nat.two_pow_pos _)

theorem coefficient_exact (negative : Bool) (rank : Fin rankBound) :
    (exact negative rank).coefficient = units rank * 5 ^ 1074 := by
  rw [exact, Nat.pow_eq]

/-- The exact value is read without leaving the range in which powers of ten are computed. -/
theorem magnitude_exact (negative : Bool) {rank : Fin rankBound} (h : rank.val ≠ 0) :
    -400 ≤ (exact negative rank).magnitude ∧ (exact negative rank).magnitude ≤ 400 := by
  have hlow : ¬ (digitsOfNat (units rank * 5 ^ 1074)).length ≤ 750 := by
    rw [length_digitsOfNat_le_iff (by decide)]
    have hfive : (10 : Nat) ^ 750 ≤ 5 ^ 1074 := by decide +kernel
    have hmul := Nat.mul_le_mul_right (5 ^ 1074) (units_pos h)
    omega
  have hhigh : (digitsOfNat (units rank * 5 ^ 1074)).length ≤ 1400 := by
    rw [length_digitsOfNat_le_iff (by decide)]
    have hbound : (2 : Nat) ^ 53 * 2 ^ 2045 * 5 ^ 1074 ≤ 10 ^ 1400 := by decide +kernel
    exact Nat.lt_of_lt_of_le (Nat.mul_lt_mul_of_pos_right (units_lt rank) (by decide +kernel)) hbound
  have hmagnitude : (exact negative rank).magnitude
      = ((digitsOfNat (units rank * 5 ^ 1074)).length : Int) + -1074 := by
    rw [Decimal.magnitude, coefficient_exact, exact]
  rw [hmagnitude]
  omega

/-- The exact value of a number reads as it. -/
theorem toNumber_exact (negative : Bool) {rank : Fin rankBound} (h : rank.val ≠ 0) :
    (exact negative rank).toNumber = .finite negative rank := by
  obtain ⟨hlow, hhigh⟩ := magnitude_exact negative h
  have hc : (exact negative rank).coefficient ≠ 0 :=
    Nat.mul_ne_zero (Nat.ne_of_gt (units_pos h)) (by decide +kernel)
  rw [Decimal.toNumber, if_neg (not_or.2 ⟨hc, Int.not_lt.2 hlow⟩), if_neg (Int.not_lt.2 hhigh),
    if_neg (by show ¬ (0 : Int) ≤ -1074; decide)]
  refine nearest_units negative rank (Nat.pow_pos (by decide)) ?_
  have hplaces : (-(exact negative rank).exponent).toNat = 1074 := rfl
  have hten : ∀ k : Nat, Nat.pow 10 k = 5 ^ k * 2 ^ k := Nat.mul_pow 5 2
  rw [hplaces, hten, ← Nat.mul_assoc, coefficient_exact, unitsPerOne, Nat.pow_eq]

/-- A decimal of a grid has been read. -/
theorem toNumber_of_onGrid? {negative : Bool} {rank : Fin rankBound} {exponent : Int} {d : Decimal}
    (h : onGrid? negative rank exponent = some d) : d.toNumber = .finite negative rank := by
  unfold onGrid? at h
  dsimp only at h
  split at h
  · next hlow hhigh =>
    cases h
    split
    · exact of_decide_eq_true hhigh
    · exact of_decide_eq_true hlow
  · next hlow _ =>
    cases h
    exact of_decide_eq_true hlow
  · next _ hhigh =>
    cases h
    exact of_decide_eq_true hhigh
  · cases h

/-- **The decimal written for a number reads as that number.** -/
theorem toNumber_shortest (negative : Bool) (rank : Fin rankBound) :
    (shortest negative rank).toNumber = .finite negative rank := by
  rw [shortest]
  by_cases h : rank.val = 0
  · rw [if_pos h, Decimal.toNumber_zero]
    exact nearest_units negative rank Nat.one_pos (by rw [h, Nat.zero_mul]; rfl)
  · rw [if_neg h, Decimal.toNumber_trimmed]
    cases hfound : (List.range 17).findSome? fun i =>
        onGrid? negative rank (decimalExponent (units rank) unitsPerOne - (i + 1 : Nat)) with
    | none => exact toNumber_exact negative h
    | some d =>
      obtain ⟨i, -, hgrid⟩ := List.exists_of_findSome?_eq_some hfound
      exact toNumber_of_onGrid? hgrid

end Number

end GraphWire
