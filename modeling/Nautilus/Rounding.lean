import Nautilus.Reconcile.Decimals

/-!
# Rounding of fixed-point values

`bankers_round` divides with truncation and corrects the quotient by the sign of the mantissa. A
product of quantities is rounded down.
-/

namespace Nautilus

/-- The rounding of a quotient by its floor and the remainder above it. -/
theorem roundHalfEven_div {m d : Int} (hd : 0 < d) : roundHalfEven (m / d) =
    if 2 * (m % d) < d then m / d else if d < 2 * (m % d) then m / d + 1
    else if m / d % 2 = 0 then m / d else m / d + 1 := by
  have hpos : (0 : ℚ) < d := Int.cast_pos.mpr hd
  have hfloor : ⌊(m / d : ℚ)⌋ = m / d := by
    rw [← Int.toNat_of_nonneg hd.le]
    exact Rat.floor_intCast_div_natCast ..
  have hfrac : (m / d : ℚ) - (m / d : Int) = (m % d : Int) / d := by
    rw [Int.emod_def]
    push_cast
    field_simp
  have hlt : ((m % d : Int) / d : ℚ) < 1 / 2 ↔ 2 * (m % d) < d := by
    rw [div_lt_div_iff₀ hpos two_pos, mul_comm, one_mul]
    exact_mod_cast Iff.rfl
  have hgt : (1 / 2 : ℚ) < (m % d : Int) / d ↔ d < 2 * (m % d) := by
    rw [div_lt_div_iff₀ two_pos hpos, mul_comm _ (2 : ℚ), one_mul]
    exact_mod_cast Iff.rfl
  simp only [roundHalfEven, hfloor, hfrac, hlt, hgt]

/-- The truncated quotient, corrected past the half, or at it where the quotient is odd. -/
theorem roundHalfEven_tdiv {m half : Int} (hhalf : 0 < half) :
    (if half < (m.tmod (2 * half)).natAbs ∨
        ((m.tmod (2 * half)).natAbs : Int) = half ∧ (m.tdiv (2 * half)).tmod 2 ≠ 0 then
      m.tdiv (2 * half) + m.sign else m.tdiv (2 * half)) =
    roundHalfEven (m / (2 * half : Int)) := by
  have hpos : 0 < 2 * half := by omega
  rw [roundHalfEven_div hpos]
  -- the signs decide how the truncated quotient lies to the floor
  rcases lt_trichotomy m 0 with hm | rfl | hm
  · obtain ⟨a, ha, rfl⟩ : ∃ a, 0 < a ∧ m = -a := ⟨-m, by omega, by omega⟩
    have hnonneg := Int.emod_nonneg a hpos.ne'
    have hlt := Int.emod_lt_of_pos a hpos
    rw [Int.neg_tdiv, Int.neg_tmod, Int.neg_ediv, Int.neg_emod, Int.tdiv_eq_ediv_of_nonneg ha.le,
      Int.tmod_eq_emod_of_nonneg ha.le, Int.sign_eq_neg_one_of_neg hm, Int.sign_eq_one_of_pos hpos,
      Int.natAbs_neg, Int.natAbs_of_nonneg hnonneg]
    simp only [ne_eq, ← Int.dvd_iff_tmod_eq_zero, Int.dvd_iff_emod_eq_zero]
    generalize a % (2 * half) = r at *
    generalize a / (2 * half) = q at *
    split_ifs <;> omega
  · simp [hpos]
  · have hnonneg := Int.emod_nonneg m hpos.ne'
    rw [Int.tdiv_eq_ediv_of_nonneg hm.le, Int.tmod_eq_emod_of_nonneg hm.le,
      Int.sign_eq_one_of_pos hm, Int.natAbs_of_nonneg hnonneg]
    simp only [ne_eq, ← Int.dvd_iff_tmod_eq_zero, Int.dvd_iff_emod_eq_zero]
    generalize m % (2 * half) = r at *
    generalize m / (2 * half) = q at *
    split_ifs <;> omega

theorem roundHalfEven_intCast (n : Int) : roundHalfEven n = n := by
  simp [roundHalfEven]

/-- **`bankers_round` is half-to-even rounding**, also where it does not divide. -/
theorem bankersRound_eq {mantissa : Int} (h : i128InRange mantissa = true) (excess : Nat) :
    bankersRound mantissa excess = roundHalfEven (mantissa / 10 ^ excess) := by
  unfold bankersRound
  split
  · subst excess
    rw [pow_zero, div_one, roundHalfEven_intCast]
  obtain ⟨k, rfl⟩ := Nat.exists_eq_succ_of_ne_zero ‹_›
  have hsplit : (10 : Int) ^ (k + 1) = 2 * (5 * 10 ^ k) := by ring
  have hround := @roundHalfEven_tdiv mantissa (5 * 10 ^ k) (by positivity)
  have hcast : ((2 * (5 * 10 ^ k) : Int) : ℚ) = 10 ^ (k + 1) := by exact_mod_cast hsplit.symm
  rw [hcast] at hround
  rw [← hround]
  split
  · -- the mantissa is less than half of the power of ten that is left out
    have hpow : (10 : Int) ^ 38 ≤ 10 ^ k := pow_le_pow_right₀ (by norm_num) (by omega)
    simp only [i128InRange, Bool.and_eq_true, decide_eq_true_eq] at h
    generalize (10 : Int) ^ k = n at *
    have hzero : mantissa.tdiv (2 * (5 * n)) = 0 := by
      rcases Int.le_total 0 mantissa with hm | hm
      · exact Int.tdiv_eq_zero_of_lt hm (by omega)
      · rw [← neg_neg mantissa, Int.neg_tdiv, Int.tdiv_eq_zero_of_lt (by omega) (by omega), neg_zero]
    rw [Int.tmod_def, hzero, mul_zero, sub_zero, if_neg (by omega)]
  · simp only [hsplit, Int.mul_tdiv_cancel_left _ two_ne_zero]

section

variable [Build]

/-- The scaled mantissa of the conversion is the rounded value. -/
theorem scaled_eq_decimalToRaw {mantissa : Int} (h : i128InRange mantissa = true) (exponent : Int)
    (precision : Nat) :
    (if (precision : Int) < -exponent then bankersRound mantissa (-exponent - precision).toNat
      else mantissa) *
        10 ^ ((max fixedPrecision precision : Int) - min (-exponent) precision).toNat =
      decimalToRaw (mantissa * 10 ^ exponent) precision := by
  unfold decimalToRaw
  split
  · rw [bankersRound_eq h, min_eq_right (by omega), div_eq_mul_inv, ← zpow_natCast, ← zpow_neg,
      mul_assoc, ← zpow_natCast (10 : ℚ) precision, ← zpow_add₀ (by norm_num)]
    congr 3
    · congr 1
      omega
    · omega
  · -- no digit is rounded away
    obtain ⟨n, hn⟩ : ∃ n : Nat, exponent + precision = n := ⟨_, (Int.toNat_of_nonneg (by omega)).symm⟩
    have hvalue : (mantissa : ℚ) * 10 ^ exponent * 10 ^ precision = (mantissa * 10 ^ n : Int) := by
      rw [mul_assoc, ← zpow_natCast, ← zpow_add₀ (by norm_num), hn]
      push_cast
      rfl
    rw [hvalue, roundHalfEven_intCast, mul_assoc, ← pow_add, min_eq_left (by omega)]
    congr 2
    omega

/-- **The conversion to fixed point is exact**: `bankers_round` rounds half to even, and the result
is the rounded value at the type's scale iff the power of ten and the product fit. -/
theorem mantissaExponent_exact :
    (∀ mantissa excess, i128InRange mantissa = true →
      bankersRound mantissa excess = roundHalfEven (mantissa / 10 ^ excess)) ∧
    ∀ mantissa exponent precision, i128InRange mantissa = true →
      checkFixedPrecision precision = true → ∀ raw,
        (mantissaExponentToFixedI128 mantissa exponent precision = .ok raw ↔
          raw = decimalToRaw (mantissa * 10 ^ exponent) precision ∧
          (max fixedPrecision precision : Int) - min (-exponent) precision ≤ 38 ∧
          i128InRange raw = true) := by
  refine ⟨fun mantissa excess h => bankersRound_eq h excess, ?_⟩
  intro mantissa exponent precision h hprecision raw
  have hscale : 0 ≤ (max fixedPrecision precision : Int) - min (-exponent) precision := by omega
  unfold mantissaExponentToFixedI128
  simp only [hprecision, scaled_eq_decimalToRaw h, if_pos hscale]
  constructor
  · intro hok
    split at hok
    · nomatch hok
    split at hok
    · nomatch hok
    split at hok
    · cases hok
      exact ⟨rfl, by omega, ‹_›⟩
    · nomatch hok
  · rintro ⟨rfl, _, hfits⟩
    rw [if_neg (by simp), if_neg (by omega), if_pos hfits]

end

/-! ## Products -/

namespace Quantity

section

variable [Build]

/-- `Mul for Quantity` (`quantity.rs:686`); panics on overflow. -/
def mul (a b : Quantity) : Option Quantity :=
  if a.raw * b.raw ≤ quantityRawTypeMax then
    some ⟨a.raw * b.raw / 10 ^ fixedPrecision, max a.precision b.precision⟩
  else
    none

/-- **The product of two quantities is the exact one, rounded down, iff** the product of the raw
values, at twice the scale, fits the raw type. -/
theorem mul_floors_iff (a b : Quantity) :
    (∃ c, a.mul b = some c ∧ c.raw = a.raw * b.raw / 10 ^ fixedPrecision) ↔
      a.raw * b.raw ≤ quantityRawTypeMax := by
  unfold mul
  split <;> simp_all

end

/-- The raw values of 5.0 * 5.0, and of 2000.0 * 2000.0 in high precision, do not fit; the products
are far below the maximum. -/
theorem mul_overflows :
    (let five : Quantity := ⟨5 * 10 ^ 9, 0⟩
     @mul Build.standard five five = none ∧
      25 * 10 ^ @fixedPrecision Build.standard ≤ @quantityRawMax Build.standard) ∧
    (let many : Quantity := ⟨2000 * 10 ^ 16, 0⟩
     @mul Build.high many many = none ∧
      4000000 * 10 ^ @fixedPrecision Build.high ≤ @quantityRawMax Build.high) := by
  decide

end Quantity

end Nautilus
