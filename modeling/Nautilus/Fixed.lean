import Nautilus.Lib.Grid
import Nautilus.Types

/-!
# Fixed-point arithmetic

The conversions between fixed-point values and floats of `fixed.rs`, and the arithmetic of
`Quantity` and `Money` that positions are kept with. A float is a rational, so `Quantity::new` only
rounds to `precision` decimals: to zero as `Quantity.new_isZero` says, exactly as
`Quantity.new_asF64_iff` says.
-/

namespace Nautilus

open Lib

/-- `core/src/correctness.rs:610`, with its tolerance. -/
def checkInRangeInclusiveF64 (value l r : ℚ) : Bool :=
  l - 1 / 10 ^ 15 ≤ value && value ≤ r + 1 / 10 ^ 15

section

variable [Build]

/-- `quantity.rs:97, 101`. -/
def quantityMax : ℚ := if Build.highPrecision then 34028236692093 else 18446744073

/-- `money.rs:121, 125`. -/
def moneyMax : ℚ := if Build.highPrecision then 17014118346046 else 9223372036

def moneyRawInRange (raw : Int) : Bool :=
  if Build.highPrecision then -2 ^ 127 ≤ raw && raw < 2 ^ 127 else -2 ^ 63 ≤ raw && raw < 2 ^ 63

/-- `f64_to_fixed_*` (`fixed.rs:661`): rounded at `precision` decimals, scaled to `FIXED_PRECISION`.
The callers have checked the range, so nothing overflows. -/
def f64ToFixed (value : ℚ) (precision : Nat) : Int :=
  roundAway (value * 10 ^ precision) * 10 ^ (fixedPrecision - precision)

/-- A precision that passes both checks is not beyond the fixed one. -/
theorem le_fixedPrecision {precision : Nat} (hfloat : checkFloatPrecision precision = true)
    (hfixed : checkFixedPrecision precision = true) : precision ≤ fixedPrecision := by
  unfold checkFixedPrecision at hfixed
  unfold checkFloatPrecision at hfloat
  cases hdefi : Build.defi with
  | false =>
    rw [hdefi] at hfixed
    exact of_decide_eq_true hfixed
  | true =>
    rw [hdefi] at hfloat
    have h16 : precision ≤ 16 := of_decide_eq_true hfloat
    unfold fixedPrecision
    rw [Build.highPrecision_of_defi hdefi]
    exact h16

namespace Quantity

variable {value : ℚ} {precision : Nat} {q : Quantity}

/-- `quantity.rs:151`; `none` where a check fails. A negative float in range is cast to zero. -/
def new (value : ℚ) (precision : Nat) : Option Quantity :=
  if checkInRangeInclusiveF64 value 0 quantityMax && checkFloatPrecision precision &&
      checkFixedPrecision precision then
    some ⟨(f64ToFixed value precision).toNat, precision⟩
  else
    none

/-- `Add for Quantity` (`quantity.rs:656`); panics on overflow. -/
def add (a b : Quantity) : Option Quantity :=
  if a.raw + b.raw ≤ quantityRawTypeMax then
    some ⟨a.raw + b.raw, max a.precision b.precision⟩
  else
    none

theorem raw_of_add_eq_some {a b c : Quantity} (h : a.add b = some c) : c.raw = a.raw + b.raw := by
  unfold add at h
  split at h
  · cases h
    rfl
  · nomatch h

theorem new_eq_some (h : new value precision = some q) :
    q = ⟨(f64ToFixed value precision).toNat, precision⟩ ∧
      checkFloatPrecision precision = true ∧ checkFixedPrecision precision = true := by
  unfold new at h
  split at h
  · rename_i hchecks
    rw [Bool.and_eq_true, Bool.and_eq_true] at hchecks
    exact ⟨(Option.some.inj h).symm, hchecks.1.2, hchecks.2⟩
  · nomatch h

theorem new_zero (precision : Nat) : new 0 precision = zero precision := by
  have hrange : checkInRangeInclusiveF64 0 0 quantityMax = true := by
    unfold checkInRangeInclusiveF64 quantityMax
    split <;> decide +kernel
  have hraw : (f64ToFixed 0 precision).toNat = 0 := by
    rw [f64ToFixed, zero_mul, roundAway_zero, zero_mul]
    rfl
  unfold new zero
  rw [hrange, hraw, Bool.true_and, Bool.and_comm]

/-- A quantity is zero iff the value is below half of the last decimal. -/
theorem new_isZero (hv : 0 ≤ value) (h : new value precision = some q) :
    q.isZero = true ↔ value * 10 ^ precision < 1 / 2 := by
  obtain ⟨rfl, -, -⟩ := new_eq_some h
  have hx : 0 ≤ value * 10 ^ precision := by positivity
  have hpow : (0 : Int) < 10 ^ (fixedPrecision - precision) := by positivity
  have hround : 0 ≤ roundAway (value * 10 ^ precision) := roundAway_nonneg hx
  rw [← roundAway_eq_zero_iff hx]
  unfold isZero f64ToFixed
  rw [beq_iff_eq, Int.toNat_eq_zero]
  constructor
  · intro hle
    have hprod := Int.mul_nonneg hround hpow.le
    exact (Int.mul_eq_zero.mp (Int.le_antisymm hle hprod)).resolve_right hpow.ne'
  · intro hzero
    rw [hzero, Int.zero_mul]

/-- A quantity is its value iff the value has no more than `precision` decimals. -/
theorem new_asF64_iff (hv : 0 ≤ value) (h : new value precision = some q) :
    q.asF64 = some value ↔ OnGrid (10 ^ precision) value := by
  obtain ⟨rfl, hfloat, hfixed⟩ := new_eq_some h
  have hx : 0 ≤ value * 10 ^ precision := by positivity
  have hle := le_fixedPrecision hfloat hfixed
  have hnat : (((f64ToFixed value precision).toNat : ℕ) : ℚ) =
      roundAway (value * 10 ^ precision) * 10 ^ (fixedPrecision - precision) := by
    have hnonneg : 0 ≤ f64ToFixed value precision :=
      Int.mul_nonneg (roundAway_nonneg hx) (by positivity)
    rw [← Int.cast_natCast, Int.toNat_of_nonneg hnonneg]
    unfold f64ToFixed
    push_cast
    rfl
  have hscale : (10 : ℚ) ^ fixedPrecision = 10 ^ (fixedPrecision - precision) * 10 ^ precision := by
    rw [← pow_add, Nat.sub_add_cancel hle]
  have hval : (((f64ToFixed value precision).toNat : ℕ) : ℚ) / 10 ^ fixedPrecision = value ↔
      (roundAway (value * 10 ^ precision) : ℚ) = value * 10 ^ precision := by
    rw [hnat, hscale, mul_comm, mul_div_mul_left _ _ (by positivity), div_eq_iff (by positivity)]
  unfold asF64
  rw [if_pos hfloat, Option.some_inj, hval, roundAway_cast_eq_iff hx]
  rfl

end Quantity

namespace Money

/-- `money.rs:176`; `none` where a check fails. -/
def new (amount : ℚ) (currency : Currency) : Option Money :=
  if checkInRangeInclusiveF64 amount (-moneyMax) moneyMax &&
      checkFloatPrecision currency.precision && checkFixedPrecision currency.precision then
    some ⟨f64ToFixed amount currency.precision, currency⟩
  else
    none

/-- `Add for Money` (`money.rs:586`); panics on two currencies and on overflow. -/
def add (a b : Money) : Option Money :=
  if a.currency.eq b.currency && moneyRawInRange (a.raw + b.raw) then
    some ⟨a.raw + b.raw, a.currency⟩
  else
    none

/-- `money.rs:392`; `none` where its assertion fails. -/
def asF64 (m : Money) : Option ℚ :=
  if checkFloatPrecision m.currency.precision then some (m.raw / 10 ^ fixedPrecision) else none

/-- `money.rs:420`: the decimals beyond the currency's are cut off. -/
def asDecimal (m : Money) : ℚ :=
  m.raw.tdiv (10 ^ (fixedPrecision - m.currency.precision)) / 10 ^ m.currency.precision

end Money

end

end Nautilus
