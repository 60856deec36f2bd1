import Nautilus.Decimal

/-!
# Decimals as exact rationals

Decimals are rationals here and their arithmetic is exact; what remains of `Decimal` is the rounding
to an instrument's precision when a price or a quantity is made from one (`from_decimal_dp`, half to
even).
-/

namespace Nautilus

/-- Rounding to the nearest integer, ties to the even one. -/
def roundHalfEven (x : ℚ) : ℤ :=
  let fraction := x - ⌊x⌋
  if fraction < 1 / 2 then ⌊x⌋
  else if 1 / 2 < fraction then ⌊x⌋ + 1
  else if ⌊x⌋ % 2 = 0 then ⌊x⌋ else ⌊x⌋ + 1

section

variable [Build]

/-- The scaling of `mantissa_exponent_to_fixed_i128` (`scaled_eq_decimalToRaw`): `precision` decimals
are kept. -/
def decimalToRaw (x : ℚ) (precision : Nat) : Int :=
  roundHalfEven (x * 10 ^ precision) * 10 ^ (max fixedPrecision precision - precision)

/-- `Price::from_decimal_dp`; `none` is its error. -/
def Price.ofDecimal (x : ℚ) (precision : Nat) : Option Price :=
  let raw := decimalToRaw x precision
  if checkFixedPrecision precision && (priceRawMin ≤ raw && raw ≤ priceRawMax) then
    some ⟨raw, precision⟩
  else
    none

/-- `Quantity::from_decimal_dp`; `none` is its error. -/
def Quantity.ofDecimal (x : ℚ) (precision : Nat) : Option Quantity :=
  let raw := decimalToRaw x precision
  if 0 ≤ x && checkFixedPrecision precision && raw ≤ quantityRawMax then
    some ⟨raw.toNat, precision⟩
  else
    none

/-- `Price::as_decimal`, without its panic. -/
def Price.toDecimal (p : Price) : ℚ := rescaledRaw p.raw p.precision / 10 ^ p.precision

/-- `Quantity::as_decimal`, without its panic. -/
def Quantity.toDecimal (q : Quantity) : ℚ :=
  (q.raw / 10 ^ (fixedPrecision - q.precision) : Nat) / 10 ^ q.precision

end

end Nautilus
