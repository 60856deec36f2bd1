import Mathlib

/-!
# Fixed-point values and identifiers

`Price` and `Quantity` of `price.rs` and `quantity.rs`: a raw fixed-point integer and the number of
decimals it is displayed with. Values are equal, and ordered, **by their raw integer only**.

The width of the raw integers depends on the `high-precision` and `defi` features of the crate;
`Build` is that choice, and everything below is for both settings of both. Floats (`as_f64`) are
rationals and their arithmetic is exact.
-/

namespace Nautilus

/-- The cargo features the fixed-point types depend on; `defi` enables `high-precision`. -/
class Build where
  highPrecision : Bool
  defi : Bool
  highPrecision_of_defi : defi = true → highPrecision = true

/-- The default features: 64-bit raw values, nine decimals. -/
abbrev Build.standard : Build := ⟨false, false, id⟩

/-- The `high-precision` feature: 128-bit raw values, sixteen decimals. -/
abbrev Build.high : Build := ⟨true, false, fun _ => rfl⟩

/-- What a fallible method leaves behind: the state and its `Result`; `none` is a
panic. -/
abbrev Outcome (ε σ : Type) := Option (σ × Except ε Unit)

/-! ## Constants -/

section Constants

variable [Build]

/-- `fixed.rs:86, 90`. -/
def fixedPrecision : Nat := if Build.highPrecision then 16 else 9

/-- `QuantityRaw::MAX`: `u128::MAX` or `u64::MAX`. -/
def quantityRawTypeMax : Nat := if Build.highPrecision then 2 ^ 128 - 1 else 2 ^ 64 - 1

/-- `QUANTITY_UNDEF`, the sentinel for an unset quantity (`quantity.rs:89`). -/
def quantityUndef : Nat := quantityRawTypeMax

/-- `quantity.rs:86`: the product `QUANTITY_MAX * FIXED_SCALAR` as `f64` rounds it. -/
def quantityRawMax : Nat :=
  if Build.highPrecision then 340282366920929970038656466944 else 18446744072999999488

/-- `fixed.rs:194`: `WEI_PRECISION` decimals with the `defi` feature, `FIXED_PRECISION` without. -/
def checkFixedPrecision (precision : Nat) : Bool :=
  if Build.defi then precision ≤ 18 else precision ≤ fixedPrecision

/-- The bound `MAX_FLOAT_PRECISION` on the decimals of a value converted from or to a float, which
only `defi` builds check (`fixed.rs:185`). -/
def checkFloatPrecision (precision : Nat) : Bool := !Build.defi || precision ≤ 16

end Constants

/-! ## Prices -/

/-- `price.rs`. -/
structure Price where
  raw : Int
  precision : Nat
deriving DecidableEq

/-- `PartialEq for Price`: the raw values decide. -/
def Price.eq (a b : Price) : Bool := a.raw == b.raw

/-- `price.rs:414`; `none` where its assertion fails. -/
def Price.asF64 [Build] (p : Price) : Option ℚ :=
  if checkFloatPrecision p.precision then some (p.raw / 10 ^ fixedPrecision) else none

@[simp] theorem Price.eq_iff {a b : Price} : a.eq b = true ↔ a.raw = b.raw := beq_iff_eq

/-! ## Quantities -/

/-- `quantity.rs`. -/
structure Quantity where
  raw : Nat
  precision : Nat
deriving DecidableEq

variable {q : Quantity}

namespace Quantity

/-- `PartialOrd for Quantity`, `<`: the raw values decide. -/
def lt (a b : Quantity) : Bool := a.raw < b.raw

theorem lt_iff {a b : Quantity} : a.lt b = true ↔ a.raw < b.raw := decide_eq_true_iff

def isZero (q : Quantity) : Bool := q.raw == 0

/-- `saturating_sub`: clamped at zero, at the larger precision. -/
def saturatingSub (a b : Quantity) : Quantity :=
  ⟨a.raw - b.raw, max a.precision b.precision⟩

@[simp] theorem saturatingSub_raw (a b : Quantity) : (a.saturatingSub b).raw = a.raw - b.raw := rfl

section

variable [Build]

/-- `quantity.rs:367`: above zero and not the sentinel. -/
def isPositive (q : Quantity) : Bool := q.raw != quantityUndef && q.raw > 0

/-- `quantity.rs:227`; `none` where an assertion fails. -/
def fromRaw (raw precision : Nat) : Option Quantity :=
  if (raw = quantityUndef ∨ raw ≤ quantityRawMax) ∧ (raw = quantityUndef → precision = 0) ∧
      checkFixedPrecision precision then
    some ⟨raw, precision⟩
  else
    none

theorem isPositive_iff : q.isPositive = true ↔ q.raw ≠ quantityUndef ∧ 0 < q.raw := by
  simp [isPositive]

theorem raw_ne_zero_of_isPositive (h : q.isPositive = true) : q.raw ≠ 0 :=
  Nat.ne_of_gt (isPositive_iff.mp h).2

/-- `quantity.rs:348`; panics on a precision out of bounds. -/
def zero (precision : Nat) : Option Quantity :=
  if checkFixedPrecision precision && checkFloatPrecision precision then
    some ⟨0, precision⟩
  else
    none

/-- `Sub for Quantity` (`quantity.rs:669`); panics on underflow. -/
def sub (a b : Quantity) : Option Quantity :=
  if b.raw ≤ a.raw then some ⟨a.raw - b.raw, max a.precision b.precision⟩ else none

/-- `quantity.rs:378`; `none` where its assertion fails. -/
def asF64 (q : Quantity) : Option ℚ :=
  if checkFloatPrecision q.precision then some (q.raw / 10 ^ fixedPrecision) else none

def saturatingAdd (a b : Nat) : Nat := min (a + b) quantityRawTypeMax

theorem zero_eq_some {precision : Nat} (h : zero precision = some q) : q = ⟨0, precision⟩ := by
  unfold zero at h
  split at h
  · exact (Option.some.inj h).symm
  · nomatch h

theorem saturatingAdd_of_le {a b : Nat} (h : a + b ≤ quantityRawTypeMax) :
    saturatingAdd a b = a + b :=
  Nat.min_eq_left h

theorem fromRaw_eq_some {raw precision : Nat}
    (h : fromRaw raw precision = some q) : q = ⟨raw, precision⟩ := by
  unfold fromRaw at h
  split at h
  · exact (Option.some.inj h).symm
  · nomatch h

end

end Quantity

/-- `core/correctness.rs`: the variants that orders and fixed-point values return. A formatted
quantity is kept as it is. -/
inductive CorrectnessError where
  | predicateViolation (message : String)
  | notPositive (param : String) (value : Quantity) (typeName : String)
deriving DecidableEq

/-! ## Money -/

/-- `currency.rs`; the code decides equality. -/
structure Currency where
  code : String
  precision : Nat
deriving DecidableEq

/-- `PartialEq for Currency`. -/
def Currency.eq (a b : Currency) : Bool := a.code == b.code

/-- `money.rs`: a raw fixed-point amount of a currency. -/
structure Money where
  raw : Int
  currency : Currency
deriving DecidableEq

/-! ## Identifiers

Interned strings of the source; only their equality matters. -/

structure InstrumentId where
  value : String
deriving DecidableEq

structure ClientOrderId where
  value : String
deriving DecidableEq

structure StrategyId where
  value : String
deriving DecidableEq

structure AccountId where
  value : String
deriving DecidableEq

structure VenueOrderId where
  value : String
deriving DecidableEq

structure TradeId where
  value : String
deriving DecidableEq

structure PositionId where
  value : String
deriving DecidableEq

/-- Nanoseconds since the epoch, an unsigned 64-bit number. -/
abbrev UnixNanos := Nat

/-- The trait of data with an initialisation time. -/
class HasTsInit (R : Type) where
  tsInit : R → Nat

export HasTsInit (tsInit)

end Nautilus
