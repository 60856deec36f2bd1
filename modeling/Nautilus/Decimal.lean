import Nautilus.Fixed

/-!
# Decimals

`as_decimal`, `from_decimal_dp` and `Display` of `Price`, `Quantity` and `Money`, with the integer
conversion they share (`fixed.rs`). The `Decimal` of `rust_decimal` is a 96-bit mantissa with a
scale of at most 28, beyond which `Decimal.fromI128WithScale` panics; its text is a parameter. The
raw range of the three types was not derived from the 96 bits.
-/

namespace Nautilus

open Bool

variable {q : Quantity}

/-! ## The decimal type -/

/-- `rust_decimal::Decimal`. -/
structure Decimal where
  mantissa : Int
  scale : Nat
  mantissa_lt : mantissa.natAbs < 2 ^ 96
  scale_le : scale ≤ 28

variable {d : Decimal}

namespace Decimal

/-- `Decimal::from_i128_with_scale`; panics when the number does not fit. -/
def fromI128WithScale (num : Int) (scale : Nat) : Option Decimal :=
  if h : num.natAbs < 2 ^ 96 ∧ scale ≤ 28 then some ⟨num, scale, h.1, h.2⟩ else none

theorem fromI128WithScale_eq_some {num : Int} {scale : Nat}
    (h : fromI128WithScale num scale = some d) : d.mantissa = num ∧ d.scale = scale := by
  unfold fromI128WithScale at h
  split at h
  · cases h
    exact ⟨rfl, rfl⟩
  · nomatch h

theorem fromI128WithScale_isSome {num : Int} {scale : Nat} (hscale : scale ≤ 28) :
    (fromI128WithScale num scale).isSome = true ↔ num.natAbs < 2 ^ 96 := by
  unfold fromI128WithScale
  split_ifs with h
  · exact ⟨fun _ => h.1, fun _ => rfl⟩
  · exact ⟨nofun, fun hfits => absurd ⟨hfits, hscale⟩ h⟩

end Decimal

/-! ## Integer conversions -/

/-- The bounds of an `i128`. -/
def i128InRange (n : Int) : Bool := -2 ^ 127 ≤ n && n < 2 ^ 127

/-- `as i128` on an unsigned number: the top bit becomes the sign. -/
def asI128 (n : Nat) : Int := (n : Int).bmod (2 ^ 128)

theorem asI128_of_lt {n : Nat} (h : n < 2 ^ 99) : asI128 n = n := by
  unfold asI128 Int.bmod
  have hmod : (n : Int) % ((2 ^ 128 : Nat) : Int) = n := Int.emod_eq_of_lt (by omega) (by omega)
  rw [hmod, if_pos (by omega)]

/-- `fixed.rs:570`: half to even. -/
def bankersRound (mantissa : Int) (excess : Nat) : Int :=
  if excess = 0 then mantissa
  else if 39 ≤ excess then 0
  else
    let divisor : Int := 10 ^ excess
    let quotient := mantissa.tdiv divisor
    let remainder := mantissa.tmod divisor
    let half := divisor.tdiv 2
    if half < remainder.natAbs ∨ ((remainder.natAbs : Int) = half ∧ quotient.tmod 2 ≠ 0) then
      quotient + mantissa.sign
    else
      quotient

section

variable [Build]

/-- `price.rs:96`: `PRICE_MAX * FIXED_SCALAR` as the `f64` multiplication rounds it. -/
def priceRawMax : Int :=
  if Build.highPrecision then 170141183460459988838491619328 else 9223372036000000000

def priceRawMin : Int := -priceRawMax

/-- `money.rs:100`: the same product as for prices. -/
def moneyRawMax : Int := priceRawMax

def moneyRawMin : Int := -moneyRawMax

/-- The bounds of `PriceRaw`, the integer type of `MoneyRaw`. -/
def priceRawInRange (raw : Int) : Bool := moneyRawInRange raw

/-- What `check_fixed_precision` (`fixed.rs:194`) returns. -/
def fixedPrecisionError (precision : Nat) : CorrectnessError :=
  .predicateViolation <|
    if Build.defi then s!"`precision` exceeded maximum `WEI_PRECISION` (18), was {precision}"
    else
      s!"`precision` exceeded maximum `FIXED_PRECISION` ({fixedPrecision}), was {precision}"

def mantissaExponentToFixedI128 (mantissa exponent : Int) (precision : Nat) :
    Except CorrectnessError Int :=
  if !checkFixedPrecision precision then
    .error (fixedPrecisionError precision)
  else
    let targetScale : Int := max fixedPrecision precision
    let fracDigits := -exponent
    let mantissa :=
      if (precision : Int) < fracDigits then bankersRound mantissa (fracDigits - precision).toNat
      else mantissa
    let scaleAfterRounding := min fracDigits precision
    let scaleExp := targetScale - scaleAfterRounding
    if 38 < scaleExp then
      .error <| .predicateViolation
        s!"Exponent {exponent} produces scale factor 10^{scaleExp} which exceeds i128 range"
    else if 0 ≤ scaleExp then
      let scaled := mantissa * 10 ^ scaleExp.toNat
      if i128InRange scaled then .ok scaled
      else .error (.predicateViolation "Overflow when scaling mantissa to fixed precision")
    else
      .ok (mantissa.tdiv (10 ^ (-scaleExp).toNat))

/-- The scaling that the three `as_decimal` start with: the decimals beyond `precision`
are cut off. -/
def rescaledRaw (raw : Int) (precision : Nat) : Int := raw.tdiv (10 ^ (fixedPrecision - precision))

/-! ## The three types -/

def Price.asDecimal (p : Price) : Option Decimal :=
  Decimal.fromI128WithScale (rescaledRaw p.raw p.precision) p.precision

variable (text : Decimal → String) (decimal : Decimal)

def Price.fromDecimalDp (precision : Nat) : Except CorrectnessError Price := do
  let raw ← mantissaExponentToFixedI128 decimal.mantissa (-decimal.scale) precision
  if !priceRawInRange raw then
    .error <| .predicateViolation
      s!"Decimal value exceeds PriceRaw range [{priceRawMin}, {priceRawMax}]"
  else if !(priceRawMin ≤ raw && raw ≤ priceRawMax) then
    .error <| .predicateViolation
      s!"Raw value {raw} outside valid range [{priceRawMin}, {priceRawMax}] for Price"
  else
    .ok ⟨raw, precision⟩

/-- `Display for Price` (`price.rs:755`), which `Serialize` writes; `text` is that of a decimal. -/
def Price.display (p : Price) : Option String :=
  if 16 < p.precision then some (toString p.raw) else p.asDecimal.map text

def Quantity.asDecimal (q : Quantity) : Option Decimal :=
  Decimal.fromI128WithScale (asI128 (q.raw / 10 ^ (fixedPrecision - q.precision))) q.precision

def Quantity.fromDecimalDp (precision : Nat) : Except CorrectnessError Quantity :=
  if decimal.mantissa < 0 then
    let shown := text decimal
    .error <| .predicateViolation
      s!"Decimal value '{shown}' is negative, Quantity must be non-negative"
  else do
    let raw ← mantissaExponentToFixedI128 decimal.mantissa (-decimal.scale) precision
    if raw < 0 ∨ (quantityRawTypeMax : Int) < raw then
      .error <| .predicateViolation
        s!"Decimal value exceeds QuantityRaw range [0, {quantityRawMax}]"
    else if quantityRawMax < raw.toNat then
      .error <| .predicateViolation
        s!"Raw value {raw} exceeds QUANTITY_RAW_MAX={quantityRawMax} for Quantity"
    else
      .ok ⟨raw.toNat, precision⟩

/-- `Display for Quantity` (`quantity.rs:830`), which `Serialize` writes. -/
def Quantity.display (q : Quantity) : Option String :=
  if 16 < q.precision then some (toString q.raw) else q.asDecimal.map text

/-- `as_decimal` (`money.rs:420`) with its representation. -/
def Money.asDecimalRepr (m : Money) : Option Decimal :=
  Decimal.fromI128WithScale (rescaledRaw m.raw m.currency.precision) m.currency.precision

def Money.fromDecimal (currency : Currency) : Except CorrectnessError Money := do
  let raw ← mantissaExponentToFixedI128 decimal.mantissa (-decimal.scale) currency.precision
  if !moneyRawInRange raw then
    .error <| .predicateViolation
      s!"Decimal value exceeds MoneyRaw range [{moneyRawMin}, {moneyRawMax}]"
  else if !(moneyRawMin ≤ raw && raw ≤ moneyRawMax) then
    .error <| .predicateViolation
      s!"Raw value {raw} exceeded bounds [{moneyRawMin}, {moneyRawMax}] for Money"
  else
    .ok ⟨raw, currency⟩

/-- `Display for Money` (`money.rs:695`), which `Serialize` writes. -/
def Money.display (m : Money) : Option String :=
  if 16 < m.currency.precision then some (toString m.raw ++ " " ++ m.currency.code)
  else m.asDecimalRepr.map fun d => text d ++ " " ++ m.currency.code

/-! ## The round trip -/

/-- The digits of a magnitude in range fit in the 96 bits of a decimal: only sixteen decimals leave
no digit to cut off. -/
def FitsDecimal (magnitude precision : Nat) : Prop :=
  Build.highPrecision = true → precision = 16 → magnitude < 2 ^ 96

/-- A raw magnitude in the widest of the three ranges, at a precision, with no digit below
that precision. -/
structure Aligned (magnitude precision : Nat) : Prop where
  le_max : magnitude ≤ quantityRawMax
  precision_le : precision ≤ fixedPrecision
  aligned : 10 ^ (fixedPrecision - precision) ∣ magnitude

/-- A price inside the documented range, with no digit below its precision. -/
structure Price.InRange (p : Price) : Prop where
  min_le : priceRawMin ≤ p.raw
  le_max : p.raw ≤ priceRawMax
  precision_le : p.precision ≤ fixedPrecision
  aligned : (10 ^ (fixedPrecision - p.precision) : Int) ∣ p.raw

/-- A quantity inside the documented range, with no digit below its precision. -/
structure Quantity.InRange (q : Quantity) : Prop where
  le_max : q.raw ≤ quantityRawMax
  precision_le : q.precision ≤ fixedPrecision
  aligned : 10 ^ (fixedPrecision - q.precision) ∣ q.raw

/-- An amount inside the documented range, with no digit below its currency's precision. -/
structure Money.InRange (m : Money) : Prop where
  min_le : moneyRawMin ≤ m.raw
  le_max : m.raw ≤ moneyRawMax
  precision_le : m.currency.precision ≤ fixedPrecision
  aligned : (10 ^ (fixedPrecision - m.currency.precision) : Int) ∣ m.raw

/-- Displayed, converted to a decimal and converted back. -/
def Price.RoundTrips (p : Price) : Prop :=
  (p.display text).isSome = true ∧
    ∃ d, p.asDecimal = some d ∧ Price.fromDecimalDp d p.precision = .ok p

/-- Displayed, converted to a decimal and converted back. -/
def Quantity.RoundTrips (q : Quantity) : Prop :=
  (q.display text).isSome = true ∧
    ∃ d, q.asDecimal = some d ∧ Quantity.fromDecimalDp text d q.precision = .ok q

/-- Displayed, converted to a decimal and converted back. -/
def Money.RoundTrips (m : Money) : Prop :=
  (m.display text).isSome = true ∧
    ∃ d, m.asDecimalRepr = some d ∧ Money.fromDecimal d m.currency = .ok m

variable {raw : Int} {precision : Nat}

theorem fixedPrecision_le : fixedPrecision ≤ 16 := by
  unfold fixedPrecision
  split <;> omega

theorem checkFixedPrecision_of_le (h : precision ≤ fixedPrecision) :
    checkFixedPrecision precision = true := by
  have h16 := fixedPrecision_le
  unfold checkFixedPrecision
  split
  · exact decide_eq_true (by omega)
  · exact decide_eq_true h

/-- Every magnitude in range is far from the bounds of the 128-bit types. -/
theorem quantityRawMax_lt : quantityRawMax < 2 ^ 99 := by
  unfold quantityRawMax
  split <;> norm_num

theorem priceRawMax_le : priceRawMax ≤ quantityRawMax := by
  unfold priceRawMax quantityRawMax
  split <;> norm_num

theorem i128InRange_of_le (h : raw.natAbs ≤ quantityRawMax) : i128InRange raw = true := by
  have hmax := quantityRawMax_lt
  unfold i128InRange
  rw [and_eq_true, decide_eq_true_iff, decide_eq_true_iff]
  omega

theorem natAbs_rescaledRaw (raw : Int) (precision : Nat) :
    (rescaledRaw raw precision).natAbs = raw.natAbs / 10 ^ (fixedPrecision - precision) := by
  unfold rescaledRaw
  rw [Int.natAbs_tdiv, Int.natAbs_pow]
  rfl

/-- The shared conversion takes the digits of an aligned value back to the raw value. -/
theorem mantissaExponentToFixedI128_rescaledRaw (hle : precision ≤ fixedPrecision)
    (hdvd : (10 ^ (fixedPrecision - precision) : Int) ∣ raw) (hmax : raw.natAbs ≤ quantityRawMax) :
    mantissaExponentToFixedI128 (rescaledRaw raw precision) (-precision) precision = .ok raw := by
  have h16 := fixedPrecision_le
  -- as many decimals as asked for: nothing is rounded, and the scale is what was cut off
  have hscale : ((max fixedPrecision precision : Nat) : Int) - min (- -(precision : Int)) precision
      = ((fixedPrecision - precision : Nat) : Int) := by omega
  unfold mantissaExponentToFixedI128
  rw [checkFixedPrecision_of_le hle, Bool.not_true, if_neg Bool.false_ne_true]
  simp only [Int.neg_neg, Int.lt_irrefl, if_false] at hscale ⊢
  rw [← Nat.cast_max, hscale, if_neg (by omega), if_pos (by omega), Int.toNat_natCast,
    rescaledRaw, Int.tdiv_mul_cancel hdvd, if_pos (i128InRange_of_le hmax)]

/-- The digits of an aligned value fit in 96 bits iff it is not one of the large ones of
sixteen decimals. -/
theorem Aligned.fits_iff {magnitude : Nat} (h : Aligned magnitude precision) :
    magnitude / 10 ^ (fixedPrecision - precision) < 2 ^ 96 ↔ FitsDecimal magnitude precision := by
  obtain ⟨hmax, hle, -⟩ := h
  unfold FitsDecimal
  unfold quantityRawMax at hmax
  unfold fixedPrecision at hle ⊢
  cases hmode : Build.highPrecision with
  | false =>
    -- 64-bit raw values fit whatever their precision
    rw [hmode] at hmax
    have hsmall : magnitude < 2 ^ 96 := Nat.lt_of_le_of_lt hmax (by norm_num)
    exact ⟨fun _ hhigh => absurd hhigh false_ne_true,
      fun _ => Nat.lt_of_le_of_lt (Nat.div_le_self _ _) hsmall⟩
  | true =>
    rw [hmode] at hmax hle
    rw [if_pos rfl] at hmax hle ⊢
    by_cases h16 : precision = 16
    · subst h16
      rw [Nat.sub_self, pow_zero, Nat.div_one]
      exact ⟨fun hfits _ _ => hfits, fun hfits => hfits rfl rfl⟩
    -- one digit less is enough
    refine ⟨fun _ _ heq => absurd heq h16, fun _ => ?_⟩
    rw [Nat.div_lt_iff_lt_mul (by positivity)]
    have hten : 10 ^ 1 ≤ 10 ^ (16 - precision) := Nat.pow_le_pow_right (by norm_num) (by omega)
    calc magnitude ≤ 340282366920929970038656466944 := hmax
      _ < 2 ^ 96 * 10 ^ 1 := by norm_num
      _ ≤ 2 ^ 96 * 10 ^ (16 - precision) := Nat.mul_le_mul_left _ hten

theorem Price.InRange.toAligned {p : Price} (h : p.InRange) : Aligned p.raw.natAbs p.precision := by
  obtain ⟨hmin, _, hle, hdvd⟩ := h
  have hprice := priceRawMax_le
  unfold priceRawMin at hmin
  refine ⟨by omega, hle, ?_⟩
  exact_mod_cast Int.natAbs_dvd_natAbs.mpr hdvd

theorem Money.InRange.toAligned {m : Money} (h : m.InRange) :
    Aligned m.raw.natAbs m.currency.precision := by
  obtain ⟨hmin, hmax, hle, hdvd⟩ := h
  exact Price.InRange.toAligned (p := ⟨m.raw, m.currency.precision⟩) ⟨hmin, hmax, hle, hdvd⟩

theorem moneyRawInRange_of_le (hmin : priceRawMin ≤ raw) (hmax : raw ≤ priceRawMax) :
    moneyRawInRange raw = true := by
  unfold priceRawMin priceRawMax at *
  unfold moneyRawInRange
  revert hmin hmax
  cases Build.highPrecision with
  | false =>
    intro hmin hmax
    rw [if_neg Bool.false_ne_true] at hmin hmax ⊢
    rw [and_eq_true, decide_eq_true_iff, decide_eq_true_iff]
    omega
  | true =>
    intro hmin hmax
    rw [if_pos rfl] at hmin hmax ⊢
    rw [and_eq_true, decide_eq_true_iff, decide_eq_true_iff]
    omega

/-- A value has a decimal iff it fits. -/
theorem Aligned.decimal_iff_fits (h : Aligned raw.natAbs precision) :
    (∃ d, Decimal.fromI128WithScale (rescaledRaw raw precision) precision = some d) ↔
      FitsDecimal raw.natAbs precision := by
  have h28 : precision ≤ 28 := by
    have := h.precision_le
    have := fixedPrecision_le
    omega
  rw [← h.fits_iff, ← natAbs_rescaledRaw, ← Decimal.fromI128WithScale_isSome h28,
    Option.isSome_iff_exists]

/-- From its decimal the shared conversion returns to the value. -/
theorem Aligned.back_of_decimal (h : Aligned raw.natAbs precision)
    (hd : Decimal.fromI128WithScale (rescaledRaw raw precision) precision = some d) :
    mantissaExponentToFixedI128 d.mantissa (-d.scale) precision = .ok raw := by
  have hdvd : (10 ^ (fixedPrecision - precision) : Int) ∣ raw := by
    rw [← Int.natAbs_dvd_natAbs, Int.natAbs_pow]
    exact h.aligned
  obtain ⟨hmantissa, hscale⟩ := Decimal.fromI128WithScale_eq_some hd
  rw [hmantissa, hscale]
  exact mantissaExponentToFixedI128_rescaledRaw h.precision_le hdvd h.le_max

theorem Price.roundTrips_iff_fits {p : Price} (h : p.InRange) :
    p.RoundTrips text ↔ FitsDecimal p.raw.natAbs p.precision := by
  have h16 := Nat.le_trans h.precision_le fixedPrecision_le
  rw [← h.toAligned.decimal_iff_fits]
  refine ⟨fun ⟨_, d, hd, _⟩ => ⟨d, hd⟩, fun ⟨d, hd⟩ => ?_⟩
  have hback := h.toAligned.back_of_decimal hd
  have hdecimal : p.asDecimal = some d := hd
  refine ⟨?_, d, hdecimal, ?_⟩
  · rw [display, if_neg (by omega), hdecimal]
    rfl
  -- the two range checks let the raw value through
  rw [fromDecimalDp, hback]
  show (if _ then _ else if _ then _ else _) = _
  rw [priceRawInRange, moneyRawInRange_of_le h.min_le h.le_max, decide_eq_true h.min_le,
    decide_eq_true h.le_max]
  rfl

theorem Money.roundTrips_iff_fits {m : Money} (h : m.InRange) :
    m.RoundTrips text ↔ FitsDecimal m.raw.natAbs m.currency.precision := by
  have h16 := Nat.le_trans h.precision_le fixedPrecision_le
  rw [← h.toAligned.decimal_iff_fits]
  refine ⟨fun ⟨_, d, hd, _⟩ => ⟨d, hd⟩, fun ⟨d, hd⟩ => ?_⟩
  have hback := h.toAligned.back_of_decimal hd
  have hdecimal : m.asDecimalRepr = some d := hd
  refine ⟨?_, d, hdecimal, ?_⟩
  · rw [display, if_neg (by omega), hdecimal]
    rfl
  · rw [fromDecimal, hback]
    show (if _ then _ else if _ then _ else _) = _
    rw [moneyRawInRange_of_le h.min_le h.le_max, decide_eq_true h.min_le, decide_eq_true h.le_max]
    rfl

theorem Quantity.InRange.toAligned (h : q.InRange) : Aligned (q.raw : Int).natAbs q.precision :=
  ⟨h.le_max, h.precision_le, h.aligned⟩

/-- The digits of a quantity survive the cast to a signed number. -/
theorem Quantity.asDecimal_eq (h : q.InRange) :
    q.asDecimal = Decimal.fromI128WithScale (rescaledRaw q.raw q.precision) q.precision := by
  have hmax := Nat.lt_of_le_of_lt h.le_max quantityRawMax_lt
  unfold asDecimal rescaledRaw
  rw [asI128_of_lt (Nat.lt_of_le_of_lt (Nat.div_le_self _ _) hmax),
    Int.tdiv_eq_ediv_of_nonneg (Int.natCast_nonneg _)]
  push_cast
  rfl

theorem Quantity.roundTrips_iff_fits (h : q.InRange) :
    q.RoundTrips text ↔ FitsDecimal q.raw q.precision := by
  have h16 := Nat.le_trans h.precision_le fixedPrecision_le
  have htype : quantityRawMax ≤ quantityRawTypeMax := by
    unfold quantityRawMax quantityRawTypeMax
    split <;> norm_num
  show _ ↔ FitsDecimal (q.raw : Int).natAbs q.precision
  rw [← h.toAligned.decimal_iff_fits, ← asDecimal_eq h]
  refine ⟨fun ⟨_, d, hd, _⟩ => ⟨d, hd⟩, fun ⟨d, hdecimal⟩ => ?_⟩
  have hd := (asDecimal_eq h).symm.trans hdecimal
  have hback := h.toAligned.back_of_decimal hd
  have hnonneg : ¬ d.mantissa < 0 := by
    rw [(Decimal.fromI128WithScale_eq_some hd).1]
    exact Int.not_lt.mpr (Int.tdiv_nonneg (Int.natCast_nonneg _) (by positivity))
  refine ⟨?_, d, hdecimal, ?_⟩
  · rw [display, if_neg (by omega), hdecimal]
    rfl
  · have hmax := h.le_max
    rw [fromDecimalDp, if_neg hnonneg, hback]
    show (if _ then _ else if _ then _ else _) = _
    rw [if_neg (by omega), Int.toNat_natCast, if_neg (Nat.not_lt.mpr hmax)]

/-- The values in the documented range that have a decimal, are displayed and come back: all but
those of sixteen decimals whose magnitude needs more than 96 bits. -/
theorem roundTrips_iff (text : Decimal → String) :
    (∀ p : Price, p.InRange → (p.RoundTrips text ↔ FitsDecimal p.raw.natAbs p.precision)) ∧
    (∀ q : Quantity, q.InRange → (q.RoundTrips text ↔ FitsDecimal q.raw q.precision)) ∧
    ∀ m : Money, m.InRange → (m.RoundTrips text ↔ FitsDecimal m.raw.natAbs m.currency.precision) :=
  ⟨fun _ => Price.roundTrips_iff_fits text, fun _ => Quantity.roundTrips_iff_fits text,
    fun _ => Money.roundTrips_iff_fits text⟩

end

attribute [local instance] Build.high

/-- A text for a decimal. -/
def Sample.digits (d : Decimal) : String := toString d.mantissa

open Sample

/-- The largest magnitude of sixteen decimals that makes the round trip. -/
theorem roundTrips_iff_largest :
    (⟨2 ^ 96 - 1, 16⟩ : Price).RoundTrips digits ∧ (⟨2 ^ 96 - 1, 16⟩ : Quantity).RoundTrips digits ∧
      (⟨1 - 2 ^ 96, ⟨"WEI", 16⟩⟩ : Money).RoundTrips digits := by
  obtain ⟨hprice, hquantity, hmoney⟩ := roundTrips_iff digits
  refine ⟨(hprice _ ⟨?_, ?_, ?_, ?_⟩).mpr ?_, (hquantity _ ⟨?_, ?_, ?_⟩).mpr ?_,
    (hmoney _ ⟨?_, ?_, ?_, ?_⟩).mpr ?_⟩
  all_goals first | decide +kernel | exact fun _ _ => by decide +kernel

/-- A value of sixteen decimals in the range of each type without a decimal: displaying or
serialising it panics. -/
theorem not_roundTrips :
    (⟨2 ^ 96, 16⟩ : Price).InRange ∧ (⟨2 ^ 96, 16⟩ : Price).asDecimal.isNone = true ∧
      (⟨2 ^ 96, 16⟩ : Price).display digits = none ∧
    (⟨2 ^ 96, 16⟩ : Quantity).InRange ∧ (⟨2 ^ 96, 16⟩ : Quantity).asDecimal.isNone = true ∧
      (⟨2 ^ 96, 16⟩ : Quantity).display digits = none ∧
    (⟨-2 ^ 96, ⟨"WEI", 16⟩⟩ : Money).InRange ∧
      (⟨-2 ^ 96, ⟨"WEI", 16⟩⟩ : Money).asDecimalRepr.isNone = true ∧
      (⟨-2 ^ 96, ⟨"WEI", 16⟩⟩ : Money).display digits = none := by
  refine ⟨⟨?_, ?_, ?_, ?_⟩, ?_, ?_, ⟨?_, ?_, ?_⟩, ?_, ?_, ⟨?_, ?_, ?_, ?_⟩, ?_, ?_⟩
  all_goals decide +kernel

end Nautilus
