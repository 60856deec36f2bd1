import Nautilus.Lib.Loop
import Nautilus.Lib.Word

/-!
# Wide arithmetic

`U256` operators wrap. `FullMath::mul_div` (`defi/tick_map/full_math.rs:36`) computes
`a * b / denominator` through a 512-bit product: the high word from the residue modulo
`2 ^ 256 - 1`, then an exact division by the inverse of the odd part of the denominator. **It is the
quotient, or the error that the quotient does not fit** (`FullMath.mulDiv_eq`).

The rest of `full_math.rs`, `bit_math.rs` and `liquidity_math.rs` that the pool uses is here too.
-/

namespace Nautilus

open Lib Word
open Word (newtonStep newtonStep_inverse sub_of_le sub_of_lt add_of_lt)

inductive PoolError where
  | resultWouldOverflow
  | cannotDivideByZero
  | noLiquidity
  | liquidityExceedsMax (liquidity : Nat)
  | positionLiquidityLess (liquidity burnAmount : Nat)
  | invalidTickRange (tickLower tickUpper : Int)
  | ticksNotMultiples (tickLower tickUpper : Int)
  | invalidTickBounds (tickLower tickUpper : Int)
deriving DecidableEq

/-- What may panic or return an error. -/
abbrev PoolM := ExceptT PoolError Option

namespace PoolM

variable {α β : Type}

/-- A value or a panic. -/
def panics (x : Option α) : PoolM α := ExceptT.lift x

/-- A value or an error. -/
def fails (x : Except PoolError α) : PoolM α := ExceptT.mk (some x)

theorem of_bind {x : PoolM α} {f : α → PoolM β} {b : β} (h : (x >>= f).run = some (.ok b)) :
    ∃ a, x.run = some (.ok a) ∧ (f a).run = some (.ok b) := by
  obtain ⟨_ | a, hx, hf⟩ := Option.bind_eq_some_iff.mp h
  · nomatch hf
  · exact ⟨a, hx, hf⟩

end PoolM

namespace U256

def add : Nat → Nat → Nat := Word.add 256

def sub : Nat → Nat → Nat := Word.sub 256

def mul : Nat → Nat → Nat := Word.mul 256

def neg : Nat → Nat := Word.neg 256

/-- `mul_mod`; zero for a modulus of zero. -/
def mulMod (a b modulus : Nat) : Nat := if modulus = 0 then 0 else a * b % modulus

/-- `U160::from`, which panics on a value that does not fit. -/
def toU160 (a : Nat) : Option Nat := if a < 2 ^ 160 then some a else none

theorem sub_lt (a b : Nat) : sub a b < 2 ^ 256 := Word.sub_lt ..

theorem mul_lt (a b : Nat) : mul a b < 2 ^ 256 := Word.mul_lt ..

end U256

namespace FullMath

/-- The high word of the product, from its residue modulo `2 ^ 256 - 1`. -/
def prod1 (a b : Nat) : Nat :=
  let mm := U256.mulMod a b (2 ^ 256 - 1)
  let prod0 := U256.mul a b
  U256.sub (U256.sub mm prod0) (if mm < prod0 then 1 else 0)

/-- The inverse of an odd word. -/
def inverse (denominator : Nat) : Nat :=
  let inv := U256.mul 3 denominator ^^^ 2
  let inv := newtonStep 256 denominator inv
  let inv := newtonStep 256 denominator inv
  let inv := newtonStep 256 denominator inv
  let inv := newtonStep 256 denominator inv
  let inv := newtonStep 256 denominator inv
  newtonStep 256 denominator inv

/-- The division of two words by a denominator that divides them. -/
def divideExact (prod1 prod0 denominator : Nat) : Nat :=
  let twos := U256.neg denominator &&& denominator
  let denominator := denominator / twos
  let prod0 := prod0 / twos
  let twos := U256.add (U256.neg twos / twos) 1
  let prod0 := prod0 ||| U256.mul prod1 twos
  U256.mul prod0 (inverse denominator)

def mulDiv (a b denominator : Nat) : Except PoolError Nat :=
  if denominator ≤ prod1 a b then .error .resultWouldOverflow
  else
    let prod0 := U256.mul a b
    let remainder := U256.mulMod a b denominator
    .ok (divideExact (U256.sub (prod1 a b) (if prod0 < remainder then 1 else 0))
      (U256.sub prod0 remainder) denominator)

def mulDivRoundingUp (a b denominator : Nat) : Except PoolError Nat := do
  let result ← mulDiv a b denominator
  if U256.mulMod a b denominator = 0 then pure result
  else if result = 2 ^ 256 - 1 then throw .resultWouldOverflow
  else pure (U256.add result 1)

def divRoundingUp (a b : Nat) : Except PoolError Nat :=
  if b = 0 then .error .cannotDivideByZero
  else if 0 < a % b then
    if a / b = 2 ^ 256 - 1 then .error .resultWouldOverflow else .ok (U256.add (a / b) 1)
  else .ok (a / b)

def truncateToU128 (value : Nat) : Nat := value % 2 ^ 128

/-- A reinterpretation of the bits. -/
def truncateToI256 (value : Nat) : Int := Int.bmod value (2 ^ 256)

/-! ## The product -/

variable {a b d : Nat}

/-- The residue modulo `2 ^ 256 - 1` gives the high word. -/
theorem prod1_eq (ha : a < 2 ^ 256) (hb : b < 2 ^ 256) : prod1 a b = a * b / 2 ^ 256 := by
  have hprod : a * b ≤ (2 ^ 256 - 1) * (2 ^ 256 - 1) := Nat.mul_le_mul (by omega) (by omega)
  show Word.sub 256 (Word.sub 256 (if 2 ^ 256 - 1 = 0 then 0 else a * b % (2 ^ 256 - 1))
    (a * b % 2 ^ 256)) (if (if 2 ^ 256 - 1 = 0 then 0 else a * b % (2 ^ 256 - 1)) <
      a * b % 2 ^ 256 then 1 else 0) = _
  rw [if_neg (by decide)]
  generalize a * b = p at hprod ⊢
  have hsplit := Nat.div_add_mod p (2 ^ 256)
  have hlow : p % 2 ^ 256 < 2 ^ 256 := Nat.mod_lt _ (by decide)
  have hhigh : p / 2 ^ 256 < 2 ^ 256 - 1 := by omega
  generalize p / 2 ^ 256 = h at hsplit hhigh ⊢
  generalize p % 2 ^ 256 = l at hsplit hlow ⊢
  have hmod : p % (2 ^ 256 - 1) = (h + l) % (2 ^ 256 - 1) := by
    have hp : p = h + l + (2 ^ 256 - 1) * h := by omega
    rw [hp, Nat.add_mul_mod_self_left]
  rw [hmod]
  -- the residue is `h + l`, less the modulus when that is reached
  by_cases hsum : h + l < 2 ^ 256 - 1
  · have hinner : sub 256 (h + l) l = h := by
      rw [sub_of_le (by omega) (by omega)]
      omega
    rw [Nat.mod_eq_of_lt hsum, if_neg (by omega), hinner]
    exact sub_of_le (by omega) (by omega)
  · have hres : (h + l) % (2 ^ 256 - 1) = h + l - (2 ^ 256 - 1) := by
      rw [Nat.mod_eq_sub_mod (by omega), Nat.mod_eq_of_lt (by omega)]
    have hinner : sub 256 (h + l - (2 ^ 256 - 1)) l = h + 1 := by
      rw [sub_of_lt (by omega) (by omega)]
      omega
    rw [hres, if_pos (by omega), hinner]
    exact sub_of_le (by omega) (by omega)

/-! ## The exact division -/

theorem seed_inverse {o : Nat} (ho : o % 2 = 1) :
    (o : Int) * (U256.mul 3 o ^^^ 2 : Nat) ≡ 1 [ZMOD 2 ^ 4] := by
  have hxor : (U256.mul 3 o ^^^ 2) % 2 ^ 4 = (3 * (o % 2 ^ 4) % 2 ^ 4) ^^^ 2 := by
    rw [Nat.xor_mod_two_pow]
    show (3 * o % 2 ^ 256 % 2 ^ 4) ^^^ (2 % 2 ^ 4) = _
    rw [Nat.mod_mod_of_dvd _ (by decide : 2 ^ 4 ∣ 2 ^ 256), Nat.mul_mod]
    rfl
  have hnat : o * (U256.mul 3 o ^^^ 2) % 2 ^ 4 = 1 := by
    rw [Nat.mul_mod, hxor]
    have hlt : o % 2 ^ 4 < 2 ^ 4 := Nat.mod_lt _ (by decide)
    have hodd : o % 2 ^ 4 % 2 = 1 := by omega
    generalize o % 2 ^ 4 = r at hlt hodd
    interval_cases r <;> simp_all
  have hcast : ((o * (U256.mul 3 o ^^^ 2) % 2 ^ 4 : Nat) : Int) = 1 := by
    rw [hnat]
    rfl
  push_cast at hcast
  exact hcast

/-- Six steps from the seed invert the denominator. -/
theorem inverse_mul {o : Nat} (ho : o % 2 = 1) : (o : Int) * inverse o ≡ 1 [ZMOD 2 ^ 256] :=
  newtonStep_inverse (n := 128) (by decide) <| newtonStep_inverse (n := 64) (by decide) <|
    newtonStep_inverse (n := 32) (by decide) <| newtonStep_inverse (n := 16) (by decide) <|
    newtonStep_inverse (n := 8) (by decide) <| newtonStep_inverse (n := 4) (by decide) <|
    seed_inverse ho

/-- Folding the words of a multiple of `2 ^ k` divides it by `2 ^ k`, modulo the word. -/
theorem fold_words {k : Nat} (high low : Nat) (hk : k < 256) (hlow : low < 2 ^ 256) :
    (low / 2 ^ k ||| U256.mul high (U256.add (U256.neg (2 ^ k) / 2 ^ k) 1)) % 2 ^ 256 =
      (high * 2 ^ 256 + low) / 2 ^ k % 2 ^ 256 := by
  have hpow : (2 : Nat) ^ 256 = 2 ^ (256 - k) * 2 ^ k := by
    rw [← pow_add, Nat.sub_add_cancel hk.le]
  have hpos : 0 < 2 ^ k := Nat.two_pow_pos k
  have hone : 1 ≤ 2 ^ (256 - k) := Nat.one_le_two_pow
  have htwos : U256.add (U256.neg (2 ^ k) / 2 ^ k) 1 = 2 ^ (256 - k) % 2 ^ 256 := by
    show (Word.neg 256 (2 ^ k) / 2 ^ k + 1) % 2 ^ 256 = _
    have hneg : neg 256 (2 ^ k) = (2 ^ (256 - k) - 1) * 2 ^ k := by
      rw [neg_of_pos hpos, Nat.sub_mul, ← hpow, Nat.one_mul]
    rw [hneg, Nat.mul_div_cancel _ hpos, Nat.sub_add_cancel hone]
  have hmul : U256.mul high (U256.add (U256.neg (2 ^ k) / 2 ^ k) 1) =
      2 ^ (256 - k) * (high % 2 ^ k) := by
    rw [htwos]
    show high * (2 ^ (256 - k) % 2 ^ 256) % 2 ^ 256 = _
    rw [Nat.mul_mod_mod, hpow, Nat.mul_comm high, Nat.mul_mod_mul_left]
  have hfits : low / 2 ^ k < 2 ^ (256 - k) := by
    rw [Nat.div_lt_iff_lt_mul hpos, ← hpow]
    exact hlow
  rw [hmul, Nat.or_comm, ← Nat.two_pow_add_eq_or_of_lt hfits]
  -- what the fold drops of the high word is a multiple of the word
  have hhigh : high * 2 ^ 256 + low = (2 ^ (256 - k) * high) * 2 ^ k + low := by
    rw [hpow]
    ring
  have hdrop : 2 ^ (256 - k) * high =
      2 ^ (256 - k) * (high % 2 ^ k) + 2 ^ 256 * (high / 2 ^ k) := by
    conv_lhs => rw [← Nat.mod_add_div high (2 ^ k)]
    rw [hpow]
    ring
  rw [hhigh, Nat.add_comm _ low, Nat.add_mul_div_right _ _ hpos, hdrop, ← Nat.add_assoc,
    Nat.add_mul_mod_self_left, Nat.add_comm]

/-- Subtracting the remainder, word by word. -/
theorem sub_words (high low r : Nat) (hhigh : high < 2 ^ 256) (hlow : low < 2 ^ 256)
    (hr : r < 2 ^ 256) (hle : r ≤ high * 2 ^ 256 + low) :
    U256.sub high (if low < r then 1 else 0) * 2 ^ 256 + U256.sub low r =
      high * 2 ^ 256 + low - r := by
  show Word.sub 256 high _ * 2 ^ 256 + Word.sub 256 low r = _
  by_cases hborrow : low < r
  · rw [if_pos hborrow, sub_of_lt (by omega) hborrow, sub_of_le hhigh (by omega)]
    omega
  · rw [if_neg hborrow, sub_of_le hlow (by omega), sub_of_le hhigh (by omega)]
    omega

/-- Two words that a denominator divides, with a quotient of one word. -/
theorem divideExact_eq {high low q : Nat} (hd : d < 2 ^ 256) (hlow : low < 2 ^ 256)
    (hmul : high * 2 ^ 256 + low = d * q) (hpos : 0 < d) (hq : q < 2 ^ 256) :
    divideExact high low d = q := by
  obtain ⟨k, o, hodd, rfl⟩ := Nat.exists_eq_two_pow_mul_odd hpos.ne'
  have ho : o % 2 = 1 := Nat.odd_iff.mp hodd
  have hk : k < 256 := by
    by_contra hge
    have hpow : 2 ^ 256 ≤ 2 ^ k := Nat.pow_le_pow_right (by decide) (by omega)
    have hle : 2 ^ k ≤ 2 ^ k * o := Nat.le_mul_of_pos_right _ (by omega)
    omega
  have htwos : U256.neg (2 ^ k * o) &&& (2 ^ k * o) = 2 ^ k := Word.neg_land_self ho hd
  have hfold := fold_words high low hk hlow
  rw [hmul, Nat.mul_assoc, Nat.mul_div_cancel_left _ (Nat.two_pow_pos k)] at hfold
  have hinv := inverse_mul ho
  unfold divideExact
  simp only [htwos, Nat.mul_div_cancel_left _ (Nat.two_pow_pos k)]
  generalize (low / 2 ^ k ||| U256.mul high (U256.add (U256.neg (2 ^ k) / 2 ^ k) 1)) = y
    at hfold ⊢
  generalize inverse o = inv at hinv ⊢
  have hy : (y : Int) ≡ o * q [ZMOD 2 ^ 256] := by
    have hcast : ((y % 2 ^ 256 : Nat) : Int) = ((o * q % 2 ^ 256 : Nat) : Int) := by rw [hfold]
    push_cast at hcast
    exact hcast
  have hresult : ((U256.mul y inv : Nat) : Int) ≡ q [ZMOD 2 ^ 256] :=
    calc ((U256.mul y inv : Nat) : Int) ≡ y * inv [ZMOD 2 ^ 256] := Word.mul_modEq ..
      _ ≡ o * q * inv [ZMOD 2 ^ 256] := hy.mul_right _
      _ = q * (o * inv) := by ring
      _ ≡ q * 1 [ZMOD 2 ^ 256] := hinv.mul_left _
      _ = q := by ring
  have hmod : U256.mul y inv % 2 ^ 256 = q % 2 ^ 256 := by
    have h : ((U256.mul y inv : Nat) : Int) % 2 ^ 256 = (q : Int) % 2 ^ 256 := hresult
    exact_mod_cast h
  rwa [Nat.mod_eq_of_lt hq, Nat.mod_eq_of_lt (U256.mul_lt ..)] at hmod

/-- `q` is `n / d` rounded up. -/
def IsCeilDiv (n d q : Nat) : Prop := 0 < d ∧ n ≤ q * d ∧ q * d < n + d

theorem isCeilDiv_iff {n q : Nat} (hd : 0 < d) :
    IsCeilDiv n d q ↔ q = n / d + if n % d = 0 then 0 else 1 := by
  have hsplit := Nat.div_add_mod' n d
  have hmod := Nat.mod_lt n hd
  generalize n / d = m at *
  have hle : q * d < (m + 2) * d → q < m + 2 := Nat.lt_of_mul_lt_mul_right
  have hge : m * d < (q + 1) * d → m < q + 1 := Nat.lt_of_mul_lt_mul_right
  rw [Nat.add_mul] at hle hge
  constructor
  · rintro ⟨-, _, hhigh⟩
    obtain rfl | rfl : q = m ∨ q = m + 1 := by omega
    · rw [if_pos (by omega), Nat.add_zero]
    · rw [Nat.add_mul] at hhigh
      rw [if_neg (by omega)]
  · rintro rfl
    refine ⟨hd, ?_, ?_⟩ <;> split <;> rw [Nat.add_mul] <;> omega

theorem div_lt_word {p : Nat} (h : p / 2 ^ 256 < d) : p / d < 2 ^ 256 := by
  rw [Nat.div_lt_iff_lt_mul (by omega)]
  calc p < (p / 2 ^ 256 + 1) * 2 ^ 256 := by omega
    _ ≤ d * 2 ^ 256 := Nat.mul_le_mul_right _ (by omega)
    _ = 2 ^ 256 * d := Nat.mul_comm ..

section

variable (ha : a < 2 ^ 256) (hb : b < 2 ^ 256) (hd : d < 2 ^ 256)

include ha hb hd

/-- `mul_div` is the quotient of the product, if that fits. -/
theorem mulDiv_eq :
    mulDiv a b d =
      if a * b / 2 ^ 256 < d then .ok (a * b / d) else .error .resultWouldOverflow := by
  unfold mulDiv
  rw [prod1_eq ha hb]
  by_cases hfits : a * b / 2 ^ 256 < d
  swap
  · rw [if_pos (by omega), if_neg hfits]
  rw [if_neg (by omega), if_pos hfits]
  have hpos : 0 < d := by omega
  have hrem : U256.mulMod a b d = a * b % d := if_neg hpos.ne'
  have hlow : U256.mul a b = a * b % 2 ^ 256 := rfl
  simp only [hrem, hlow]
  generalize a * b = p at hfits ⊢
  have hmod := Nat.mod_lt p hpos
  have hsub := sub_words (p / 2 ^ 256) (p % 2 ^ 256) (p % d) (by omega)
    (Nat.mod_lt _ (by decide)) (by omega) (by rw [Nat.div_add_mod' p]; exact Nat.mod_le _ _)
  have hexact : p - p % d = d * (p / d) := by
    have := Nat.div_add_mod p d
    omega
  rw [Nat.div_add_mod' p, hexact] at hsub
  rw [divideExact_eq hd (U256.sub_lt ..) hsub hpos (div_lt_word hfits)]

/-! ## The results -/

theorem mulDiv_eq_ok_iff {q : Nat} :
    mulDiv a b d = .ok q ↔ 0 < d ∧ q = a * b / d ∧ q < 2 ^ 256 := by
  rw [mulDiv_eq ha hb hd]
  constructor
  · intro h
    split at h
    · rename_i hfits
      cases h
      exact ⟨by omega, rfl, div_lt_word hfits⟩
    · nomatch h
  · rintro ⟨hpos, rfl, hlt⟩
    rw [if_pos]
    rw [Nat.div_lt_iff_lt_mul hpos] at hlt
    rwa [Nat.div_lt_iff_lt_mul (by decide), Nat.mul_comm d]

theorem mulDiv_of_lt (h : a * b < d * 2 ^ 256) : mulDiv a b d = .ok (a * b / d) := by
  rw [mulDiv_eq ha hb hd, if_pos]
  rwa [Nat.div_lt_iff_lt_mul (by decide)]

/-- **`mul_div` and `mul_div_rounding_up` return the floor and the ceiling of the quotient, exactly
when the denominator is not zero and the result fits.** -/
theorem mulDiv_exact (q : Nat) :
    (mulDiv a b d = .ok q ↔ 0 < d ∧ q = a * b / d ∧ q < 2 ^ 256) ∧
      (mulDivRoundingUp a b d = .ok q ↔ IsCeilDiv (a * b) d q ∧ q < 2 ^ 256) := by
  have hfloor := @mulDiv_eq_ok_iff a b d ha hb hd
  refine ⟨hfloor, ?_⟩
  unfold mulDivRoundingUp
  cases hdiv : mulDiv a b d with
  | error e =>
    -- a ceiling that fits leaves a floor that fits
    refine iff_of_false nofun ?_
    rintro ⟨hceil, hlt⟩
    have hq := (isCeilDiv_iff hceil.1).mp hceil
    have hok := hfloor.mpr ⟨hceil.1, rfl, by omega⟩
    rw [hdiv] at hok
    nomatch hok
  | ok f =>
    obtain ⟨hpos, rfl, hlt⟩ := hfloor.mp hdiv
    simp only [bind, Except.bind, U256.mulMod, if_neg hpos.ne', isCeilDiv_iff hpos]
    split
    · refine ⟨?_, ?_⟩
      · rintro ⟨⟩
        exact ⟨rfl, hlt⟩
      · rintro ⟨rfl, -⟩
        rfl
    split
    · refine iff_of_false nofun ?_
      omega
    rw [show U256.add (a * b / d) 1 = a * b / d + 1 from add_of_lt (by omega)]
    refine ⟨?_, ?_⟩
    · rintro ⟨⟩
      exact ⟨rfl, by omega⟩
    · rintro ⟨rfl, -⟩
      rfl

end

/-- A third of `2 ^ 255` is rounded up. -/
theorem mulDiv_exact_thirds : mulDivRoundingUp (2 ^ 255) 1 3 = .ok ((2 ^ 255 + 1) / 3) :=
  (mulDiv_exact (by decide) (by decide) (by decide) _).2.mpr
    ⟨⟨by decide, by decide, by decide⟩, by decide⟩

/-! ## Integer square roots

`sqrt` starts from `x` and its half. From above the root each round comes down to it or closer, but
**the half of the largest word is zero**: its successor wraps. -/

/-- One round of the loop: the next pair, the result, or a division by
zero. -/
def sqrtRound (x : Nat) : Nat × Nat → (Nat × Nat) ⊕ Option Nat
  | (z, y) =>
    if y < z then
      if y = 0 then .inr none else .inl (y, U256.add (x / y) y / 2)
    else .inr (some z)

/-- At most `fuel` rounds are made. -/
def sqrt (fuel x : Nat) : Option (Option Nat) :=
  if x = 0 then some (some 0)
  else if x = 1 then some (some 1)
  else loop (sqrtRound x) fuel (x, U256.add x 1 / 2)

abbrev IsRoot (x z : Nat) : Prop := z * z ≤ x ∧ x < (z + 1) * (z + 1)

variable {x z y : Nat}

/-- The mean of `z` and `x / z` is not below the root. -/
theorem lt_succ_mean (hz : 0 < z) : x < ((x / z + z) / 2 + 1) * ((x / z + z) / 2 + 1) := by
  have hquot : x < (x / z + 1) * z := Nat.lt_mul_of_div_lt (Nat.lt_succ_self _) hz
  generalize x / z = q at *
  have hmean : q + 1 + z ≤ 2 * ((q + z) / 2 + 1) := by omega
  generalize (q + z) / 2 + 1 = m at *
  nlinarith [Nat.mul_le_mul hmean hmean, sq_nonneg ((q : ℤ) + 1 - z)]

theorem sqrt_loop (hx : x + 1 < 2 ^ 256) (hz : 0 < z) (hle : z ≤ x)
    (hroot : x < (z + 1) * (z + 1)) :
    ∃ fuel r, loop (sqrtRound x) fuel (z, (x / z + z) / 2) = some (some r) ∧ IsRoot x r := by
  -- the iterate falls from round to round and stays at the root or above it
  induction z using Nat.strong_induction_on with
  | _ z ih =>
    generalize hy : (x / z + z) / 2 = y
    have hnext : x < (y + 1) * (y + 1) := hy ▸ lt_succ_mean hz
    by_cases hdown : y < z
    · have hpos : y ≠ 0 := by
        rintro rfl
        omega
      -- so the sum of the next round does not wrap
      have hmean : x / y + y ≤ x + 1 := by
        have hquot := Nat.div_mul_le_self x y
        obtain ⟨m, rfl⟩ := Nat.exists_eq_succ_of_ne_zero hpos
        have hpart : 0 < x / (m + 1) := Nat.div_pos (by omega) (by omega)
        obtain ⟨k, hk⟩ := Nat.exists_eq_succ_of_ne_zero hpart.ne'
        rw [hk] at hquot ⊢
        nlinarith
      obtain ⟨fuel, r, hloop, hr⟩ := ih y hdown (by omega) (by omega) hnext
      refine ⟨fuel + 1, r, (loop_of_inl ?_ fuel).trans hloop, hr⟩
      rw [sqrtRound, if_pos hdown, if_neg hpos,
        show U256.add (x / y) y = _ from add_of_lt (by omega)]
    · -- the mean is not below `z`, so `x / z` is not either
      have hquot : z ≤ x / z := by omega
      refine ⟨1, z, loop_of_inr ?_ 0, (Nat.le_div_iff_mul_le hz).mp hquot, hroot⟩
      rw [sqrtRound, if_neg hdown]

/-- **The root is found iff the argument is not the largest word**, for which the loop divides by
zero. -/
theorem sqrt_exact_iff (x : Nat) (hx : x < 2 ^ 256) :
    (∃ fuel r, sqrt fuel x = some (some r) ∧ IsRoot x r) ↔ x ≠ 2 ^ 256 - 1 := by
  constructor
  · rintro ⟨fuel, r, hsqrt, -⟩ rfl
    cases fuel <;> nomatch hsqrt
  intro hne
  by_cases h0 : x = 0
  · exact ⟨0, 0, if_pos h0, by subst h0; decide⟩
  by_cases h1 : x = 1
  · exact ⟨0, 1, by rw [sqrt, if_neg h0, if_pos h1], by subst h1; decide⟩
  obtain ⟨fuel, r, hloop, hr⟩ := sqrt_loop (z := x) (by omega) (by omega) le_rfl (by nlinarith)
  refine ⟨fuel, r, ?_, hr⟩
  rw [sqrt, if_neg h0, if_neg h1, show U256.add x 1 = x + 1 from add_of_lt (by omega)]
  rwa [Nat.div_self (by omega), Nat.add_comm 1] at hloop

/-- `10 ^ 40 + 1` has the root `10 ^ 20`. -/
theorem sqrt_exact_iff_pow : ∃ fuel r, sqrt fuel (10 ^ 40 + 1) = some (some r) ∧
    IsRoot (10 ^ 40 + 1) r :=
  (sqrt_exact_iff _ (by decide)).mpr (by decide)

theorem sqrt_divides_by_zero : sqrt 1 (2 ^ 256 - 1) = some none := by decide

end FullMath

/-! ## Bits -/

def mostSignificantBit (x : Nat) : Nat := x.log2

def leastSignificantBit (x : Nat) : Nat := ((List.range 256).find? x.testBit).getD 0

/-! ## Liquidity -/

def liquidityMathAdd (x : Nat) (y : Int) : Option Nat :=
  if y < 0 then
    let z := Word.sub 128 x y.natAbs
    if z < x then some z else none
  else
    let z := Word.add 128 x y.natAbs
    if x ≤ z then some z else none

theorem liquidityMathAdd_lt {x z : Nat} {y : Int} (h : liquidityMathAdd x y = some z) :
    z < 2 ^ 128 := by
  unfold liquidityMathAdd at h
  simp only at h
  split at h <;> obtain ⟨-, h⟩ := Option.ite_none_right_eq_some.mp h <;> cases h <;>
    exact Nat.mod_lt _ (by decide)

theorem liquidityMathAdd_eq {x : Nat} {y : Int} (hx : x < 2 ^ 128) (hy : y.natAbs < 2 ^ 128) :
    liquidityMathAdd x y =
      if 0 ≤ x + y ∧ x + y < 2 ^ 128 then some (x + y).toNat else none := by
  unfold liquidityMathAdd
  simp only []
  by_cases hneg : y < 0
  · rw [if_pos hneg]
    by_cases hle : y.natAbs ≤ x
    · rw [sub_of_le hx hle, if_pos (by omega), if_pos (by omega)]
      congr 1
      omega
    · rw [sub_of_lt (by omega) (by omega), if_neg (by omega), if_neg (by omega)]
  · rw [if_neg hneg]
    by_cases hlt : x + y.natAbs < 2 ^ 128
    · rw [add_of_lt hlt, if_pos (by omega), if_pos (by omega)]
      congr 1
      omega
    · have hwrap : Word.add 128 x y.natAbs = x + y.natAbs - 2 ^ 128 := by
        show (x + y.natAbs) % 2 ^ 128 = _
        omega
      rw [hwrap, if_neg (by omega), if_neg (by omega)]

end Nautilus
