import Nautilus.Pool.FullMath

/-!
# Ticks and square root prices

`get_sqrt_ratio_at_tick` and `get_tick_at_sqrt_ratio` (`defi/tick_map/tick_math.rs`). A price is a
`U160` in Q64.96. The ratio of a tick is a product over the bits of its absolute value; a tick is
read off a price through fourteen bits of its binary logarithm, which leave two candidates.
-/

namespace Nautilus

open Lib U256

namespace PoolTick

def minTick : Int := -887272

def maxTick : Int := 887272

end PoolTick

def minSqrtRatio : Nat := 4295128739

def maxSqrtRatio : Nat := 0xfffd8963efd1fc6a506488495d951d5263988d26

/-- The bits of `abs_tick` above the lowest with their factors. -/
def sqrtRatioFactors : List (Nat × Nat) :=
  [(1, 0xfff97272373d413259a46990580e213a),
   (2, 0xfff2e50f5f656932ef12357cf3c7fdcc),
   (3, 0xffe5caca7e10e4e61c3624eaa0941cd0),
   (4, 0xffcb9843d60f6159c9db58835c926644),
   (5, 0xff973b41fa98c081472e6896dfb254c0),
   (6, 0xff2ea16466c96a3843ec78b326b52861),
   (7, 0xfe5dee046a99a2a811c461f1969c3053),
   (8, 0xfcbe86c7900a88aedcffc83b479aa3a4),
   (9, 0xf987a7253ac413176f2b074cf7815e54),
   (10, 0xf3392b0822b70005940c7a398e4b70f3),
   (11, 0xe7159475a2c29b7443b29c7fa6e889d9),
   (12, 0xd097f3bdfd2022b8845ad8f792aa5825),
   (13, 0xa9f746462d870fdf8a65dc1f90e061e5),
   (14, 0x70d869a156d2a1b890bb3df62baf32f7),
   (15, 0x31be135f97d08fd981231505542fcfa6),
   (16, 0x9aa508b5b7a84e1c677de54f3e99bc9),
   (17, 0x5d6af8dedb81196699c329225ee604),
   (18, 0x2216e584f5fa1ea926041bedfe98),
   (19, 0x48a170391f7dc42444e8fa2)]

def applyFactor (absTick ratio : Nat) (factor : Nat × Nat) : Nat :=
  if absTick.testBit factor.1 then U256.mul ratio factor.2 >>> 128 else ratio

def ratioOfAbsTick (absTick : Nat) : Nat :=
  sqrtRatioFactors.foldl (applyFactor absTick)
    (if absTick.testBit 0 then 0xfffcb933bd6fad37aa2d162d1a594001
    else 0x100000000000000000000000000000000)

def getSqrtRatioAtTick (tick : Int) : Option Nat :=
  if PoolTick.minTick ≤ tick ∧ tick ≤ PoolTick.maxTick then
    let ratio := ratioOfAbsTick tick.natAbs
    let ratio := if 0 < tick then (2 ^ 256 - 1) / ratio else ratio
    U256.toU160 (U256.add ratio 0xffffffff >>> 32)
  else none

/-- The fraction of the logarithm under construction. -/
structure Log2 where
  r : Nat
  decimals : Nat

/-- One round: a bit of the logarithm. -/
def Log2.refine (log : Log2) (i : Nat) : Log2 :=
  let r := U256.mul log.r log.r >>> 127
  if 0 < r >>> 128 then ⟨r >>> 1, log.decimals ||| 1 <<< i⟩ else ⟨r, log.decimals⟩

def log2Bits : List Nat := [63, 62, 61, 60, 59, 58, 57, 56, 55, 54, 53, 52, 51, 50]

/-- The binary logarithm of `ratio / 2 ^ 128` in Q64.64, in two's complement. -/
def log2X64 (ratio : Nat) : Nat :=
  let msb := mostSignificantBit ratio
  let log := if 128 ≤ msb then (msb - 128) <<< 64
    else U256.add (U256.sub (2 ^ 256 - 1) ((128 - msb) <<< 64)) 1
  let r := if 128 ≤ msb then ratio >>> (msb - 127) else ratio <<< (127 - msb)
  log ||| (log2Bits.foldl Log2.refine ⟨r, 0⟩).decimals

/-- The four low bytes as an `i32`. -/
def toI32 (value : Nat) : Int := Int.bmod value (2 ^ 32)

/-- The two candidates. -/
def tickCandidates (log2 : Nat) : Int × Int :=
  let logSqrt10001 := U256.mul log2 255738958999603826347141
  (toI32 (U256.sub logSqrt10001 3402992956809132418596140100660247210 >>> 128),
   toI32 (U256.add logSqrt10001 291339464771989622907027621153398088495 >>> 128))

def getTickAtSqrtRatio (sqrtPriceX96 : Nat) : Option Int :=
  if minSqrtRatio ≤ sqrtPriceX96 ∧ sqrtPriceX96 < maxSqrtRatio then
    let (tickLow, tickHi) := tickCandidates (log2X64 (sqrtPriceX96 <<< 32))
    if tickLow = tickHi then some tickLow
    else (getSqrtRatioAtTick tickHi).map fun ratio =>
      if ratio ≤ sqrtPriceX96 then tickHi else tickLow
  else none

example : getSqrtRatioAtTick PoolTick.minTick = some minSqrtRatio := by decide +kernel

example : getSqrtRatioAtTick PoolTick.maxTick = some maxSqrtRatio := by decide +kernel

example : getTickAtSqrtRatio (2 ^ 96) = some 0 := by decide +kernel

end Nautilus
