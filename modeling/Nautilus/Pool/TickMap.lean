import Nautilus.Lib.OrdMap
import Nautilus.Pool.SwapMath

/-!
# Ticks, their bitmap and positions

`TickMap` (`defi/tick_map/mod.rs`), `TickBitmap` (`tick_bitmap.rs`), `PoolTick` (`tick.rs`) and
`PoolPosition` (`pool_analysis/position.rs`). The bitmap has one bit for each multiple of the tick
spacing, in words of 256. A tick has a second mark, `initialized`; **the two are not the same**: the
bit follows the changes of `liquidity_gross` between zero and not zero, the mark is set whenever a
tick without liquidity is touched.

The hash maps are kept sorted here; no function observes their order. Liquidity is a `u128`; the
limit per tick keeps the net liquidity away from the bounds of its `i128`, so it is an integer.
-/

namespace Nautilus

open Lib U256 Word

/-! ## Ticks -/

structure PoolTick where
  value : Int
  liquidityGross : Nat
  liquidityNet : Int
  feeGrowthOutside0 : Nat
  feeGrowthOutside1 : Nat
  initialized : Bool
  updatesCount : Nat
deriving DecidableEq

namespace PoolTick

def fromTick (tick : Int) : PoolTick := ⟨tick, 0, 0, 0, 0, false, 0⟩

def updateLiquidity (self : PoolTick) (liquidityDelta : Int) (upper : Bool) : Option PoolTick :=
  (liquidityMathAdd self.liquidityGross liquidityDelta).map fun liquidityGross =>
    { self with
      liquidityGross
      liquidityNet := if upper then self.liquidityNet - liquidityDelta
        else self.liquidityNet + liquidityDelta
      updatesCount := self.updatesCount + 1 }

def updateFeeGrowth (self : PoolTick) (feeGrowthGlobal0 feeGrowthGlobal1 : Nat) : PoolTick :=
  { self with
    feeGrowthOutside0 := U256.sub feeGrowthGlobal0 self.feeGrowthOutside0
    feeGrowthOutside1 := U256.sub feeGrowthGlobal1 self.feeGrowthOutside1 }

end PoolTick

/-! ## The bitmap -/

/-- `tick_bitmap.rs:22`: an arithmetic shift and the low byte. -/
def tickPosition (tick : Int) : Int × Nat := (Int.bmod (tick / 256) (2 ^ 16), (tick % 256).toNat)

structure TickBitmap where
  words : OrdMap (compare : Int → Int → Ordering) Nat
  tickSpacing : Int

namespace TickBitmap

def new (tickSpacing : Nat) : TickBitmap := ⟨.empty, tickSpacing⟩

variable (self : TickBitmap)

/-- `tick_bitmap.rs:53`, which truncates. -/
def compressTick (tick : Int) : Int := tick.tdiv self.tickSpacing

/-- The word at a position, empty words not being stored. -/
def word (wordPosition : Int) : Nat := (self.words.get? wordPosition).getD 0

def flipTick (tick : Int) : Option TickBitmap :=
  if tick.tmod self.tickSpacing = 0 then
    let (wordPosition, bitPosition) := tickPosition (self.compressTick tick)
    let word := self.word wordPosition ^^^ 1 <<< bitPosition
    some { self with words := if word = 0 then self.words.remove wordPosition
      else self.words.insert wordPosition word }
  else none

def isInitialized (tick : Int) : Bool :=
  let (wordPosition, bitPosition) := tickPosition (self.compressTick tick)
  (self.word wordPosition).testBit bitPosition

/-- The compressed tick of any tick, rounded down (`tick_bitmap.rs:108-112`). -/
def compressFloor (tick : Int) : Int :=
  let compressedTick := self.compressTick tick
  if tick < 0 ∧ tick.tmod self.tickSpacing ≠ 0 then compressedTick - 1 else compressedTick

def nextInitializedTickWithinOneWord (tick : Int) (lessThanOrEqual : Bool) : Int × Bool :=
  let compressedTick := self.compressFloor tick
  if lessThanOrEqual then
    let (wordPos, bitPos) := tickPosition compressedTick
    let mask := 1 <<< bitPos - 1 + 1 <<< bitPos
    let masked := self.word wordPos &&& mask
    if masked ≠ 0 then
      ((compressedTick - bitPos + mostSignificantBit masked) * self.tickSpacing, true)
    else ((compressedTick - bitPos) * self.tickSpacing, false)
  else
    let (wordPos, bitPos) := tickPosition (compressedTick + 1)
    let mask := 2 ^ 256 - 1 - (1 <<< bitPos - 1)
    let masked := self.word wordPos &&& mask
    if masked ≠ 0 then
      ((compressedTick + 1 + leastSignificantBit masked - bitPos) * self.tickSpacing, true)
    else ((compressedTick + 1 + 255 - bitPos) * self.tickSpacing, false)

end TickBitmap

def tickSpacingToMaxLiquidityPerTick (tickSpacing : Int) : Nat :=
  let minTick := PoolTick.minTick.tdiv tickSpacing * tickSpacing
  let maxTick := PoolTick.maxTick.tdiv tickSpacing * tickSpacing
  let numTicks := (maxTick - minTick).tdiv tickSpacing + 1
  (2 ^ 128 - 1) / numTicks.toNat

/-! ## The tick map -/

structure TickMap where
  ticks : OrdMap (compare : Int → Int → Ordering) PoolTick
  tickBitmap : TickBitmap
  liquidity : Nat
  maxLiquidityPerTick : Nat

namespace TickMap

/-- `TickMap::new` (`mod.rs:61`) for a spacing that is not zero. -/
def new (tickSpacing : Nat) : TickMap :=
  { ticks := .empty
    tickBitmap := .new tickSpacing
    liquidity := 0
    maxLiquidityPerTick := tickSpacingToMaxLiquidityPerTick tickSpacing }

variable (self : TickMap) (tick : Int)

def getTick : Option PoolTick := self.ticks.get? tick

/-- The tick that `get_tick_or_init` (`mod.rs:78`) refers to. -/
def tickOrInit : PoolTick :=
  (self.ticks.get? tick).getD (.fromTick tick)

def setTick (tickData : PoolTick) : TickMap :=
  { self with ticks := self.ticks.insert tickData.value tickData }

/-- `self.ticks.entry(tick)` written back. -/
def putTick (tickData : PoolTick) : TickMap :=
  { self with ticks := self.ticks.insert tick tickData }

/-- The growth outside a tick on the side given (`mod.rs:104-127`). -/
def growthBelow (currentTick : Int) (tick : PoolTick) (feeGrowthGlobal feeGrowthOutside : Nat) :
    Nat :=
  if tick.value ≤ currentTick then feeGrowthOutside else U256.sub feeGrowthGlobal feeGrowthOutside

@[inherit_doc growthBelow]
def growthAbove (currentTick : Int) (tick : PoolTick) (feeGrowthGlobal feeGrowthOutside : Nat) :
    Nat :=
  if currentTick < tick.value then feeGrowthOutside else U256.sub feeGrowthGlobal feeGrowthOutside

/-- `mod.rs:85`, which stores both ticks. -/
def getFeeGrowthInside (lowerTick upperTick currentTick : Int)
    (feeGrowthGlobal0 feeGrowthGlobal1 : Nat) : TickMap × Nat × Nat :=
  let self := self.putTick lowerTick (self.tickOrInit lowerTick)
  let self := self.putTick upperTick (self.tickOrInit upperTick)
  let lower := self.tickOrInit lowerTick
  let upper := self.tickOrInit upperTick
  let below0 := growthBelow currentTick lower feeGrowthGlobal0 lower.feeGrowthOutside0
  let below1 := growthBelow currentTick lower feeGrowthGlobal1 lower.feeGrowthOutside1
  let above0 := growthAbove currentTick upper feeGrowthGlobal0 upper.feeGrowthOutside0
  let above1 := growthAbove currentTick upper feeGrowthGlobal1 upper.feeGrowthOutside1
  (self, U256.sub (U256.sub feeGrowthGlobal0 below0) above0,
    U256.sub (U256.sub feeGrowthGlobal1 below1) above1)

/-- What a change of liquidity makes of a tick (`mod.rs:146-160`). -/
def touched (before after : PoolTick) (tickCurrent : Int)
    (feeGrowthGlobal0 feeGrowthGlobal1 : Nat) : PoolTick :=
  if before.liquidityGross = 0 then
    if after.value ≤ tickCurrent then
      { after with
        feeGrowthOutside0 := feeGrowthGlobal0
        feeGrowthOutside1 := feeGrowthGlobal1
        initialized := true }
    else { after with initialized := true }
  else after

/-- `update_tick_data` (`mod.rs:137`) with the flip it reports. -/
def updateTickData (tick tickCurrent : Int) (liquidityDelta : Int) (upper : Bool)
    (feeGrowthGlobal0 feeGrowthGlobal1 : Nat) : Option (TickMap × Bool) := do
  let before := self.tickOrInit tick
  let after ← before.updateLiquidity liquidityDelta upper
  if after.liquidityGross ≤ self.maxLiquidityPerTick then
    some (self.putTick tick (touched before after tickCurrent feeGrowthGlobal0 feeGrowthGlobal1),
      (after.liquidityGross == 0) != (before.liquidityGross == 0))
  else none

def update (tick tickCurrent : Int) (liquidityDelta : Int) (upper : Bool)
    (feeGrowthGlobal0 feeGrowthGlobal1 : Nat) : Option (TickMap × Bool) := do
  let updated ← self.updateTickData tick tickCurrent liquidityDelta upper feeGrowthGlobal0
    feeGrowthGlobal1
  if updated.2 then
    (updated.1.tickBitmap.flipTick tick).map fun tickBitmap =>
      ({ updated.1 with tickBitmap }, true)
  else some (updated.1, false)

/-- `cross_tick` (`mod.rs:197`) with the net liquidity it returns. -/
def crossTick (feeGrowthGlobal0 feeGrowthGlobal1 : Nat) : TickMap × Int :=
  let tickData := (self.tickOrInit tick).updateFeeGrowth feeGrowthGlobal0 feeGrowthGlobal1
  (self.putTick tick tickData, tickData.liquidityNet)

def restoreTick (tickData : PoolTick) : Option TickMap :=
  let restored := self.setTick tickData
  if tickData.initialized then
    (restored.tickBitmap.flipTick tickData.value).map fun tickBitmap =>
      { restored with tickBitmap }
  else some restored

def clear : TickMap := { self with ticks := self.ticks.remove tick }

def nextInitializedTick (lte : Bool) : Int × Bool :=
  self.tickBitmap.nextInitializedTickWithinOneWord tick lte

end TickMap

/-! ## Positions -/

structure Address where
  value : String
deriving DecidableEq

structure PoolPosition where
  owner : Address
  tickLower : Int
  tickUpper : Int
  liquidity : Nat
  feeGrowthInside0Last : Nat
  feeGrowthInside1Last : Nat
  tokensOwed0 : Nat
  tokensOwed1 : Nat
  totalAmount0Deposited : Nat
  totalAmount1Deposited : Nat
  totalAmount0Collected : Nat
  totalAmount1Collected : Nat
deriving DecidableEq

/-- What `get_position_key` (`position.rs:84`) formats. -/
structure PositionKey where
  owner : Address
  tickLower : Int
  tickUpper : Int
deriving DecidableEq

namespace PositionKey

def cmp : PositionKey → PositionKey → Ordering :=
  compareLex (compareOn fun k => k.owner.value)
    (compareLex (compareOn fun k => k.tickLower) (compareOn fun k => k.tickUpper))

instance : Std.TransCmp cmp :=
  inferInstanceAs (Std.TransCmp (compareLex (compareOn fun k : PositionKey => k.owner.value)
    (compareLex (compareOn fun k => k.tickLower) (compareOn fun k => k.tickUpper))))

instance : Std.LawfulEqCmp cmp where
  eq_of_compare {a b} h := by
    simp only [cmp, compareLex, compareOn, Ordering.then_eq_eq, Std.LawfulEqOrd.compare_eq_iff_eq]
      at h
    obtain ⟨⟨owner⟩, lower, upper⟩ := a
    obtain ⟨⟨owner'⟩, lower', upper'⟩ := b
    obtain ⟨rfl, rfl, rfl⟩ := h
    rfl

end PositionKey

namespace PoolPosition

/-- `PoolPosition::new` (`position.rs:64`) without liquidity, as the profiler calls it. -/
def new (owner : Address) (tickLower tickUpper : Int) : PoolPosition :=
  ⟨owner, tickLower, tickUpper, 0, 0, 0, 0, 0, 0, 0, 0, 0⟩

variable (self : PoolPosition)

def key : PositionKey := ⟨self.owner, self.tickLower, self.tickUpper⟩

/-- `position.rs:92`, saturating. -/
def updateLiquidity (liquidityDelta : Int) : PoolPosition :=
  { self with
    liquidity := if liquidityDelta < 0 then self.liquidity - liquidityDelta.natAbs
      else min (self.liquidity + liquidityDelta.natAbs) (2 ^ 128 - 1) }

/-- The fees of one token (`position.rs:107-121`). -/
def feesOwed (liquidity feeGrowthInside feeGrowthInsideLast : Nat) : Nat :=
  FullMath.truncateToU128
    (orZero (FullMath.mulDiv (feeGrowthInside - feeGrowthInsideLast) liquidity (2 ^ 128)))

def updateFees (feeGrowthInside0 feeGrowthInside1 : Nat) : PoolPosition :=
  let self := if 0 < self.liquidity then
    { self with
      tokensOwed0 := Word.add 128 self.tokensOwed0
        (feesOwed self.liquidity feeGrowthInside0 self.feeGrowthInside0Last)
      tokensOwed1 := Word.add 128 self.tokensOwed1
        (feesOwed self.liquidity feeGrowthInside1 self.feeGrowthInside1Last) }
    else self
  { self with
    feeGrowthInside0Last := feeGrowthInside0
    feeGrowthInside1Last := feeGrowthInside1 }

def collectFees (amount0 amount1 : Nat) : PoolPosition :=
  let collect0 := min amount0 self.tokensOwed0
  let collect1 := min amount1 self.tokensOwed1
  { self with
    tokensOwed0 := self.tokensOwed0 - collect0
    tokensOwed1 := self.tokensOwed1 - collect1
    totalAmount0Collected := Word.add 128 self.totalAmount0Collected collect0
    totalAmount1Collected := Word.add 128 self.totalAmount1Collected collect1 }

def updateAmounts (liquidityDelta : Int) (amount0 amount1 : Nat) : PoolPosition :=
  if 0 < liquidityDelta then
    { self with
      totalAmount0Deposited := U256.add self.totalAmount0Deposited amount0
      totalAmount1Deposited := U256.add self.totalAmount1Deposited amount1 }
  else
    { self with
      tokensOwed0 := Word.add 128 self.tokensOwed0 (FullMath.truncateToU128 amount0)
      tokensOwed1 := Word.add 128 self.tokensOwed1 (FullMath.truncateToU128 amount1) }

def isEmpty : Bool :=
  self.liquidity == 0 && self.tokensOwed0 == 0 && self.tokensOwed1 == 0

end PoolPosition

end Nautilus
