import Nautilus.Orders.Core
import Nautilus.Pool.TickMap

/-!
# The pool profiler

`PoolProfiler` (`pool_analysis/profiler.rs`): a Uniswap V3 pool rebuilt from its events (`process`)
or moved by simulated operations (`execute_*`). A swap is simulated on a copy of the state
(`simulate_swap_through_ticks`), tick range by tick range, and its quote applied afterwards. **The
simulation is a loop without a bound**, so what runs it takes fuel; a fallible method returns the
state it leaves with its result, `none` where it panics or does not return.
-/

namespace Nautilus

open Lib U256

/-! ## Data -/

/-- `amm.rs:66`. The profiler refuses a pool without a spacing, and casts it to an `i32`. -/
structure Pool where
  fee : Option Nat
  tickSpacing : Nat
  initialTick : Option Int
  spacing_pos : 0 < tickSpacing
  spacing_lt : tickSpacing < 2 ^ 31

/-- `BlockPosition`, where an event stands on the chain. -/
structure BlockPosition where
  number : Nat
  transactionHash : String
  transactionIndex : Nat
  logIndex : Nat
deriving DecidableEq

structure PoolState where
  currentTick : Int
  priceSqrtRatioX96 : Nat
  liquidity : Nat
  protocolFeesToken0 : Nat
  protocolFeesToken1 : Nat
  feeProtocol : Nat
  feeGrowthGlobal0 : Nat
  feeGrowthGlobal1 : Nat
deriving DecidableEq

def PoolState.default : PoolState := ⟨0, 0, 0, 0, 0, 0, 0, 0⟩

structure PoolAnalytics where
  totalAmount0Deposited : Nat
  totalAmount1Deposited : Nat
  totalAmount0Collected : Nat
  totalAmount1Collected : Nat
  totalSwaps : Nat
  totalMints : Nat
  totalBurns : Nat
  totalFeeCollects : Nat
  totalFlashes : Nat
  liquidityUtilizationRate : ℚ
deriving DecidableEq

def PoolAnalytics.default : PoolAnalytics := ⟨0, 0, 0, 0, 0, 0, 0, 0, 0, 0⟩

structure PoolSwap where
  block : BlockPosition
  amount0 : Int
  amount1 : Int
  sqrtPriceX96 : Nat
  liquidity : Nat
  tick : Int
deriving DecidableEq

inductive PoolLiquidityUpdateType where
  | mint
  | burn
deriving DecidableEq

structure PoolLiquidityUpdate where
  kind : PoolLiquidityUpdateType
  block : BlockPosition
  owner : Address
  positionLiquidity : Nat
  amount0 : Nat
  amount1 : Nat
  tickLower : Int
  tickUpper : Int
deriving DecidableEq

structure PoolFeeCollect where
  block : BlockPosition
  owner : Address
  amount0 : Nat
  amount1 : Nat
  tickLower : Int
  tickUpper : Int
deriving DecidableEq

structure PoolFlash where
  block : BlockPosition
  paid0 : Nat
  paid1 : Nat
deriving DecidableEq

inductive DexPoolData where
  | swap (event : PoolSwap)
  | liquidityUpdate (event : PoolLiquidityUpdate)
  | feeCollect (event : PoolFeeCollect)
  | flash (event : PoolFlash)
deriving DecidableEq

def DexPoolData.block : DexPoolData → BlockPosition
  | .swap event => event.block
  | .liquidityUpdate event => event.block
  | .feeCollect event => event.block
  | .flash event => event.block

structure CrossedTick where
  tick : Int
  zeroForOne : Bool
  feeGrowth0 : Nat
  feeGrowth1 : Nat
deriving DecidableEq

structure SwapQuote where
  amount0 : Int
  amount1 : Int
  sqrtPriceBeforeX96 : Nat
  sqrtPriceAfterX96 : Nat
  tickBefore : Int
  tickAfter : Int
  liquidityAfter : Nat
  feeGrowthGlobalAfter : Nat
  lpFee : Nat
  protocolFee : Nat
  crossedTicks : List CrossedTick
deriving DecidableEq

def SwapQuote.zeroForOne (self : SwapQuote) : Bool := 0 < self.amount0

/-- Without its progress reporter. -/
structure PoolProfiler where
  pool : Pool
  positions : OrdMap PositionKey.cmp PoolPosition
  tickMap : TickMap
  state : PoolState
  analytics : PoolAnalytics
  lastProcessedEvent : Option BlockPosition
  isInitialized : Bool

/-- `I256` subtraction and addition, which wrap. -/
def I256.sub (a b : Int) : Int := Int.bmod (a - b) (2 ^ 256)

@[inherit_doc I256.sub]
def I256.add (a b : Int) : Int := Int.bmod (a + b) (2 ^ 256)

/-! ## The simulation of a swap -/

/-- The direction, kind and bounds of a swap. -/
structure SwapTerms where
  zeroForOne : Bool
  exactInput : Bool
  sqrtPriceLimitX96 : Nat
  feeTier : Nat
  feeProtocol : Nat

/-- The local variables of `simulate_swap_through_ticks`. -/
structure SwapLoop where
  currentSqrtPrice : Nat
  currentTick : Int
  currentActiveLiquidity : Nat
  amountSpecifiedRemaining : Int
  amountCalculated : Int
  protocolFee : Nat
  lpFee : Nat
  crossedTicks : List CrossedTick
  currentFeeGrowthGlobal : Nat

namespace SwapLoop

/-- The loop is left. -/
def done (s : SwapLoop) (terms : SwapTerms) : Bool :=
  s.amountSpecifiedRemaining = 0 ∨ terms.sqrtPriceLimitX96 = s.currentSqrtPrice

/-- The price and the amounts after a step. -/
def exchange (s : SwapLoop) (terms : SwapTerms) (step : SwapStepResult) : SwapLoop :=
  let paid := FullMath.truncateToI256 (U256.add step.amountIn step.feeAmount)
  let received := FullMath.truncateToI256 step.amountOut
  { s with
    currentSqrtPrice := step.sqrtRatioNextX96
    amountSpecifiedRemaining :=
      if terms.exactInput then I256.sub s.amountSpecifiedRemaining paid
      else I256.add s.amountSpecifiedRemaining received
    amountCalculated :=
      if terms.exactInput then I256.sub s.amountCalculated received
      else I256.add s.amountCalculated paid }

/-- The fees of a step. -/
def accrue (s : SwapLoop) (terms : SwapTerms) (feeAmount : Nat) : PoolM SwapLoop :=
  let protocolFeeDelta := if 0 < terms.feeProtocol then feeAmount / terms.feeProtocol else 0
  let stepFeeAmount := U256.sub feeAmount protocolFeeDelta
  let s := { s with
    protocolFee := U256.add s.protocolFee protocolFeeDelta
    lpFee := U256.add s.lpFee stepFeeAmount }
  if 0 < s.currentActiveLiquidity then do
    let feeGrowthDelta ← .fails (FullMath.mulDiv stepFeeAmount (2 ^ 128) s.currentActiveLiquidity)
    pure { s with currentFeeGrowthGlobal := U256.add s.currentFeeGrowthGlobal feeGrowthDelta }
  else pure s

end SwapLoop

namespace PoolProfiler

variable (self : PoolProfiler)

/-- Crossing an initialized tick. -/
def cross (zeroForOne : Bool) (tickNext : Int) (s : SwapLoop) : Option SwapLoop :=
  let crossed : CrossedTick :=
    { tick := tickNext
      zeroForOne
      feeGrowth0 := if zeroForOne then s.currentFeeGrowthGlobal else self.state.feeGrowthGlobal0
      feeGrowth1 := if zeroForOne then self.state.feeGrowthGlobal1 else s.currentFeeGrowthGlobal }
  let s := { s with crossedTicks := s.crossedTicks ++ [crossed] }
  match self.tickMap.getTick tickNext with
  | some tickData =>
    (liquidityMathAdd s.currentActiveLiquidity
      (if zeroForOne then -tickData.liquidityNet else tickData.liquidityNet)).map
        fun currentActiveLiquidity => { s with currentActiveLiquidity }
  | none => some s

/-- The tick after a step from the price `sqrtPriceStart`. -/
def shift (zeroForOne : Bool) (sqrtPriceStart sqrtPriceNext : Nat)
    (tickNext : Int) (initialized : Bool) (s : SwapLoop) : Option SwapLoop :=
  if s.currentSqrtPrice = sqrtPriceNext then
    (if initialized then self.cross zeroForOne tickNext s else some s).map fun s =>
      { s with currentTick := if zeroForOne then tickNext - 1 else tickNext }
  else if s.currentSqrtPrice ≠ sqrtPriceStart then
    (getTickAtSqrtRatio s.currentSqrtPrice).map fun currentTick => { s with currentTick }
  else some s

/-- The price a step aims at: that of the next tick or the limit, if nearer.
-/
def targetPrice (terms : SwapTerms) (sqrtPriceNext : Nat) : Nat :=
  if (terms.zeroForOne && decide (sqrtPriceNext < terms.sqrtPriceLimitX96)) ||
      (!terms.zeroForOne && decide (terms.sqrtPriceLimitX96 < sqrtPriceNext)) then
    terms.sqrtPriceLimitX96
  else sqrtPriceNext

/-- The tick a step aims at and whether it is initialized. -/
def tickAhead (terms : SwapTerms) (currentTick : Int) : Int × Bool :=
  let (tickNext, initialized) := self.tickMap.nextInitializedTick currentTick terms.zeroForOne
  (max PoolTick.minTick (min tickNext PoolTick.maxTick), initialized)

/-- The body of the loop. -/
def swapStep (terms : SwapTerms) (s : SwapLoop) : PoolM SwapLoop := do
  let ahead := self.tickAhead terms s.currentTick
  let sqrtPriceNext ← .panics (getSqrtRatioAtTick ahead.1)
  let step ← computeSwapStep s.currentSqrtPrice (targetPrice terms sqrtPriceNext)
    s.currentActiveLiquidity s.amountSpecifiedRemaining terms.feeTier
  let accrued ← (s.exchange terms step).accrue terms step.feeAmount
  .panics (self.shift terms.zeroForOne s.currentSqrtPrice sqrtPriceNext ahead.1 ahead.2 accrued)

/-- One round: the loop is left, goes on, panics or returns an error. -/
def swapRound (terms : SwapTerms) (s : SwapLoop) : SwapLoop ⊕ Option (Except PoolError SwapLoop) :=
  if s.done terms then .inr (some (.ok s))
  else
    match (self.swapStep terms s).run with
    | some (.ok s') => .inl s'
    | result => .inr result

/-- The local variables at the start. -/
def swapStart (amountSpecified : Int) (zeroForOne : Bool) : SwapLoop :=
  { currentSqrtPrice := self.state.priceSqrtRatioX96
    currentTick := self.state.currentTick
    currentActiveLiquidity := self.tickMap.liquidity
    amountSpecifiedRemaining := amountSpecified
    amountCalculated := 0
    protocolFee := 0
    lpFee := 0
    crossedTicks := []
    currentFeeGrowthGlobal :=
      if zeroForOne then self.state.feeGrowthGlobal0 else self.state.feeGrowthGlobal1 }

def swapTerms (amountSpecified : Int) (zeroForOne : Bool)
    (sqrtPriceLimitX96 feeTier : Nat) : SwapTerms :=
  { zeroForOne
    exactInput := 0 < amountSpecified
    sqrtPriceLimitX96
    feeTier
    feeProtocol := if zeroForOne then self.state.feeProtocol % 16 else self.state.feeProtocol >>> 4 }

/-- The quote at the end of the loop. -/
def swapQuote (amountSpecified : Int) (zeroForOne : Bool) (s : SwapLoop) : SwapQuote :=
  let used := I256.sub amountSpecified s.amountSpecifiedRemaining
  let exactInput : Bool := 0 < amountSpecified
  { amount0 := if zeroForOne = exactInput then used else s.amountCalculated
    amount1 := if zeroForOne = exactInput then s.amountCalculated else used
    sqrtPriceBeforeX96 := self.state.priceSqrtRatioX96
    sqrtPriceAfterX96 := s.currentSqrtPrice
    tickBefore := self.state.currentTick
    tickAfter := s.currentTick
    liquidityAfter := s.currentActiveLiquidity
    feeGrowthGlobalAfter := s.currentFeeGrowthGlobal
    lpFee := s.lpFee
    protocolFee := s.protocolFee
    crossedTicks := s.crossedTicks }

/-- `simulate_swap_through_ticks` in at most `fuel` rounds. -/
def simulateSwapThroughTicks (fuel : Nat) (amountSpecified : Int)
    (zeroForOne : Bool) (sqrtPriceLimitX96 : Nat) : PoolM SwapQuote := do
  let feeTier ← .panics self.pool.fee
  let terms := self.swapTerms amountSpecified zeroForOne sqrtPriceLimitX96 feeTier
  let last ← ExceptT.mk
    (loop (self.swapRound terms) fuel (self.swapStart amountSpecified zeroForOne)).join
  pure (self.swapQuote amountSpecified zeroForOne last)

/-! ## Applying a swap -/

/-- One crossing of `apply_swap_quote`. -/
def applyCrossing (tickMap : TickMap) (crossed : CrossedTick) : Option TickMap :=
  let (tickMap, liquidityNet) :=
    tickMap.crossTick crossed.tick crossed.feeGrowth0 crossed.feeGrowth1
  (liquidityMathAdd tickMap.liquidity
    (if crossed.zeroForOne then -liquidityNet else liquidityNet)).map
      fun liquidity => { tickMap with liquidity }

def applySwapQuote (quote : SwapQuote) : Option PoolProfiler :=
  let state := { self.state with
    currentTick := quote.tickAfter
    priceSqrtRatioX96 := quote.sqrtPriceAfterX96 }
  let state := if quote.zeroForOne then
    { state with
      feeGrowthGlobal0 := quote.feeGrowthGlobalAfter
      protocolFeesToken0 := U256.add state.protocolFeesToken0 quote.protocolFee }
    else
    { state with
      feeGrowthGlobal1 := quote.feeGrowthGlobalAfter
      protocolFeesToken1 := U256.add state.protocolFeesToken1 quote.protocolFee }
  (quote.crossedTicks.foldlM applyCrossing self.tickMap).map fun tickMap =>
    { self with
      state
      tickMap
      analytics := { self.analytics with totalSwaps := self.analytics.totalSwaps + 1 } }

/-! ## Positions -/

def validateTicks (tickLower tickUpper : Int) : Except PoolError Unit :=
  if tickUpper ≤ tickLower then .error (.invalidTickRange tickLower tickUpper)
  else if tickLower.tmod self.pool.tickSpacing ≠ 0 ∨ tickUpper.tmod self.pool.tickSpacing ≠ 0 then
    .error (.ticksNotMultiples tickLower tickUpper)
  else if tickLower < PoolTick.minTick ∨ PoolTick.maxTick < tickUpper then
    .error (.invalidTickBounds tickLower tickUpper)
  else .ok ()

/-- `update_position` after its check: tick map, position, active liquidity. -/
def changeLiquidity (position : PoolPosition) (liquidityDelta : Int)
    (amount0 amount1 : Nat) : Option PoolProfiler := do
  let currentTick := self.state.currentTick
  let growth0 := self.state.feeGrowthGlobal0
  let growth1 := self.state.feeGrowthGlobal1
  let lower ← self.tickMap.update position.tickLower currentTick liquidityDelta false growth0 growth1
  let upper ← lower.1.update position.tickUpper currentTick liquidityDelta true growth0 growth1
  let (tickMap, inside0, inside1) := upper.1.getFeeGrowthInside position.tickLower
    position.tickUpper currentTick growth0 growth1
  let updated := ((position.updateLiquidity liquidityDelta).updateFees inside0 inside1).updateAmounts
    liquidityDelta amount0 amount1
  let liquidity ← (if position.tickLower ≤ currentTick ∧ currentTick < position.tickUpper then
    liquidityMathAdd tickMap.liquidity liquidityDelta else some tickMap.liquidity)
  let tickMap := { tickMap with liquidity }
  let tickMap := if liquidityDelta < 0 ∧ lower.2 then tickMap.clear position.tickLower else tickMap
  let tickMap := if liquidityDelta < 0 ∧ upper.2 then tickMap.clear position.tickUpper else tickMap
  return { self with tickMap, positions := self.positions.insert position.key updated }

/-- The position of `update_position`, entered into the map if it is new. -/
def positionOrInsert (owner : Address) (tickLower tickUpper : Int) : PoolPosition :=
  (self.positions.get? ⟨owner, tickLower, tickUpper⟩).getD (.new owner tickLower tickUpper)

/-- A refused burn leaves the position it looked up. -/
def updatePosition (owner : Address) (tickLower tickUpper : Int)
    (liquidityDelta : Int) (amount0 amount1 : Nat) : Outcome PoolError PoolProfiler :=
  let position := self.positionOrInsert owner tickLower tickUpper
  let self := { self with
    positions := self.positions.insert ⟨owner, tickLower, tickUpper⟩ position }
  if liquidityDelta < 0 ∧ position.liquidity < liquidityDelta.natAbs then
    some (self, .error (.positionLiquidityLess position.liquidity liquidityDelta.natAbs))
  else (self.changeLiquidity position liquidityDelta amount0 amount1).map (·, .ok ())

/-- `i128::try_from(liquidity)`. -/
def toLiquidityDelta (liquidity : Nat) : Except PoolError Int :=
  if liquidity < 2 ^ 127 then .ok liquidity else .error (.liquidityExceedsMax liquidity)

def addLiquidity (owner : Address) (tickLower tickUpper : Int)
    (liquidity amount0 amount1 : Nat) : Outcome PoolError PoolProfiler :=
  match toLiquidityDelta liquidity with
  | .error e => some (self, .error e)
  | .ok liquidityDelta =>
    (self.updatePosition owner tickLower tickUpper liquidityDelta amount0 amount1).map fun
      | (self, .error e) => (self, .error e)
      | (self, .ok ()) =>
        ({ self with analytics :=
          { self.analytics with
            totalAmount0Deposited := U256.add self.analytics.totalAmount0Deposited amount0
            totalAmount1Deposited := U256.add self.analytics.totalAmount1Deposited amount1 } },
          .ok ())

/-- What `process_burn` and `execute_burn` share. -/
def removeLiquidity (owner : Address) (tickLower tickUpper : Int)
    (liquidity amount0 amount1 : Nat) : Outcome PoolError PoolProfiler :=
  match toLiquidityDelta liquidity with
  | .error e => some (self, .error e)
  | .ok liquidityDelta =>
    self.updatePosition owner tickLower tickUpper (-liquidityDelta) amount0 amount1

/-- The growth and the protocol fee that `paid` of a token leaves. -/
def flashFees (feeProtocol protocolFees feeGrowthGlobal liquidity paid : Nat) :
    Nat × Except PoolError Nat :=
  let protocolFee := if 0 < feeProtocol then paid / feeProtocol else 0
  (if 0 < protocolFee then U256.add protocolFees protocolFee else protocolFees,
    (FullMath.mulDiv (U256.sub paid protocolFee) (2 ^ 128) liquidity).map
      (U256.add feeGrowthGlobal))

/-- The token 0 part of `update_flash_state`. -/
def flash0 (state : PoolState) (liquidity paid0 : Nat) : PoolState × Except PoolError Unit :=
  if 0 < paid0 then
    let (fees, growth) := flashFees (state.feeProtocol % 16) state.protocolFeesToken0
      state.feeGrowthGlobal0 liquidity paid0
    match growth with
    | .error e => ({ state with protocolFeesToken0 := fees }, .error e)
    | .ok growth =>
      ({ state with protocolFeesToken0 := fees, feeGrowthGlobal0 := growth }, .ok ())
  else (state, .ok ())

/-- The token 1 part of `update_flash_state`. -/
def flash1 (state : PoolState) (liquidity paid1 : Nat) : PoolState × Except PoolError Unit :=
  if 0 < paid1 then
    let (fees, growth) := flashFees (state.feeProtocol >>> 4) state.protocolFeesToken1
      state.feeGrowthGlobal1 liquidity paid1
    match growth with
    | .error e => ({ state with protocolFeesToken1 := fees }, .error e)
    | .ok growth =>
      ({ state with protocolFeesToken1 := fees, feeGrowthGlobal1 := growth }, .ok ())
  else (state, .ok ())

def updateFlashState (paid0 paid1 : Nat) : PoolProfiler × Except PoolError Unit :=
  if self.tickMap.liquidity = 0 then (self, .error .noLiquidity)
  else
    match flash0 self.state self.tickMap.liquidity paid0 with
    | (state, .error e) => ({ self with state }, .error e)
    | (state, .ok ()) =>
      let (state, result) := flash1 state self.tickMap.liquidity paid1
      ({ self with state }, result)

def cleanupPositionIfEmpty (key : PositionKey) : PoolProfiler :=
  match self.positions.get? key with
  | some position =>
    if position.isEmpty then { self with positions := self.positions.remove key } else self
  | none => self

/-! ## Analytics -/

def getTotalLiquidity : Nat :=
  (self.positions.values.map (·.liquidity)).foldl U256.add 0

/-- The rate is cast to a `u64` on the way. -/
def updateLiquidityAnalytics : Option PoolProfiler :=
  let total := self.getTotalLiquidity
  let ratio := if total = 0 then 0
    else orZero (FullMath.mulDiv self.tickMap.liquidity 1000000 total)
  if ratio < 2 ^ 64 then
    some { self with analytics :=
      { self.analytics with liquidityUtilizationRate := ratio / 1000000 } }
  else none

/-! ## Events -/

def checkIfAlreadyProcessed (block : BlockPosition) : Bool :=
  match self.lastProcessedEvent with
  | some last =>
    block.number < last.number ∨
      (block.number = last.number ∧ block.transactionIndex < last.transactionIndex) ∨
      (block.number = last.number ∧ block.transactionIndex = last.transactionIndex ∧
        block.logIndex ≤ last.logIndex)
  | none => false

/-- What every handler ends with. -/
def finishEvent (block : BlockPosition) : Outcome PoolError PoolProfiler :=
  ({ self with lastProcessedEvent := some block }.updateLiquidityAnalytics).map (·, .ok ())

/-- The corrections of `process_swap`. -/
def correctFrom (swap : PoolSwap) : PoolProfiler :=
  { self with
    state := { self.state with
      currentTick := if swap.tick ≠ self.state.currentTick then swap.tick
        else self.state.currentTick }
    tickMap := { self.tickMap with
      liquidity := if swap.liquidity ≠ self.tickMap.liquidity then swap.liquidity
        else self.tickMap.liquidity } }

def processSwap (fuel : Nat) (swap : PoolSwap) : Outcome PoolError PoolProfiler :=
  if !self.isInitialized then none
  else if self.checkIfAlreadyProcessed swap.block then some (self, .ok ())
  else
    let zeroForOne : Bool := 0 < swap.amount0
    let amountSpecified := if zeroForOne then swap.amount0 else swap.amount1
    match (self.simulateSwapThroughTicks fuel amountSpecified zeroForOne swap.sqrtPriceX96).run with
    | none => none
    | some (.error e) => some (self, .error e)
    | some (.ok quote) =>
      (self.applySwapQuote quote).bind fun applied =>
        (applied.correctFrom swap).finishEvent swap.block

def processMint (update : PoolLiquidityUpdate) : Outcome PoolError PoolProfiler :=
  if !self.isInitialized then none
  else if self.checkIfAlreadyProcessed update.block then some (self, .ok ())
  else
    match self.validateTicks update.tickLower update.tickUpper with
    | .error e => some (self, .error e)
    | .ok () =>
      (self.addLiquidity update.owner update.tickLower update.tickUpper update.positionLiquidity
        update.amount0 update.amount1).bind fun
        | (self, .error e) => some (self, .error e)
        | (self, .ok ()) =>
          { self with analytics :=
            { self.analytics with totalMints := self.analytics.totalMints + 1 } }.finishEvent
              update.block

def processBurn (update : PoolLiquidityUpdate) : Outcome PoolError PoolProfiler :=
  if !self.isInitialized then none
  else if self.checkIfAlreadyProcessed update.block then some (self, .ok ())
  else
    match self.validateTicks update.tickLower update.tickUpper with
    | .error e => some (self, .error e)
    | .ok () =>
      (self.removeLiquidity update.owner update.tickLower update.tickUpper
        update.positionLiquidity update.amount0 update.amount1).bind fun
        | (self, .error e) => some (self, .error e)
        | (self, .ok ()) =>
          { self with analytics :=
            { self.analytics with totalBurns := self.analytics.totalBurns + 1 } }.finishEvent
              update.block

/-- The position of a collect event. -/
def collectPosition (key : PositionKey) (amount0 amount1 : Nat) : PoolProfiler :=
  match self.positions.get? key with
  | some position =>
    { self with positions :=
      self.positions.insert key (position.collectFees amount0 amount1) }.cleanupPositionIfEmpty key
  | none => self

def processCollect (collect : PoolFeeCollect) : Outcome PoolError PoolProfiler :=
  if !self.isInitialized then none
  else if self.checkIfAlreadyProcessed collect.block then some (self, .ok ())
  else
    let self := self.collectPosition ⟨collect.owner, collect.tickLower, collect.tickUpper⟩
      collect.amount0 collect.amount1
    { self with analytics :=
      { self.analytics with
        totalAmount0Collected := U256.add self.analytics.totalAmount0Collected collect.amount0
        totalAmount1Collected := U256.add self.analytics.totalAmount1Collected collect.amount1
        totalFeeCollects := self.analytics.totalFeeCollects + 1 } }.finishEvent collect.block

def processFlash (flash : PoolFlash) : Outcome PoolError PoolProfiler :=
  if !self.isInitialized then none
  else if self.checkIfAlreadyProcessed flash.block then some (self, .ok ())
  else
    match self.updateFlashState flash.paid0 flash.paid1 with
    | (self, .error e) => some (self, .error e)
    | (self, .ok ()) =>
      { self with analytics :=
        { self.analytics with totalFlashes := self.analytics.totalFlashes + 1 } }.finishEvent
          flash.block

def process (fuel : Nat) (event : DexPoolData) : Outcome PoolError PoolProfiler :=
  if self.checkIfAlreadyProcessed event.block then some (self, .ok ())
  else
    match event with
    | .swap swap => self.processSwap fuel swap
    | .liquidityUpdate update =>
      match update.kind with
      | .mint => self.processMint update
      | .burn => self.processBurn update
    | .feeCollect collect => self.processCollect collect
    | .flash flash => self.processFlash flash

/-! ## Simulated operations -/

def executeSwap (fuel : Nat) (zeroForOne : Bool) (amountSpecified : Int)
    (sqrtPriceLimitX96 : Nat) : Outcome PoolError PoolProfiler :=
  if !self.isInitialized then none
  else
    match (self.simulateSwapThroughTicks fuel amountSpecified zeroForOne sqrtPriceLimitX96).run with
    | none => none
    | some (.error e) => some (self, .error e)
    | some (.ok quote) => (self.applySwapQuote quote).map (·, .ok ())

def executeMint (recipient : Address) (tickLower tickUpper : Int)
    (liquidity : Nat) : Outcome PoolError PoolProfiler :=
  if !self.isInitialized then none
  else
    match self.validateTicks tickLower tickUpper with
    | .error e => some (self, .error e)
    | .ok () =>
      (getAmountsForLiquidity self.state.priceSqrtRatioX96 tickLower tickUpper liquidity true).bind
        fun (amount0, amount1) =>
          (self.addLiquidity recipient tickLower tickUpper liquidity amount0 amount1).map fun
            | (self, .error e) => (self, .error e)
            | (self, .ok ()) =>
              ({ self with analytics :=
                { self.analytics with totalMints := self.analytics.totalMints + 1 } }, .ok ())

def executeBurn (recipient : Address) (tickLower tickUpper : Int)
    (liquidity : Nat) : Outcome PoolError PoolProfiler :=
  if !self.isInitialized then none
  else
    match self.validateTicks tickLower tickUpper with
    | .error e => some (self, .error e)
    | .ok () =>
      (getAmountsForLiquidity self.state.priceSqrtRatioX96 tickLower tickUpper liquidity false).bind
        fun (amount0, amount1) =>
          (self.removeLiquidity recipient tickLower tickUpper liquidity amount0 amount1).map fun
            | (self, .error e) => (self, .error e)
            | (self, .ok ()) =>
              ({ self with analytics :=
                { self.analytics with totalBurns := self.analytics.totalBurns + 1 } }, .ok ())

/-- The fee of a flash loan. -/
def flashPaid (amount feeTier : Nat) : Except PoolError Nat :=
  if 0 < amount then FullMath.mulDivRoundingUp amount feeTier 1000000 else .ok 0

def executeFlash (amount0 amount1 : Nat) : Outcome PoolError PoolProfiler :=
  if !self.isInitialized then none
  else
    self.pool.fee.bind fun feeTier =>
      match flashPaid amount0 feeTier, flashPaid amount1 feeTier with
      | .error e, _ => some (self, .error e)
      | .ok _, .error e => some (self, .error e)
      | .ok paid0, .ok paid1 =>
        match self.updateFlashState paid0 paid1 with
        | (self, .error e) => some (self, .error e)
        | (self, .ok ()) =>
          some ({ self with analytics :=
            { self.analytics with totalFlashes := self.analytics.totalFlashes + 1 } }, .ok ())

/-! ## Set-up -/

def new (pool : Pool) : PoolProfiler :=
  { pool
    positions := .empty
    tickMap := .new pool.tickSpacing
    state := .default
    analytics := .default
    lastProcessedEvent := none
    isInitialized := false }

/-- `initialize`. -/
def initializePool (priceSqrtRatioX96 : Nat) : Option PoolProfiler :=
  if self.isInitialized then none
  else do
    let calculatedTick ← getTickAtSqrtRatio priceSqrtRatioX96
    if self.pool.initialTick.all (· = calculatedTick) then
      some { self with
        state := { self.state with currentTick := calculatedTick, priceSqrtRatioX96 }
        isInitialized := true }
    else none

end PoolProfiler

end Nautilus
