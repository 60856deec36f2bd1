import Nautilus.Decimal
import Nautilus.Engine.Queue

/-!
# From a match to the fills

`fill_market_order` and `fill_limit_order` look the order up in the cache, ask the fill model or the
book for prices and sizes, and hand the clone, the fills and a snapshot of the position to
`apply_fills`.

The book is asked to fill the **whole quantity** of the order, not what is left of it
(`determine_limit_price_and_volume`, `determine_market_price_and_volume`); only with
`liquidity_consumption` is the answer cut down to the leaves.
-/

namespace Nautilus

open Lib Acting

namespace EngineM

variable [Build] [BookCode] (env : EngineEnv) (handlers : Handlers env)

/-! ## Prices and sizes -/

/-- `Price::max(FIXED_PRECISION)` or `Price::min(FIXED_PRECISION)`: any price will do. -/
def anyPrice : OrderSide → Option Price
  | .buy => some ⟨priceRawMax, fixedPrecision⟩
  | .sell => some ⟨priceRawMin, fixedPrecision⟩
  | .noOrderSide => none

/-- The levels of the book an order would take at a price. -/
def bookFills (book : OrderBook) (order : EngineOrder) (price : Price) (orderId : OrderId) :
    Option (List (Price × Quantity)) :=
  if env.config.liquidityConsumption then
    book.getAllCrossedLevels order.orderSide price env.instrument.sizePrecision
  else
    book.simulateFills ⟨order.orderSide, price, order.quantity, orderId⟩

variable (order : EngineOrder) (orderPrice : Price)

/-- The fill of a trade that the book does not reflect. -/
def tradeFill (fills : List (Price × Quantity)) (w : World) : Option (Option Quantity) := do
  let core := w.engine.core
  match w.engine.lastTradeSize, core.last with
  | some tradeSize, some tradePrice =>
    if fills.any fun fill => fill.1.raw = tradePrice.raw then return none
    else
      let side ← order.orderSide.asSpecified
      let remaining ← Quantity.fromRaw (tradeSize.raw - w.engine.tradeConsumption)
        tradeSize.precision
      let available := if env.config.liquidityConsumption then remaining else tradeSize
      let fillQty := order.leavesQty.minimum available
      return if core.isLimitMatched side orderPrice && !fillQty.isZero then some fillQty else none
  | _, _ => return none

/-- The prices of the core, kept for the end of the iteration. -/
def saveTargets {env : EngineEnv} : EngineM env Unit := do
  let w ← read
  let core := w.engine.core
  modifyData fun d =>
    { d with targetBid := core.bid, targetAsk := core.ask, targetLast := core.last }

/-- A taker triggered on the far side of its limit fills its first level at the trigger price. -/
def fillTakerFromTrigger {env : EngineEnv}
    (fills : List (Price × Quantity)) : EngineM env (List (Price × Quantity)) :=
  match fills, order.triggerPrice with
  | (_, triggeredQty) :: rest, some triggerPrice =>
    if order.liquiditySide ≠ some .taker then pure fills
    else if order.orderSide = .sell ∧ triggerPrice.raw < orderPrice.raw then do
      saveTargets
      setAskRaw orderPrice
      setLastRaw orderPrice
      return (triggerPrice, triggeredQty) :: rest
    else if order.orderSide = .buy ∧ orderPrice.raw < triggerPrice.raw then do
      saveTargets
      setBidRaw orderPrice
      setLastRaw orderPrice
      return (triggerPrice, triggeredQty) :: rest
    else pure fills
  | _, _ => pure fills

/-- The price the market of a filled maker is moved to. -/
def setOppositeRaw {env : EngineEnv} : OrderSideSpecified → Price → EngineM env Unit
  | .buy, price => setAskRaw price
  | .sell, price => setBidRaw price

/-- A maker fills at its limit, not at a better price of the book. -/
def fillMakerAtLimit {env : EngineEnv} (side : OrderSideSpecified) (orderPrice targetPrice : Price) :
    List (Price × Quantity) → EngineM env (List (Price × Quantity))
  | [] => pure []
  | (lastPx, qty) :: fills => do
    let isBetter : Bool :=
      match side with
      | .buy => lastPx.raw < orderPrice.raw
      | .sell => orderPrice.raw < lastPx.raw
    (if isBetter then do
      saveTargets
      setOppositeRaw side targetPrice
      setLastRaw targetPrice
    else pure ())
    let rest ← fillMakerAtLimit side orderPrice targetPrice fills
    return (if isBetter then targetPrice else lastPx, qty) :: rest

/-- The price a maker fills at: its limit, or the trigger price when that is nearer. -/
def makerPrice (side : OrderSideSpecified) (orderPrice : Price) : Price :=
  match order.triggerPrice with
  | some triggerPrice =>
    let isNearer : Bool :=
      match side with
      | .buy => triggerPrice.raw < orderPrice.raw
      | .sell => orderPrice.raw < triggerPrice.raw
    if isNearer then triggerPrice else orderPrice
  | none => orderPrice

/-- The adjustment of a maker's fills. -/
def fillMaker {env : EngineEnv} (fills : List (Price × Quantity)) :
    EngineM env (List (Price × Quantity)) :=
  if order.liquiditySide ≠ some .maker then pure fills
  else do
    let side ← Acting.ofOption order.orderSide.asSpecified
    fillMakerAtLimit side orderPrice (makerPrice order side orderPrice) fills

def determineLimitPriceAndVolume : EngineM env (List (Price × Quantity)) := do
  let w ← read
  let orderPrice ← Acting.ofOption order.price
  let fills ← Acting.ofOption (bookFills env w.engine.book order orderPrice 1)
  let traded ← Acting.ofOption (tradeFill env order orderPrice fills w)
  match traded with
  | some fillQty => do
    (if env.config.liquidityConsumption then
      modifyData fun d => { d with tradeConsumption := d.tradeConsumption + fillQty.raw }
    else pure ())
    return [(orderPrice, fillQty)]
  | none =>
    if fills.isEmpty then pure fills
    else do
      let adjusted ← fillTakerFromTrigger order orderPrice fills
      let adjusted ← fillMaker order orderPrice adjusted
      applyLiquidityConsumption env adjusted order.orderSide order.leavesQty (fills.map Prod.fst)

/-- The types that are filled at their trigger price while a bar moves through it. -/
def isTriggeredType (orderType : OrderType) : Bool :=
  orderType ∈ [OrderType.stopMarket, .trailingStopMarket, .marketIfTouched]

/-- A fill at the trigger price (`:3841-3845, 4002-4007`). -/
def isTriggerPriceFill (w : World) : Bool :=
  !w.engine.fillAtMarket && env.bookType = .l1Mbp && isTriggeredType order.orderType &&
    order.triggerPrice.isSome

/-- The fills up to the leaves; empty ones are dropped. -/
def capFills : Nat → List (Price × Quantity) → List (Price × Quantity)
  | _, [] => []
  | remaining, (price, qty) :: fills =>
    let capped := min qty.raw remaining
    if capped = 0 then capFills remaining fills
    else (price, ⟨capped, qty.precision⟩) :: capFills (remaining - capped) fills

def determineMarketPriceAndVolume (w : World) : Option (List (Price × Quantity)) := do
  let price ← anyPrice order.orderSide
  let fills ← bookFills env w.engine.book order price 0
  match fills, order.triggerPrice with
  | (_, qty) :: rest, some triggerPrice =>
    return if isTriggerPriceFill env order w then
      capFills order.leavesQty.raw ((triggerPrice, qty) :: rest)
    else fills
  | _, _ => return fills

/-- The book a fill model answers with, asked while both prices are known. -/
def simulatedBook : EngineM env (Option OrderBook) := do
  let w ← read
  match w.engine.core.bid, w.engine.core.ask with
  | some bestBid, some bestAsk =>
    draw fun n => env.fillModel.getOrderbookForFillSimulation n order bestBid bestAsk
  | _, _ => return none

/-- The fills of the model's book at a price; none if there is no such book. -/
def simulatedFills (price : Option Price) : EngineM env (List (Price × Quantity)) := do
  let book ← simulatedBook env order
  match book, price with
  | some book, some price =>
    Acting.ofOption (book.simulateFills ⟨order.orderSide, price, order.quantity, 0⟩)
  | _, _ => return []

/-- The Boolean says that the fills are those of the model. -/
def determineMarketFillModelPriceAndVolume : EngineM env (List (Price × Quantity) × Bool) := do
  let fills ← simulatedFills env order (anyPrice order.orderSide)
  if fills.isEmpty then do
    let w ← read
    let fills ← Acting.ofOption (determineMarketPriceAndVolume env order w)
    return (fills, false)
  else return (fills, true)

def determineLimitFillModelPriceAndVolume : EngineM env (List (Price × Quantity)) := do
  let fills ← simulatedFills env order order.price
  if fills.isEmpty then determineLimitPriceAndVolume env order else return fills

/-! ## Protection prices -/

/-- `protection.rs:37`; `none` is its error. -/
def protectionPriceCalculate (points : Nat) (bid ask : Option Price) : Option Price :=
  let tick := env.instrument.priceIncrement
  let offset := points * tick.raw
  if order.orderType ≠ .market ∧ order.orderType ≠ .stopMarket then none
  else
    match order.orderSide with
    | .buy => ask.map fun ask => ⟨ask.raw + offset, tick.precision⟩
    | .sell => bid.map fun bid => ⟨bid.raw - offset, tick.precision⟩
    | .noOrderSide => none

/-- `filter_fills_by_protection`, when there is a protection price. -/
def protectFills (w : World) (fills : List (Price × Quantity)) : List (Price × Quantity) :=
  let core := w.engine.core
  let protection := env.config.priceProtectionPoints.bind fun points =>
    protectionPriceCalculate env order points core.bid core.ask
  match protection with
  | none => fills
  | some price =>
    fills.filter fun fill =>
      match order.orderSide with
      | .buy => fill.1.raw ≤ price.raw
      | .sell => price.raw ≤ fill.1.raw
      | .noOrderSide => false

/-! ## Quote quantities -/

/-- The order with its base quantity; `none` is `false`. -/
def convertQuoteToBaseQuantity : EngineM env (Option EngineOrder) := do
  let w ← read
  let core := w.engine.core
  let opposite :=
    match order.orderSide with
    | .buy => core.ask
    | .sell => core.bid
    | .noOrderSide => none
  match order.price.or opposite with
  | none => do
    generateOrderRejected env order .noMarketToConvert
    return none
  | some referencePrice => do
    let event ← stamp env order
    let updated : OrderEventAny := .updated
      { event with
        venueOrderId := order.core.venueOrderId
        quantity := env.instrument.calculateBaseQuantity order.quantity referencePrice
        price := none
        triggerPrice := none
        protectionPrice := none
        isQuoteQuantity := false }
    let (base, result) ← Acting.ofOption (order.base.apply updated)
    match result with
    | .error _ => return none
    | .ok () => do
      dispatchOrderEvent env updated none
      return some { order with base }

/-- The order in base quantities, converted if it has to be. -/
def inBaseQuantity : EngineM env (Option EngineOrder) :=
  if order.core.isQuoteQuantity && !env.instrument.isInverse then
    convertQuoteToBaseQuantity env order
  else pure (some order)

/-! ## Filling -/

def positionOf : EngineM env (Option PositionId × Option HeldPosition) := do
  let venuePositionId ← getPositionId env order
  let w ← read
  return (venuePositionId, venuePositionId.bind w.cache.positions.get?)

def hasNothingToReduce (position : Option HeldPosition) : Bool :=
  env.config.useReduceOnly && order.isReduceOnly && position.isNone

/-- The fills of a market order after the protection price and the consumption. -/
def marketFills : EngineM env (List (Price × Quantity)) := do
  let (fills, fromSynthetic) ← determineMarketFillModelPriceAndVolume env order
  let w ← read
  let fills := protectFills env order w fills
  if fromSynthetic || isTriggerPriceFill env order w then return fills
  else applyLiquidityConsumption env fills order.orderSide order.leavesQty []

def fillMarketOrder (clientOrderId : ClientOrderId) : EngineM env Unit := do
  let w ← read
  match w.cache.orders.get? clientOrderId with
  | none => pure ()
  | some order => do
    let converted ← inBaseQuantity env order
    match converted with
    | none => pure ()
    | some order => do
      let w ← read
      if isFullyFilled order w then pure ()
      else do
        let (_, position) ← positionOf env order
        if hasNothingToReduce env order position then cancelOrder env order
        else do
          let order := order.setLiquiditySide .taker
          let fills ← marketFills env order
          applyFills env handlers ⟨order, fills, position⟩ .taker none

/-- The market is exactly at the limit of a maker. -/
def isAtLimit (w : World) : Bool :=
  let core := w.engine.core
  if w.engine.lastTradeSize.isSome && core.last.isSome then core.last.any (orderPrice.eq ·)
  else if order.orderSide = .buy then core.bid.any (orderPrice.eq ·)
  else core.ask.any (orderPrice.eq ·)

/-- The fill model keeps a maker at its limit waiting. -/
def isKeptWaiting : EngineM env Bool := do
  let w ← read
  if order.liquiditySide = some .maker ∧ isAtLimit order orderPrice w then do
    let filled ← draw env.fillModel.isLimitFilled
    return !filled
  else return false

/-- Immediate orders are cancelled where others wait. -/
def cancelIfImmediate : EngineM env Unit :=
  if order.timeInForce ∈ [TimeInForce.fok, .ioc] then cancelOrder env order else pure ()

/-- The fills up to what the queue lets through; empty ones stay. -/
def allowFills : Nat → List (Price × Quantity) → List (Price × Quantity)
  | _, [] => []
  | remaining, (price, qty) :: fills =>
    if remaining = 0 then []
    else
      let capped := min qty.raw remaining
      (price, ⟨capped, env.instrument.sizePrecision⟩) :: allowFills (remaining - capped) fills

/-- The fills cut down, with the budgets they come out of. -/
def capByQueue (tradeConsumptionBefore : Nat) (allowed : Option Nat)
    (fills : List (Price × Quantity)) : EngineM env (List (Price × Quantity)) :=
  match allowed with
  | none => pure fills
  | some allowedRaw => do
    let capped := allowFills env allowedRaw fills
    let consumed := (capped.map fun fill => fill.2.raw).sum
    let id := order.clientOrderId
    modifyData fun d =>
      { d with
        queueExcess := (d.queueExcess.get? id).elim d.queueExcess fun excess =>
          d.queueExcess.insert id (excess - consumed)
        tradeConsumption := tradeConsumptionBefore + consumed }
    return capped

/-- The fills of a limit order, asked for and cut down. -/
def limitFills (allowed : Option Nat) : EngineM env (List (Price × Quantity)) := do
  let w ← read
  let fills ← determineLimitFillModelPriceAndVolume env order
  capByQueue env order w.engine.tradeConsumption allowed fills

/-- The end of `fill_limit_order`. -/
def fillLimitAllowed (allowed : Option Nat) : EngineM env Unit := do
  let (venuePositionId, position) ← positionOf env order
  if hasNothingToReduce env order position then cancelOrder env order
  else do
    let fills ← limitFills env order allowed
    if fills.isEmpty && env.config.liquidityConsumption then cancelIfImmediate env order
    else do
      let liquiditySide ← Acting.ofOption order.liquiditySide
      applyFills env handlers ⟨order, fills, position⟩ liquiditySide venuePositionId

def fillLimitOrder (clientOrderId : ClientOrderId) : EngineM env Unit := do
  let w ← read
  match w.cache.orders.get? clientOrderId with
  | none => pure ()
  | some order => do
    let converted ← inBaseQuantity env order
    match converted with
    | none => pure ()
    | some order => do
      let orderPrice ← Acting.ofOption order.price
      let w ← read
      if isFullyFilled order w then pure ()
      else do
        let waits ← isKeptWaiting env order orderPrice
        if waits then pure ()
        else do
          let w ← read
          if !env.config.queuePosition then fillLimitAllowed env handlers order none
          else
            match determineTradeFillQty env order w with
            | none => cancelIfImmediate env order
            | some allowed => fillLimitAllowed env handlers order (some allowed)

end EngineM

end Nautilus
