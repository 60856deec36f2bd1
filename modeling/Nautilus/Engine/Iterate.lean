import Nautilus.Engine.Commands

/-!
# The iteration

Every update of the market ends in `iterate`: the core takes its prices from the book, the
actions of the two sides are carried out, orders that are closed or expired leave, trailing
stops follow the market, and an instrument that expires is settled.
-/

namespace Nautilus

open Lib

namespace EngineM

variable [Build] [BookCode] (env : EngineEnv) (handlers : Handlers env)

/-! ## Actions -/

/-- A trigger **only fills**. -/
def triggerStopOrder (clientOrderId : ClientOrderId) : EngineM env Unit := do
  let w ← read
  match w.cache.orders.get? clientOrderId with
  | none => pure ()
  | some order =>
    if order.orderType ∈ [OrderType.stopLimit, .limitIfTouched, .trailingStopLimit] then
      fillLimitOrder env handlers clientOrderId
    else if order.orderType ∈ [OrderType.stopMarket, .marketIfTouched, .trailingStopMarket] then
      fillMarketOrder env handlers clientOrderId
    else pure ()

/-- An action of the core, carried out. -/
def carryOut : MatchAction → EngineM env Unit
  | .fillLimit id => fillLimitOrder env handlers id
  | .triggerStop id => triggerStopOrder env handlers id

/-- The prices of the book, where it has them. -/
def syncFromBook {env : EngineEnv} : EngineM env Unit := do
  let w ← read
  (match w.engine.book.bestBidPrice with
  | some bid => setBidRaw bid
  | none => pure ())
  (match w.engine.book.bestAskPrice with
  | some ask => setAskRaw ask
  | none => pure ())

/-- The prices kept by `saveTargets`, put back once. -/
def restoreTargets {env : EngineEnv} : EngineM env Unit := do
  let w ← read
  let core := w.engine.core
  let e := w.engine
  onCore (.setPrices (e.targetBid.or core.bid) (e.targetAsk.or core.ask) (e.targetLast.or core.last))
  modifyData fun d => { d with targetBid := none, targetAsk := none, targetLast := none }

def expireOrder (order : EngineOrder) : EngineM env Unit := do
  (if env.handlesContingencies order then cancelContingentOrders env order else pure ())
  generateOrderExpired env order

/-- A trailing stop follows the market. -/
def trail (order : EngineOrder) : EngineM env Unit :=
  if !isTrailingType order.orderType then pure ()
  else do
    let (order, isActive) ← maybeActivateTrailingStop order
    if isActive then do
      updateTrailingStopOrder env order
      let _ ← resyncCoreEntry order.clientOrderId
      pure ()
    else pure ()

variable (tsNow : UnixNanos)

/-- One order of the loop of `iterate`. -/
def maintain (clientOrderId : ClientOrderId) : EngineM env Unit := do
  let w ← read
  match w.cache.orders.get? clientOrderId with
  | none => pure ()
  | some order =>
    if order.isClosed then dropFilledQty clientOrderId
    else if env.config.supportGtdOrders && order.expireTime.any (· ≤ tsNow) then do
      onCore (.delete clientOrderId)
      dropFilledQty clientOrderId
      expireOrder env order
    else do
      trail env order
      restoreTargets

/-! ## Expiry -/

/-- The side that closes a position. -/
def closingSide : PositionSide → OrderSide
  | .long => .sell
  | .short => .buy
  | .flat | .noPositionSide => .noOrderSide

def expirationInit (clientOrderId : ClientOrderId) (position : HeldPosition)
    (tsEvent : UnixNanos) : OrderInitialized where
  strategyId := position.strategyId
  clientOrderId := clientOrderId
  tsEvent := tsEvent
  orderSide := closingSide position.side
  orderType := .market
  quantity := position.quantity
  timeInForce := .gtc
  quoteQuantity := false
  price := none
  triggerPrice := none
  triggerType := none
  limitOffset := none
  trailingOffset := none
  trailingOffsetType := none
  expireTime := none
  displayQty := none
  emulationTrigger := none

/-- `MarketOrder::new` for that order; panics where it is not valid. -/
def expirationOrder (init : OrderInitialized) (traderId : TraderId) : Option EngineOrder :=
  (MarketOrder.tryFrom init).run.bind fun
    | .error _ => none
    | .ok order =>
      some
        { base := .market order
          traderId
          instrumentId := env.instrument.id
          timeInForce := .gtc
          expireTime := none
          isPostOnly := false
          isReduceOnly := true
          contingencyType := none
          linkedOrderIds := none
          parentOrderId := none
          triggerType := .noTrigger
          activationPrice := none
          isActivated := true }

/-- The order is put in the cache and `publish_order_initialized`, unless its id is taken. -/
def cacheExpirationOrder (init : OrderInitialized) (order : EngineOrder)
    (positionId : PositionId) : EngineM env Unit := do
  let w ← read
  if w.cache.orders.containsKey order.clientOrderId then pure ()
  else do
    modifyCache fun cache => (cache.addOrder order).addPositionId positionId order.clientOrderId
    dispatchOrderEvent env (.initialized init) none

/-- One position closed at expiry. -/
def closeAtExpiry (closePrice : Option Price) (position : HeldPosition) : EngineM env Unit := do
  let uuid ← draw env.uuid
  let w ← read
  let clientOrderId : ClientOrderId := ⟨"EXPIRATION-" ++ env.instrument.venue ++ "-" ++ uuid⟩
  let init := expirationInit clientOrderId position w.now
  let order ← Acting.ofOption (expirationOrder env init position.traderId)
  cacheExpirationOrder env init order position.id
  let venueOrderId ← getVenueOrderId env order
  generateOrderAccepted env order venueOrderId
  let w ← read
  match w.engine.settlementPrice.or closePrice with
  | some price =>
    applyFills env handlers ⟨order, [(price, position.quantity)], none⟩ .taker (some position.id)
  | none => fillMarketOrder env handlers clientOrderId

def cancelResting (resting : RestingOrder) : EngineM env Unit := do
  let w ← read
  match w.cache.orders.get? resting.clientOrderId with
  | some order => cancelOrder env order
  | none => pure ()

def checkInstrumentExpiration : EngineM env Unit := do
  let w ← read
  let isReached := env.instrument.expirationNs.any (· ≤ tsNow)
  if w.engine.expirationProcessed || (!isReached && w.engine.instrumentClose.isNone) then pure ()
  else do
    let closePrice := w.engine.instrumentClose.map fun close => close.closePrice
    modifyData fun d => { d with expirationProcessed := true, instrumentClose := none }
    w.engine.core.iterOrders.forM (cancelResting env)
    let w ← read
    (w.cache.positionsOpen env.instrument.id).forM (closeAtExpiry env handlers closePrice)

/-! ## The iteration -/

/-- The actions of the asks are taken after those of the bids were carried out. -/
def iterate (aggressorSide : AggressorSide) : EngineM env Unit := do
  let w ← read
  (if aggressorSide = .noAggressor ∧ w.engine.lastTradeSize.isNone then syncFromBook else pure ())
  let w ← read
  w.engine.core.iterateBids.forM (carryOut env handlers)
  let w ← read
  w.engine.core.iterateAsks.forM (carryOut env handlers)
  let w ← read
  (w.engine.core.iterOrders.map fun o => o.clientOrderId).forM (maintain env tsNow)
  restoreTargets
  let w ← read
  onCore (.setPrices w.engine.book.bestBidPrice w.engine.book.bestAskPrice w.engine.core.last)
  checkInstrumentExpiration env handlers tsNow

end EngineM

end Nautilus
