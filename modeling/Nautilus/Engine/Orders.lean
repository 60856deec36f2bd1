import Nautilus.Engine.Match

/-!
# Orders, modifications and cancellations

`process_order` validates an order and hands it to the method of its type; `process_modify` and
`process_cancel` answer the other commands. An accepted order gets a **resting form** in the
matching core: its id, side, type and prices, and nothing that could change later.
-/

namespace Nautilus

open Lib Acting

namespace EngineM

variable [Build] [BookCode] (env : EngineEnv) (handlers : Handlers env)

/-! ## Trailing stops -/

def isTrailingType (orderType : OrderType) : Bool :=
  orderType ∈ [OrderType.trailingStopMarket, .trailingStopLimit]

def getTrailingActivationPrice (triggerType : TriggerType) (side : OrderSide)
    (bid ask last : Option Price) : Option Price :=
  let opposite :=
    match side with
    | .buy => ask
    | .sell => bid
    | .noOrderSide => none
  match triggerType with
  | .lastPrice => last
  | .lastOrBidAsk => last.or opposite
  | _ => opposite

variable (order : EngineOrder)

/-- The activated order, or none. -/
def activated (bid ask last : Option Price) : Option EngineOrder :=
  match order.activationPrice with
  | none =>
    (getTrailingActivationPrice order.triggerType order.orderSide bid ask last).map fun price =>
      { order with activationPrice := some price, isActivated := true }
  | some activationPrice =>
    let hit : Bool :=
      match order.orderSide with
      | .buy => ask.any fun a => a.le activationPrice
      | .sell => bid.any fun b => activationPrice.le b
      | .noOrderSide => false
    if hit then some { order with isActivated := true } else none

/-- The order afterwards, and whether it is active. -/
def maybeActivateTrailingStop {env : EngineEnv} : EngineM env (EngineOrder × Bool) :=
  if !isTrailingType order.orderType || order.isActivated then pure (order, true)
  else do
    let w ← read
    let core := w.engine.core
    match activated order core.bid core.ask core.last with
    | some order => do
      modifyCache fun cache => cache.replaceOrder order
      return (order, true)
    | none => return (order, false)

def updateTrailingStopOrder : EngineM env Unit := do
  let w ← read
  let core := w.engine.core
  let (newTriggerPrice, newPrice) ← Acting.ofOption
    (env.trailingStopCalculate order core.bid core.ask core.last)
  if newTriggerPrice.isNone && newPrice.isNone then pure ()
  else generateOrderUpdated env order order.quantity newPrice newTriggerPrice

/-! ## Resting -/

/-- `RestingOrder::new` of an order; panics on no side. -/
def restingForm : Option RestingOrder :=
  order.orderSide.asSpecified.map fun side =>
    { clientOrderId := order.clientOrderId
      orderSide := side
      orderType := order.orderType
      triggerPrice := order.triggerPrice
      limitPrice := order.price
      isActivated := !isTrailingType order.orderType || order.isActivated }

/-- The first half of `accept_order`. -/
def acknowledge : EngineM env EngineOrder :=
  if order.status = .accepted then pure order
  else do
    let venueOrderId ← getVenueOrderId env order
    generateOrderAccepted env order venueOrderId
    if isTrailingType order.orderType && order.triggerPrice.isNone then do
      let (order, isActive) ← maybeActivateTrailingStop order
      (if isActive then updateTrailingStopOrder env order else pure ())
      return order
    else return order

def acceptOrder : EngineM env EngineOrder :=
  if order.isClosed then pure order
  else do
    let order ← acknowledge env order
    let resting ← Acting.ofOption (restingForm order)
    onCore (.add resting)
    return order

/-- `cache.add_order(order, None, None, false)`; an error is logged. -/
def cacheOrder {env : EngineEnv} : EngineM env Unit :=
  modifyCache fun cache => cache.addOrder order

/-! ## New orders -/

/-- The market for an order to take from is not there. -/
def hasNoMarket (w : World) : Bool :=
  (order.orderSide = .buy && w.engine.core.ask.isNone) ||
    (order.orderSide = .sell && w.engine.core.bid.isNone)

/-- `AtTheOpen` and `AtTheClose`. -/
def isUnsupported (timeInForce : TimeInForce) : Bool :=
  timeInForce ∈ [TimeInForce.atTheOpen, .atTheClose]

/-- With `use_market_order_acks` a market order is accepted before it is filled. -/
def acknowledgeMarket : EngineM env Unit :=
  if env.config.useMarketOrderAcks then do
    let venueOrderId ← getVenueOrderId env order
    generateOrderAccepted env order venueOrderId
  else pure ()

def processMarketOrder : EngineM env Unit := do
  let w ← read
  if isUnsupported order.timeInForce then
    generateOrderRejected env order (.unsupportedTimeInForce order.timeInForce)
  else if hasNoMarket order w then generateOrderRejected env order .noMarket
  else do
    acknowledgeMarket env order
    cacheOrder order
    fillMarketOrder env handlers order.clientOrderId

/-- The maker side, set on the cached copy of an order that rests. -/
def restAsMaker {env : EngineEnv} (clientOrderId : ClientOrderId) : EngineM env Unit := do
  let w ← read
  if w.engine.core.orderExists clientOrderId then
    modifyCache fun cache => cache.updateOrder clientOrderId (·.setLiquiditySide .maker)
  else pure ()

/-- A maker that was cached before keeps the side it has. -/
def cacheMaker {env : EngineEnv} : EngineM env Unit := do
  let w ← read
  if w.cache.orders.containsKey order.clientOrderId then
    modifyCache fun cache => cache.updateOrder order.clientOrderId fun o =>
      if o.liquiditySide = some .maker ∨ o.liquiditySide = some .taker then o
      else o.setLiquiditySide .maker
  else cacheOrder order

/-- What an accepted limit order does next. -/
def matchLimit (isMatched : Bool) : EngineM env Unit :=
  if isMatched then do
    modifyCache fun cache => cache.replaceOrder (order.setLiquiditySide .taker)
    fillLimitOrder env handlers order.clientOrderId
    restAsMaker order.clientOrderId
  else if order.timeInForce ∈ [TimeInForce.fok, .ioc] then cancelOrder env order
  else do
    let order := order.setLiquiditySide .maker
    (match order.price with
    | some price => snapshotQueuePosition env order price
    | none => pure ())
    cacheMaker order

def processLimitOrder : EngineM env Unit :=
  if isUnsupported order.timeInForce then
    generateOrderRejected env order (.unsupportedTimeInForce order.timeInForce)
  else do
    let limitPx ← Acting.ofOption order.price
    let side ← Acting.ofOption order.orderSide.asSpecified
    let w ← read
    let core := w.engine.core
    if order.isPostOnly && core.isLimitMatched side limitPx then
      generateOrderRejected env order (.wouldTake limitPx core.bid core.ask)
    else do
      let order ← acceptOrder env order
      let w ← read
      matchLimit env handlers order (w.engine.core.isLimitMatched side limitPx)

/-- What is left of a market-to-limit order rests. -/
def restMarketToLimit : EngineM env Unit := do
  let w ← read
  let filled := (w.engine.cachedFilledQty.get? order.clientOrderId).elim 0 fun q => q.raw
  if order.quantity.raw - filled = 0 then dropFilledQty order.clientOrderId
  else
    match w.cache.orders.get? order.clientOrderId with
    | some updated => do
      let _ ← acceptOrder env updated
      pure ()
    | none => pure ()

def processMarketToLimitOrder : EngineM env Unit := do
  let w ← read
  if hasNoMarket order w then generateOrderRejected env order .noMarket
  else do
    acknowledgeMarket env order
    cacheOrder order
    fillMarketOrder env handlers order.clientOrderId
    restMarketToLimit env order

/-- Stop orders wait for the market to run against them, if-touched orders for it to come
to them. -/
def isTriggeredNow (side : OrderSideSpecified) (triggerPrice : Price)
    (core : OrderMatchingCore) : Bool :=
  if order.orderType ∈ [OrderType.marketIfTouched, .limitIfTouched] then
    core.isTouchTriggered side triggerPrice
  else core.isStopMatched side triggerPrice

/-- An accepted order that waits for its trigger (`:3157-3170, 3225-3238`). -/
def restUntriggered : EngineM env Unit := do
  let order ← acceptOrder env order
  cacheOrder (order.setLiquiditySide .maker)

/-- A triggered market type fills at once. -/
def fillTriggeredMarket : EngineM env Unit := do
  cacheOrder order
  fillMarketOrder env handlers order.clientOrderId

/-- A triggered limit type is accepted with its **full resting form**, trigger price included, and
fills at once if it can (`:3199-3223, 3315-3335`). -/
def fillTriggeredLimit (side : OrderSideSpecified) (order : EngineOrder) : EngineM env Unit := do
  let order ← acceptOrder env order
  generateOrderTriggered env order
  let limitPx ← Acting.ofOption order.price
  let w ← read
  if w.engine.core.isLimitMatched side limitPx then do
    cacheOrder (order.setLiquiditySide .taker)
    fillLimitOrder env handlers order.clientOrderId
  else pure ()

/-- The body the four triggered types share; `fill` is what a trigger leads to. -/
def processTriggered (fill : OrderSideSpecified → EngineOrder → EngineM env Unit)
    (order : EngineOrder) : EngineM env Unit := do
  let triggerPrice ← Acting.ofOption order.triggerPrice
  let side ← Acting.ofOption order.orderSide.asSpecified
  let w ← read
  let core := w.engine.core
  if isTriggeredNow order side triggerPrice core then
    if env.config.rejectStopOrders then
      generateOrderRejected env order (.inTheMarket triggerPrice core.bid core.ask)
    else fill side order
  else restUntriggered env order

def processStopMarketOrder : EngineM env Unit :=
  processTriggered env (fun _ => fillTriggeredMarket env handlers) order

def processStopLimitOrder : EngineM env Unit :=
  processTriggered env (fillTriggeredLimit env handlers) order

def processMarketIfTouchedOrder : EngineM env Unit :=
  processTriggered env (fun _ => fillTriggeredMarket env handlers) order

def processLimitIfTouchedOrder : EngineM env Unit :=
  processTriggered env (fillTriggeredLimit env handlers) order

/-- One that is in the market is always rejected. -/
def processTrailingStopOrder : EngineM env Unit := do
  let side ← Acting.ofOption order.orderSide.asSpecified
  let w ← read
  let core := w.engine.core
  match order.triggerPrice.filter (core.isStopMatched side ·) with
  | some triggerPrice =>
    generateOrderRejected env order (.inTheMarket triggerPrice core.bid core.ask)
  | none => do
    let order ← acceptOrder env (order.setLiquiditySide .maker)
    cacheOrder order

end EngineM

end Nautilus
