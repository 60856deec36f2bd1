import Nautilus.Engine.Orders

/-!
# Commands

`process_order` with its checks, `process_modify` with the `update_*` methods, and the
cancellations. The linked orders of a fill lead back to `process_order` and `update_order`
(`Handlers`), so these are defined by the depth of that nesting; a deeper call does not return.
-/

namespace Nautilus

open Lib
open Acting (ofOption panics)

/-- `Order::is_triggered`, for the types the engine asks. -/
def OrderAny.isTriggered : OrderAny → Bool
  | .limit _ | .market _ | .marketToLimit _ => false
  | .limitIfTouched order => order.isTriggered
  | .marketIfTouched order => order.isTriggered
  | .stopLimit order => order.isTriggered
  | .stopMarket order => order.isTriggered
  | .trailingStopLimit order => order.isTriggered
  | .trailingStopMarket order => order.isTriggered

/-- `PartialEq` on optional prices: the raw values. -/
def samePrice (a b : Option Price) : Bool := a.map Price.raw == b.map Price.raw

/-- `PartialEq for RestingOrder`. -/
def RestingOrder.same (a b : RestingOrder) : Bool :=
  a.clientOrderId = b.clientOrderId && a.orderSide = b.orderSide && a.orderType = b.orderType &&
    samePrice a.triggerPrice b.triggerPrice && samePrice a.limitPrice b.limitPrice &&
    a.isActivated = b.isActivated

/-- The part of a command the engine reads; the event of a refusal is made from its ids. -/
structure OrderCommand where
  strategyId : StrategyId
  clientOrderId : ClientOrderId
deriving DecidableEq

namespace EngineM

variable [Build] [BookCode] (env : EngineEnv) (handlers : Handlers env)

/-! ## Checks of a new order -/

/-- A check of `process_order` passes, refuses with a reason, lets the order wait (`none`), or
panics. -/
abbrev Check := ExceptT (Option Reason) Option

def refuseIf (condition : Bool) (reason : Reason) : Check Unit :=
  if condition then throw (some reason) else pure ()

/-- The instrument is active. -/
def checkContract (w : World) : Check Unit :=
  if !env.instrument.hasExpiration then pure ()
  else do
    env.instrument.activationNs.forM fun activationNs =>
      refuseIf (w.now < activationNs) (.notYetActive activationNs)
    env.instrument.expirationNs.forM fun expirationNs =>
      refuseIf (expirationNs ≤ w.now) (.hasExpired expirationNs)

variable (order : EngineOrder) (cache : Cache)

/-- A child waits for its one-triggers-other parent. -/
def checkParent : Check Unit :=
  order.parentOrderId.forM fun parentOrderId => do
    let parent ← (cache.orders.get? parentOrderId : Option EngineOrder)
    if parent.contingencyType ≠ some .oto then (none : Option Unit)
    else if parent.status = .rejected ∧ order.isOpen then
      throw (some (.rejectedOtoOrder parentOrderId))
    else if parent.status = .accepted ∨ parent.status = .triggered ∨
        (env.config.otoFullTrigger ∧ parent.status = .partiallyFilled) then
      throw none
    else pure ()

/-- No linked order of the group is closed already. -/
def checkLinked : Check Unit :=
  (order.linkedOrderIds.getD []).forM fun clientOrderId => do
    let linked ← (cache.orders.get? clientOrderId : Option EngineOrder)
    let contingency ← (order.contingencyType : Option ContingencyType)
    refuseIf ((contingency = .oco || contingency = .ouo) && !order.isClosed && linked.isClosed)
      (.contingentAlreadyClosed clientOrderId)

/-- The values have the precisions of the instrument. -/
def checkPrecisions : Check Unit := do
  refuseIf (order.quantity.precision ≠ env.instrument.sizePrecision)
    (.quantityPrecision order.quantity.precision)
  order.price.forM fun price =>
    refuseIf (price.precision ≠ env.instrument.pricePrecision) (.pricePrecision price.precision)
  order.triggerPrice.forM fun price =>
    refuseIf (price.precision ≠ env.instrument.pricePrecision)
      (.triggerPricePrecision price.precision)

/-- The position of the order, or the netted one of its strategy. -/
def positionBefore : Option HeldPosition :=
  (cache.positionForOrder order.clientOrderId).or <|
    if env.omsType = .netting then
      cache.positions.get? ⟨order.instrumentId.value ++ "-" ++ order.strategyId.value⟩
    else none

/-- The order would add to the position it has to reduce. -/
def wouldIncrease (position : HeldPosition) : Bool :=
  position.isClosed || (order.orderSide = .buy && position.side = .long) ||
    (order.orderSide = .sell && position.side = .short)

/-- Short selling and reduce-only. -/
def checkPosition : Check Unit := do
  let position := positionBefore env order cache
  refuseIf
    (order.orderSide = .sell && env.accountType ≠ .margin && env.instrument.isEquity &&
      position.all fun p => !order.wouldReduceOnly p.side p.quantity)
    (.shortSelling (position.map fun p => p.id))
  refuseIf
    (env.config.useReduceOnly && order.isReduceOnly && !order.isClosed &&
      position.all (wouldIncrease order))
    .wouldIncreasePosition

/-- The checks of `process_order` after the first. -/
def validate (w : World) : Check Unit := do
  checkContract env w
  if env.config.supportContingentOrders then do
    checkParent env order w.cache
    checkLinked order w.cache
  else pure ()
  checkPrecisions env order
  checkPosition env order w.cache

/-! ## New orders -/

/-- A quote quantity is converted on submission when there is a price to convert it at. -/
def convertsOnSubmission : Bool :=
  order.core.isQuoteQuantity && !env.instrument.isInverse && !isTrailingType order.orderType &&
    (order.price.isSome || order.orderType ∈ [OrderType.market, .marketToLimit])

/-- The method of the type. -/
def processByType : EngineM env Unit :=
  match order.orderType with
  | .market => processMarketOrder env handlers order
  | .limit => processLimitOrder env handlers order
  | .marketToLimit => processMarketToLimitOrder env handlers order
  | .stopMarket => processStopMarketOrder env handlers order
  | .stopLimit => processStopLimitOrder env handlers order
  | .marketIfTouched => processMarketIfTouchedOrder env handlers order
  | .limitIfTouched => processLimitIfTouchedOrder env handlers order
  | .trailingStopMarket | .trailingStopLimit => processTrailingStopOrder env order

/-- An order that passed the checks. -/
def submit : EngineM env Unit :=
  if convertsOnSubmission env order then do
    let converted ← convertQuoteToBaseQuantity env order
    match converted with
    | some order => processByType env handlers order
    | none => pure ()
  else processByType env handlers order

def processOrder (accountId : AccountId) : EngineM env Unit := do
  let w ← read
  if w.engine.core.orderExists order.clientOrderId then
    generateOrderRejected env order .orderAlreadyExists
  else do
    modifyData fun d => { d with accountIds := d.accountIds.insert order.traderId accountId }
    let verdict ← ofOption (validate env order w).run
    match verdict with
    | .error (some reason) => generateOrderRejected env order reason
    | .error none => pure ()
    | .ok () => submit env handlers order

/-! ## Modifications -/

def rejectModify (reason : Reason) : EngineM env Unit := do
  let event ← stamp env order
  generateOrderModifyRejected env event reason

variable (quantity : Quantity)

def updateLimitOrder (price : Price) : EngineM env Unit := do
  let side ← ofOption order.orderSide.asSpecified
  let w ← read
  let core := w.engine.core
  if !core.isLimitMatched side price then generateOrderUpdated env order quantity (some price) none
  else if order.isPostOnly then
    rejectModify env order (.newPriceWouldTake price core.bid core.ask)
  else do
    generateOrderUpdated env order quantity (some price) none
    modifyCache fun cache => cache.updateOrder order.clientOrderId (·.setLiquiditySide .taker)
    fillLimitOrder env handlers order.clientOrderId

/-- `update_stop_market_order` and `update_market_if_touched_order`, which differ in the trigger they
ask. -/
def updateTrigger (isTriggered : OrderMatchingCore → OrderSideSpecified → Price → Bool)
    (order : EngineOrder) (quantity : Quantity) (triggerPrice : Price) : EngineM env Unit := do
  let side ← ofOption order.orderSide.asSpecified
  let w ← read
  let core := w.engine.core
  if isTriggered core side triggerPrice then
    rejectModify env order (.newTriggerInTheMarket triggerPrice core.bid core.ask)
  else generateOrderUpdated env order quantity none (some triggerPrice)

def updateStopMarketOrder := updateTrigger env OrderMatchingCore.isStopMatched

def updateMarketIfTouchedOrder := updateTrigger env OrderMatchingCore.isTouchTriggered

/-- `update_stop_limit_order` and `update_limit_if_touched_order`. Only the first adds the order to
the cache before it fills it. -/
def updateTriggeredLimit (isTriggered : OrderMatchingCore → OrderSideSpecified → Price → Bool)
    (addsToCache : Bool) (order : EngineOrder) (quantity : Quantity)
    (price triggerPrice : Price) : EngineM env Unit := do
  let side ← ofOption order.orderSide.asSpecified
  let w ← read
  let core := w.engine.core
  if order.base.isTriggered then
    if !core.isLimitMatched side price then
      generateOrderUpdated env order quantity (some price) (some triggerPrice)
    else if order.isPostOnly then
      rejectModify env order (.newPriceWouldTake price core.bid core.ask)
    else do
      generateOrderUpdated env order quantity (some price) none
      (if addsToCache then cacheOrder (order.setLiquiditySide .taker) else pure ())
      fillLimitOrder env handlers order.clientOrderId
  else if isTriggered core side triggerPrice then
    rejectModify env order (.newTriggerInTheMarket triggerPrice core.bid core.ask)
  else generateOrderUpdated env order quantity (some price) (some triggerPrice)

def updateStopLimitOrder :=
  updateTriggeredLimit env handlers OrderMatchingCore.isStopMatched true

def updateLimitIfTouchedOrder :=
  updateTriggeredLimit env handlers OrderMatchingCore.isTouchTriggered false

/-- The method of the type. The defaults are read first and have to
be there. -/
def updateByType (price triggerPrice : Option Price) : EngineM env Unit :=
  match order.base with
  | .limit _ | .marketToLimit _ => do
    let default ← ofOption order.price
    updateLimitOrder env handlers order quantity (price.getD default)
  | .stopMarket _ => do
    let default ← ofOption order.triggerPrice
    updateStopMarketOrder env order quantity (triggerPrice.getD default)
  | .stopLimit _ => do
    let default ← ofOption order.price
    let defaultTrigger ← ofOption order.triggerPrice
    updateStopLimitOrder env handlers order quantity (price.getD default)
      (triggerPrice.getD defaultTrigger)
  | .marketIfTouched _ | .trailingStopMarket _ => do
    let default ← ofOption order.triggerPrice
    updateMarketIfTouchedOrder env order quantity (triggerPrice.getD default)
  | .limitIfTouched _ | .trailingStopLimit _ => do
    let default ← ofOption order.price
    let defaultTrigger ← ofOption order.triggerPrice
    updateLimitIfTouchedOrder env handlers order quantity (price.getD default)
      (triggerPrice.getD defaultTrigger)
  | .market _ => panics

/-- `cached_filled_qty.get(id).copied().unwrap_or(order.filled_qty())`. -/
def countedFilledQty (w : World) : Quantity :=
  (w.engine.cachedFilledQty.get? order.clientOrderId).getD order.filledQty

/-- Why an update is refused before its type is looked at. -/
def updateRefusal (price triggerPrice : Option Price) (w : World) : Option Reason :=
  if quantity.precision ≠ env.instrument.sizePrecision then
    some (.updateQuantityPrecision quantity.precision)
  else
    ((price.filter fun p => p.precision ≠ env.instrument.pricePrecision).map fun p =>
      Reason.updatePricePrecision p.precision).or <|
    ((triggerPrice.filter fun p => p.precision ≠ env.instrument.pricePrecision).map fun p =>
      Reason.updateTriggerPricePrecision p.precision).or <|
    if quantity.lt (countedFilledQty order w) then
      some (.belowFilled quantity (countedFilledQty order w))
    else none

/-- `update_order`; `followUp` is what it does for the linked orders. -/
def updateOrderWith (followUp : EngineOrder → EngineM env Unit) (order : EngineOrder)
    (quantity : Option Quantity) (price triggerPrice : Option Price) : EngineM env Bool := do
  let quantity := quantity.getD order.quantity
  let w ← read
  match updateRefusal env order quantity price triggerPrice w with
  | some reason => do
    rejectModify env order reason
    return false
  | none => do
    updateByType env handlers order quantity price triggerPrice
    (if env.handlesContingencies order then followUp order else pure ())
    (if quantity.raw - (countedFilledQty order w).raw = 0 then cancelAlone env order else pure ())
    return true

/-- `update_order` with `update_contingencies` false. -/
def updateAlone : EngineOrder → Option Quantity → Option Price → Option Price → EngineM env Bool :=
  updateOrderWith env handlers fun _ => pure ()

/-- One linked order of `update_contingent_order`. -/
def updateContingent (parentLeavesQty : Quantity) (clientOrderId : ClientOrderId) :
    EngineM env Unit := do
  let child ← cachedOrder clientOrderId
  let w ← read
  let childFilledQty := countedFilledQty child w
  if child.isActiveLocal then pure ()
  else if parentLeavesQty.isZero || parentLeavesQty.raw ≤ childFilledQty.raw then
    cancelAlone env child
  else if child.quantity.raw - childFilledQty.raw ≠ parentLeavesQty.raw then do
    let _ ← updateAlone env handlers child (some parentLeavesQty) child.price child.triggerPrice
    pure ()
  else pure ()

def updateContingentOrder : EngineM env Unit := do
  let w ← read
  let parentLeavesQty := order.quantity.saturatingSub (countedFilledQty order w)
  (order.linkedOrderIds.getD []).forM (updateContingent env handlers parentLeavesQty)

def updateOrder : EngineOrder → Option Quantity → Option Price → Option Price → EngineM env Bool :=
  updateOrderWith env handlers (updateContingentOrder env handlers)

/-- The resting form follows the cached order; unchanged, it keeps its queue
place. -/
def resyncCoreEntry {env : EngineEnv} (clientOrderId : ClientOrderId) :
    EngineM env (Option EngineOrder) := do
  let w ← read
  match w.cache.orders.get? clientOrderId with
  | none => return none
  | some order =>
    if order.isClosed then do
      onCore (.delete clientOrderId)
      return some order
    else do
      let resting ← ofOption (restingForm order)
      if (w.engine.core.getOrder clientOrderId).any fun existing => existing.same resting then
        return some order
      else do
        onCore (.delete clientOrderId)
        onCore (.add resting)
        return some order

variable (command : OrderCommand)

def stampCommand {env : EngineEnv} : EngineM env OrderEvent := do
  let w ← read
  return ⟨command.strategyId, command.clientOrderId, w.now⟩

/-- A repriced order goes to the back of the queue. -/
def requeue (order refreshed : EngineOrder) : EngineM env Unit :=
  match refreshed.price with
  | none => pure ()
  | some price =>
    let repriced := !samePrice refreshed.price order.price ||
      !samePrice refreshed.triggerPrice order.triggerPrice
    if repriced && refreshed.isOpen && env.config.queuePosition then do
      snapshotQueuePosition env refreshed price
      modifyData fun d =>
        { d with queueExcess := d.queueExcess.remove refreshed.clientOrderId }
    else pure ()

def processModify (quantity : Option Quantity)
    (price triggerPrice : Option Price) : EngineM env Unit := do
  let w ← read
  if !w.engine.core.orderExists command.clientOrderId then do
    let event ← stampCommand command
    generateOrderModifyRejected env event (.notFound command.clientOrderId)
  else
    match w.cache.orders.get? command.clientOrderId with
    | none => pure ()
    | some order => do
      let isUpdated ← updateOrder env handlers order quantity price triggerPrice
      if !isUpdated then pure ()
      else do
        let refreshed ← resyncCoreEntry command.clientOrderId
        match refreshed with
        | none => pure ()
        | some refreshed => requeue env order refreshed

/-! ## Cancellations -/

def purgeStaleCoreEntry {env : EngineEnv} (clientOrderId : ClientOrderId) : EngineM env Unit := do
  deleteResting clientOrderId
  dropFilledQty clientOrderId

def cancelCached : EngineM env Unit :=
  if !order.isInflight && !order.isOpen then purgeStaleCoreEntry order.clientOrderId
  else cancelOrder env order

def processCancel : EngineM env Unit := do
  let w ← read
  if !w.engine.core.orderExists command.clientOrderId then do
    let event ← stampCommand command
    generateOrderCancelRejected env event (.notFound command.clientOrderId)
  else
    match w.cache.orders.get? command.clientOrderId with
    | none => pure ()
    | some order => cancelCached env order

/-- The ids are taken first, each order is looked up when its turn comes. -/
def processCancelAll (instrumentId : InstrumentId) (side : OrderSide) : EngineM env Unit := do
  let w ← read
  let only := if side = .noOrderSide then none else some side
  (w.cache.ordersOpen instrumentId only).forM fun open_ => do
    let w ← read
    match w.cache.orders.get? open_.clientOrderId with
    | none => pure ()
    | some order => cancelCached env order

def processBatchCancel (commands : List OrderCommand) : EngineM env Unit :=
  commands.forM (processCancel env)

/-! ## Nesting -/

/-- The handlers for a depth of nesting. -/
def handlersAt : Nat → Handlers env
  | 0 => ⟨fun _ _ => panics, fun _ _ _ _ => panics⟩
  | depth + 1 => ⟨processOrder env (handlersAt depth), updateAlone env (handlersAt depth)⟩

end EngineM

end Nautilus
