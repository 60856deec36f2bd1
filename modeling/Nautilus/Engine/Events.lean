import Nautilus.Engine.Acts

/-!
# Identifiers and events

`IdsGenerator` (`matching_engine/ids_generator.rs`) and the `generate_order_*` methods of the
engine: every event is sent to the receiver and recorded.
-/

namespace Nautilus

open Lib

/-! ## Reading the cache -/

namespace Cache

variable (cache : Cache)

/-- `positions_open` for one instrument (`cache/mod.rs:4595`), in no particular order. -/
def positionsOpen (instrumentId : InstrumentId) : List HeldPosition :=
  cache.positions.values.filter fun p => p.isOpen && p.instrumentId = instrumentId

/-- `orders_open` for one instrument and side (`cache/mod.rs:3981`), in no particular order. -/
def ordersOpen (instrumentId : InstrumentId) (side : Option OrderSide) : List EngineOrder :=
  cache.orders.values.filter fun o =>
    o.isOpen && o.instrumentId = instrumentId && side.all fun s => o.orderSide = s

variable (clientOrderId : ClientOrderId)

def positionForOrder : Option HeldPosition :=
  (cache.orderPosition.get? clientOrderId).bind cache.positions.get?

/-- `add_order` without replacing (`cache/mod.rs:2111`): an id that is present stays as it is. -/
def addOrder (order : EngineOrder) : Cache :=
  if cache.orders.containsKey order.clientOrderId then cache
  else { cache with orders := cache.orders.insert order.clientOrderId order }

def replaceOrder (order : EngineOrder) : Cache :=
  { cache with orders := cache.orders.insert order.clientOrderId order }

/-- A change made through `order_mut`. -/
def updateOrder (f : EngineOrder → EngineOrder) : Cache :=
  match cache.orders.get? clientOrderId with
  | some order => { cache with orders := cache.orders.insert clientOrderId (f order) }
  | none => cache

def addPositionId (positionId : PositionId) (clientOrderId : ClientOrderId) : Cache :=
  { cache with orderPosition := cache.orderPosition.insert clientOrderId positionId }

/-- `cache/mod.rs:2072`, for an id that is not indexed yet. -/
def addVenueOrderId (venueOrderId : VenueOrderId) : Cache :=
  { cache with venueOrderIds := cache.venueOrderIds.insert clientOrderId venueOrderId }

end Cache

/-! ## Identifiers -/

def leBytes : Nat → Nat → List UInt8
  | 0, _ => []
  | width + 1, n => UInt8.ofNat n :: leBytes width (n / 256)

def fnv1aTradeIdHash (venue : String) (rawId : Nat) (tsInit : UnixNanos) : UInt64 :=
  let bytes := venue.toUTF8.toList ++ [0x1f] ++ leBytes 4 rawId ++ [0x1f] ++ leBytes 8 tsInit
  bytes.foldl (fun hash byte => (hash ^^^ byte.toUInt64) * 0x100000001b3) 0xcbf29ce484222325

/-- `{:0width}`: zeros on the left. -/
def padZeros (width : Nat) (digits : List Char) : String :=
  String.ofList (List.replicate (width - digits.length) '0' ++ digits)

namespace EngineM

variable [Build] [BookCode] (env : EngineEnv)

def count {env : EngineEnv} (f : IdsGenerator → IdsGenerator) : EngineM env IdsGenerator := do
  modifyData fun d => { d with idsGenerator := f d.idsGenerator }
  let w ← read
  return w.engine.idsGenerator

def generateTradeId (tsInit : UnixNanos) : EngineM env TradeId := do
  let ids ← count fun ids => { ids with executionCount := ids.executionCount + 1 }
  let hash := fnv1aTradeIdHash env.instrument.venue env.rawId tsInit
  return ⟨"T-" ++ padZeros 16 (Nat.toDigits 16 hash.toNat) ++ "-" ++
    padZeros 3 (Nat.toDigits 10 ids.executionCount)⟩

/-- The id of a counter, or a random one. -/
def venueId (n : Nat) : EngineM env String :=
  if env.config.useRandomIds then draw env.uuid
  else pure (env.instrument.venue ++ "-" ++ toString env.rawId ++ "-" ++ toString n)

def generateVenuePositionId : EngineM env (Option PositionId) :=
  if !env.config.usePositionIds then pure none
  else do
    let ids ← count fun ids => { ids with positionCount := ids.positionCount + 1 }
    let id ← venueId env ids.positionCount
    return some ⟨id⟩

def generateVenueOrderId : EngineM env VenueOrderId := do
  let ids ← count fun ids => { ids with orderCount := ids.orderCount + 1 }
  let id ← venueId env ids.orderCount
  return ⟨id⟩

variable (order : EngineOrder)

/-- `ids_generator.rs:86`: of the order, of the cache, or a new one. -/
def getVenueOrderId : EngineM env VenueOrderId := do
  let w ← read
  match order.core.venueOrderId.or (w.cache.venueOrderIds.get? order.clientOrderId) with
  | some venueOrderId => return venueOrderId
  | none =>
    let venueOrderId ← generateVenueOrderId env
    modifyCache fun cache => cache.addVenueOrderId order.clientOrderId venueOrderId
    return venueOrderId

/-- `ids_generator.rs:111`; both callers generate. -/
def getPositionId : EngineM env (Option PositionId) := do
  let w ← read
  if env.omsType = .hedging then
    match w.cache.orderPosition.get? order.clientOrderId with
    | some positionId => return some positionId
    | none => generateVenuePositionId env
  else
    return (w.cache.positionsOpen order.instrumentId).head?.map fun p => p.id

/-! ## Events -/

/-- The part all events share, at the time of the clock. -/
def stamp : EngineM env OrderEvent := do
  let w ← read
  return ⟨order.strategyId, order.clientOrderId, w.now⟩

/-- `order.account_id().unwrap_or(self.account_ids.get(..).unwrap())`: the second account has to be
there even when the order has one. -/
def accountIdOf : EngineM env AccountId := do
  let w ← read
  let indexed ← Acting.ofOption (w.engine.accountIds.get? order.traderId)
  return order.core.accountId.getD indexed

def generateOrderRejected (reason : Reason) : EngineM env Unit := do
  let _ ← accountIdOf env order
  let event ← stamp env order
  dispatchOrderEvent env (.rejected event) (some reason)

def generateOrderAccepted (venueOrderId : VenueOrderId) : EngineM env Unit := do
  let accountId ← accountIdOf env order
  let event ← stamp env order
  dispatchOrderEvent env (.accepted { event with venueOrderId, accountId }) none

variable (event : OrderEvent)

def generateOrderModifyRejected (reason : Reason) : EngineM env Unit :=
  dispatchOrderEvent env (.modifyRejected event) (some reason)

def generateOrderCancelRejected (reason : Reason) : EngineM env Unit :=
  dispatchOrderEvent env (.cancelRejected event) (some reason)

/-- No caller passes a protection price. -/
def generateOrderUpdated (quantity : Quantity) (price triggerPrice : Option Price) :
    EngineM env Unit := do
  let event ← stamp env order
  dispatchOrderEvent env
    (.updated
      { event with
        venueOrderId := order.core.venueOrderId
        quantity
        price
        triggerPrice
        protectionPrice := none
        isQuoteQuantity := order.core.isQuoteQuantity })
    none

def generateOrderCanceled : EngineM env Unit := do
  let event ← stamp env order
  dispatchOrderEvent env (.canceled event) none

def generateOrderTriggered : EngineM env Unit := do
  let event ← stamp env order
  dispatchOrderEvent env (.triggered event) none

def generateOrderExpired : EngineM env Unit := do
  let event ← stamp env order
  dispatchOrderEvent env (.expired event) none

/-- The event of a fill. -/
def filledEvent (venueOrderId : VenueOrderId)
    (tradeId : TradeId) (venuePositionId : Option PositionId) (lastQty : Quantity)
    (lastPx : Price) (commission : Money) (liquiditySide : LiquiditySide) : OrderFilled :=
  { event with
    instrumentId := order.instrumentId
    venueOrderId
    tradeId
    orderSide := order.orderSide
    lastQty
    lastPx
    liquiditySide
    tsInit := event.tsEvent
    positionId := venuePositionId
    commission := some commission }

/-- A part of the act of filling. -/
def generateOrderFilled (venueOrderId : VenueOrderId)
    (venuePositionId : Option PositionId) (lastQty : Quantity) (lastPx : Price)
    (commission : Money) (liquiditySide : LiquiditySide) : Prog World Unit := do
  let _ ← (accountIdOf env order).prog
  let event ← (stamp env order).prog
  let tradeId ← (generateTradeId env event.tsEvent).prog
  let filled := OrderEventAny.filled
    (filledEvent order event venueOrderId tradeId venuePositionId lastQty lastPx commission
      liquiditySide)
  modify fun w =>
    { w with events := w.events ++ [⟨filled, none⟩], cache := env.receive filled w.cache }

end EngineM

end Nautilus
