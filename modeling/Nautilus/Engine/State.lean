import Nautilus.Lib.Program
import Nautilus.Book.Fills
import Nautilus.Matching.Registry
import Nautilus.Orders.Forward
import Nautilus.Position.Position

/-!
# The state of the matching engine

`OrderMatchingEngine` (`matching_engine/engine.rs`) simulates a venue for one instrument: it keeps a
book and a matching core, takes market data, order commands and status changes, and answers with
order events. What it was built with is an `EngineEnv`; its own fields, the shared cache and the
events sent so far are a `World`.

- Order events go to a handler, or over the message bus to the execution engine, which applies them
  to the cached orders at once or later: `EngineEnv.receive` is what happens to the cache while the
  engine waits, and nothing is assumed of it.
- `FillModel` draws random numbers, and answers by the number of draws before; so does
  `EngineEnv.uuid`.

The settlement of options at expiry is left out.
-/

namespace Nautilus

open Lib OrderStatus

/-! ## Enumerations -/

structure TraderId where
  value : String
deriving DecidableEq

inductive ContingencyType where
  | noContingency
  | oco
  | oto
  | ouo
deriving DecidableEq

inductive OmsType where
  | unspecified
  | netting
  | hedging
deriving DecidableEq

inductive AccountType where
  | cash
  | margin
  | betting
  | wallet
deriving DecidableEq

inductive MarketStatus where
  | open
  | closed
  | paused
  | suspended
  | notAvailable
deriving DecidableEq

inductive MarketStatusAction where
  | none
  | preOpen
  | preCross
  | quoting
  | cross
  | rotation
  | newPriceIndication
  | trading
  | halt
  | pause
  | suspend
  | preClose
  | close
  | postClose
  | shortSellRestrictionChange
  | notAvailableForTrading
deriving DecidableEq

inductive AggressorSide where
  | noAggressor
  | buyer
  | seller
deriving DecidableEq

inductive PriceType where
  | bid
  | ask
  | mid
  | last
  | mark
deriving DecidableEq

inductive BarAggregation where
  | tick
  | tickImbalance
  | tickRuns
  | volume
  | volumeImbalance
  | volumeRuns
  | value
  | valueImbalance
  | valueRuns
  | millisecond
  | second
  | minute
  | hour
  | day
  | week
  | month
  | year
  | renko
deriving DecidableEq

inductive AggregationSource where
  | external
  | internal
deriving DecidableEq

inductive InstrumentCloseType where
  | endOfSession
  | contractExpired
deriving DecidableEq

/-! ## What is read of orders, positions and data -/

/-- `OrderAny` as the engine reads it: what events change (`base`), and the terms of the order. The
last three fields are for trailing stops. -/
structure EngineOrder where
  base : OrderAny
  traderId : TraderId
  instrumentId : InstrumentId
  timeInForce : TimeInForce
  expireTime : Option UnixNanos
  isPostOnly : Bool
  isReduceOnly : Bool
  contingencyType : Option ContingencyType
  linkedOrderIds : Option (List ClientOrderId)
  parentOrderId : Option ClientOrderId
  triggerType : TriggerType
  activationPrice : Option Price
  isActivated : Bool
deriving DecidableEq

namespace EngineOrder

variable (order : EngineOrder)

def core : OrderCore := order.base.core

def clientOrderId : ClientOrderId := order.core.clientOrderId

def strategyId : StrategyId := order.core.strategyId

def orderSide : OrderSide := order.core.side

def orderType : OrderType := order.core.orderType

def status : OrderStatus := order.core.status

def quantity : Quantity := order.core.quantity

def filledQty : Quantity := order.core.filledQty

def leavesQty : Quantity := order.core.leavesQty

def price : Option Price := order.base.price

def triggerPrice : Option Price := order.base.triggerPrice

def liquiditySide : Option LiquiditySide := order.core.liquiditySide

def isPassive : Bool := order.orderType != .market

def isActiveLocal : Bool :=
  order.status ∈ [OrderStatus.initialized, .emulated, .released]

/-- The first lines of `is_open` and of `is_inflight`. -/
def isEmulated : Bool :=
  order.core.emulationTrigger.any fun trigger => trigger != .noTrigger

def isOpen : Bool :=
  !order.isEmulated &&
    order.status ∈ [OrderStatus.accepted, .triggered, .pendingCancel, .pendingUpdate,
      .partiallyFilled]

def isClosed : Bool := order.status.isClosed

def isInflight : Bool :=
  !order.isEmulated && order.status ∈ [OrderStatus.submitted, .pendingCancel, .pendingUpdate]

/-- A contingency other than `NoContingency`. -/
def isContingent : Bool :=
  order.contingencyType.any fun contingency => contingency != .noContingency

def setLiquiditySide (side : LiquiditySide) : EngineOrder :=
  { order with base := order.base.withCore { order.core with liquiditySide := some side } }

def wouldReduceOnly (side : PositionSide) (positionQty : Quantity) : Bool :=
  match order.orderSide, side with
  | _, .flat | .buy, .long | .sell, .short => false
  | .buy, .short | .sell, .long => order.leavesQty.raw ≤ positionQty.raw
  | _, _ => true

end EngineOrder

/-- A cached position, with the owners the engine reads. -/
structure HeldPosition extends Position where
  traderId : TraderId
  strategyId : StrategyId

/-- What the engine reads of its instrument; `calculate_base_quantity` is a function. -/
structure EngineInstrument where
  id : InstrumentId
  venue : String
  priceIncrement : Price
  pricePrecision : Nat
  sizePrecision : Nat
  quoteCurrency : Currency
  isInverse : Bool
  isEquity : Bool
  hasExpiration : Bool
  activationNs : Option UnixNanos
  expirationNs : Option UnixNanos
  calculateBaseQuantity : Quantity → Price → Quantity

/-- `BarType` with its specification. -/
structure BarType where
  instrumentId : InstrumentId
  step : Nat
  aggregation : BarAggregation
  priceType : PriceType
  aggregationSource : AggregationSource
deriving DecidableEq

structure Bar where
  barType : BarType
  open_ : Price
  high : Price
  low : Price
  close : Price
  volume : Quantity
  tsInit : UnixNanos
deriving DecidableEq

structure InstrumentClose where
  instrumentId : InstrumentId
  closePrice : Price
  closeType : InstrumentCloseType
  tsInit : UnixNanos
deriving DecidableEq

/-! ## Configuration -/

/-- `OrderMatchingEngineConfig` (`matching_engine/config.rs`) with its defaults. -/
structure OrderMatchingEngineConfig where
  barExecution : Bool := true
  barAdaptiveHighLowOrdering : Bool := false
  tradeExecution : Bool := true
  liquidityConsumption : Bool := false
  rejectStopOrders : Bool := true
  supportGtdOrders : Bool := true
  supportContingentOrders : Bool := true
  usePositionIds : Bool := true
  useRandomIds : Bool := false
  useReduceOnly : Bool := true
  useMarketOrderAcks : Bool := false
  queuePosition : Bool := false
  otoFullTrigger : Bool := false
  priceProtectionPoints : Option Nat := none
deriving DecidableEq

/-- `models/fill.rs:43`. The answers depend on the draws made before. -/
structure FillModel where
  fillLimitInsideSpread : Bool
  isLimitFilled : Nat → Bool
  isSlipped : Nat → Bool
  getOrderbookForFillSimulation : Nat → EngineOrder → Price → Price → Option OrderBook

/-- The cache: the orders, the positions, and the two indices the engine reads. -/
structure Cache where
  orders : IndexMap ClientOrderId EngineOrder
  positions : IndexMap PositionId HeldPosition
  orderPosition : IndexMap ClientOrderId PositionId
  venueOrderIds : IndexMap ClientOrderId VenueOrderId

/-- What the engine was built with. `feeModel` and `trailingStopCalculate` are `none` where the
source returns an error. `timedelta`, `acceptsQuote` and `acceptsTrade` stand for the code of bars
and ticks, which is not part of the repository: the length of a bar with a step and an aggregation,
and what the constructors of ticks do not panic on. -/
structure EngineEnv where
  instrument : EngineInstrument
  rawId : Nat
  bookType : BookType
  omsType : OmsType
  accountType : AccountType
  config : OrderMatchingEngineConfig
  fillModel : FillModel
  feeModel : EngineOrder → Quantity → Price → Option Money
  trailingStopCalculate : EngineOrder → Option Price → Option Price → Option Price →
    Option (Option Price × Option Price)
  timedelta : Nat → BarAggregation → Option Nat
  acceptsQuote : QuoteTick → Bool
  acceptsTrade : TradeTick → Bool
  uuid : Nat → String
  receive : OrderEventAny → Cache → Cache

/-! ## State -/

/-- `ids_generator.rs:32`: the counters. -/
structure IdsGenerator where
  positionCount : Nat
  orderCount : Nat
  executionCount : Nat
deriving DecidableEq

/-- The fields of `OrderMatchingEngine` (`engine.rs:75`) that change, beside book, core and
counters. -/
structure EngineData where
  marketStatus : MarketStatus
  targetBid : Option Price
  targetAsk : Option Price
  targetLast : Option Price
  lastBarBid : Option Bar
  lastBarAsk : Option Bar
  fillAtMarket : Bool
  executionBarTypes : IndexMap InstrumentId BarType
  executionBarDeltas : IndexMap BarType Nat
  accountIds : IndexMap TraderId AccountId
  idsGenerator : IdsGenerator
  lastTradeSize : Option Quantity
  bidConsumption : IndexMap Int (Nat × Nat)
  askConsumption : IndexMap Int (Nat × Nat)
  tradeConsumption : Nat
  queueAhead : IndexMap ClientOrderId (Int × Nat)
  queueExcess : IndexMap ClientOrderId Nat
  queuePending : IndexMap ClientOrderId Int
  prevBidPriceRaw : Int
  prevBidSizeRaw : Nat
  prevAskPriceRaw : Int
  prevAskSizeRaw : Nat
  lastQuoteBid : Option Price
  lastQuoteAsk : Option Price
  precisionMismatchStreak : Nat
  tobInitialized : Bool
  instrumentClose : Option InstrumentClose
  settlementPrice : Option Price
  expirationProcessed : Bool
deriving DecidableEq

/-- `engine.rs:75`: what it changes. -/
structure OrderMatchingEngine extends EngineData where
  core : OrderMatchingCore
  book : OrderBook
  cachedFilledQty : IndexMap ClientOrderId Quantity

namespace OrderMatchingEngine

def new (env : EngineEnv) : OrderMatchingEngine where
  marketStatus := .open
  targetBid := none
  targetAsk := none
  targetLast := none
  lastBarBid := none
  lastBarAsk := none
  fillAtMarket := true
  executionBarTypes := .empty
  executionBarDeltas := .empty
  accountIds := .empty
  idsGenerator := ⟨0, 0, 0⟩
  lastTradeSize := none
  bidConsumption := .empty
  askConsumption := .empty
  tradeConsumption := 0
  queueAhead := .empty
  queueExcess := .empty
  queuePending := .empty
  prevBidPriceRaw := 0
  prevBidSizeRaw := 0
  prevAskPriceRaw := 0
  prevAskSizeRaw := 0
  lastQuoteBid := none
  lastQuoteAsk := none
  precisionMismatchStreak := 0
  tobInitialized := false
  instrumentClose := none
  settlementPrice := none
  expirationProcessed := false
  core :=
    (OrderMatchingCore.new env.instrument.id env.instrument.priceIncrement).setFillLimitInsideSpread
      env.fillModel.fillLimitInsideSpread
  book := .new env.instrument.id env.bookType
  cachedFilledQty := .empty

/-- `engine.rs:238`, assignment by assignment. -/
def reset (self : OrderMatchingEngine) : OrderMatchingEngine :=
  { self with
    book := self.book.reset
    executionBarTypes := .empty
    executionBarDeltas := .empty
    accountIds := .empty
    cachedFilledQty := .empty
    core := self.core.reset
    targetBid := none
    targetAsk := none
    targetLast := none
    lastTradeSize := none
    bidConsumption := .empty
    askConsumption := .empty
    tradeConsumption := 0
    queueAhead := .empty
    queueExcess := .empty
    queuePending := .empty
    prevBidPriceRaw := 0
    prevBidSizeRaw := 0
    prevAskPriceRaw := 0
    prevAskSizeRaw := 0
    lastQuoteBid := none
    lastQuoteAsk := none
    precisionMismatchStreak := 0
    tobInitialized := false
    instrumentClose := none
    settlementPrice := none
    expirationProcessed := false
    fillAtMarket := true
    idsGenerator := ⟨0, 0, 0⟩ }

end OrderMatchingEngine

/-- Why an order, a modification or a cancellation is refused. The texts of the source also name the
order, its type and side, and print the values kept here. -/
inductive Reason where
  /-- "Order already exists" -/
  | orderAlreadyExists
  /-- "Contract {} is not yet active, activation {}" -/
  | notYetActive (activationNs : UnixNanos)
  /-- "Contract {} has expired, expiration {}" -/
  | hasExpired (expirationNs : UnixNanos)
  /-- "Rejected OTO order from {}" -/
  | rejectedOtoOrder (parentOrderId : ClientOrderId)
  /-- "Contingent order {} already closed" -/
  | contingentAlreadyClosed (clientOrderId : ClientOrderId)
  /-- "Invalid order quantity precision for order {}, was {} when {} size precision is {}" -/
  | quantityPrecision (actual : Nat)
  /-- "Invalid order price precision for order {}, was {} when {} price precision is {}" -/
  | pricePrecision (actual : Nat)
  /-- "Invalid order trigger price precision for order {}, was {} when {} price precision is
  {}" -/
  | triggerPricePrecision (actual : Nat)
  /-- "Short selling not permitted on a CASH account with position {} and order {}" -/
  | shortSelling (positionId : Option PositionId)
  /-- "Reduce-only order {} ({}-{}) would have increased position" -/
  | wouldIncreasePosition
  /-- "No market for {} to convert quote quantity to base" -/
  | noMarketToConvert
  /-- "time in force {} is not currently supported" -/
  | unsupportedTimeInForce (timeInForce : TimeInForce)
  /-- "No market for {}" -/
  | noMarket
  /-- "POST_ONLY {} {} order limit px of {} would have been a TAKER: bid={}, ask={}" -/
  | wouldTake (price : Price) (bid ask : Option Price)
  /-- "{} {} order stop px of {} was in the market: bid={}, ask={}, but rejected because of
  configuration", and the same for a trigger px -/
  | inTheMarket (price : Price) (bid ask : Option Price)
  /-- "Order {} not found" -/
  | notFound (clientOrderId : ClientOrderId)
  /-- "Invalid update quantity precision {}, expected {} for {}" -/
  | updateQuantityPrecision (actual : Nat)
  /-- "Invalid update price precision {}, expected {} for {}" -/
  | updatePricePrecision (actual : Nat)
  /-- "Invalid update trigger_price precision {}, expected {} for {}" -/
  | updateTriggerPricePrecision (actual : Nat)
  /-- "Cannot reduce order quantity {} below filled quantity {}" -/
  | belowFilled (quantity filledQty : Quantity)
  /-- "POST_ONLY {} {} order with new limit px of {} would have been a TAKER: bid={}, ask={}" -/
  | newPriceWouldTake (price : Price) (bid ask : Option Price)
  /-- "{} {} order new stop px of {} was in the market: bid={}, ask={}", and the same for a
  trigger px -/
  | newTriggerInTheMarket (price : Price) (bid ask : Option Price)
deriving DecidableEq

/-- An event that was sent, with the reason a refusal carries. -/
structure EngineEvent where
  event : OrderEventAny
  reason : Option Reason
deriving DecidableEq

/-- The engine, the cache, the events sent so far, the random draws so far and the clock. -/
structure World where
  engine : OrderMatchingEngine
  cache : Cache
  events : List EngineEvent
  draws : Nat
  now : UnixNanos

end Nautilus
