import Nautilus.Enums
import Nautilus.Types

/-!
# Order events

The statuses and types of an order (`enums.rs`) and the sixteen events of `events/order/`. Every
event names its strategy and order and has a timestamp; beyond these it has here the fields that an
order or a position reads. Trader and event identifiers, reasons and the reconciliation flag decide
nothing.
-/

namespace Nautilus

/-! ## Statuses and types -/

inductive OrderStatus where
  | initialized
  | denied
  | emulated
  | released
  | submitted
  | accepted
  | rejected
  | canceled
  | expired
  | triggered
  | pendingUpdate
  | pendingCancel
  | partiallyFilled
  | filled
deriving DecidableEq

def OrderStatus.isClosed : OrderStatus → Bool
  | .denied | .rejected | .canceled | .expired | .filled => true
  | _ => false

/-- The statuses an order has while a request to the venue is outstanding. -/
def OrderStatus.isPending : OrderStatus → Bool
  | .pendingUpdate | .pendingCancel => true
  | _ => false

inductive OrderType where
  | market
  | limit
  | stopMarket
  | stopLimit
  | marketToLimit
  | marketIfTouched
  | limitIfTouched
  | trailingStopMarket
  | trailingStopLimit
deriving DecidableEq

/-- `orders/mod.rs:101`: the market-style stops execute at once and have no intermediate status. -/
def triggerableOrderTypes : List OrderType := [.stopLimit, .trailingStopLimit, .limitIfTouched]

inductive LiquiditySide where
  | noLiquiditySide
  | maker
  | taker
deriving DecidableEq

inductive TriggerType where
  | noTrigger
  | default
  | lastPrice
  | markPrice
  | indexPrice
  | bidAsk
  | doubleLast
  | doubleBidAsk
  | lastOrBidAsk
  | midPoint
deriving DecidableEq

inductive TrailingOffsetType where
  | noTrailingOffset
  | price
  | basisPoints
  | ticks
  | priceTier
deriving DecidableEq

inductive TimeInForce where
  | gtc
  | ioc
  | fok
  | gtd
  | day
  | atTheOpen
  | atTheClose
deriving DecidableEq

/-! ## Events -/

/-- What the trait `OrderEvent` gives of every event. -/
structure OrderEvent where
  strategyId : StrategyId
  clientOrderId : ClientOrderId
  tsEvent : UnixNanos
deriving DecidableEq

/-- `events/order/initialized.rs`. Decimals are rationals. -/
structure OrderInitialized extends OrderEvent where
  orderSide : OrderSide
  orderType : OrderType
  quantity : Quantity
  timeInForce : TimeInForce
  quoteQuantity : Bool
  price : Option Price
  triggerPrice : Option Price
  triggerType : Option TriggerType
  limitOffset : Option ℚ
  trailingOffset : Option ℚ
  trailingOffsetType : Option TrailingOffsetType
  expireTime : Option UnixNanos
  displayQty : Option Quantity
  emulationTrigger : Option TriggerType
deriving DecidableEq

structure OrderSubmitted extends OrderEvent where
  accountId : AccountId
deriving DecidableEq

structure OrderAccepted extends OrderEvent where
  venueOrderId : VenueOrderId
  accountId : AccountId
deriving DecidableEq

/-- `events/order/updated.rs`. -/
structure OrderUpdated extends OrderEvent where
  venueOrderId : Option VenueOrderId
  quantity : Quantity
  price : Option Price
  triggerPrice : Option Price
  protectionPrice : Option Price
  isQuoteQuantity : Bool
deriving DecidableEq

/-- `events/order/filled.rs`. -/
structure OrderFilled extends OrderEvent where
  instrumentId : InstrumentId
  venueOrderId : VenueOrderId
  tradeId : TradeId
  orderSide : OrderSide
  lastQty : Quantity
  lastPx : Price
  liquiditySide : LiquiditySide
  tsInit : UnixNanos
  positionId : Option PositionId
  commission : Option Money
deriving DecidableEq

/-- `events/order/any.rs`. -/
inductive OrderEventAny where
  | initialized (event : OrderInitialized)
  | denied (event : OrderEvent)
  | emulated (event : OrderEvent)
  | released (event : OrderEvent)
  | submitted (event : OrderSubmitted)
  | accepted (event : OrderAccepted)
  | rejected (event : OrderEvent)
  | canceled (event : OrderEvent)
  | expired (event : OrderEvent)
  | triggered (event : OrderEvent)
  | pendingUpdate (event : OrderEvent)
  | pendingCancel (event : OrderEvent)
  | modifyRejected (event : OrderEvent)
  | cancelRejected (event : OrderEvent)
  | updated (event : OrderUpdated)
  | filled (event : OrderFilled)
deriving DecidableEq

namespace OrderEventAny

/-- The part all events share. -/
def toOrderEvent : OrderEventAny → OrderEvent
  | initialized event => event.toOrderEvent
  | submitted event => event.toOrderEvent
  | accepted event => event.toOrderEvent
  | updated event => event.toOrderEvent
  | filled event => event.toOrderEvent
  | denied event | emulated event | released event | rejected event | canceled event
  | expired event | triggered event | pendingUpdate event | pendingCancel event
  | modifyRejected event | cancelRejected event => event

variable (event : OrderEventAny)

def clientOrderId : ClientOrderId := event.toOrderEvent.clientOrderId

def strategyId : StrategyId := event.toOrderEvent.strategyId

def tsEvent : UnixNanos := event.toOrderEvent.tsEvent

def fill? : OrderEventAny → Option OrderFilled
  | filled event => some event
  | _ => none

end OrderEventAny

end Nautilus
