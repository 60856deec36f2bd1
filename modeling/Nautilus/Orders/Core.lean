import Nautilus.Orders.Events

/-!
# The state machine of an order

`OrderStatus::transition`, `OrderCore::new` and `OrderCore::apply` with the sixteen event handlers
(`orders/mod.rs`): what the nine order types of `Orders/Any.lean` have in common.

`apply` returns the order it leaves behind with its result. It writes `previous_status` **before**
its last three checks, and the handlers write `status` again after the transition table did.
-/

namespace Nautilus

open Quantity

/-- The variants that applying an event or building an order returns. -/
inductive OrderError where
  | invalidOrderEvent
  | invalidStateTransition
  | alreadyInitialized
  | noPreviousState
  | duplicateFill (tradeId : TradeId)
  | invariant (error : CorrectnessError)
deriving DecidableEq

def OrderStatus.transition (self : OrderStatus) (event : OrderEventAny) :
    Except OrderError OrderStatus :=
  match self, event with
  | .initialized, .denied _ => .ok .denied
  | .initialized, .emulated _ => .ok .emulated
  | .initialized, .released _ => .ok .released
  | .initialized, .submitted _ => .ok .submitted
  | .initialized, .rejected _ => .ok .rejected -- external orders, and the next four
  | .initialized, .accepted _ => .ok .accepted
  | .initialized, .canceled _ => .ok .canceled
  | .initialized, .expired _ => .ok .expired
  | .initialized, .triggered _ => .ok .triggered
  | .initialized, .updated _ => .ok .initialized
  | .emulated, .canceled _ => .ok .canceled
  | .emulated, .expired _ => .ok .expired
  | .emulated, .released _ => .ok .released
  | .released, .submitted _ => .ok .submitted
  | .released, .denied _ => .ok .denied
  | .released, .canceled _ => .ok .canceled
  | .released, .updated _ => .ok .released
  | .submitted, .pendingUpdate _ => .ok .pendingUpdate
  | .submitted, .pendingCancel _ => .ok .pendingCancel
  | .submitted, .rejected _ => .ok .rejected
  | .submitted, .canceled _ => .ok .canceled
  | .submitted, .accepted _ => .ok .accepted
  | .submitted, .updated _ => .ok .submitted
  | .submitted, .filled _ => .ok .filled
  | .accepted, .rejected _ => .ok .rejected
  | .accepted, .pendingUpdate _ => .ok .pendingUpdate
  | .accepted, .pendingCancel _ => .ok .pendingCancel
  | .accepted, .canceled _ => .ok .canceled
  | .accepted, .triggered _ => .ok .triggered
  | .accepted, .updated _ => .ok .accepted
  | .accepted, .expired _ => .ok .expired
  | .accepted, .filled _ => .ok .filled
  | .canceled, .filled _ => .ok .filled -- a fill may arrive after the cancel
  | .pendingUpdate, .rejected _ => .ok .rejected
  | .pendingUpdate, .accepted _ => .ok .accepted
  | .pendingUpdate, .canceled _ => .ok .canceled
  | .pendingUpdate, .expired _ => .ok .expired
  | .pendingUpdate, .triggered _ => .ok .triggered
  | .pendingUpdate, .pendingUpdate _ => .ok .pendingUpdate
  | .pendingUpdate, .pendingCancel _ => .ok .pendingCancel
  | .pendingUpdate, .modifyRejected _ => .ok .pendingUpdate -- the handler restores
  | .pendingUpdate, .updated _ => .ok .pendingUpdate -- the handler restores
  | .pendingUpdate, .filled _ => .ok .filled
  | .pendingCancel, .rejected _ => .ok .rejected
  | .pendingCancel, .pendingCancel _ => .ok .pendingCancel
  | .pendingCancel, .cancelRejected _ => .ok .pendingCancel -- the handler restores
  | .pendingCancel, .canceled _ => .ok .canceled
  | .pendingCancel, .expired _ => .ok .expired
  | .pendingCancel, .accepted _ => .ok .accepted
  | .pendingCancel, .filled _ => .ok .filled
  | .triggered, .rejected _ => .ok .rejected
  | .triggered, .pendingUpdate _ => .ok .pendingUpdate
  | .triggered, .pendingCancel _ => .ok .pendingCancel
  | .triggered, .canceled _ => .ok .canceled
  | .triggered, .expired _ => .ok .expired
  | .triggered, .filled _ => .ok .filled
  | .triggered, .updated _ => .ok .triggered
  | .partiallyFilled, .pendingUpdate _ => .ok .pendingUpdate
  | .partiallyFilled, .pendingCancel _ => .ok .pendingCancel
  | .partiallyFilled, .canceled _ => .ok .canceled
  | .partiallyFilled, .expired _ => .ok .expired
  | .partiallyFilled, .filled _ => .ok .filled
  | .partiallyFilled, .accepted _ => .ok .accepted
  | .partiallyFilled, .updated _ => .ok .partiallyFilled
  | _, _ => .error .invalidStateTransition

/-! ## The core -/

/-- `OrderCore` without the initialisation's fields that `apply` never reads. -/
structure OrderCore where
  events : List OrderEventAny
  venueOrderIds : List VenueOrderId
  tradeIds : List TradeId
  previousStatus : Option OrderStatus
  status : OrderStatus
  strategyId : StrategyId
  clientOrderId : ClientOrderId
  venueOrderId : Option VenueOrderId
  positionId : Option PositionId
  accountId : Option AccountId
  lastTradeId : Option TradeId
  side : OrderSide
  orderType : OrderType
  quantity : Quantity
  liquiditySide : Option LiquiditySide
  isQuoteQuantity : Bool
  emulationTrigger : Option TriggerType
  filledQty : Quantity
  leavesQty : Quantity
  overfillQty : Quantity
  avgPx : Option ℚ
  slippage : Option ℚ
  tsInit : UnixNanos
  tsSubmitted : Option UnixNanos
  tsAccepted : Option UnixNanos
  tsClosed : Option UnixNanos
  tsLast : UnixNanos
deriving DecidableEq

namespace OrderCore

variable [Build]

/-- Panics where `Quantity::zero` does. -/
def new (init : OrderInitialized) : Option OrderCore :=
  (Quantity.zero init.quantity.precision).map fun zero =>
    { events := [.initialized init]
      venueOrderIds := []
      tradeIds := []
      previousStatus := none
      status := .initialized
      strategyId := init.strategyId
      clientOrderId := init.clientOrderId
      venueOrderId := none
      positionId := none
      accountId := none
      lastTradeId := none
      side := init.orderSide
      orderType := init.orderType
      quantity := init.quantity
      liquiditySide := some .noLiquiditySide
      isQuoteQuantity := init.quoteQuantity
      emulationTrigger := init.emulationTrigger.or (some .noTrigger)
      filledQty := zero
      leavesQty := init.quantity
      overfillQty := zero
      avgPx := none
      slippage := none
      tsInit := init.tsEvent
      tsSubmitted := none
      tsAccepted := none
      tsClosed := none
      tsLast := init.tsEvent }

/-! ## Event handlers -/

variable (self : OrderCore)

/-- The body of the four handlers of closing events. -/
def closeAt (event : OrderEvent) : OrderCore :=
  { self with tsClosed := some event.tsEvent }

def denied (event : OrderEvent) : OrderCore := self.closeAt event

def released (_event : OrderEvent) : OrderCore :=
  { self with emulationTrigger := none }

def submitted (event : OrderSubmitted) : OrderCore :=
  { self with accountId := some event.accountId, tsSubmitted := some event.tsEvent }

def accepted (event : OrderAccepted) : OrderCore :=
  { self with
    accountId := some event.accountId
    venueOrderId := some event.venueOrderId
    venueOrderIds := self.venueOrderIds ++ [event.venueOrderId]
    tsAccepted := some event.tsEvent }

def rejected (event : OrderEvent) : OrderCore := self.closeAt event

/-- `self.status = self.previous_status.ok_or(NoPreviousState)?`, the body of
`modify_rejected` and of `cancel_rejected`. -/
def restorePrevious : OrderCore × Except OrderError Unit :=
  match self.previousStatus with
  | some previous => ({ self with status := previous }, .ok ())
  | none => (self, .error .noPreviousState)

def modifyRejected (_event : OrderEvent) : OrderCore × Except OrderError Unit :=
  self.restorePrevious

def cancelRejected (_event : OrderEvent) : OrderCore × Except OrderError Unit :=
  self.restorePrevious

def canceled (event : OrderEvent) : OrderCore := self.closeAt event

def expired (event : OrderEvent) : OrderCore := self.closeAt event

/-- The status after `updated`: out of `PendingUpdate` the previous one, if there is
one. -/
def statusAfterUpdate : OrderStatus :=
  if self.status = .pendingUpdate then self.previousStatus.getD self.status else self.status

/-- The quantities are the order type's to change. -/
def updated (event : OrderUpdated) : OrderCore :=
  { self with
    status := self.statusAfterUpdate
    venueOrderId := event.venueOrderId.or self.venueOrderId
    venueOrderIds :=
      match event.venueOrderId with
      | some venueOrderId =>
        if self.venueOrderId = some venueOrderId then self.venueOrderIds
        else self.venueOrderIds ++ [venueOrderId]
      | none => self.venueOrderIds
    isQuoteQuantity := event.isQuoteQuantity }

/-- Called after `filled_qty` was raised. A float quotient `0 / 0`, excluded by a
debug assertion, is `0` here. -/
def setAvgPx (lastQty : Quantity) (lastPx : Price) : Option OrderCore := do
  match self.avgPx with
  | none =>
    let px ← lastPx.asF64
    return { self with avgPx := some px }
  | some avgPx =>
    let prevFilledQty ← (← self.filledQty.sub lastQty).asF64
    let lastQtyF64 ← lastQty.asF64
    let px ← lastPx.asF64
    let totalQty := prevFilledQty + lastQtyF64
    return { self with avgPx := some ((avgPx * prevFilledQty + px * lastQtyF64) / totalQty) }

def setSlippage (price : Price) : Option OrderCore :=
  match self.avgPx with
  | none => some { self with slippage := none }
  | some avgPx =>
    price.asF64.map fun currentPrice =>
      { self with
        slippage :=
          match self.side with
          | .buy => if currentPrice < avgPx then some (avgPx - currentPrice) else none
          | .sell => if avgPx < currentPrice then some (currentPrice - avgPx) else none
          | .noOrderSide => none }

/-- The overfill a raised `filled_qty` comes with. -/
def overfillAfter (newFilledQty : Quantity) : Option Quantity :=
  if self.quantity.lt newFilledQty then
    Quantity.fromRaw
      (Quantity.saturatingAdd self.overfillQty.raw (newFilledQty.raw - self.quantity.raw))
      self.filledQty.precision
  else
    some self.overfillQty

def filled (event : OrderFilled) : Option OrderCore := do
  let newFilledQty ← Quantity.fromRaw
    (Quantity.saturatingAdd self.filledQty.raw event.lastQty.raw) self.filledQty.precision
  let overfillQty ← self.overfillAfter newFilledQty
  let isPartial := newFilledQty.lt self.quantity
  let core : OrderCore :=
    { self with
      overfillQty
      status := if isPartial then .partiallyFilled else .filled
      tsClosed := if isPartial then self.tsClosed else some event.tsEvent
      venueOrderId := some event.venueOrderId
      positionId := event.positionId
      tradeIds := self.tradeIds ++ [event.tradeId]
      lastTradeId := some event.tradeId
      liquiditySide := some event.liquiditySide
      filledQty := newFilledQty
      leavesQty := self.leavesQty.saturatingSub event.lastQty
      tsLast := event.tsEvent
      tsAccepted := self.tsAccepted.or (some event.tsEvent) }
  core.setAvgPx event.lastQty event.lastPx

/-! ## Applying an event -/

/-- The events that leave `previous_status` alone. -/
def keepsPrevious : OrderEventAny → Bool
  | .initialized _ | .modifyRejected _ | .cancelRejected _ => true
  | _ => false

/-- Saves the current status, unless one is restored or a request is outstanding.
-/
def savePrevious (event : OrderEventAny) : OrderCore :=
  if !keepsPrevious event && !self.status.isPending then
    { self with previousStatus := some self.status }
  else
    self

/-- A fill must be new, a trigger must suit the type, and the transition table
must have a row. -/
def newStatus (event : OrderEventAny) : Except OrderError OrderStatus :=
  match event with
  | .filled fill =>
    if fill.tradeId ∈ self.tradeIds then .error (.duplicateFill fill.tradeId)
    else self.status.transition event
  | .triggered _ =>
    if self.orderType ∈ triggerableOrderTypes then self.status.transition event
    else .error .invalidOrderEvent
  | _ => self.status.transition event

/-- The dispatch on the event. -/
def handle : OrderEventAny → Outcome OrderError OrderCore
  | .initialized _ => some (self, .error .alreadyInitialized)
  | .denied event => some (self.denied event, .ok ())
  | .emulated _ => some (self, .ok ())
  | .released event => some (self.released event, .ok ())
  | .submitted event => some (self.submitted event, .ok ())
  | .rejected event => some (self.rejected event, .ok ())
  | .accepted event => some (self.accepted event, .ok ())
  | .pendingUpdate _ => some (self, .ok ())
  | .pendingCancel _ => some (self, .ok ())
  | .modifyRejected event => some (self.modifyRejected event)
  | .cancelRejected event => some (self.cancelRejected event)
  | .updated event => some (self.updated event, .ok ())
  | .triggered _ => some (self, .ok ())
  | .canceled event => some (self.canceled event, .ok ())
  | .expired event => some (self.expired event, .ok ())
  | .filled event => (self.filled event).map (·, .ok ())

/-- `self.ts_last = event.ts_event(); self.events.push(event)`. -/
def record (event : OrderEventAny) : OrderCore :=
  { self with tsLast := event.tsEvent, events := self.events ++ [event] }

/-- `Ok(())` records the event, an early return does not. -/
def recordIfOk (event : OrderEventAny) :
    OrderCore × Except OrderError Unit → OrderCore × Except OrderError Unit
  | (core, .ok ()) => (core.record event, .ok ())
  | (core, .error e) => (core, .error e)

/-- The error of a mismatched identifier. -/
def mismatch (field event order : String) : OrderError :=
  .invariant (.predicateViolation
    ("Event " ++ field ++ " " ++ event ++ " does not match order " ++ field ++ " " ++ order))

def apply (event : OrderEventAny) : Outcome OrderError OrderCore :=
  if self.clientOrderId ≠ event.clientOrderId then
    some (self,
      .error (mismatch "client_order_id" event.clientOrderId.value self.clientOrderId.value))
  else if self.strategyId ≠ event.strategyId then
    some (self, .error (mismatch "strategy_id" event.strategyId.value self.strategyId.value))
  else
    let saved := self.savePrevious event
    match saved.newStatus event with
    | .error e => some (saved, .error e)
    | .ok status => ({ saved with status }.handle event).map (recordIfOk event)

end OrderCore

end Nautilus
