import Nautilus.Orders.Forward
import Nautilus.Reconcile.Decimals

/-!
# Order reconciliation

`reconciliation/orders.rs`: the events that bring a local order into line with the venue's status
report. `reconcileOrderReport` compares the two and returns at most one event;
`generateReconciliationOrderEvents` first accepts an order that was only submitted and amends one
whose quantity or prices differ, on a working copy, and then reconciles the copy.

A panic is `none`: a missing account, and the assertions of the order types when the copy is
amended. Reasons and event identifiers, which no order reads, are left out.
-/

namespace Nautilus

structure ReconcileInstrument where
  id : InstrumentId
  pricePrecision : Nat
  sizePrecision : Nat
deriving DecidableEq

/-- What is read of an order beyond the part of it that events change. -/
structure OrderTerms where
  instrumentId : InstrumentId
  isPostOnly : Bool
deriving DecidableEq

/-- `reports/order.rs:43`: the fields that are read. -/
structure OrderStatusReport where
  accountId : AccountId
  instrumentId : InstrumentId
  venueOrderId : VenueOrderId
  orderSide : OrderSide
  orderType : OrderType
  timeInForce : TimeInForce
  orderStatus : OrderStatus
  quantity : Quantity
  filledQty : Quantity
  tsAccepted : UnixNanos
  tsLast : UnixNanos
  venuePositionId : Option PositionId
  price : Option Price
  triggerPrice : Option Price
  avgPx : Option ℚ
  tsTriggered : Option UnixNanos
deriving DecidableEq

/-- What `create_inferred_reconciliation_trade_id` (`ids.rs:72`) hashes. -/
structure InferredFill where
  accountId : AccountId
  instrumentId : InstrumentId
  clientOrderId : ClientOrderId
  venueOrderId : VenueOrderId
  orderSide : OrderSide
  orderType : OrderType
  filledQty : Quantity
  lastQty : Quantity
  lastPx : Price
  positionId : PositionId
  tsLast : UnixNanos
deriving DecidableEq

/-- What is around order and report: the instrument if cached, the order's terms, the clock, and the
hash behind the trade ids of inferred fills. -/
structure ReconcileContext where
  instrument : Option ReconcileInstrument
  terms : OrderTerms
  tsNow : UnixNanos
  inferredTradeId : InferredFill → TradeId

/-- `PartialEq` on optional prices. -/
def priceEq : Option Price → Option Price → Bool
  | some a, some b => a.eq b
  | none, none => true
  | _, _ => false

namespace OrderAny

variable (order : OrderAny) (report : OrderStatusReport)

/-- The ids every event for the order carries. -/
def eventAt (ts : UnixNanos) : OrderEvent :=
  ⟨order.core.strategyId, order.core.clientOrderId, ts⟩

def shouldReconciliationUpdate : Bool :=
  if report.quantity.raw ≠ order.core.quantity.raw ∧
      order.core.filledQty.raw ≤ report.quantity.raw then true
  else
    let priceDrift := report.price.isSome && !priceEq report.price order.price
    let triggerDrift := report.triggerPrice.isSome && !priceEq report.triggerPrice order.triggerPrice
    match order.core.orderType with
    | .limit => priceDrift
    | .stopMarket | .trailingStopMarket | .marketIfTouched => triggerDrift
    | .stopLimit | .trailingStopLimit | .limitIfTouched => triggerDrift || priceDrift
    | .market | .marketToLimit => false

/-! ## Events -/

def createReconciliationAccepted : Option OrderEventAny :=
  order.core.accountId.map fun accountId =>
    .accepted
      { order.eventAt report.tsAccepted with
        venueOrderId := order.core.venueOrderId.getD report.venueOrderId
        accountId }

def createReconciliationRejected (tsNow : UnixNanos) : Option OrderEventAny :=
  order.core.accountId.map fun _ => .rejected (order.eventAt tsNow)

def createReconciliationTriggered (tsNow : UnixNanos) : OrderEventAny :=
  .triggered (order.eventAt (report.tsTriggered.getD tsNow))

def createReconciliationCanceled : OrderEventAny :=
  .canceled (order.eventAt report.tsLast)

def createReconciliationExpired : OrderEventAny :=
  .expired (order.eventAt report.tsLast)

/-- The trigger price only for types that have one, **the price for every type**.
-/
def createReconciliationUpdated : OrderUpdated :=
  { order.eventAt report.tsLast with
    venueOrderId := order.core.venueOrderId
    quantity := report.quantity
    price := report.price
    triggerPrice :=
      match order.core.orderType with
      | .stopMarket | .stopLimit | .marketIfTouched | .limitIfTouched | .trailingStopMarket
      | .trailingStopLimit => report.triggerPrice
      | _ => none
    protectionPrice := none
    isQuoteQuantity := order.core.isQuoteQuantity }

/-! ## Inferred fills -/

/-- The price of a first fill, or of a later one without an average price. -/
def reportedPrice : Option Price :=
  report.price.or order.price

section

variable [Build] (order : OrderAny) (report : OrderStatusReport) (context : ReconcileContext)

def calculateIncrementalFillPrice (instrument : ReconcileInstrument) : Option Price :=
  match report.avgPx with
  | none => order.reportedPrice report
  | some reportAvgPx =>
    if order.core.filledQty.isZero then Price.ofDecimal reportAvgPx instrument.pricePrecision
    else
      match order.core.avgPx with
      | none => Price.ofDecimal reportAvgPx instrument.pricePrecision
      | some orderAvgPx =>
        let lastQty : Quantity := report.filledQty.saturatingSub order.core.filledQty
        let reportNotional := reportAvgPx * report.filledQty.toDecimal
        let orderNotional := orderAvgPx * order.core.filledQty.toDecimal
        let lastPx := (reportNotional - orderNotional) / lastQty.toDecimal
        Price.ofDecimal lastPx instrument.pricePrecision

def inferredLiquiditySide (terms : OrderTerms) : LiquiditySide :=
  match order.core.orderType with
  | .market | .stopMarket | .marketToLimit | .trailingStopMarket => .taker
  | _ => if terms.isPostOnly then .maker else .noLiquiditySide

/-- The event of `create_incremental_inferred_fill` at a price. -/
def inferredFill
    (instrument : ReconcileInstrument) (accountId : AccountId) (lastQty : Quantity) (lastPx : Price) :
    OrderFilled :=
  let venueOrderId := order.core.venueOrderId.getD report.venueOrderId
  { order.eventAt report.tsLast with
    instrumentId := context.terms.instrumentId
    venueOrderId
    tradeId := context.inferredTradeId
      { accountId
        instrumentId := context.terms.instrumentId
        clientOrderId := order.core.clientOrderId
        venueOrderId
        orderSide := order.core.side
        orderType := order.core.orderType
        filledQty := report.filledQty
        lastQty
        lastPx
        positionId := report.venuePositionId.getD ⟨instrument.id.value ++ "-EXTERNAL"⟩
        tsLast := report.tsLast }
    orderSide := order.core.side
    lastQty
    lastPx
    liquiditySide := order.inferredLiquiditySide context.terms
    tsInit := context.tsNow
    positionId := none
    commission := none }

def createIncrementalInferredFill
    (context : ReconcileContext) (instrument : ReconcileInstrument) (accountId : AccountId) :
    Option (Option OrderEventAny) := do
  let lastQty ← report.filledQty.sub order.core.filledQty
  let zero ← Quantity.zero instrument.sizePrecision
  if lastQty.raw ≤ zero.raw then return none
  else
    return (order.calculateIncrementalFillPrice report instrument).map fun lastPx =>
      .filled (order.inferredFill report context instrument accountId lastQty lastPx)

def reconcileFillQuantityMismatch : Option (Option OrderEventAny) :=
  if report.filledQty.raw < order.core.filledQty.raw then some none
  else if order.core.filledQty.raw < report.filledQty.raw then
    -- a closed order is left alone whether or not the difference is within one unit
    if order.core.status.isClosed then some none
    else
      match context.instrument, order.core.accountId with
      | some instrument, some accountId =>
        order.createIncrementalInferredFill report context instrument accountId
      | _, _ => some none
  else if order.core.status ≠ report.orderStatus ∧ order.shouldReconciliationUpdate report then
    some (some (.updated (order.createReconciliationUpdated report)))
  else some none

/-! ## Reports -/

/-- The dispatch on the status of a report that is not in sync. -/
def reconcileStatus : Option (Option OrderEventAny) :=
  match report.orderStatus with
  | .accepted =>
    if order.core.status = .accepted ∧ order.shouldReconciliationUpdate report then
      some (some (.updated (order.createReconciliationUpdated report)))
    else (order.createReconciliationAccepted report).map some
  | .rejected => some (order.createReconciliationRejected context.tsNow)
  | .triggered =>
    if order.core.orderType ∈ triggerableOrderTypes then
      some (some (order.createReconciliationTriggered report context.tsNow))
    else some none
  | .canceled => some (some (order.createReconciliationCanceled report))
  | .expired => some (some (order.createReconciliationExpired report))
  | .partiallyFilled | .filled => order.reconcileFillQuantityMismatch report context
  -- the pending states, and internal ones that no venue reports
  | _ => some none

def reconcileOrderReport : Option (Option OrderEventAny) :=
  if report.orderStatus.isPending then some none
  else if order.core.status = report.orderStatus ∧
      order.core.filledQty.raw = report.filledQty.raw then
    if order.shouldReconciliationUpdate report then
      some (some (.updated (order.createReconciliationUpdated report)))
    else some none
  else order.reconcileStatus report context

def reportIsConfirmedState : Bool :=
  match report.orderStatus with
  | .accepted | .triggered | .partiallyFilled | .filled => true
  | _ => false

def localAcceptsAmendment : Bool :=
  match order.core.status with
  | .accepted | .triggered | .partiallyFilled => true
  | _ => false

def shouldAcceptBeforeReconciliation : Bool :=
  order.core.status = .submitted ∧ report.orderStatus ≠ .rejected

/-- The amendment of the working copy; one that is refused is dropped. -/
def amend (working : OrderAny) (report : OrderStatusReport) :
    Option (List OrderEventAny × OrderAny) :=
  if reportIsConfirmedState report && working.localAcceptsAmendment &&
      working.shouldReconciliationUpdate report then
    let updated := OrderEventAny.updated (working.createReconciliationUpdated report)
    (working.apply updated).map fun
      | (working, .ok ()) => ([updated], working)
      | (working, .error _) => ([], working)
  else some ([], working)

/-- The end of `generate_reconciliation_order_events`. -/
def amendAndReconcile (working : OrderAny) (report : OrderStatusReport)
    (context : ReconcileContext) (events : List OrderEventAny) : Option (List OrderEventAny) := do
  let (amendment, working) ← working.amend report
  let event ← working.reconcileOrderReport report context
  return events ++ amendment ++ event.toList

def generateReconciliationOrderEvents : Option (List OrderEventAny) :=
  if order.shouldAcceptBeforeReconciliation report then do
    let accepted ← order.createReconciliationAccepted report
    match ← order.apply accepted with
    | (_, .error _) => (order.reconcileOrderReport report context).map Option.toList
    | (working, .ok ()) => working.amendAndReconcile report context [accepted]
  else
    order.amendAndReconcile report context []

end

end OrderAny

end Nautilus
