import Nautilus.Fixed
import Nautilus.Lib.IndexMap
import Nautilus.Lib.Run
import Nautilus.Orders.Events

/-!
# Positions

`Position` of `position.rs`: what is held of an instrument, kept from fills and from adjustments.

- `apply` takes a fill. A flat position starts over with it.
- `applyAdjustment` changes the quantity or the realized PnL. `apply` calls it for a commission paid
  in the base currency of a currency pair.
- `purgeEventsForOrder` drops the fills of one order and rebuilds the position from the other fills
  and the adjustments that are not commissions.

`signed_qty` and the average prices are floats in the source and rationals here. `none` is a panic;
differences of timestamps wrap, as in builds without overflow checks.
-/

namespace Nautilus

open Lib Quantity

inductive PositionSide where
  | noPositionSide
  | flat
  | long
  | short
deriving DecidableEq

inductive PositionAdjustmentType where
  | commission
  | funding
deriving DecidableEq

/-- `events/position/adjusted.rs`. -/
structure PositionAdjusted where
  adjustmentType : PositionAdjustmentType
  quantityChange : Option ℚ
  pnlChange : Option Money
  reason : Option String
  tsEvent : UnixNanos
  tsInit : UnixNanos
deriving DecidableEq

/-- What a position reads of its instrument. -/
structure Instrument where
  id : InstrumentId
  sizePrecision : Nat
  multiplier : Quantity
  isInverse : Bool
  isCurrencyPair : Bool
  baseCurrency : Option Currency
  quoteCurrency : Currency
deriving DecidableEq

/-- `instruments/mod.rs:204`; panics on an inverse instrument without a base currency. -/
def Instrument.costCurrency (instrument : Instrument) : Option Currency :=
  if instrument.isInverse then instrument.baseCurrency else some instrument.quoteCurrency

structure Position where
  events : List OrderFilled
  adjustments : List PositionAdjusted
  instrumentId : InstrumentId
  id : PositionId
  openingOrderId : ClientOrderId
  closingOrderId : Option ClientOrderId
  entry : OrderSide
  side : PositionSide
  signedQty : ℚ
  quantity : Quantity
  peakQty : Quantity
  sizePrecision : Nat
  multiplier : Quantity
  isInverse : Bool
  isCurrencyPair : Bool
  baseCurrency : Option Currency
  settlementCurrency : Currency
  tsInit : UnixNanos
  tsOpened : UnixNanos
  tsLast : UnixNanos
  tsClosed : Option UnixNanos
  durationNs : Nat
  avgPxOpen : ℚ
  avgPxClose : Option ℚ
  realizedReturn : ℚ
  realizedPnl : Option Money
  tradeIds : List TradeId
  buyQty : Quantity
  sellQty : Quantity
  /-- Keyed by the code of the currency, which decides the equality of currencies. -/
  commissions : IndexMap String Money

def OrderSideSpecified.signed (s : OrderSideSpecified) (amount : ℚ) : ℚ :=
  match s with
  | .buy => amount
  | .sell => -amount

/-- Why a price, return or PnL cannot be calculated; errors are logged and replaced by a default. -/
inductive CalculationError where
  | bothQuantitiesZero
  | fillQuantityZero
  | totalQuantityNotPositive
  | openPriceTooSmall
  | closePriceTooSmall
  | openPriceZero
deriving DecidableEq

namespace Position

variable (p : Position)

def isOpen : Bool := p.side != .flat && p.tsClosed.isNone

def isClosed : Bool := p.side == .flat && p.tsClosed.isSome

/-! ## Prices and PnL -/

def calculateAvgPx (qty avgPg lastPx lastQty : ℚ) : Except CalculationError ℚ :=
  if qty = 0 ∧ lastQty = 0 then .error .bothQuantitiesZero
  else if lastQty = 0 then .error .fillQuantityZero
  else if qty = 0 then .ok lastPx
  else if qty + lastQty ≤ 0 then .error .totalQuantityNotPositive
  else .ok ((avgPg * qty + lastPx * lastQty) / (qty + lastQty))

def calculatePoints (avgPxOpen avgPxClose : ℚ) : ℚ :=
  match p.side with
  | .long => avgPxClose - avgPxOpen
  | .short => avgPxOpen - avgPxClose
  | _ => 0

def calculatePointsInverse (avgPxOpen avgPxClose : ℚ) : Except CalculationError ℚ :=
  if |avgPxOpen| < 1 / 10 ^ 15 then .error .openPriceTooSmall
  else if |avgPxClose| < 1 / 10 ^ 15 then .error .closePriceTooSmall
  else
    match p.side with
    | .long => .ok (1 / avgPxOpen - 1 / avgPxClose)
    | .short => .ok (1 / avgPxClose - 1 / avgPxOpen)
    | _ => .ok 0

def calculateReturn (avgPxOpen avgPxClose : ℚ) : Except CalculationError ℚ :=
  if avgPxOpen = 0 then .error .openPriceZero
  else .ok (p.calculatePoints avgPxOpen avgPxClose / avgPxOpen)

section

variable [Build] (p : Position)

def calculateAvgPxOpenPx (lastPx lastQty : ℚ) : Option ℚ :=
  p.quantity.asF64.map fun qty =>
    (calculateAvgPx qty p.avgPxOpen lastPx lastQty).toOption.getD lastPx

def calculateAvgPxClosePx (lastPx lastQty : ℚ) : Option ℚ :=
  match p.avgPxClose with
  | none => some lastPx
  | some avgPxClose =>
    (if p.side = .long then p.sellQty else p.buyQty).asF64.map fun closingQty =>
      (calculateAvgPx closingQty avgPxClose lastPx lastQty).toOption.getD lastPx

/-- Of no more than the quantity that is held. -/
def calculatePnlRaw (avgPxOpen avgPxClose quantity : ℚ) : Option (Except CalculationError ℚ) :=
  let quantity := min quantity |p.signedQty|
  if p.isInverse then
    match p.calculatePointsInverse avgPxOpen avgPxClose with
    | .error e => some (.error e)
    | .ok points => p.multiplier.asF64.map fun multiplier => .ok (quantity * multiplier * points)
  else
    p.multiplier.asF64.map fun multiplier =>
      .ok (quantity * multiplier * p.calculatePoints avgPxOpen avgPxClose)

/-! ## Fills -/

variable (fill : OrderFilled)

/-- What a fill costs in the settlement currency, as a PnL. -/
def commissionPnl : Option ℚ :=
  match fill.commission with
  | none => some 0
  | some commission =>
    if commission.currency.eq p.settlementCurrency then commission.asF64.map (-·) else some 0

variable (s : OrderSideSpecified)

/-- The average prices after a fill of side `s`, and its PnL: a fill on the side of the position
moves the opening price, one against it closes at a price. -/
def averaged (p : Position) (lastPx lastQty : ℚ) : Option (Position × ℚ) :=
  if 0 < s.signed p.signedQty then
    (p.calculateAvgPxOpenPx lastPx lastQty).map fun px => ({ p with avgPxOpen := px }, 0)
  else if s.signed p.signedQty < 0 then do
    let avgPxClose ← p.calculateAvgPxClosePx lastPx lastQty
    let pnl ← p.calculatePnlRaw p.avgPxOpen lastPx lastQty
    pure
      ({ p with
          avgPxClose := some avgPxClose
          realizedReturn := (p.calculateReturn p.avgPxOpen avgPxClose).toOption.getD 0 },
        pnl.toOption.getD 0)
  else
    some (p, 0)

/-- `current_pnl`: what has been realized before, zero if nothing has. -/
def currentPnl : Option ℚ :=
  match p.realizedPnl with
  | none => some 0
  | some pnl => pnl.asF64

/-- `current_pnl + realized_pnl` becomes the realized PnL. -/
def realize (pnl : ℚ) : Option Position := do
  let current ← p.currentPnl
  let realized ← Money.new (current + pnl) p.settlementCurrency
  pure { p with realizedPnl := some realized }

/-- The cumulated quantity of the side of a fill. -/
def addQty (p : Position) (lastQty : Quantity) : Option Position :=
  match s with
  | .buy => (p.buyQty.add lastQty).map fun qty => { p with buyQty := qty }
  | .sell => (p.sellQty.add lastQty).map fun qty => { p with sellQty := qty }

/-- The signed quantity after a fill; a position that is reversed opens at the price of
the fill. -/
def moveQty (p : Position) (lastPx lastQty : ℚ) : Position :=
  let signedQty := p.signedQty + s.signed lastQty
  { p with
    signedQty
    avgPxOpen :=
      if s.signed p.signedQty < 0 ∧ 0 < s.signed signedQty then lastPx else p.avgPxOpen }

/-- `handle_buy_order_fill` and `handle_sell_order_fill` (`:407, 459`) mirror
each other. -/
def handleOrderFill (p : Position) (fill : OrderFilled) : Option Position := do
  let commission ← p.commissionPnl fill
  let lastPx ← fill.lastPx.asF64
  let lastQty ← fill.lastQty.asF64
  let (p, pnl) ← p.averaged s lastPx lastQty
  let p ← p.realize (commission + pnl)
  (p.moveQty s lastPx lastQty).addQty s fill.lastQty

def handleBuyOrderFill : Position → OrderFilled → Option Position := handleOrderFill .buy

def handleSellOrderFill : Position → OrderFilled → Option Position := handleOrderFill .sell

/-- The handler of the side of the fill; `specified_side` panics where it has none. -/
def handleFill : Option Position :=
  match fill.orderSide.asSpecified with
  | none => none
  | some .buy => p.handleBuyOrderFill fill
  | some .sell => p.handleSellOrderFill fill

/-! ## Adjustments -/

/-- `quantity` is `signed_qty` without its sign at the size precision of the instrument. -/
def requantify : Option Position :=
  (Quantity.new |p.signedQty| p.sizePrecision).map fun quantity =>
    { p with quantity, peakQty := if p.peakQty.lt quantity then quantity else p.peakQty }

def changeQty : Option ℚ → Option Position
  | none => some p
  | some change => { p with signedQty := p.signedQty + change }.requantify

def changePnl : Option Money → Option Position
  | none => some p
  | some change =>
    match p.realizedPnl with
    | none => some { p with realizedPnl := some change }
    | some current => (current.add change).map fun pnl => { p with realizedPnl := some pnl }

/-- The side after an adjustment; a quantity of zero is normalized. -/
def resided : Position :=
  if p.quantity.isZero then
    { p with side := .flat, signedQty := 0 }
  else if 0 < p.signedQty then
    { p with side := .long, entry := if p.entry = .noOrderSide then .buy else p.entry }
  else
    { p with side := .short, entry := if p.entry = .noOrderSide then .sell else p.entry }

def applyAdjustment (adjustment : PositionAdjusted) : Option Position := do
  let p ← p.changeQty adjustment.quantityChange
  let p ← p.changePnl adjustment.pnlChange
  let p := p.resided
  pure { p with adjustments := p.adjustments ++ [adjustment], tsLast := adjustment.tsEvent }

/-! ## `apply` -/

/-- A flat position starts over with the fill. -/
def reopen : Option Position :=
  if p.side = .flat then do
    let zero ← Quantity.zero p.sizePrecision
    let lastPx ← fill.lastPx.asF64
    pure
      { p with
        events := []
        tradeIds := []
        adjustments := []
        buyQty := zero
        sellQty := zero
        commissions := .empty
        openingOrderId := fill.clientOrderId
        closingOrderId := none
        peakQty := zero
        tsInit := fill.tsInit
        tsOpened := fill.tsEvent
        tsClosed := none
        durationNs := 0
        avgPxOpen := lastPx
        avgPxClose := none
        realizedReturn := 0
        realizedPnl := none }
  else
    some p

/-- The fill is recorded, its trade id taken and its commission cumulated. -/
def recordFill : Option Position :=
  let p :=
    { p with events := p.events ++ [fill], tradeIds := p.tradeIds ++ [fill.tradeId] }
  match fill.commission with
  | none => some p
  | some commission =>
    let code := commission.currency.code
    match p.commissions.get? code with
    | none => some { p with commissions := p.commissions.insert code commission }
    | some existing =>
      (existing.add commission).map fun total =>
        { p with commissions := p.commissions.insert code total }

/-- The commission of a fill that is paid out of the position: in the base currency of a
currency pair. -/
def baseCommission : Option Money :=
  if p.isCurrencyPair then
    match fill.commission, p.baseCurrency with
    | some commission, some base => if commission.currency.eq base then some commission else none
    | _, _ => none
  else
    none

/-- Such a commission adjusts the quantity. -/
def chargeCommission : Option Position :=
  match p.baseCommission fill with
  | none => some p
  | some commission =>
    p.applyAdjustment
      { adjustmentType := .commission
        quantityChange := some (-commission.asDecimal)
        pnlChange := none
        reason := some fill.clientOrderId.value
        tsEvent := fill.tsEvent
        tsInit := fill.tsInit }

/-- The side after a fill; a position without a quantity is closed. -/
def settled : Position :=
  if p.quantity.isZero then
    { p with
      side := .flat
      signedQty := 0
      closingOrderId := some fill.clientOrderId
      tsClosed := some fill.tsEvent
      durationNs := (fill.tsEvent + 2 ^ 64 - p.tsOpened) % 2 ^ 64
      tsLast := fill.tsEvent }
  else if 0 < p.signedQty then
    { p with entry := .buy, side := .long, tsLast := fill.tsEvent }
  else
    { p with entry := .sell, side := .short, tsLast := fill.tsEvent }

/-- Panics on a trade id the position has. -/
def apply : Option Position :=
  if fill.tradeId ∈ p.tradeIds then
    none
  else do
    let p ← p.reopen fill
    let p ← p.recordFill fill
    let p ← p.handleFill fill
    let p ← p.chargeCommission fill
    let p ← p.requantify
    pure (p.settled fill)

/-- Panics unless the fill is of the instrument, has a side and names a position.
-/
def new (instrument : Instrument) (fill : OrderFilled) : Option Position :=
  if instrument.id = fill.instrumentId ∧ fill.orderSide ≠ .noOrderSide then do
    let id ← fill.positionId
    let zero ← Quantity.zero instrument.sizePrecision
    let settlementCurrency ← instrument.costCurrency
    let lastPx ← fill.lastPx.asF64
    apply
      { events := []
        adjustments := []
        instrumentId := fill.instrumentId
        id
        openingOrderId := fill.clientOrderId
        closingOrderId := none
        entry := fill.orderSide
        side := .flat
        signedQty := 0
        quantity := fill.lastQty
        peakQty := fill.lastQty
        sizePrecision := instrument.sizePrecision
        multiplier := instrument.multiplier
        isInverse := instrument.isInverse
        isCurrencyPair := instrument.isCurrencyPair
        baseCurrency := instrument.baseCurrency
        settlementCurrency
        tsInit := fill.tsInit
        tsOpened := fill.tsEvent
        tsLast := fill.tsEvent
        tsClosed := none
        durationNs := 0
        avgPxOpen := lastPx
        avgPxClose := none
        realizedReturn := 0
        realizedPnl := none
        tradeIds := []
        buyQty := zero
        sellQty := zero
        commissions := .empty }
      fill
  else
    none

/-! ## `purge_events_for_order` -/

/-- The fills a purge keeps. -/
def remainingFills (id : ClientOrderId) : List OrderFilled :=
  p.events.filter fun event => event.clientOrderId ≠ id

/-- The adjustments a purge keeps; commissions come back with their fills. -/
def preservedAdjustments : List PositionAdjusted :=
  p.adjustments.filter fun adjustment => adjustment.adjustmentType ≠ .commission

/-- The empty shell that is left where no fill remains. -/
def cleared : Option Position :=
  (Quantity.zero p.sizePrecision).map fun zero =>
    { p with
      events := []
      tradeIds := []
      adjustments := []
      buyQty := zero
      sellQty := zero
      commissions := .empty
      signedQty := 0
      quantity := zero
      side := .flat
      avgPxClose := none
      realizedPnl := none
      realizedReturn := 0
      tsOpened := 0
      tsLast := 0
      tsClosed := some 0
      durationNs := 0 }

/-- The state the remaining fills are replayed on. -/
def resetTo (first : OrderFilled) : Option Position :=
  (Quantity.zero p.sizePrecision).map fun zero =>
    { p with
      events := []
      tradeIds := []
      adjustments := []
      buyQty := zero
      sellQty := zero
      commissions := .empty
      signedQty := 0
      quantity := zero
      peakQty := zero
      side := .flat
      avgPxOpen := 0
      avgPxClose := none
      realizedPnl := none
      realizedReturn := 0
      entry := first.orderSide
      openingOrderId := first.clientOrderId
      tsOpened := first.tsEvent
      tsInit := first.tsInit
      closingOrderId := none
      tsClosed := none
      durationNs := 0 }

def purgeEventsForOrder (id : ClientOrderId) : Option Position :=
  match p.remainingFills id with
  | [] => p.cleared
  | first :: rest => do
    let q ← p.resetTo first
    let q ← runs apply q (first :: rest)
    runs applyAdjustment q p.preservedAdjustments

end

end Position

/-! ## Operations -/

/-- The calls that change a position. -/
inductive PositionOp where
  | apply (fill : OrderFilled)
  | applyAdjustment (adjustment : PositionAdjusted)
  | purgeEventsForOrder (id : ClientOrderId)

def Position.step [Build] (p : Position) : PositionOp → Option Position
  | .apply fill => p.apply fill
  | .applyAdjustment adjustment => p.applyAdjustment adjustment
  | .purgeEventsForOrder id => p.purgeEventsForOrder id

end Nautilus
