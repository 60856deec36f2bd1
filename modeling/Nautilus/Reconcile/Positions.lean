import Nautilus.Lib.IndexMap
import Nautilus.Reconcile.Orders

/-!
# Position reconciliation

`reconciliation/positions.rs`: the fills of a mass status, simulated into a net position, are
compared with the position that the venue reports. Where the window has lost the beginning,
`adjustFillsForPartialWindow` leaves the fills, adds a synthetic opening fill, replaces them by one
synthetic fill, or drops the fills of closed lifecycles; `processMassStatusForReconciliation` does
so to the reports.

A lifecycle is what happens between two moments of net quantity zero. A panic is `none`: the
division of `simulate_position` when a fill without side and quantity meets a flat position, and a
flat side where a position was promised.
-/

namespace Nautilus

open Lib

inductive PositionSideSpecified where
  | flat
  | long
  | short
deriving DecidableEq

/-! ## Snapshots -/

structure FillSnapshot where
  venueOrderId : VenueOrderId
  side : OrderSide
  qty : ℚ
  px : ℚ
  tsEvent : UnixNanos
deriving DecidableEq

structure VenuePositionSnapshot where
  side : PositionSideSpecified
  qty : ℚ
  avgPx : ℚ
deriving DecidableEq

def FillSnapshot.direction (fill : FillSnapshot) : ℚ :=
  match fill.side with
  | .buy => 1
  | .sell => -1
  | .noOrderSide => 0

def VenuePositionSnapshot.signedQty (venue : VenuePositionSnapshot) : ℚ :=
  match venue.side with
  | .long => venue.qty
  | .short => -venue.qty
  | .flat => 0

/-- `types.rs:54`; the lists that no caller reads are left out. -/
inductive FillAdjustmentResult where
  | noAdjustment
  | addSyntheticOpening (syntheticFill : FillSnapshot)
  | replaceCurrentLifecycle (syntheticFill : FillSnapshot) (firstVenueOrderId : VenueOrderId)
  | filterToCurrentLifecycle (lastZeroCrossingTs : UnixNanos)
deriving DecidableEq

/-! ## Simulation -/

/-- One fill of `simulate_position`, on quantity and value. -/
def simulateFill (position : ℚ × ℚ) (fill : FillSnapshot) : Option (ℚ × ℚ) :=
  let (qty, value) := position
  let direction := fill.direction
  let newQty := qty + direction * fill.qty
  if (0 ≤ qty ∧ 0 < direction) ∨ (qty ≤ 0 ∧ direction < 0) then
    some (newQty, value + fill.qty * fill.px)
  else if fill.qty ≤ |qty| then
    -- a partial close keeps the average price; the division is by zero for a flat position
    if qty = 0 then none else some (newQty, value * (1 - fill.qty / |qty|))
  else
    let remaining := fill.qty - |qty|
    some (direction * remaining, remaining * fill.px)

variable (fills : List FillSnapshot)

def simulatePosition : Option (ℚ × ℚ) :=
  fills.foldlM simulateFill (0, 0)

def zeroCrossingsFrom (runningQty : ℚ) : List FillSnapshot → List UnixNanos
  | [] => []
  | fill :: fills =>
    let next := runningQty + fill.direction * fill.qty
    if runningQty ≠ 0 ∧ (next = 0 ∨ (0 < runningQty) ≠ (0 < next)) then
      fill.tsEvent :: zeroCrossingsFrom next fills
    else zeroCrossingsFrom next fills

def detectZeroCrossings : List UnixNanos := zeroCrossingsFrom 0 fills

/-- The last fill that lands on zero, from a running quantity on. -/
def lastFlatCrossingFrom (runningQty : ℚ) (last : Option UnixNanos) :
    List FillSnapshot → Option UnixNanos
  | [] => last
  | fill :: fills =>
    let next := runningQty + fill.direction * fill.qty
    lastFlatCrossingFrom next (if runningQty ≠ 0 ∧ next = 0 then some fill.tsEvent else last) fills

/-- The current lifecycle begins after the last fill that lands on zero or, if only flips cross it,
after the last flip. -/
def lifecycleBoundary : Option UnixNanos :=
  (detectZeroCrossings fills).getLast?.map fun lastCrossing =>
    (lastFlatCrossingFrom 0 none fills).getD lastCrossing

def checkPositionMatch (simulatedQty simulatedValue venueQty venueAvgPx tolerance : ℚ) : Bool :=
  if simulatedQty ≠ venueQty then false
  else if simulatedQty = 0 then true
  else if venueAvgPx = 0 then false
  else |simulatedValue / |simulatedQty| - venueAvgPx| / venueAvgPx ≤ tolerance

def calculateReconciliationPrice (currentQty : ℚ) (currentAvgPx : Option ℚ) (targetQty : ℚ)
    (targetAvgPx : Option ℚ) : Option ℚ :=
  let qtyDiff := targetQty - currentQty
  if qtyDiff = 0 then none
  else if targetQty = 0 then currentAvgPx
  else
    match targetAvgPx with
    | none => none
    | some targetAvgPx =>
      if targetAvgPx = 0 then none
      else
        match currentAvgPx with
        | none => some targetAvgPx
        | some currentAvgPx =>
          if currentQty = 0 then some targetAvgPx
          else if (0 < currentQty) ≠ (0 < targetQty) ∧ targetQty ≠ 0 then some targetAvgPx
          else
            let diffValue := targetQty * targetAvgPx - currentQty * currentAvgPx
            if 0 < diffValue / qtyDiff then some (diffValue / qtyDiff) else none

/-! ## Adjustment -/

def positionToOrderSide : PositionSideSpecified → Option OrderSide
  | .long => some .buy
  | .short => some .sell
  | .flat => none

/-- The opening that is missing in front of the fills of a single lifecycle. -/
def syntheticOpening (first : FillSnapshot) (oldestQty oldestValue : ℚ)
    (venue : VenuePositionSnapshot) : Option FillSnapshot :=
  let oldestAvgPx := if oldestQty = 0 then none else some (oldestValue / |oldestQty|)
  (calculateReconciliationPrice oldestQty oldestAvgPx venue.signedQty (some venue.avgPx)).bind
    fun openingPx =>
      let openingQty := if oldestQty = 0 then venue.signedQty else venue.signedQty - oldestQty
      if 0 < |openingQty| then
        some
          { venueOrderId := first.venueOrderId
            side := if 0 < openingQty then .buy else .sell
            qty := |openingQty|
            px := openingPx
            tsEvent := first.tsEvent - 1 }
      else none

/-- A window with crossings is decided in the first case; what the source has
for them further down is never reached. -/
def adjustFillsForPartialWindow (venue : VenuePositionSnapshot)
    (tolerance : ℚ) : Option FillAdjustmentResult :=
  match fills with
  | [] => some .noAdjustment
  | first :: _ =>
    if venue.qty = 0 then some .noAdjustment
    else
      match lifecycleBoundary fills with
      | some boundary =>
        match fills.filter fun fill => boundary < fill.tsEvent with
        | [] => some .noAdjustment
        | current :: rest => do
          let (qty, value) ← simulatePosition (current :: rest)
          if checkPositionMatch qty value venue.signedQty venue.avgPx tolerance then
            return .filterToCurrentLifecycle boundary
          else
            let side ← positionToOrderSide venue.side
            return .replaceCurrentLifecycle
              { venueOrderId := current.venueOrderId
                side
                qty := venue.qty
                px := venue.avgPx
                tsEvent := current.tsEvent - 1 }
              current.venueOrderId
      | none => do
        let (qty, value) ← simulatePosition fills
        if checkPositionMatch qty value venue.signedQty venue.avgPx tolerance then
          return .noAdjustment
        else
          return (syntheticOpening first qty value venue).elim .noAdjustment .addSyntheticOpening

/-! ## Reports -/

/-- `reports/fill.rs:39`: the fields that are read, or set for a synthetic fill. -/
structure FillReport where
  accountId : AccountId
  instrumentId : InstrumentId
  venueOrderId : VenueOrderId
  tradeId : TradeId
  orderSide : OrderSide
  lastQty : Quantity
  lastPx : Price
  liquiditySide : LiquiditySide
  tsEvent : UnixNanos
deriving DecidableEq

/-- `reports/position.rs:39`: the fields that are read. -/
structure PositionStatusReport where
  positionSide : PositionSideSpecified
  quantity : Quantity
  avgPxOpen : Option ℚ
deriving DecidableEq

structure ExecutionMassStatus where
  accountId : AccountId
  orderReports : IndexMap VenueOrderId OrderStatusReport
  fillReports : IndexMap VenueOrderId (List FillReport)
  positionReports : IndexMap InstrumentId (List PositionStatusReport)

structure ReconciliationResult where
  orders : IndexMap VenueOrderId OrderStatusReport
  fills : IndexMap VenueOrderId (List FillReport)

/-- The hashes behind the ids of synthetic reports (`ids.rs:45, 58`). -/
structure SyntheticIds where
  venueOrderId : FillSnapshot → InstrumentId → VenueOrderId
  tradeId : FillSnapshot → TradeId

/-- The conversions that an error is returned for. -/
inductive ReconcileError where
  | quantity
  | price
deriving DecidableEq

/-- A list under a key, if there is something in it. -/
def nonEmpty {α : Type} : List α → Option (List α)
  | [] => none
  | a :: rest => some (a :: rest)

/-- The reports of one instrument, as `extract_instrument_reports` and
`extract_fills_for_instrument` collect them; orders without its fills have no entry among the fills.
-/
def extractInstrumentReports (massStatus : ExecutionMassStatus) (instrumentId : InstrumentId) :
    ReconciliationResult where
  orders := massStatus.orderReports.retain fun _ order => order.instrumentId = instrumentId
  fills := massStatus.fillReports.filterMap fun _ fills =>
    nonEmpty (fills.filter fun fill => fill.instrumentId = instrumentId)

section

variable [Build]

def positionReportToSnapshot (report : PositionStatusReport) : VenuePositionSnapshot where
  side := report.positionSide
  qty := report.quantity.toDecimal
  avgPx := report.avgPxOpen.getD 0

/-- A fill as it is simulated: **the side is that of its order report**, if there is one. -/
def fillSnapshot (orders : VenueOrderId → Option OrderStatusReport) (venueOrderId : VenueOrderId)
    (fill : FillReport) : FillSnapshot where
  venueOrderId
  side := ((orders venueOrderId).map OrderStatusReport.orderSide).getD fill.orderSide
  qty := fill.lastQty.toDecimal
  px := fill.lastPx.toDecimal
  tsEvent := fill.tsEvent

def fillSnapshots (orders : VenueOrderId → Option OrderStatusReport)
    (fills : IndexMap VenueOrderId (List FillReport)) : List FillSnapshot :=
  fills.entries.flatMap fun (venueOrderId, fills) => fills.map (fillSnapshot orders venueOrderId)

/-- `sort_by_key(|f| f.ts_event)`, a stable sort. -/
def chronological (fills : List FillSnapshot) : List FillSnapshot :=
  fills.insertionSort fun a b => a.tsEvent ≤ b.tsEvent

def createSyntheticOrderReport (fill : FillSnapshot) (accountId : AccountId)
    (instrument : ReconcileInstrument) (venueOrderId : VenueOrderId) :
    Except ReconcileError OrderStatusReport :=
  match Quantity.ofDecimal fill.qty instrument.sizePrecision with
  | none => .error .quantity
  | some orderQty =>
    .ok
      { accountId
        instrumentId := instrument.id
        venueOrderId
        orderSide := fill.side
        orderType := .market
        timeInForce := .gtc
        orderStatus := .filled
        quantity := orderQty
        filledQty := orderQty
        tsAccepted := fill.tsEvent
        tsLast := fill.tsEvent
        venuePositionId := none
        price := none
        triggerPrice := none
        avgPx := some fill.px
        tsTriggered := none }

variable (ids : SyntheticIds)

def createSyntheticFillReport (fill : FillSnapshot) (accountId : AccountId)
    (instrument : ReconcileInstrument) (venueOrderId : VenueOrderId) :
    Except ReconcileError FillReport :=
  match Quantity.ofDecimal fill.qty instrument.sizePrecision with
  | none => .error .quantity
  | some qty =>
    match Price.ofDecimal fill.px instrument.pricePrecision with
    | none => .error .price
    | some px =>
      .ok
        { accountId
          instrumentId := instrument.id
          venueOrderId
          tradeId := ids.tradeId fill
          orderSide := fill.side
          lastQty := qty
          lastPx := px
          liquiditySide := .noLiquiditySide
          tsEvent := fill.tsEvent }

def applyAdjustment (massStatus : ExecutionMassStatus)
    (instrument : ReconcileInstrument) (reports : ReconciliationResult) :
    FillAdjustmentResult → Except ReconcileError ReconciliationResult
  | .noAdjustment => .ok reports
  | .addSyntheticOpening syntheticFill => do
    let venueOrderId := ids.venueOrderId syntheticFill instrument.id
    let order ←
      createSyntheticOrderReport syntheticFill massStatus.accountId instrument venueOrderId
    let fill ←
      createSyntheticFillReport ids syntheticFill massStatus.accountId instrument venueOrderId
    return {
      orders := reports.orders.insert venueOrderId order
      fills := reports.fills.insert venueOrderId
        (fill :: (reports.fills.get? venueOrderId).getD []) }
  | .replaceCurrentLifecycle syntheticFill firstVenueOrderId => do
    let order ←
      createSyntheticOrderReport syntheticFill massStatus.accountId instrument firstVenueOrderId
    let fill ←
      createSyntheticFillReport ids syntheticFill massStatus.accountId instrument firstVenueOrderId
    return {
      orders := IndexMap.empty.insert firstVenueOrderId order
      fills := IndexMap.empty.insert firstVenueOrderId [fill] }
  | .filterToCurrentLifecycle lastZeroCrossingTs =>
    let fills := reports.fills.filterMap fun _ fills =>
      nonEmpty (fills.filter fun fill => lastZeroCrossingTs < fill.tsEvent)
    -- orders stay while they have fills or are still working
    .ok {
      orders := reports.orders.retain fun venueOrderId order =>
        fills.containsKey venueOrderId || !order.orderStatus.isClosed
      fills }

def defaultTolerance : ℚ := 1 / 10000

def processMassStatusForReconciliation (massStatus : ExecutionMassStatus)
    (instrument : ReconcileInstrument) (tolerance : Option ℚ) :
    Option (Except ReconcileError ReconciliationResult) :=
  let reports := extractInstrumentReports massStatus instrument.id
  match (massStatus.positionReports.get? instrument.id).bind List.head? with
  | none => some (.ok reports)
  | some report =>
    let fills := chronological (fillSnapshots massStatus.orderReports.get? reports.fills)
    if fills.isEmpty then some (.ok reports)
    else
      (adjustFillsForPartialWindow fills (positionReportToSnapshot report)
        (tolerance.getD defaultTolerance)).map (applyAdjustment ids massStatus instrument reports)

end

end Nautilus
