import Nautilus.Reconcile.Generate

/-!
# Orders the venue knows and the cache does not

`create_external_order` (`execution/src/engine/mod.rs:968`) builds an order from a status report and
applies the events of `generate_external_order_status_events` (`orders.rs:199`) to it. **The only
fill is the one inferred for a report that says partially filled or filled**: a report of another
status leaves nothing filled, and one that says triggered leaves the order accepted.

`external_reaches_iff` says for which reports the events do what they are for (`Reaches`).
-/

namespace Nautilus

open Option Quantity OrderCore OrderAny

variable {events : List OrderEventAny}

variable {event : OrderEventAny}

/-- `OrderStatusReport` (`reports/order.rs:43`) with the fields an external order is built from. -/
structure ExternalReport extends OrderStatusReport where
  clientOrderId : Option ClientOrderId
  triggerType : Option TriggerType
  limitOffset : Option ℚ
  trailingOffset : Option ℚ
  trailingOffsetType : TrailingOffsetType
  expireTime : Option UnixNanos
  displayQty : Option Quantity
  postOnly : Bool
deriving DecidableEq

namespace ExternalReport

/-- The event an external order is built from (`engine/mod.rs:1015-1047`). -/
def initialized (report : ExternalReport) (strategyId : StrategyId) (tsNow : UnixNanos) :
    OrderInitialized :=
  { strategyId
    clientOrderId := report.clientOrderId.getD ⟨report.venueOrderId.value⟩
    tsEvent := tsNow
    orderSide := report.orderSide
    orderType := report.orderType
    quantity := report.quantity
    timeInForce := report.timeInForce
    quoteQuantity := false
    price := report.price
    triggerPrice := report.triggerPrice
    triggerType := report.triggerType
    limitOffset := report.limitOffset
    trailingOffset := report.trailingOffset
    trailingOffsetType := some report.trailingOffsetType
    expireTime := report.expireTime
    displayQty := report.displayQty
    emulationTrigger := none }

variable [Build]

/-- The price of `create_inferred_fill` (`orders.rs:577-593`). -/
def fillPrice (report : ExternalReport) (instrument : ReconcileInstrument) : Option Price :=
  match report.avgPx with
  | some avgPx => Price.ofDecimal avgPx instrument.pricePrecision
  | none => report.price

end ExternalReport

namespace OrderAny

variable [Build] (order : OrderAny) (report : ExternalReport)

/-- `orders.rs:561`. A market-to-limit order is no taker here, and the position is the report's. -/
def createInferredFill (accountId : AccountId)
    (instrument : ReconcileInstrument) (context : ReconcileContext) : Option OrderEventAny :=
  (report.fillPrice instrument).map fun lastPx =>
    .filled
      { order.eventAt report.tsLast with
        instrumentId := context.terms.instrumentId
        venueOrderId := report.venueOrderId
        tradeId := context.inferredTradeId
          { accountId
            instrumentId := context.terms.instrumentId
            clientOrderId := order.core.clientOrderId
            venueOrderId := report.venueOrderId
            orderSide := report.orderSide
            orderType := order.core.orderType
            filledQty := report.filledQty
            lastQty := report.filledQty
            lastPx
            positionId := report.venuePositionId.getD ⟨instrument.id.value ++ "-EXTERNAL"⟩
            tsLast := report.tsLast }
        orderSide := report.orderSide
        lastQty := report.filledQty
        lastPx
        liquiditySide :=
          match order.core.orderType with
          | .market | .stopMarket | .trailingStopMarket => .taker
          | _ => if report.postOnly then .maker else .noLiquiditySide
        tsInit := context.tsNow
        positionId := report.venuePositionId
        commission := none }

def generateExternalOrderStatusEvents
    (accountId : AccountId) (instrument : ReconcileInstrument) (context : ReconcileContext) :
    List OrderEventAny :=
  let accepted : OrderEventAny :=
    .accepted { order.eventAt report.tsAccepted with venueOrderId := report.venueOrderId, accountId }
  match report.orderStatus with
  | .accepted | .triggered => [accepted]
  | .partiallyFilled | .filled =>
    if report.filledQty.isZero then [accepted]
    else accepted :: (order.createInferredFill report accountId instrument context).toList
  | .canceled => [accepted, .canceled (order.eventAt report.tsLast)]
  | .expired => [accepted, .expired (order.eventAt report.tsLast)]
  | .rejected => [.rejected (order.eventAt report.tsLast)]
  | _ => []

/-- The events are applied without an error and leave the status and the filled quantity of the
report. -/
def Reaches (accountId : AccountId)
    (instrument : ReconcileInstrument) (context : ReconcileContext) : Prop :=
  ∃ o', order.applyAll
      (order.generateExternalOrderStatusEvents report accountId instrument context) = some o' ∧
    o'.core.status = report.orderStatus ∧ o'.core.filledQty.raw = report.filledQty.raw

/-! ## New orders -/

/-- An order that no event but its initialisation has reached. -/
structure Fresh (o : OrderAny) (total : Quantity) : Prop where
  status : o.core.status = .initialized
  quantity : o.core.quantity = total
  filledQty : o.core.filledQty = ⟨0, total.precision⟩
  overfillQty : o.core.overfillQty = ⟨0, total.precision⟩
  tradeIds : o.core.tradeIds = []
  avgPx : o.core.avgPx = none

theorem fresh_of_tryFrom {o : OrderAny} {init : OrderInitialized}
    (h : (tryFrom init).run = some (.ok o)) : o.Fresh init.quantity := by
  obtain ⟨_, hnew, hquantity, -⟩ := new_of_tryFrom h
  obtain ⟨_, hzero, hcore⟩ := map_eq_some_iff.mp hnew
  obtain rfl := zero_eq_some hzero
  rw [← hquantity]
  constructor <;> rw [← hcore]

/-! ## The events -/

/-- An acceptance changes nothing that a fill reads. -/
structure Opened (o o₁ : OrderAny) : Prop where
  status : o₁.core.status = .accepted
  clientOrderId : o₁.core.clientOrderId = o.core.clientOrderId
  strategyId : o₁.core.strategyId = o.core.strategyId
  quantity : o₁.core.quantity = o.core.quantity
  filledQty : o₁.core.filledQty = o.core.filledQty
  overfillQty : o₁.core.overfillQty = o.core.overfillQty
  tradeIds : o₁.core.tradeIds = o.core.tradeIds
  avgPx : o₁.core.avgPx = o.core.avgPx
  slippagePrice : o₁.slippagePrice = o.slippagePrice

variable {o o₁ : OrderAny} {total : Quantity}

theorem apply_accepted_opened (hstatus : o.core.status = .initialized) {e : OrderAccepted}
    (hm : o.core.matchesIds (.accepted e)) :
    ∃ o₁, o.apply (.accepted e) = some (o₁, .ok ()) ∧ Opened o o₁ := by
  have hn : o.core.newStatus (.accepted e) = .ok .accepted := by
    show o.core.status.transition _ = _
    rw [hstatus]
    rfl
  rw [apply_eq, apply_ok hm hn rfl rfl]
  refine ⟨_, rfl, ?_⟩
  constructor <;> first | rw [core_withCore]; rfl | exact slippagePrice_withCore ..

end OrderAny

namespace OrderCore

variable [Build] {c : OrderCore} {fill : OrderFilled}

theorem filled_first (havg : c.avgPx = none) (hfilled : c.filledQty.raw = 0)
    (hover : c.overfillQty.raw = 0) (hmax : fill.lastQty.raw ≤ quantityRawTypeMax) :
    (c.filled fill).isSome = true ↔
      (fromRaw fill.lastQty.raw c.filledQty.precision).isSome = true ∧
      (c.quantity.raw < fill.lastQty.raw →
        (fromRaw (fill.lastQty.raw - c.quantity.raw) c.filledQty.precision).isSome = true) ∧
      fill.lastPx.asF64.isSome = true := by
  have hafter : saturatingAdd c.filledQty.raw fill.lastQty.raw = fill.lastQty.raw := by
    rw [hfilled, saturatingAdd_of_le (by omega), Nat.zero_add]
  unfold filled
  rw [hafter]
  cases hnew : fromRaw fill.lastQty.raw c.filledQty.precision with
  | none => simp
  | some newFilledQty =>
    obtain rfl := fromRaw_eq_some hnew
    simp only [bind_eq_bind, bind_some, isSome_some, true_and]
    unfold overfillAfter
    dsimp only
    rw [hover, saturatingAdd_of_le (by omega), Nat.zero_add]
    by_cases hlt : c.quantity.raw < fill.lastQty.raw
    · have hlt' : c.quantity.lt ⟨fill.lastQty.raw, c.filledQty.precision⟩ = true := lt_iff.mpr hlt
      rw [if_pos hlt']
      cases hqty : fromRaw (fill.lastQty.raw - c.quantity.raw) c.filledQty.precision with
      | none => simp [hlt]
      | some overfillQty =>
        simp only [bind_some, setAvgPx, havg]
        cases fill.lastPx.asF64 <;> simp
    · have hnot : ¬ c.quantity.lt ⟨fill.lastQty.raw, c.filledQty.precision⟩ = true :=
        fun h => hlt (lt_iff.mp h)
      rw [if_neg hnot]
      simp only [bind_some, setAvgPx, havg, hlt]
      cases fill.lastPx.asF64 <;> simp

end OrderCore

namespace OrderAny

variable [Build] {o o₁ o' : OrderAny} {total : Quantity} {fill : OrderFilled}

/-- A fill that passes the checks is applied iff nothing panics on the way. -/
theorem apply_filled_iff (hm : o.core.matchesIds (.filled fill))
    (htakes : o.core.status.takesFilled = true) (hfresh : fill.tradeId ∉ o.core.tradeIds) :
    (∃ o', o.apply (.filled fill) = some (o', .ok ())) ↔
      (filled { o.core with previousStatus := o.core.saved, status := .filled }
        fill).isSome = true ∧ o.SlippageDefined := by
  have hcore := core_apply_filled hm htakes hfresh
  cases hfilled : filled { o.core with previousStatus := o.core.saved, status := .filled } fill with
  | none =>
    rw [hfilled] at hcore
    rw [apply_eq, hcore]
    simp
  | some c =>
    rw [hfilled] at hcore
    have havg : (c.record (.filled fill)).avgPx.isSome = true := (records_of_filled hfilled).2
    rw [apply_of_core hcore]
    by_cases hslippage : o.SlippageDefined
    · obtain ⟨_, hpx⟩ := (finish_filled havg).1 hslippage
      rw [hpx]
      simp [hslippage]
    · rw [(finish_filled havg).2 hslippage]
      simp [hslippage]

/-- The conversions of a first fill of `qty` at `px` do not panic. -/
structure FirstFill (o : OrderAny) (qty : Quantity) (px : Price) : Prop where
  filledQty : (Quantity.fromRaw qty.raw o.core.quantity.precision).isSome = true
  overfillQty : o.core.quantity.raw < qty.raw →
    (Quantity.fromRaw (qty.raw - o.core.quantity.raw) o.core.quantity.precision).isSome = true
  lastPx : px.asF64.isSome = true
  slippage : o.SlippageDefined

section

variable (hf : Fresh o total) (ho : Opened o o₁) (hm : o₁.core.matchesIds (.filled fill))
  (hmax : fill.lastQty.raw ≤ quantityRawTypeMax)

include hf ho hm hmax

theorem apply_first_fill_iff :
    (∃ o', o₁.apply (.filled fill) = some (o', .ok ())) ↔ o.FirstFill fill.lastQty fill.lastPx := by
  have htakes : o₁.core.status.takesFilled = true := by
    rw [ho.status]
    rfl
  have hfresh : fill.tradeId ∉ o₁.core.tradeIds := by
    rw [ho.tradeIds, hf.tradeIds]
    exact List.not_mem_nil
  have hfirst := filled_first
    (c := { o₁.core with previousStatus := o₁.core.saved, status := .filled })
    (ho.avgPx.trans hf.avgPx) (by rw [ho.filledQty, hf.filledQty])
    (by rw [ho.overfillQty, hf.overfillQty]) hmax
  have hprecision : o₁.core.filledQty.precision = o.core.quantity.precision := by
    rw [ho.filledQty, hf.filledQty, hf.quantity]
  have hslippage : o₁.SlippageDefined ↔ o.SlippageDefined := by
    unfold SlippageDefined
    rw [ho.slippagePrice]
  rw [apply_filled_iff hm htakes hfresh, hfirst, hslippage, hprecision, ho.quantity]
  exact ⟨fun ⟨⟨h₁, h₂, h₃⟩, h₄⟩ => ⟨h₁, h₂, h₃, h₄⟩, fun h => ⟨⟨h.1, h.2, h.3⟩, h.4⟩⟩

theorem of_apply_first_fill (h : o₁.apply (.filled fill) = some (o', .ok ())) :
    o'.core.status = (if fill.lastQty.raw < total.raw then .partiallyFilled else .filled) ∧
      o'.core.filledQty.raw = fill.lastQty.raw := by
  have hafter : o₁.core.filledAfter fill = fill.lastQty.raw := by
    rw [filledAfter, ho.filledQty, hf.filledQty, saturatingAdd_of_le (by simpa), Nat.zero_add]
  obtain ⟨-, -, -, -, hto, hstatus⟩ := of_apply_filled hm h
  rw [hafter, ho.quantity.trans hf.quantity] at hstatus
  exact ⟨hstatus, hto.filledQty.trans hafter⟩

end

/-! ## The reports -/

theorem applyAll_cons (h : o.apply event = some (o₁, .ok ())) :
    o.applyAll (event :: events) = o₁.applyAll events := by
  rw [applyAll, h]

variable {report : ExternalReport} {accountId : AccountId} {instrument : ReconcileInstrument}
  {context : ReconcileContext} {px : Price}

theorem reaches_iff
    (hevents : o.generateExternalOrderStatusEvents report accountId instrument context = events)
    (happly : o.applyAll events = some o') :
    o.Reaches report accountId instrument context ↔
      o'.core.status = report.orderStatus ∧ o'.core.filledQty.raw = report.filledQty.raw := by
  unfold Reaches
  rw [hevents]
  constructor
  · rintro ⟨_, h, hrest⟩
    cases happly.symm.trans h
    exact hrest
  · exact fun h => ⟨o', happly, h⟩

theorem apply_closing (report : OrderStatusReport) (hzero : o.core.filledQty.raw = 0)
    {n : OrderStatus} (hfollows : followsStatus event = true) (hno : ∀ e, event ≠ .accepted e)
    (hm : o.core.matchesIds event) (hn : o.core.newStatus event = .ok n) :
    ∃ o', o.apply event = some (o', .ok ()) ∧ o'.core.status = n ∧ o'.core.filledQty.raw = 0 := by
  obtain ⟨o', happly, hstatus, hsame⟩ : ∃ o', o.apply event = some (o', .ok ()) ∧
      o'.core.status = n ∧ SameTerms report o o' :=
    apply_follows hfollows (fun e he => absurd he (hno e)) hm hn
  exact ⟨o', happly, hstatus, by rw [hsame.ledger.filledQty, hzero]⟩

omit [Build] in
theorem Fresh.filledQty_raw (hf : Fresh o total) : o.core.filledQty.raw = 0 := by
  rw [hf.filledQty]

def acceptance (o : OrderAny) (report : ExternalReport) (accountId : AccountId) : OrderEventAny :=
  .accepted { o.eventAt report.tsAccepted with venueOrderId := report.venueOrderId, accountId }

variable (hf : Fresh o total)

include hf

theorem apply_acceptance (report : ExternalReport) (accountId : AccountId) :
    ∃ o₁, o.apply (o.acceptance report accountId) = some (o₁, .ok ()) ∧ Opened o o₁ :=
  apply_accepted_opened hf.status (o.matchesIds_eventAt report.tsAccepted _ rfl)

theorem reaches_open_iff
    (hstatus : report.orderStatus = .accepted ∨ report.orderStatus = .triggered) :
    o.Reaches report accountId instrument context ↔
      report.orderStatus = .accepted ∧ report.filledQty.raw = 0 := by
  obtain ⟨_, happly, ho⟩ := apply_acceptance hf report accountId
  have hevents : o.generateExternalOrderStatusEvents report accountId instrument context =
      [o.acceptance report accountId] := by
    unfold generateExternalOrderStatusEvents
    obtain h | h := hstatus <;> rw [h] <;> rfl
  rw [reaches_iff hevents (applyAll_cons happly), ho.status, ho.filledQty, hf.filledQty_raw]
  exact and_congr eq_comm eq_comm

/-- A cancellation or an expiry of the accepted order. -/
theorem reaches_closed_iff (hfollows : followsStatus event = true) (hno : ∀ e, event ≠ .accepted e)
    (hrow : OrderStatus.accepted.transition event = .ok report.orderStatus)
    (hchecks : ∀ c : OrderCore, c.newStatus event = c.status.transition event)
    (hevent : event.toOrderEvent = o.eventAt report.tsLast)
    (hevents : o.generateExternalOrderStatusEvents report accountId instrument context =
      [o.acceptance report accountId, event]) :
    o.Reaches report accountId instrument context ↔ report.filledQty.raw = 0 := by
  obtain ⟨o₁, happly, ho⟩ := apply_acceptance hf report accountId
  have hm : o₁.core.matchesIds event := by
    obtain ⟨hclient, hstrategy⟩ := o.matchesIds_eventAt report.tsLast event hevent
    exact ⟨ho.clientOrderId.trans hclient, ho.strategyId.trans hstrategy⟩
  obtain ⟨_, happly₂, hstatus, hzero⟩ := apply_closing report.toOrderStatusReport
    (ho.filledQty ▸ hf.filledQty_raw) hfollows hno hm
    (by rw [hchecks, ho.status, hrow])
  rw [reaches_iff hevents ((applyAll_cons happly).trans (applyAll_cons happly₂)), hzero]
  exact ⟨fun h => h.2.symm, fun h => ⟨hstatus, h.symm⟩⟩

theorem reaches_rejected_iff (hstatus : report.orderStatus = .rejected) :
    o.Reaches report accountId instrument context ↔ report.filledQty.raw = 0 := by
  have hevents : o.generateExternalOrderStatusEvents report accountId instrument context =
      [.rejected (o.eventAt report.tsLast)] := by
    rw [generateExternalOrderStatusEvents, hstatus]
  have hn : o.core.newStatus (.rejected (o.eventAt report.tsLast)) = .ok .rejected := by
    show o.core.status.transition _ = _
    rw [hf.status]
    rfl
  have hno : ∀ e, OrderEventAny.rejected (o.eventAt report.tsLast) ≠ .accepted e := nofun
  obtain ⟨_, happly, hrejected, hzero⟩ := apply_closing report.toOrderStatusReport hf.filledQty_raw
    rfl hno (o.matchesIds_eventAt report.tsLast _ rfl) hn
  rw [reaches_iff hevents (applyAll_cons happly), hzero, hrejected, hstatus]
  exact ⟨fun h => h.2.symm, fun h => ⟨rfl, h.symm⟩⟩

/-- The inferred fill decides the status by the quantity. -/
theorem reaches_filled_iff
    (hstatus : report.orderStatus = .partiallyFilled ∨ report.orderStatus = .filled)
    (hmax : report.filledQty.raw ≤ quantityRawTypeMax) (hpx : report.fillPrice instrument = some px) :
    o.Reaches report accountId instrument context ↔
      0 < report.filledQty.raw ∧ o.FirstFill report.filledQty px ∧
        (if report.filledQty.raw < total.raw then .partiallyFilled else .filled) =
          report.orderStatus := by
  obtain ⟨o₁, happly, ho⟩ := apply_acceptance hf report accountId
  by_cases hzero : report.filledQty.isZero = true
  · have hevents : o.generateExternalOrderStatusEvents report accountId instrument context =
        [o.acceptance report accountId] := by
      unfold generateExternalOrderStatusEvents
      obtain h | h := hstatus <;> rw [h] <;> exact if_pos hzero
    rw [reaches_iff hevents (applyAll_cons happly), ho.status]
    have hraw : report.filledQty.raw = 0 := beq_iff_eq.mp hzero
    refine iff_of_false (fun h => ?_) (fun h => by omega)
    obtain hs | hs := hstatus <;> cases h.1.trans hs
  · obtain ⟨fill, hinferred, hqty, hlastPx, hmatches⟩ :
        ∃ fill, o.createInferredFill report accountId instrument context = some (.filled fill) ∧
          fill.lastQty = report.filledQty ∧ fill.lastPx = px ∧
          o.core.matchesIds (.filled fill) := by
      unfold createInferredFill
      rw [hpx]
      exact ⟨_, rfl, rfl, rfl, o.matchesIds_eventAt report.tsLast _ rfl⟩
    have hm : o₁.core.matchesIds (.filled fill) :=
      ⟨ho.clientOrderId.trans hmatches.1, ho.strategyId.trans hmatches.2⟩
    have hevents : o.generateExternalOrderStatusEvents report accountId instrument context =
        [o.acceptance report accountId, .filled fill] := by
      unfold generateExternalOrderStatusEvents
      rw [hinferred]
      obtain h | h := hstatus <;> rw [h] <;> exact if_neg hzero
    have hpos : 0 < report.filledQty.raw := by
      have hraw : ¬ report.filledQty.raw = 0 := fun h => hzero (beq_iff_eq.mpr h)
      omega
    rw [← hqty] at hmax
    have hfirst := apply_first_fill_iff hf ho hm hmax
    rw [hqty, hlastPx] at hfirst
    rw [← hfirst]
    constructor
    · rintro ⟨o₂, hall, hreached, -⟩
      rw [hevents, applyAll_cons happly, applyAll] at hall
      split at hall
      · rename_i hfill
        cases hall
        refine ⟨hpos, ⟨_, hfill⟩, ?_⟩
        rw [← hqty, ← (of_apply_first_fill hf ho hm hmax hfill).1, hreached]
      · cases hall
    · rintro ⟨-, ⟨o₂, hfill⟩, hreached⟩
      obtain ⟨hleft, hfilled⟩ := of_apply_first_fill hf ho hm hmax hfill
      rw [reaches_iff hevents ((applyAll_cons happly).trans (applyAll_cons hfill)), hleft, hfilled,
        hqty]
      exact ⟨hreached, rfl⟩

end OrderAny

/-- The reports that events can reach: nothing filled under a status other than the two of fills,
and under those a quantity of the right size that passes its conversions. -/
def ExternalReport.Expressible [Build] (report : ExternalReport) (o : OrderAny) (px : Price) :
    Prop :=
  match report.orderStatus with
  | .initialized | .accepted | .canceled | .expired | .rejected => report.filledQty.raw = 0
  | .triggered => o.core.orderType ∉ triggerableOrderTypes
  | .partiallyFilled =>
    0 < report.filledQty.raw ∧ report.filledQty.raw < report.quantity.raw ∧
      o.FirstFill report.filledQty px
  | .filled =>
    0 < report.filledQty.raw ∧ report.quantity.raw ≤ report.filledQty.raw ∧
      o.FirstFill report.filledQty px
  | _ => False

/-- The new order reaches its report's state exactly for the expressible reports. A report of a
trigger asks this only of types that trigger, where it never holds. -/
theorem external_reaches_iff [Build] {report : ExternalReport} {strategyId : StrategyId}
    {tsNow : UnixNanos} {o : OrderAny} {px : Price} {instrument : ReconcileInstrument}
    (hnew : (OrderAny.tryFrom (report.initialized strategyId tsNow)).run = some (.ok o))
    (hmax : report.filledQty.raw ≤ quantityRawTypeMax)
    (hpx : report.fillPrice instrument = some px) (accountId : AccountId)
    (context : ReconcileContext) :
    ((report.orderStatus = .triggered → o.core.orderType ∈ triggerableOrderTypes) →
        o.Reaches report accountId instrument context) ↔
      report.Expressible o px := by
  have hf : o.Fresh report.quantity := fresh_of_tryFrom hnew
  unfold ExternalReport.Expressible
  cases hstatus : report.orderStatus with
  | accepted => simp [reaches_open_iff hf (.inl hstatus), hstatus]
  | triggered => simp [reaches_open_iff hf (.inr hstatus), hstatus]
  | canceled | expired =>
    have hevents := generateExternalOrderStatusEvents.eq_1 o report accountId instrument context
    rw [hstatus] at hevents
    rw [reaches_closed_iff hf (by rfl) (by nofun) (by rw [hstatus]; rfl)
      (fun _ => by rfl) (by rfl) hevents]
    simp
  | rejected => simp [reaches_rejected_iff hf hstatus]
  | partiallyFilled =>
    rw [reaches_filled_iff hf (.inl hstatus) hmax hpx, hstatus]
    by_cases hlt : report.filledQty.raw < report.quantity.raw
    · simp [hlt]
    · simp [hlt]
  | filled =>
    rw [reaches_filled_iff hf (.inr hstatus) hmax hpx, hstatus]
    by_cases hlt : report.filledQty.raw < report.quantity.raw
    · simp [hlt]
    · simp [hlt, Nat.le_of_not_lt hlt]
  | _ =>
    rw [reaches_iff (by rw [generateExternalOrderStatusEvents, hstatus])
      (show o.applyAll [] = some o from rfl), hf.status, hf.filledQty_raw]
    simp [hstatus, eq_comm]

namespace Sample

/-- A report of a limit order for eight units, of which `filled` are filled. -/
def externalReport (orderStatus : OrderStatus) (filled : Nat) : ExternalReport :=
  { report orderStatus with
    filledQty := units filled
    clientOrderId := none
    triggerType := none
    limitOffset := none
    trailingOffset := none
    trailingOffsetType := .noTrailingOffset
    expireTime := none
    displayQty := none
    postOnly := false }

def externalInstrument : ReconcileInstrument := ⟨⟨"ETHUSDT.BINANCE"⟩, 2, 0⟩

/-- The new order of a report, seen through `f`. -/
theorem external_cases [Build] {α : Type} {f : OrderAny → α} {a : α} (report : ExternalReport)
    (h : ((tryFrom (report.initialized ⟨"EXTERNAL"⟩ 10)).run.bind fun
      | .ok o => some (f o)
      | .error _ => none) = some a) :
    ∃ o, (tryFrom (report.initialized ⟨"EXTERNAL"⟩ 10)).run = some (.ok o) ∧ f o = a := by
  obtain ⟨e | o, hnew, hf⟩ := bind_eq_some_iff.mp h
  · nomatch hf
  · cases hf
    exact ⟨o, hnew, rfl⟩

end Sample

section

attribute [local instance] Build.standard

open Sample

/-- Three of eight units reported as a partial fill. -/
theorem external_reaches_iff_partial :
    ∃ o, (OrderAny.tryFrom ((externalReport .partiallyFilled 3).initialized
        ⟨"EXTERNAL"⟩ 10)).run = some (.ok o) ∧
      o.Reaches (externalReport .partiallyFilled 3) ⟨"A-1"⟩ externalInstrument
        reconcileContext := by
  obtain ⟨o, hnew, ho⟩ := external_cases (externalReport .partiallyFilled 3)
    (f := fun o => (o.core.quantity, o.slippagePrice)) (a := (units 8, some ⟨101, 2⟩)) (by decide)
  obtain ⟨hquantity, hslippage⟩ := Prod.mk.inj ho
  have hpx : (externalReport .partiallyFilled 3).fillPrice externalInstrument =
      some ⟨101, 2⟩ := by decide
  refine ⟨o, hnew, (external_reaches_iff hnew (by decide) hpx _ _).mpr
    ⟨by decide, by decide, ?_, ?_, by decide, fun price hprice => ?_⟩ nofun⟩
  · rw [hquantity]
    decide
  · rw [hquantity]
    decide
  · cases hslippage.symm.trans hprice
    decide

/-- Three of eight units filled before the cancellation: the events cancel with nothing filled. -/
theorem not_external_reaches_canceled :
    ∃ o o', (OrderAny.tryFrom ((externalReport .canceled 3).initialized
        ⟨"EXTERNAL"⟩ 10)).run = some (.ok o) ∧
      (externalReport .canceled 3).fillPrice externalInstrument = some ⟨101, 2⟩ ∧
      o.applyAll (o.generateExternalOrderStatusEvents (externalReport .canceled 3) ⟨"A-1"⟩
        externalInstrument reconcileContext) = some o' ∧
      o'.core.status = .canceled ∧ o'.core.filledQty.raw = 0 ∧
      (externalReport .canceled 3).filledQty.raw ≠ 0 := by
  obtain ⟨o, hnew, ho⟩ := external_cases (externalReport .canceled 3)
    (f := fun o => (o.applyAll (o.generateExternalOrderStatusEvents
      (externalReport .canceled 3) ⟨"A-1"⟩ externalInstrument
      reconcileContext)).map fun o' => (o'.core.status, o'.core.filledQty.raw))
    (a := some (.canceled, 0)) (by decide)
  obtain ⟨o', happly, hleft⟩ := map_eq_some_iff.mp ho
  obtain ⟨hstatus, hfilled⟩ := Prod.mk.inj hleft
  exact ⟨o, o', hnew, by decide, happly, hstatus, hfilled, by decide⟩

end

end Nautilus
