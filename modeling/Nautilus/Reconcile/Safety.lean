import Nautilus.Orders.Typed
import Nautilus.Reconcile.Orders

/-!
# Which reconciliation events are safe to apply

The events generated for a report **settle** an order when each is applied without an error and
generating again returns nothing (`Settles`). Events that follow the status of the report change
nothing else, an amendment takes over quantity and prices, an inferred fill is recorded unless a
conversion panics.
-/

namespace Nautilus

open Option Quantity OrderCore OrderStatus

/-! ## Rows of the transition table -/

namespace OrderStatus

def takesAccepted : OrderStatus → Bool
  | .initialized | .submitted | .pendingUpdate | .pendingCancel | .partiallyFilled => true
  | _ => false

def takesRejected : OrderStatus → Bool
  | .initialized | .submitted | .accepted | .pendingUpdate | .pendingCancel | .triggered => true
  | _ => false

def takesTriggered : OrderStatus → Bool
  | .initialized | .accepted | .pendingUpdate => true
  | _ => false

def takesCanceled : OrderStatus → Bool
  | .initialized | .emulated | .released | .submitted | .accepted | .pendingUpdate
  | .pendingCancel | .triggered | .partiallyFilled => true
  | _ => false

def takesExpired : OrderStatus → Bool
  | .initialized | .emulated | .accepted | .pendingUpdate | .pendingCancel | .triggered
  | .partiallyFilled => true
  | _ => false

def takesUpdated : OrderStatus → Bool
  | .initialized | .released | .submitted | .accepted | .pendingUpdate | .triggered
  | .partiallyFilled => true
  | _ => false

def takesFilled : OrderStatus → Bool
  | .submitted | .accepted | .canceled | .pendingUpdate | .pendingCancel | .triggered
  | .partiallyFilled => true
  | _ => false

variable (s : OrderStatus)

theorem transition_updated_eq (e : OrderUpdated) :
    s.transition (.updated e) =
      if s.takesUpdated then .ok s else .error .invalidStateTransition := by
  cases s <;> rfl

theorem transition_filled_eq (e : OrderFilled) :
    s.transition (.filled e) =
      if s.takesFilled then .ok .filled else .error .invalidStateTransition := by
  cases s <;> rfl

end OrderStatus

namespace OrderAny

variable {o o' : OrderAny} {event : OrderEventAny} {report : OrderStatusReport}
  {context : ReconcileContext}

/-- What an inferred fill is made from. -/
structure SameLedger (report : OrderStatusReport) (c c' : OrderCore) : Prop where
  clientOrderId : c'.clientOrderId = c.clientOrderId
  strategyId : c'.strategyId = c.strategyId
  accountId : c'.accountId = c.accountId
  venueOrderId : c'.venueOrderId.getD report.venueOrderId = c.venueOrderId.getD report.venueOrderId
  side : c'.side = c.side
  orderType : c'.orderType = c.orderType
  filledQty : c'.filledQty = c.filledQty
  tradeIds : c'.tradeIds = c.tradeIds
  avgPx : c'.avgPx = c.avgPx

theorem SameLedger.trans {c c₁ c₂ : OrderCore} (h : SameLedger report c c₁)
    (h' : SameLedger report c₁ c₂) : SameLedger report c c₂ where
  clientOrderId := h'.clientOrderId.trans h.clientOrderId
  strategyId := h'.strategyId.trans h.strategyId
  accountId := h'.accountId.trans h.accountId
  venueOrderId := h'.venueOrderId.trans h.venueOrderId
  side := h'.side.trans h.side
  orderType := h'.orderType.trans h.orderType
  filledQty := h'.filledQty.trans h.filledQty
  tradeIds := h'.tradeIds.trans h.tradeIds
  avgPx := h'.avgPx.trans h.avgPx

/-- What reconciliation compares, apart from the status. -/
structure SameTerms (report : OrderStatusReport) (o o' : OrderAny) : Prop where
  ledger : SameLedger report o.core o'.core
  quantity : o'.core.quantity = o.core.quantity
  price : o'.price = o.price
  triggerPrice : o'.triggerPrice = o.triggerPrice

theorem SameTerms.shouldReconciliationUpdate (h : SameTerms report o o') :
    o'.shouldReconciliationUpdate report = o.shouldReconciliationUpdate report := by
  unfold OrderAny.shouldReconciliationUpdate
  rw [h.ledger.orderType, h.quantity, h.ledger.filledQty, h.price, h.triggerPrice]

/-- An order with the quantity of the report that has taken its prices does not differ. -/
theorem shouldReconciliationUpdate_reprice (ht : o.Typed) {c : OrderCore}
    (htype : c.orderType = o.core.orderType) (hqty : c.quantity = report.quantity) :
    ((o.reprice (o.createReconciliationUpdated report)).withCore c).shouldReconciliationUpdate
      report = false := by
  have hself : ∀ p : Price, p.eq p = true := fun p => Price.eq_iff.mpr rfl
  unfold shouldReconciliationUpdate
  rw [core_withCore, price_withCore, triggerPrice_withCore, hqty, htype]
  unfold Typed at ht
  cases o <;> simp only [ht, kind, createReconciliationUpdated, reprice, price, triggerPrice,
    LimitOrder.impl, LimitIfTouchedOrder.impl, MarketIfTouchedOrder.impl, StopLimitOrder.impl,
    StopMarketOrder.impl, TrailingStopLimitOrder.impl, TrailingStopMarketOrder.impl]
  all_goals
    cases report.price <;> cases report.triggerPrice <;> simp [priceEq, hself]

theorem matchesIds_eventAt (o : OrderAny) (ts : UnixNanos) (event : OrderEventAny)
    (h : event.toOrderEvent = o.eventAt ts) : o.core.matchesIds event := by
  unfold matchesIds OrderEventAny.clientOrderId OrderEventAny.strategyId
  rw [h]
  exact ⟨rfl, rfl⟩

variable [Build]

/-! ## Settling -/

/-- The events applied one after another; `none` where one panics or is refused. -/
def applyAll (o : OrderAny) : List OrderEventAny → Option OrderAny
  | [] => some o
  | event :: events =>
    match o.apply event with
    | some (o', .ok ()) => o'.applyAll events
    | _ => none

/-- The generated events are applied without an error, and then there are none left. -/
def Settles (generate : OrderAny → Option (List OrderEventAny)) (o : OrderAny) : Prop :=
  ∃ events o', generate o = some events ∧ o.applyAll events = some o' ∧ generate o' = some []

/-- `reconcile_order_report` as a generator. -/
def reconcileEvents (report : OrderStatusReport) (context : ReconcileContext) (o : OrderAny) :
    Option (List OrderEventAny) :=
  (o.reconcileOrderReport report context).map Option.toList

/-- Nothing is left to reconcile. -/
def Quiet (report : OrderStatusReport) (context : ReconcileContext) (o : OrderAny) : Prop :=
  o.reconcileOrderReport report context = some none

theorem reconcileEvents_eq_nil_iff :
    reconcileEvents report context o = some [] ↔ o.Quiet report context := by
  unfold reconcileEvents Quiet
  cases o.reconcileOrderReport report context with
  | none => simp
  | some event => cases event <;> simp

theorem settles_of_quiet (h : o.Quiet report context) :
    Settles (reconcileEvents report context) o :=
  ⟨[], o, reconcileEvents_eq_nil_iff.mpr h, rfl, reconcileEvents_eq_nil_iff.mpr h⟩

/-- One event settles the order iff it is applied and leaves nothing. -/
theorem settles_event_iff (h : o.reconcileOrderReport report context = some (some event)) :
    Settles (reconcileEvents report context) o ↔
      ∃ o', o.apply event = some (o', .ok ()) ∧ o'.Quiet report context := by
  have hevents : reconcileEvents report context o = some [event] := by
    rw [reconcileEvents, h]
    rfl
  constructor
  · rintro ⟨_, o', hgen, happly, hquiet⟩
    cases hevents.symm.trans hgen
    unfold applyAll at happly
    split at happly
    · rename_i hok
      cases happly
      exact ⟨_, hok, reconcileEvents_eq_nil_iff.mp hquiet⟩
    · cases happly
  · rintro ⟨o', hok, hquiet⟩
    refine ⟨[event], o', hevents, ?_, reconcileEvents_eq_nil_iff.mpr hquiet⟩
    rw [applyAll, hok]
    rfl

theorem not_settles_of_panic (h : o.reconcileOrderReport report context = none) :
    ¬ Settles (reconcileEvents report context) o := by
  rintro ⟨_, _, hgen, -⟩
  rw [reconcileEvents, h] at hgen
  cases hgen

/-! ## Events that move the status -/

/-- The five events that follow the status of the report. -/
def followsStatus : OrderEventAny → Bool
  | .accepted _ | .rejected _ | .triggered _ | .canceled _ | .expired _ => true
  | _ => false

/-- Such an event is applied when the checks allow it, and changes no terms. -/
theorem apply_follows {n : OrderStatus} (hfollows : followsStatus event = true)
    (haccept : ∀ e, event = .accepted e → o.core.accountId = some e.accountId ∧
      e.venueOrderId = o.core.venueOrderId.getD report.venueOrderId)
    (hm : o.core.matchesIds event) (hn : o.core.newStatus event = .ok n) :
    ∃ o', o.apply event = some (o', .ok ()) ∧ o'.core.status = n ∧ SameTerms report o o' := by
  rw [apply_eq]
  cases event with
  | accepted e =>
    obtain ⟨haccount, hvenue⟩ := haccept e rfl
    rw [apply_ok hm hn rfl rfl]
    refine ⟨_, rfl, by rw [core_withCore]; rfl, ?_, ?_, price_withCore .., triggerPrice_withCore ..⟩
    · rw [core_withCore]
      exact ⟨rfl, rfl, haccount.symm, hvenue, rfl, rfl, rfl, rfl, rfl⟩
    · rw [core_withCore]
      rfl
  | rejected e | canceled e | expired e =>
    rw [apply_ok hm hn rfl rfl]
    refine ⟨_, rfl, by rw [core_withCore]; rfl, ?_, ?_, price_withCore .., triggerPrice_withCore ..⟩
    · rw [core_withCore]
      exact ⟨rfl, rfl, rfl, rfl, rfl, rfl, rfl, rfl, rfl⟩
    · rw [core_withCore]
      rfl
  | triggered e =>
    rw [apply_ok hm hn rfl rfl]
    refine ⟨_, rfl, by rw [core_triggered, core_withCore]; rfl, ?_, ?_,
      by rw [price_triggered, price_withCore], by rw [triggerPrice_triggered, triggerPrice_withCore]⟩
    · rw [core_triggered, core_withCore]
      exact ⟨rfl, rfl, rfl, rfl, rfl, rfl, rfl, rfl, rfl⟩
    · rw [core_triggered, core_withCore]
      rfl
  | _ => nomatch hfollows

theorem apply_accepted_shape {e : OrderAccepted} (h : o.apply (.accepted e) = some (o', .ok ())) :
    o' = o.withCore o'.core := by
  rw [apply_eq] at h
  obtain ⟨⟨c, _ | _⟩, -, hfinish⟩ := bind_eq_some_iff.mp h
  · cases hfinish
  · cases hfinish
    rw [core_withCore]

theorem apply_refused {e : OrderError} (hm : o.core.matchesIds event)
    (hn : o.core.newStatus event = .error e) :
    ∃ o', o.apply event = some (o', .error e) := by
  rw [apply_eq, OrderCore.apply_refused hm hn]
  exact ⟨_, rfl⟩

/-- The report has a status that an event follows, and the order takes part: rejections need an
account, triggers a type that has them. -/
def Follows (report : OrderStatusReport) (o : OrderAny) : Prop :=
  match report.orderStatus with
  | .accepted | .canceled | .expired => True
  | .rejected => o.core.accountId.isSome = true
  | .triggered => o.core.orderType ∈ triggerableOrderTypes
  | _ => False

/-- An order in the status of such a report is left alone iff it agrees in everything else. -/
theorem quiet_iff (hfollows : Follows report o) (hstatus : o.core.status = report.orderStatus) :
    o.Quiet report context ↔
      o.core.filledQty.raw = report.filledQty.raw ∧ o.shouldReconciliationUpdate report = false := by
  have hpending : ¬ report.orderStatus.isPending = true := by
    unfold Follows at hfollows
    split at hfollows <;> simp_all [isPending]
  unfold Quiet reconcileOrderReport
  rw [if_neg hpending]
  by_cases hqty : o.core.filledQty.raw = report.filledQty.raw
  · rw [if_pos ⟨hstatus, hqty⟩]
    cases o.shouldReconciliationUpdate report <;> simp [hqty]
  rw [if_neg fun h => hqty h.2]
  refine iff_of_false (fun h => ?_) (fun h => hqty h.1)
  -- with another quantity filled the event is generated once more
  unfold reconcileStatus at h
  unfold Follows at hfollows
  split at hfollows
  · rename_i hr
    simp only [hr] at h
    split at h
    · cases h
    · obtain ⟨_, -, h⟩ := map_eq_some_iff.mp h
      cases h
  · rename_i hr
    simp only [hr] at h
    cases h
  · rename_i hr
    simp only [hr] at h
    cases h
  · rename_i hr
    obtain ⟨_, haccount⟩ := isSome_iff_exists.mp hfollows
    simp only [hr, createReconciliationRejected, haccount] at h
    cases h
  · rename_i hr
    simp only [hr, if_pos hfollows] at h
    cases h
  · exact hfollows

/-- The event that follows the report settles the order iff the table has a row and the rest agrees.
-/
theorem settles_follow_iff (hR : o.reconcileOrderReport report context = some (some event))
    (hevent : followsStatus event = true) (hm : o.core.matchesIds event)
    (haccept : ∀ e, event = .accepted e → o.core.accountId = some e.accountId ∧
      e.venueOrderId = o.core.venueOrderId.getD report.venueOrderId)
    (hfollows : Follows report o)
    (htarget : ∀ n, o.core.newStatus event = .ok n → n = report.orderStatus) :
    Settles (reconcileEvents report context) o ↔
      (∃ n, o.core.newStatus event = .ok n) ∧
        o.core.filledQty.raw = report.filledQty.raw ∧
        o.shouldReconciliationUpdate report = false := by
  rw [settles_event_iff hR]
  cases hn : o.core.newStatus event with
  | error e =>
    obtain ⟨o₁, hrefused⟩ := apply_refused hm hn
    refine iff_of_false ?_ (fun h => nomatch h.1)
    rintro ⟨o', hok, -⟩
    cases hrefused.symm.trans hok
  | ok n =>
    obtain ⟨o₁, hok, hstatus, hsame⟩ := apply_follows hevent haccept hm hn
    have hfollows' : Follows report o₁ := by
      unfold Follows at hfollows ⊢
      rw [hsame.ledger.accountId, hsame.ledger.orderType]
      exact hfollows
    have hquiet : o₁.Quiet report context ↔ _ := quiet_iff hfollows' (hstatus.trans (htarget n hn))
    rw [hsame.ledger.filledQty, hsame.shouldReconciliationUpdate] at hquiet
    constructor
    · rintro ⟨o', hok', hq⟩
      cases hok.symm.trans hok'
      exact ⟨⟨n, rfl⟩, hquiet.mp hq⟩
    · rintro ⟨-, hagree⟩
      exact ⟨o₁, hok, hquiet.mpr hagree⟩

/-! ## Amendments -/

/-- An amendment leaves the prices and the quantity of the report, the rest of the ledger as it was,
and nothing to amend. -/
structure Amended (report : OrderStatusReport) (o o' : OrderAny) : Prop where
  shape : o' = (o.reprice (o.createReconciliationUpdated report)).withCore o'.core
  ledger : SameLedger report o.core o'.core
  status : o'.core.status = o.core.statusAfterUpdate
  settled : o'.shouldReconciliationUpdate report = false

/-- The update that a report asks for. -/
abbrev amendment (o : OrderAny) (report : OrderStatusReport) : OrderEventAny :=
  .updated (o.createReconciliationUpdated report)

/-- With a row in the table the amendment is applied, or panics where the type has no such price. -/
theorem apply_updated_of_row (ht : o.Typed) (report : OrderStatusReport)
    (htakes : o.core.status.takesUpdated = true) :
    if o.allows (o.createReconciliationUpdated report) = true then
      ∃ o', o.apply (o.amendment report) = some (o', .ok ()) ∧
        Amended report o o'
    else o.apply (o.amendment report) = none := by
  have hm := o.matchesIds_eventAt report.tsLast (o.amendment report) rfl
  have hrow : o.core.newStatus (o.amendment report) = _ := o.core.status.transition_updated_eq _
  rw [if_pos htakes] at hrow
  obtain ⟨c₁, hcore, hledger, hstatus⟩ :
      ∃ c₁, o.core.apply (o.amendment report) = some (c₁, .ok ()) ∧
        SameLedger report o.core c₁ ∧ c₁.status = o.core.statusAfterUpdate :=
    ⟨_, apply_ok hm hrow rfl rfl,
      ⟨rfl, rfl, rfl, by cases h : o.core.venueOrderId <;> simp [createReconciliationUpdated, h,
        updated, record], rfl, rfl, rfl, rfl, rfl⟩,
      o.core.statusAfterUpdate_saved⟩
  rw [apply_of_core hcore, finish, allows_withCore]
  by_cases hallows : o.allows (o.createReconciliationUpdated report) = true
  · rw [if_pos hallows, if_pos hallows, reprice_withCore, withCore_withCore, core_withCore]
    refine ⟨_, rfl, ?_, ?_, ?_, ?_⟩
    · rw [core_withCore]
    · rw [core_withCore]
      exact ⟨hledger.1, hledger.2, hledger.3, hledger.4, hledger.5, hledger.6, hledger.7,
        hledger.8, hledger.9⟩
    · rw [core_withCore]
      exact hstatus
    · exact shouldReconciliationUpdate_reprice ht hledger.orderType rfl
  · rw [if_neg hallows, if_neg hallows]
    rfl

/-- The amendment is applied iff the table has a row and the type takes the price of the
report. -/
theorem apply_updated (ht : o.Typed) (report : OrderStatusReport) :
    if o.core.status.takesUpdated = true ∧
        o.allows (o.createReconciliationUpdated report) = true then
      ∃ o', o.apply (o.amendment report) = some (o', .ok ()) ∧
        Amended report o o'
    else
      ∀ o', o.apply (o.amendment report) ≠ some (o', .ok ()) := by
  by_cases htakes : o.core.status.takesUpdated = true
  · have happly := apply_updated_of_row ht report htakes
    by_cases hallows : o.allows (o.createReconciliationUpdated report) = true
    · rw [if_pos hallows] at happly
      rw [if_pos ⟨htakes, hallows⟩]
      exact happly
    · rw [if_neg hallows] at happly
      rw [if_neg fun h => hallows h.2, happly]
      simp
  · rw [if_neg fun h => htakes h.1]
    have hm := o.matchesIds_eventAt report.tsLast (o.amendment report) rfl
    have hrow : o.core.newStatus (o.amendment report) = _ := o.core.status.transition_updated_eq _
    rw [if_neg htakes] at hrow
    obtain ⟨_, hrefused⟩ := apply_refused hm hrow
    intro o' hok
    cases hrefused.symm.trans hok

end OrderAny

/-! ## Fills -/

namespace OrderCore

variable [Build] {c c' : OrderCore} {fill : OrderFilled}

/-- The conversions of a fill do not panic: the filled quantity is valid, the price and, after a
first fill, the quantity have float values. -/
structure Records (c : OrderCore) (fill : OrderFilled) : Prop where
  filledQty : (Quantity.fromRaw (c.filledAfter fill) c.filledQty.precision).isSome = true
  lastPx : fill.lastPx.asF64.isSome = true
  lastQty : c.avgPx.isSome = true → fill.lastQty.asF64.isSome = true

theorem setAvgPx_records {lastQty : Quantity} {lastPx : Price}
    (h : c.setAvgPx lastQty lastPx = some c') :
    lastPx.asF64.isSome = true ∧ (c.avgPx.isSome = true → lastQty.asF64.isSome = true) ∧
      c'.avgPx.isSome = true := by
  unfold setAvgPx at h
  split at h
  · rename_i hnone
    simp only [bind_eq_bind, bind_eq_some_iff] at h
    obtain ⟨px, hpx, h⟩ := h
    cases h
    have habsent : ¬ c.avgPx.isSome = true := by simp [hnone]
    exact ⟨by rw [hpx]; rfl, fun hsome => absurd hsome habsent, rfl⟩
  · simp only [bind_eq_bind, bind_eq_some_iff] at h
    obtain ⟨_, -, _, -, q, hq, px, hpx, h⟩ := h
    cases h
    exact ⟨by rw [hpx]; rfl, fun _ => by rw [hq]; rfl, rfl⟩

theorem records_of_filled (h : c.filled fill = some c') :
    c.Records fill ∧ c'.avgPx.isSome = true := by
  simp only [filled, bind_eq_bind, bind_eq_some_iff] at h
  obtain ⟨_, hnew, _, -, h⟩ := h
  obtain ⟨hpx, hqty, havg⟩ := setAvgPx_records h
  exact ⟨⟨by rw [filledAfter, hnew]; rfl, hpx, hqty⟩, havg⟩

/-- Without an overfill nothing else can panic: the averaged difference is as precise as the fill.
-/
theorem filled_of_records (h : c.Records fill) (hover : ¬ c.quantity.raw < c.filledAfter fill)
    (hle : fill.lastQty.raw ≤ c.filledAfter fill)
    (hprecision : c.filledQty.precision ≤ fill.lastQty.precision) :
    ∃ c', c.filled fill = some c' := by
  obtain ⟨q, hq⟩ := isSome_iff_exists.mp h.filledQty
  obtain ⟨_, hpx⟩ := isSome_iff_exists.mp h.lastPx
  have hqeq := fromRaw_eq_some hq
  subst hqeq
  have hoverfill : c.overfillAfter ⟨c.filledAfter fill, c.filledQty.precision⟩ =
      some c.overfillQty := by
    unfold overfillAfter
    rw [if_neg fun hlt => hover (lt_iff.mp hlt)]
  unfold filled
  simp only [filledAfter] at hq hoverfill ⊢
  simp only [bind_eq_bind, hq, bind_some, hoverfill]
  unfold setAvgPx
  cases havg : c.avgPx with
  | none => simp [hpx]
  | some avgPx =>
    obtain ⟨_, hlast⟩ := isSome_iff_exists.mp (h.lastQty (by rw [havg]; rfl))
    have hcheck : checkFloatPrecision fill.lastQty.precision = true := by
      unfold asF64 at hlast
      split at hlast
      · assumption
      · cases hlast
    have hsub : (sub ⟨c.filledAfter fill, c.filledQty.precision⟩ fill.lastQty) =
        some ⟨c.filledAfter fill - fill.lastQty.raw, fill.lastQty.precision⟩ := by
      unfold sub
      rw [if_pos hle, Nat.max_eq_right hprecision]
    simp only [filledAfter] at hsub
    simp [hsub, asF64, hcheck, hpx]

end OrderCore

namespace OrderAny

variable [Build] {o o' : OrderAny} {fill : OrderFilled} {report : OrderStatusReport}
  {context : ReconcileContext}

/-- A fill that passes the checks is recorded with the new status in place. -/
theorem core_apply_filled (hm : o.core.matchesIds (.filled fill))
    (htakes : o.core.status.takesFilled = true) (hfresh : fill.tradeId ∉ o.core.tradeIds) :
    o.core.apply (.filled fill) =
      (filled { o.core with previousStatus := o.core.saved, status := .filled } fill).map
        fun c => (c.record (.filled fill), .ok ()) := by
  have hn : o.core.newStatus (.filled fill) = .ok .filled := by
    show (if _ then _ else _) = _
    rw [if_neg hfresh, transition_filled_eq, if_pos htakes]
  rw [apply_of_newStatus hm hn, savePrevious_of_not_keeps rfl]
  exact map_map ..

/-- What a fill leaves of what reconciliation compares. -/
structure FilledTo [Build] (fill : OrderFilled) (o o' : OrderAny) : Prop where
  status : o'.core.status = .partiallyFilled ∨ o'.core.status = .filled
  orderType : o'.core.orderType = o.core.orderType
  quantity : o'.core.quantity = o.core.quantity
  filledQty : o'.core.filledQty.raw = o.core.filledAfter fill
  price : o'.price = o.price
  triggerPrice : o'.triggerPrice = o.triggerPrice

/-- The price a type measures fills against has a float value. -/
def SlippageDefined (o : OrderAny) : Prop :=
  ∀ price, o.slippagePrice = some price → price.asF64.isSome = true

/-- The type notes the slippage of a recorded fill. -/
theorem finish_filled {c : OrderCore} (havg : c.avgPx.isSome = true) :
    (o.SlippageDefined → ∃ px, (o.withCore c).finish (.filled fill) =
      some (o.withCore { c with slippage := px })) ∧
    (¬ o.SlippageDefined → (o.withCore c).finish (.filled fill) = none) := by
  have hcores : (o.withCore c).withCore = o.withCore := funext fun _ => withCore_withCore ..
  simp only [finish, slippagePrice_withCore, core_withCore, hcores]
  obtain ⟨_, havg⟩ := isSome_iff_exists.mp havg
  cases hprice : o.slippagePrice with
  | none => exact ⟨fun _ => ⟨c.slippage, rfl⟩, fun h => absurd (fun p hp => by simp [hprice] at hp) h⟩
  | some price =>
    cases hpx : price.asF64 with
    | none =>
      refine ⟨fun h => absurd (h price hprice) (by simp [hpx]), fun _ => ?_⟩
      simp [setSlippage, havg, hpx]
    | some px =>
      refine ⟨fun _ => ?_, fun h => absurd (fun p hp => ?_) h⟩
      · simp only [setSlippage, havg, hpx, map_some]
        exact ⟨_, rfl⟩
      · cases hprice.symm.trans hp
        rw [hpx]
        rfl

/-- A fill is applied only if the table has a row, the trade is new and nothing panics. -/
theorem of_apply_filled (hm : o.core.matchesIds (.filled fill))
    (h : o.apply (.filled fill) = some (o', .ok ())) :
    o.core.status.takesFilled = true ∧ fill.tradeId ∉ o.core.tradeIds ∧ o.core.Records fill ∧
      o.SlippageDefined ∧ FilledTo fill o o' ∧ o'.core.status =
        if o.core.filledAfter fill < o.core.quantity.raw then .partiallyFilled else .filled := by
  rw [apply_eq] at h
  obtain ⟨⟨c, e | _⟩, hcore, hfinish⟩ := bind_eq_some_iff.mp h
  · cases hfinish
  obtain ⟨-, -, e, he⟩ | ⟨e, -, -, -, he⟩ | ⟨n, _, -, hn, -, -⟩ := apply_cases hcore
  · cases he
  · cases he
  have hfresh := fresh_of_newStatus hn
  have htakes : o.core.status.takesFilled = true := by
    have hrow := transition_of_newStatus hn
    rw [transition_filled_eq] at hrow
    split at hrow
    · assumption
    · cases hrow
  rw [core_apply_filled hm htakes hfresh] at hcore
  obtain ⟨c₁, hfilled, heq⟩ := map_eq_some_iff.mp hcore
  cases heq
  obtain ⟨hrecords, havg⟩ := records_of_filled hfilled
  obtain ⟨hstatus, htype, hquantity, hfilledQty⟩ :
      c₁.status = (if o.core.filledAfter fill < o.core.quantity.raw then .partiallyFilled
        else .filled) ∧ c₁.orderType = o.core.orderType ∧
        c₁.quantity = o.core.quantity ∧ c₁.filledQty.raw = o.core.filledAfter fill := by
    obtain ⟨_, _, -, rfl⟩ := filled_eq hfilled
    exact ⟨rfl, rfl, rfl, rfl⟩
  replace havg : (c₁.record (.filled fill)).avgPx.isSome = true := havg
  obtain ⟨_, hfinish, heq⟩ := map_eq_some_iff.mp hfinish
  cases heq
  have hslippage : o.SlippageDefined := by
    by_contra hno
    cases ((finish_filled havg).2 hno).symm.trans hfinish
  obtain ⟨_, hpx⟩ := (finish_filled havg).1 hslippage
  cases hpx.symm.trans hfinish
  refine ⟨htakes, hfresh, ⟨hrecords.1, hrecords.2, hrecords.3⟩, hslippage, ⟨?_, ?_, ?_, ?_,
    price_withCore .., triggerPrice_withCore ..⟩, ?_⟩ <;> rw [core_withCore]
  · show c₁.status = _ ∨ c₁.status = _
    rw [hstatus]
    split_ifs <;> simp
  · exact htype
  · exact hquantity
  · exact hfilledQty
  · exact hstatus

/-- And it is applied if it does not overfill the order. -/
theorem apply_filled (hm : o.core.matchesIds (.filled fill))
    (htakes : o.core.status.takesFilled = true) (hfresh : fill.tradeId ∉ o.core.tradeIds)
    (hrecords : o.core.Records fill) (hslippage : o.SlippageDefined)
    (hover : ¬ o.core.quantity.raw < o.core.filledAfter fill)
    (hle : fill.lastQty.raw ≤ o.core.filledAfter fill)
    (hprecision : o.core.filledQty.precision ≤ fill.lastQty.precision) :
    ∃ o', o.apply (.filled fill) = some (o', .ok ()) := by
  obtain ⟨c₁, hfilled⟩ : ∃ c₁, filled
      { o.core with previousStatus := o.core.saved, status := .filled } fill = some c₁ :=
    filled_of_records ⟨hrecords.1, hrecords.2, hrecords.3⟩ hover hle hprecision
  have hcore : o.core.apply (.filled fill) = some (c₁.record (.filled fill), .ok ()) := by
    rw [core_apply_filled hm htakes hfresh, hfilled]
    rfl
  have havg : (c₁.record (.filled fill)).avgPx.isSome = true := (records_of_filled hfilled).2
  obtain ⟨_, hpx⟩ := (finish_filled havg).1 hslippage
  rw [apply_of_core hcore, hpx]
  exact ⟨_, rfl⟩

end OrderAny

end Nautilus
