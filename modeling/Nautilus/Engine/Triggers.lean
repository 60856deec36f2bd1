import Nautilus.Engine.Accounting
import Nautilus.Matching.Actions

/-!
# After the trigger

A triggered stop-limit or limit-if-touched order is a limit order from then on, and the Cython core
asks `is_triggered` of it. The resting form of the Rust core has no such flag. An order triggered at
submission is accepted with its trigger price (`acceptOrder_rests`), and a trigger in an iteration
only tries to fill (`triggerStopOrder_run`); every later iteration still tests the stop condition,
and the limit price alone never leads to an action (`actsAsLimit_iff`).
-/

namespace Nautilus

open Lib List Option Acting

variable {action : MatchAction}

/-! ## The actions for one order -/

namespace OrderMatchingCore

variable {c : OrderMatchingCore} {live : List RestingOrder} {o : RestingOrder}

def actionId : MatchAction → ClientOrderId
  | .fillLimit id | .triggerStop id => id

theorem actionId_matchOrder (h : c.matchOrder o = some action) :
    actionId action = o.clientOrderId := by
  unfold matchOrder matchStopOrder matchLimitOrder at h
  split at h
  · split at h
    · nomatch h
    split at h
    · cases h
      rfl
    · nomatch h
  · split at h
    · split at h
      · cases h
        rfl
      · nomatch h
    · nomatch h

theorem Represents.mem_iterate_iff (h : Represents c live) :
    action ∈ c.iterate ↔ ∃ o ∈ live, c.matchOrder o = some action := by
  have hbids := (h.answers.iterateBids_prioritized.1).mem_iff (a := action)
  have hasks := (h.answers.iterateAsks_prioritized.1).mem_iff (a := action)
  unfold iterate
  rw [mem_append, hbids, hasks]
  simp only [mem_filterMap, mem_filter, decide_eq_true_eq]
  constructor
  · rintro (⟨o, ⟨ho, -⟩, hmatch⟩ | ⟨o, ⟨ho, -⟩, hmatch⟩)
    · exact ⟨o, ho, hmatch⟩
    · exact ⟨o, ho, hmatch⟩
  · rintro ⟨o, ho, hmatch⟩
    cases hside : o.orderSide with
    | buy => exact .inl ⟨o, ⟨ho, hside⟩, hmatch⟩
    | sell => exact .inr ⟨o, ⟨ho, hside⟩, hmatch⟩

/-- Only the live order itself leads to an action about its id. -/
theorem Represents.mem_iterate_live (h : Represents c live) (ho : o ∈ live)
    (hid : actionId action = o.clientOrderId) :
    action ∈ c.iterate ↔ c.matchOrder o = some action := by
  rw [h.mem_iterate_iff]
  constructor
  · rintro ⟨o', ho', hmatch⟩
    have heq : o'.clientOrderId = o.clientOrderId := (actionId_matchOrder hmatch).symm.trans hid
    rw [← inj_on_of_nodup_map h.nodup ho' ho heq]
    exact hmatch
  · intro hmatch
    exact ⟨o, ho, hmatch⟩

/-- The iteration fills the order iff its limit price is marketable, and never triggers it. -/
def ActsAsLimit (c : OrderMatchingCore) (o : RestingOrder) : Prop :=
  (.fillLimit o.clientOrderId ∈ c.iterate ↔
      o.limitPrice.any (c.isLimitFillable o.orderSide) = true) ∧
    .triggerStop o.clientOrderId ∉ c.iterate

/-- **An order with a trigger price is treated as a limit only while neither price says anything**:
the stop condition triggers it, the limit price does not fill it. -/
theorem Represents.actsAsLimit_iff (h : Represents c live) (ho : o ∈ live) {trigger limit : Price}
    (htrigger : o.triggerPrice = some trigger) (hlimit : o.limitPrice = some limit)
    (hactive : o.isActivated = true) :
    c.ActsAsLimit o ↔
      c.isStopMatched o.orderSide trigger = false ∧
        c.isLimitFillable o.orderSide limit = false := by
  unfold ActsAsLimit
  rw [h.mem_iterate_live ho rfl, h.mem_iterate_live ho rfl, matchOrder_of_trigger htrigger, hactive,
    hlimit, any_some]
  cases c.isStopMatched o.orderSide trigger <;> cases c.isLimitFillable o.orderSide limit <;> simp

end OrderMatchingCore

/-! ## The engine -/

namespace EngineM

variable [Build] [BookCode] {env : EngineEnv} {order order' : EngineOrder} {w w' : World}

/-- `STOP_LIMIT` and `LIMIT_IF_TOUCHED`. -/
def becomesLimit (orderType : OrderType) : Bool :=
  orderType ∈ [OrderType.stopLimit, .limitIfTouched]

omit [Build] [BookCode] in
theorem not_isTrailingType_of_becomesLimit {orderType : OrderType}
    (h : becomesLimit orderType = true) : isTrailingType orderType = false := by
  cases orderType <;> first | rfl | nomatch h

section

variable (htype : becomesLimit order.orderType = true)

include htype

/-- Acknowledging it returns the order unchanged. -/
theorem acknowledge_of_becomesLimit
    (h : (acknowledge env order).run w = some (order', w')) : order' = order := by
  unfold acknowledge at h
  split at h
  · cases h
    rfl
  · obtain ⟨_, _, -, h⟩ := bind_run_eq_some.mp h
    obtain ⟨_, _, -, h⟩ := bind_run_eq_some.mp h
    rw [not_isTrailingType_of_becomesLimit htype, Bool.false_and, if_neg Bool.false_ne_true] at h
    cases h
    rfl

/-- The order is added to the core **with its trigger price**. -/
theorem acceptOrder_rests (hopen : order.isClosed = false)
    (h : (acceptOrder env order).run w = some (order', w')) :
    ∃ w₁ o, (acknowledge env order).run w = some (order, w₁) ∧ restingForm order = some o ∧
      w'.engine.core = w₁.engine.core.addOrder o := by
  unfold acceptOrder at h
  rw [hopen, if_neg Bool.false_ne_true] at h
  obtain ⟨_, w₁, hack, hrest⟩ := bind_run_eq_some.mp h
  obtain rfl := acknowledge_of_becomesLimit htype hack
  obtain ⟨o, _, hunwrap, hadd⟩ := bind_run_eq_some.mp hrest
  obtain ⟨hresting, rfl⟩ := Prog.ofOption_eq_some.mp hunwrap
  obtain ⟨_, _, hcore, hreturn⟩ := bind_run_eq_some.mp hadd
  obtain ⟨core, hstep, rfl⟩ := onCore_run_eq_some.mp hcore
  cases hstep
  cases hreturn
  exact ⟨_, o, hack, hresting, rfl⟩

end

variable (handlers : Handlers env)

/-- A trigger in an iteration tries to fill and leaves the order as it rests. -/
theorem triggerStopOrder_run (htype : becomesLimit order.orderType = true)
    (hcached : w.cache.orders.get? order.clientOrderId = some order) :
    (triggerStopOrder env handlers order.clientOrderId).run w =
      (fillLimitOrder env handlers order.clientOrderId).run w := by
  rw [triggerStopOrder, run_read_bind, hcached]
  have hmem : order.orderType ∈ [OrderType.stopLimit, .limitIfTouched, .trailingStopLimit] := by
    cases htypes : order.orderType <;> rw [htypes] at htype <;> first | decide | cases htype
  exact congrArg (fun m : EngineM env Unit => m.run w) (if_pos hmem)

end EngineM

/-! ## Later markets -/

section

open OrderMatchingCore EngineM

variable [Build] [BookCode] (env : EngineEnv) (handlers : Handlers env)

/-- **A triggered order is treated as a limit in a later market iff** the stop condition does not
hold there and its limit price is not marketable. However it was triggered, it rests with its
trigger price. -/
theorem triggered_actsAsLimit_iff {order : EngineOrder} {o : RestingOrder}
    {trigger limit : Price} (htype : becomesLimit order.orderType = true)
    (htrigger : order.triggerPrice = some trigger) (hlimit : order.price = some limit)
    (hresting : restingForm order = some o) :
    (∀ w order' w', order.isClosed = false →
        (acceptOrder env order).run w = some (order', w') →
        ∃ w₁, (acknowledge env order).run w = some (order, w₁) ∧
          w'.engine.core = w₁.engine.core.addOrder o) ∧
      (∀ w, w.cache.orders.get? order.clientOrderId = some order →
        (triggerStopOrder env handlers order.clientOrderId).run w =
          (fillLimitOrder env handlers order.clientOrderId).run w) ∧
      ∀ c live ops, Represents c live → FreshAdds live ops → o ∈ liveAfter live ops →
        ∃ c', runs OrderMatchingCore.step c ops = some c' ∧
          (c'.ActsAsLimit o ↔
            c'.isStopMatched o.orderSide trigger = false ∧
              c'.isLimitFillable o.orderSide limit = false) := by
  refine ⟨?_, ?_, ?_⟩
  · intro w order' w' hopen haccept
    obtain ⟨w₁, _, hack, hresting', hcore⟩ := acceptOrder_rests htype hopen haccept
    rw [some.inj (hresting.symm.trans hresting')]
    exact ⟨w₁, hack, hcore⟩
  · intro w hcached
    exact triggerStopOrder_run handlers htype hcached
  · intro c live ops hc hfresh ho
    obtain ⟨_, -, rfl⟩ := map_eq_some_iff.mp hresting
    obtain ⟨c', hruns, hc'⟩ := hc.of_runs hfresh
    refine ⟨c', hruns, hc'.actsAsLimit_iff ho htrigger hlimit ?_⟩
    simp [not_isTrailingType_of_becomesLimit htype, Bool.not_false, Bool.true_or]

end

section Instances

attribute [local instance] Build.standard BookCode.truncating

open OrderMatchingCore EngineM

namespace EngineM.Sample

/-- A buy that becomes a limit at 100 once the offers have reached 100. -/
def stopLimit : EngineOrder :=
  order (.stopLimit ⟨core "L" .buy .stopLimit 10 .submitted, price 100, price 100, false, none⟩) false

def stopLimitForm : RestingOrder :=
  ⟨⟨"L"⟩, .buy, .stopLimit, some (price 100), some (price 100), true⟩

/-- A venue that takes stop orders that are in the market. -/
def stopVenue : EngineEnv := env .l2Mbp { rejectStopOrders := false } applyNow

/-- The order is added in a market that triggers it, and the market goes. -/
def marketGoes : List CoreOp :=
  [.add stopLimitForm, .setPrices none (some (price 101)) none, .setPrices none none none]

end EngineM.Sample

open Sample

/-- In a market without prices a triggered order is treated as a limit: nothing happens. -/
theorem triggered_actsAsLimit_without_market :
    FreshAdds [] marketGoes ∧ stopLimitForm ∈ liveAfter [] marketGoes ∧
      ∃ c, runs OrderMatchingCore.step (new ⟨"X"⟩ ⟨1, 0⟩) marketGoes = some c ∧
        c.ActsAsLimit stopLimitForm := by
  obtain ⟨c, hruns, hiff⟩ := (triggered_actsAsLimit_iff stopVenue (handlersAt stopVenue 0)
    (show becomesLimit stopLimit.orderType = true from rfl) rfl rfl rfl).2.2 _ []
    marketGoes (.new ⟨"X"⟩ ⟨1, 0⟩) (by decide +kernel) (by decide +kernel)
  have hmarket : (runs OrderMatchingCore.step (new ⟨"X"⟩ ⟨1, 0⟩) marketGoes).map (fun c =>
      (c.isStopMatched .buy (price 100), c.isLimitFillable .buy (price 100))) =
        some (false, false) := by decide +kernel
  rw [hruns] at hmarket
  exact ⟨by decide +kernel, by decide +kernel, c, hruns,
    hiff.mpr (Prod.mk.inj (Option.some.inj hmarket))⟩

/-- The order is triggered at submission by offers of 101. Then offers of 99 come, which its limit
of 100 could take: nothing is filled, and the next iteration does nothing. -/
theorem triggered_not_filled :
    ((runs (feed stopVenue 0) (world stopVenue stopLimit)
        [offer .add 101 10, .submit stopLimit ⟨"SIM-001"⟩,
          offer .add 99 10]).map fun w =>
        (w.events.any fun e => e.event matches .triggered _, w.filledRaw ⟨"L"⟩,
          w.engine.core.getOrder ⟨"L"⟩, w.engine.core.isLimitFillable .buy (price 100),
          w.engine.core.iterate)) =
      some (true, 0, some stopLimitForm, true, []) := by
  decide +kernel

end Instances

end Nautilus
