import Nautilus.Matching.Core

/-!
# The action for a resting order, against the semantics of its type

`match_order` of `matching_core/mod.rs` looks at which prices an order rests with; the engine at
submission (`matching_engine/engine.rs:2968-3395`) and the Cython matching core
(`execution/matching_core.pyx:279-460`) look at its type. `OrderMatchingCore.inTheMarket` and
`CythonMatchingCore` are those two, on the same market.

They agree on limits, stops and trailing stops in every market. For the two `IF_TOUCHED` types
`match_order` tests the **stop** condition where the others test the **touch** condition, with the
comparison turned around: they agree only without a market, or while it stands exactly at the
trigger (`agrees_iff`).
-/

namespace Nautilus

open Option RestingOrder Price

variable {trigger : Price}

/-! ## Orders as they rest -/

namespace RestingOrder

variable (order : RestingOrder)

/-- The prices and the flag an order of its type rests with (`accept_order`, `engine.rs:4884`). A
market order never rests. A stop may carry a protection price for a limit, and a market-to-limit
order has no price before its first fill. -/
def rests : Bool :=
  match order.orderType with
  | .market => false
  | .limit => order.triggerPrice.isNone && order.limitPrice.isSome && order.isActivated
  | .marketToLimit => order.triggerPrice.isNone && order.isActivated
  | .stopMarket => order.triggerPrice.isSome && order.isActivated
  | .marketIfTouched =>
    order.triggerPrice.isSome && order.limitPrice.isNone && order.isActivated
  | .stopLimit | .limitIfTouched =>
    order.triggerPrice.isSome && order.limitPrice.isSome && order.isActivated
  | .trailingStopMarket => order.triggerPrice.isSome
  | .trailingStopLimit => order.triggerPrice.isSome && order.limitPrice.isSome

def isIfTouched : Bool :=
  match order.orderType with
  | .marketIfTouched | .limitIfTouched => true
  | _ => false

/-- `STOP_*` and `TRAILING_STOP_*`. -/
def isStopType : Bool :=
  match order.orderType with
  | .stopMarket | .stopLimit | .trailingStopMarket | .trailingStopLimit => true
  | _ => false

/-- `LIMIT` and `MARKET_TO_LIMIT`. -/
def isLimitType : Bool :=
  match order.orderType with
  | .limit | .marketToLimit => true
  | _ => false

/-- `TRAILING_STOP_*`. -/
def isTrailing : Bool :=
  match order.orderType with
  | .trailingStopMarket | .trailingStopLimit => true
  | _ => false

/-- Limits rest without a trigger, stops and touch orders with one; only trailing stops may be
inactive. -/
theorem rests_cases {order : RestingOrder} (h : order.rests = true) :
    (order.isLimitType = true ∧ order.triggerPrice = none) ∨
    ∃ trigger, order.triggerPrice = some trigger ∧
      ((order.isStopType = true ∧ (order.isActivated = true ∨ order.isTrailing = true)) ∨
        (order.isIfTouched = true ∧ order.isActivated = true)) := by
  unfold rests at h
  cases htype : order.orderType <;> cases htrigger : order.triggerPrice <;>
    simp_all [isLimitType, isStopType, isIfTouched, isTrailing]

end RestingOrder

/-! ## The Cython matching core -/

/-- The market state of `MatchingCore` in `matching_core.pyx`: raw prices with a flag
each. -/
structure CythonMatchingCore where
  bidRaw : Int
  askRaw : Int
  isBidInitialized : Bool
  isAskInitialized : Bool
  fillLimitInsideSpread : Bool

namespace CythonMatchingCore

/-- The same market. -/
def ofCore (c : OrderMatchingCore) : CythonMatchingCore where
  bidRaw := (c.bid.map Price.raw).getD 0
  askRaw := (c.ask.map Price.raw).getD 0
  isBidInitialized := c.bid.isSome
  isAskInitialized := c.ask.isSome
  fillLimitInsideSpread := c.fillLimitInsideSpread

variable (self : CythonMatchingCore) (side : OrderSideSpecified)

def isLimitMarketable (price : Price) : Bool :=
  match side with
  | .buy => if !self.isAskInitialized then false else self.askRaw ≤ price.raw
  | .sell => if !self.isBidInitialized then false else self.bidRaw ≥ price.raw

def isLimitFillable (price : Price) : Bool :=
  if self.isLimitMarketable side price then true
  else if !self.fillLimitInsideSpread then false
  else if !self.isBidInitialized || !self.isAskInitialized then false
  else
    match side with
    | .buy => price.raw ≥ self.bidRaw
    | .sell => price.raw ≤ self.askRaw

def isStopTriggered (triggerPrice : Price) : Bool :=
  match side with
  | .buy => if !self.isAskInitialized then false else self.askRaw ≥ triggerPrice.raw
  | .sell => if !self.isBidInitialized then false else self.bidRaw ≤ triggerPrice.raw

def isTouchTriggered (triggerPrice : Price) : Bool :=
  match side with
  | .buy => if !self.isAskInitialized then false else self.askRaw ≤ triggerPrice.raw
  | .sell => if !self.isBidInitialized then false else self.bidRaw ≥ triggerPrice.raw

def matchLimitOrder (order : RestingOrder) : Option MatchAction :=
  if order.limitPrice.any (self.isLimitFillable order.orderSide) then
    some (.fillLimit order.clientOrderId)
  else
    none

/-- Stop and touch orders trigger by different predicates; this is the
branch of an order not triggered before. -/
def matchTrigger (isTriggered : Price → Bool) (order : RestingOrder) : Option MatchAction :=
  if order.triggerPrice.any isTriggered then some (.triggerStop order.clientOrderId) else none

/-- **By the type of the order**. Market orders, which do not rest, raise.
-/
def matchOrder (order : RestingOrder) : Option MatchAction :=
  match order.orderType with
  | .limit | .marketToLimit => self.matchLimitOrder order
  | .stopLimit | .stopMarket => matchTrigger (self.isStopTriggered order.orderSide) order
  | .limitIfTouched | .marketIfTouched =>
    matchTrigger (self.isTouchTriggered order.orderSide) order
  | .trailingStopLimit | .trailingStopMarket =>
    if order.isActivated then matchTrigger (self.isStopTriggered order.orderSide) order else none
  | .market => none

end CythonMatchingCore

/-! ## The predicates agree -/

namespace CythonMatchingCore

variable (c : OrderMatchingCore) (side : OrderSideSpecified) (price : Price)

@[simp] theorem ofCore_isLimitMarketable :
    (ofCore c).isLimitMarketable side price = c.isLimitMatched side price := by
  unfold isLimitMarketable OrderMatchingCore.isLimitMatched ofCore
  cases side
  · cases c.ask <;> rfl
  · cases c.bid <;> rfl

@[simp] theorem ofCore_isStopTriggered :
    (ofCore c).isStopTriggered side price = c.isStopMatched side price := by
  unfold isStopTriggered OrderMatchingCore.isStopMatched ofCore
  cases side
  · cases c.ask <;> rfl
  · cases c.bid <;> rfl

@[simp] theorem ofCore_isTouchTriggered :
    (ofCore c).isTouchTriggered side price = c.isTouchTriggered side price := by
  unfold isTouchTriggered OrderMatchingCore.isTouchTriggered ofCore
  cases side
  · cases c.ask <;> rfl
  · cases c.bid <;> rfl

@[simp] theorem ofCore_isLimitFillable :
    (ofCore c).isLimitFillable side price = c.isLimitFillable side price := by
  unfold isLimitFillable OrderMatchingCore.isLimitFillable
  rw [ofCore_isLimitMarketable]
  unfold ofCore
  cases c.bid <;> cases c.ask <;> cases side <;> rfl

end CythonMatchingCore

namespace OrderMatchingCore

variable {c : OrderMatchingCore} {order : RestingOrder}

def opposite (c : OrderMatchingCore) : OrderSideSpecified → Option Price
  | .buy => c.ask
  | .sell => c.bid

/-- Stop and touch are one comparison read in both directions. -/
theorem isStopMatched_eq_isTouchTriggered_iff (c : OrderMatchingCore) (side : OrderSideSpecified)
    (trigger : Price) :
    c.isStopMatched side trigger = c.isTouchTriggered side trigger ↔
      ∀ market, c.opposite side = some market → market.raw = trigger.raw := by
  cases side <;> unfold isStopMatched isTouchTriggered opposite
  · cases c.ask with
    | none => simp
    | some ask =>
      simp only [any_some, some.injEq, forall_eq']
      rw [Bool.eq_iff_iff, le_iff, le_iff]
      omega
  · cases c.bid with
    | none => simp
    | some bid =>
      simp only [any_some, some.injEq, forall_eq']
      rw [Bool.eq_iff_iff, le_iff, le_iff]
      omega

/-- What each `process_*_order` tests at submission: the limit crosses the market, the stop is
reached, or the trigger is touched. -/
def inTheMarket (c : OrderMatchingCore) (order : RestingOrder) : Bool :=
  match order.orderType with
  | .market => false
  | .limit | .marketToLimit => order.limitPrice.any (c.isLimitMatched order.orderSide)
  | .stopMarket | .stopLimit | .trailingStopMarket | .trailingStopLimit =>
    order.triggerPrice.any (c.isStopMatched order.orderSide)
  | .marketIfTouched | .limitIfTouched =>
    order.triggerPrice.any (c.isTouchTriggered order.orderSide)

/-- The action for a resting order is the one of the Cython core. With the inside-spread option off
and the order active, there is one exactly when the engine would have found the order in the market
at submission. -/
def Agrees (c : OrderMatchingCore) (order : RestingOrder) : Prop :=
  c.matchOrder order = (CythonMatchingCore.ofCore c).matchOrder order ∧
    (order.isActivated = true → c.fillLimitInsideSpread = false →
      (c.matchOrder order).isSome = c.inTheMarket order)

theorem matchOrder_of_trigger (h : order.triggerPrice = some trigger) :
    c.matchOrder order =
      if order.isActivated && c.isStopMatched order.orderSide trigger then
        some (.triggerStop order.clientOrderId)
      else none := by
  unfold matchOrder matchStopOrder isStop
  rw [h]
  cases order.isActivated <;> rfl

theorem matchOrder_of_limit (h : order.triggerPrice = none) :
    c.matchOrder order = c.matchLimitOrder order := by
  unfold matchOrder matchLimitOrder isStop isLimit
  rw [h]
  cases order.limitPrice <;> rfl

theorem agrees_of_limit (htrigger : order.triggerPrice = none)
    (htype : order.isLimitType = true) : c.Agrees order := by
  have htypes : order.orderType = .limit ∨ order.orderType = .marketToLimit := by
    unfold isLimitType at htype
    split at htype <;> simp_all
  have hfill : (fun p => c.isLimitFillable order.orderSide p) =
      (CythonMatchingCore.ofCore c).isLimitFillable order.orderSide := by
    funext p
    simp
  constructor
  · rw [matchOrder_of_limit htrigger]
    obtain htype | htype := htypes <;>
      simp only [CythonMatchingCore.matchOrder, htype, CythonMatchingCore.matchLimitOrder,
        matchLimitOrder, hfill]
  · intro _ hoff
    have hmatched : (fun p => c.isLimitFillable order.orderSide p) =
        c.isLimitMatched order.orderSide := by
      funext p
      simp [isLimitFillable, hoff]
    rw [matchOrder_of_limit htrigger]
    obtain htype | htype := htypes <;>
      · simp only [matchLimitOrder, inTheMarket, htype, hmatched]
        cases order.limitPrice.any (c.isLimitMatched order.orderSide) <;> rfl

section

variable (htrigger : order.triggerPrice = some trigger)

include htrigger

/-- An active order with a trigger is matched by its type where it is in the market, and by the core
where its stop condition holds. -/
theorem agrees_iff_of_active
    (htype : order.isStopType = true ∨ order.isIfTouched = true) (hactive : order.isActivated = true) :
    c.Agrees order ↔ c.isStopMatched order.orderSide trigger = c.inTheMarket order := by
  have hcython : (CythonMatchingCore.ofCore c).matchOrder order =
      if c.inTheMarket order then some (.triggerStop order.clientOrderId) else none := by
    unfold isStopType isIfTouched at htype
    unfold CythonMatchingCore.matchOrder CythonMatchingCore.matchTrigger inTheMarket
    rcases htype with htype | htype <;> split at htype <;> simp_all
  rw [Agrees, matchOrder_of_trigger htrigger, hcython, hactive, Bool.true_and]
  cases c.isStopMatched order.orderSide trigger <;> cases c.inTheMarket order <;> simp

/-- A trailing stop that is not active is left alone by both. -/
theorem agrees_of_inactive
    (htype : order.isTrailing = true) (hinactive : order.isActivated = false) : c.Agrees order := by
  have hcython : (CythonMatchingCore.ofCore c).matchOrder order = none := by
    unfold isTrailing at htype
    unfold CythonMatchingCore.matchOrder
    split at htype <;> simp_all
  rw [Agrees, matchOrder_of_trigger htrigger, hcython, hinactive]
  exact ⟨rfl, nofun⟩

/-- A touch order is matched by the stop condition, so the two have to coincide. -/
theorem agrees_of_ifTouched_iff
    (htype : order.isIfTouched = true) (hactive : order.isActivated = true) :
    c.Agrees order ↔
      c.isStopMatched order.orderSide trigger = c.isTouchTriggered order.orderSide trigger := by
  rw [agrees_iff_of_active htrigger (.inr htype) hactive]
  unfold isIfTouched at htype
  unfold inTheMarket
  split at htype <;> simp_all

end

/-- **An order that rests is matched by the semantics of its type exactly when** it is not an
`IF_TOUCHED` order, or the other side of the market has no price, or one at the trigger. -/
theorem agrees_iff (c : OrderMatchingCore) (order : RestingOrder) (hrests : order.rests = true) :
    c.Agrees order ↔
      (order.isIfTouched = true → ∀ market trigger, c.opposite order.orderSide = some market →
        order.triggerPrice = some trigger → market.raw = trigger.raw) := by
  obtain ⟨hlimit, htrigger⟩ | ⟨trigger, htrigger, ⟨hstop, hactive⟩ | ⟨htouch, hactive⟩⟩ :=
    rests_cases hrests
  · refine iff_of_true (agrees_of_limit htrigger hlimit) fun _ _ _ _ hsome => ?_
    rw [htrigger] at hsome
    cases hsome
  · have hno : order.isIfTouched = false := by
      cases h : order.orderType <;> simp_all [isStopType, isIfTouched]
    have hagrees : c.Agrees order := by
      cases hflag : order.isActivated with
      | true =>
        refine (agrees_iff_of_active htrigger (.inl hstop) hflag).mpr ?_
        unfold isStopType at hstop
        unfold inTheMarket
        split at hstop <;> simp_all
      | false =>
        rw [hflag] at hactive
        exact agrees_of_inactive htrigger (hactive.resolve_left (by decide)) hflag
    rw [hno]
    exact iff_of_true hagrees (by rintro ⟨⟩)
  · rw [agrees_of_ifTouched_iff htrigger htouch hactive, isStopMatched_eq_isTouchTriggered_iff]
    constructor
    · intro h _ market trigger' hmarket htrigger'
      cases htrigger.symm.trans htrigger'
      exact h market hmarket
    · intro h market hmarket
      exact h htouch market trigger hmarket htrigger

/-- A market of 99 to 101 with nothing resting. -/
def Sample.spread : OrderMatchingCore :=
  { new ⟨"X"⟩ ⟨1, 0⟩ with bid := some ⟨99, 0⟩, ask := some ⟨101, 0⟩ }

/-- A buy to be executed at the market once the ask has come down to 100. -/
def Sample.touchBuy : RestingOrder := ⟨⟨"T"⟩, .buy, .marketIfTouched, some ⟨100, 0⟩, none, true⟩

open OrderMatchingCore.Sample

/-- At the trigger the two agree. -/
theorem agrees_iff_touchBuy :
    touchBuy.rests = true ∧ { spread with ask := some ⟨100, 0⟩ }.Agrees touchBuy := by
  refine ⟨by decide, (agrees_iff _ touchBuy (by decide)).mpr ?_⟩
  rintro - _ _ ⟨⟩ ⟨⟩
  rfl

/-- The engine accepts the order as not touched, and the next iteration triggers it on the
same market. -/
theorem not_agrees_touchBuy :
    touchBuy.rests = true ∧ spread.inTheMarket touchBuy = false ∧
      (spread.addOrder touchBuy).iterate = [.triggerStop ⟨"T"⟩] ∧
      ¬ spread.Agrees touchBuy := by
  refine ⟨by decide, by decide, by decide +kernel, fun h => ?_⟩
  exact absurd h.1 (by decide +kernel)

end OrderMatchingCore

end Nautilus
