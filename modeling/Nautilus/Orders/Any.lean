import Nautilus.Lib.Run
import Nautilus.Orders.Core

/-!
# The nine order types

Every order type wraps an `OrderCore` and adds its own prices and trigger flags. `Order::apply`
first applies the event to the core; then an update rewrites the quantities and the prices the type
has, a trigger is flagged by the types with a trigger price, and a fill is measured against the
price the type was to be executed at.

The nine bodies are one, `OrderImpl.apply`, over what a type supplies (`OrderImpl`). An update with
a price the type does not have panics (`none`). Fields that only the constructors read (expiry,
display quantity, offsets) are not kept.
-/

namespace Nautilus

open Lib Option

variable [Build]

/-- What every `update` ends with. -/
def OrderCore.requantify (self : OrderCore) (quantity : Quantity) : OrderCore :=
  { self with quantity, leavesQty := quantity.saturatingSub self.filledQty }

/-- What an order type supplies to `Order::apply`: its core, the updates it allows and the prices it
takes from them, the flags a trigger sets and the price a fill is compared with. Only `withCore`
touches the core. -/
structure OrderImpl (τ : Type) where
  core : τ → OrderCore
  withCore : τ → OrderCore → τ
  allows : OrderUpdated → Bool
  reprice : τ → OrderUpdated → τ
  triggered : τ → UnixNanos → τ
  slippagePrice : τ → Option Price
  core_withCore : ∀ self c, core (withCore self c) = c := by intros; rfl
  withCore_core : ∀ self, withCore self (core self) = self := by intros; rfl
  core_reprice : ∀ self event, core (reprice self event) = core self := by intros; rfl
  core_triggered : ∀ self ts, core (triggered self ts) = core self := by intros; rfl

namespace OrderImpl

variable {τ : Type} (impl : OrderImpl τ)

/-- `Order::update`; an update the type does not allow fails an assertion. -/
def update (self : τ) (event : OrderUpdated) : Option τ :=
  if impl.allows event then
    some (impl.withCore (impl.reprice self event) ((impl.core self).requantify event.quantity))
  else
    none

/-- What the type does after its core has accepted the event. -/
def finish (self : τ) : OrderEventAny → Option τ
  | .updated event => impl.update self event
  | .triggered event => some (impl.triggered self event.tsEvent)
  | .filled _ =>
    match impl.slippagePrice self with
    | some price => ((impl.core self).setSlippage price).map (impl.withCore self)
    | none => some self
  | _ => some self

def apply (self : τ) (event : OrderEventAny) : Outcome OrderError τ :=
  ((impl.core self).apply event).bind fun
    | (core, .error e) => some (impl.withCore self core, .error e)
    | (core, .ok ()) => (impl.finish (impl.withCore self core) event).map (·, .ok ())

end OrderImpl

/-! ## Construction

`TryFrom<OrderInitialized>` of each type: the fields the type needs must be there,
`new_checked` validates them, and the core is built from an initialisation event with
the fields the type has. -/

/-- `Result`, or a panic. -/
abbrev Fallible := ExceptT OrderError Option

/-- The field must be set (`ok_or_else` in each `try_from`). -/
def required {α : Type} (field : Option α) (name typeName : String) : Fallible α :=
  match field with
  | some value => pure value
  | none => throw (.invariant (.predicateViolation
      ("`" ++ name ++ "` is required for `" ++ typeName ++ "` initialization")))

/-- `core/correctness.rs`. -/
def checkPredicateFalse (predicate : Bool) (failMsg : String) : Fallible Unit :=
  if predicate then throw (.invariant (.predicateViolation failMsg)) else pure ()

def checkPositiveQuantity (value : Quantity) (param : String) : Fallible Unit :=
  if value.isPositive then pure ()
  else throw (.invariant (.notPositive param value "`Quantity`"))

def checkDisplayQty (displayQty : Option Quantity) (quantity : Quantity) : Fallible Unit :=
  match displayQty with
  | some q => checkPredicateFalse (quantity.lt q) "`display_qty` may not exceed `quantity`"
  | none => pure ()

def checkTimeInForce (timeInForce : TimeInForce) (expireTime : Option UnixNanos) : Fallible Unit :=
  checkPredicateFalse (timeInForce == .gtd && expireTime.getD 0 == 0)
    "`expire_time` is required for `GTD` order"

/-- The three checks most constructors make. -/
def checkOrder (event : OrderInitialized) : Fallible Unit := do
  checkPositiveQuantity event.quantity "quantity"
  checkDisplayQty event.displayQty event.quantity
  checkTimeInForce event.timeInForce event.expireTime

/-- The core of an order whose checks have passed. -/
def newCore (init : OrderInitialized) : Fallible OrderCore := OrderCore.new init

/-- What succeeds here satisfies `P`. -/
def Yields {τ : Type} (P : τ → Prop) (x : Fallible τ) : Prop :=
  ∀ o, x.run = some (.ok o) → P o

namespace Yields

variable {α τ υ : Type}

omit [Build] in
theorem bind {P : τ → Prop} {x : Fallible α} {f : α → Fallible τ} (h : ∀ a, Yields P (f a)) :
    Yields P (x >>= f) := by
  intro o ho
  obtain ⟨ra, -, hf⟩ := bind_eq_some_iff.mp ho
  cases ra with
  | error e => nomatch hf
  | ok a => exact h a o hf

omit [Build] in
theorem wrap {P : υ → Prop} {x : Fallible τ} {f : τ → υ} (hx : Yields (fun o => P (f o)) x) :
    Yields P (x >>= fun o => pure (f o)) := by
  intro o' ho'
  obtain ⟨ro, hro, ho'⟩ := bind_eq_some_iff.mp ho'
  cases ro with
  | error e => nomatch ho'
  | ok o =>
    cases ho'
    exact hx o hro

theorem newCore {P : τ → Prop} {init : OrderInitialized} {make : OrderCore → τ}
    (h : ∀ c, OrderCore.new init = some c → P (make c)) :
    Yields P (Nautilus.newCore init >>= fun c => pure (make c)) := by
  intro o ho
  obtain ⟨_, hc, ho⟩ := bind_eq_some_iff.mp ho
  obtain ⟨c, hnew, rfl⟩ := map_eq_some_iff.mp hc
  cases ho
  exact h c hnew

end Yields

variable (event : OrderInitialized)

/-! ## Market -/

structure MarketOrder where
  core : OrderCore
  protectionPrice : Option Price
deriving DecidableEq

namespace MarketOrder

def tryFrom : Fallible MarketOrder := do
  checkPositiveQuantity event.quantity "quantity"
  checkPredicateFalse (event.timeInForce == .gtd) "GTD not supported for Market orders"
  let core ← newCore
    { event with
      orderType := .market, price := none, triggerPrice := none
      triggerType := some .noTrigger, limitOffset := none, trailingOffset := none
      trailingOffsetType := none, expireTime := none, displayQty := none
      emulationTrigger := none }
  return { core, protectionPrice := none }

def impl : OrderImpl MarketOrder where
  core := core
  withCore self core := { self with core }
  allows event := event.price.isNone && event.triggerPrice.isNone
  reprice self event :=
    { self with protectionPrice := event.protectionPrice.or self.protectionPrice }
  triggered self _ := self
  slippagePrice _ := none

def update := impl.update

def apply := impl.apply

end MarketOrder

/-! ## Limit -/

structure LimitOrder where
  core : OrderCore
  price : Price
deriving DecidableEq

namespace LimitOrder

def tryFrom : Fallible LimitOrder := do
  let price ← required event.price "price" "LimitOrder"
  checkOrder event
  let core ← newCore
    { event with
      orderType := .limit, triggerPrice := none, triggerType := none, limitOffset := none
      trailingOffset := none, trailingOffsetType := none }
  return { core, price }

def impl : OrderImpl LimitOrder where
  core := core
  withCore self core := { self with core }
  allows event := event.triggerPrice.isNone
  reprice self event := { self with price := event.price.getD self.price }
  triggered self _ := self
  slippagePrice self := some self.price

def update := impl.update

def apply := impl.apply

end LimitOrder

/-! ## Stop market -/

structure StopMarketOrder where
  core : OrderCore
  triggerPrice : Price
  isTriggered : Bool
  tsTriggered : Option UnixNanos
  protectionPrice : Option Price
deriving DecidableEq

namespace StopMarketOrder

def tryFrom : Fallible StopMarketOrder := do
  let triggerPrice ← required event.triggerPrice "trigger_price" "StopMarketOrder"
  let _ ← required event.triggerType "trigger_type" "StopMarketOrder"
  checkOrder event
  let core ← newCore
    { event with
      orderType := .stopMarket, price := none, limitOffset := none, trailingOffset := none
      trailingOffsetType := none }
  return { core, triggerPrice, isTriggered := false, tsTriggered := none, protectionPrice := none }

def impl : OrderImpl StopMarketOrder where
  core := core
  withCore self core := { self with core }
  allows event := event.price.isNone
  reprice self event :=
    { self with
      triggerPrice := event.triggerPrice.getD self.triggerPrice
      protectionPrice := event.protectionPrice }
  triggered self ts := { self with isTriggered := true, tsTriggered := some ts }
  slippagePrice self := some self.triggerPrice

def update := impl.update

def apply := impl.apply

end StopMarketOrder

/-! ## Stop limit -/

structure StopLimitOrder where
  core : OrderCore
  price : Price
  triggerPrice : Price
  isTriggered : Bool
  tsTriggered : Option UnixNanos
deriving DecidableEq

namespace StopLimitOrder

def tryFrom : Fallible StopLimitOrder := do
  let price ← required event.price "price" "StopLimitOrder"
  let triggerPrice ← required event.triggerPrice "trigger_price" "StopLimitOrder"
  let _ ← required event.triggerType "trigger_type" "StopLimitOrder"
  checkOrder event
  let core ← newCore
    { event with
      orderType := .stopLimit, limitOffset := none, trailingOffset := none
      trailingOffsetType := none }
  return { core, price, triggerPrice, isTriggered := false, tsTriggered := none }

def impl : OrderImpl StopLimitOrder where
  core := core
  withCore self core := { self with core }
  allows _ := true
  reprice self event :=
    { self with
      price := event.price.getD self.price
      triggerPrice := event.triggerPrice.getD self.triggerPrice }
  triggered self ts := { self with isTriggered := true, tsTriggered := some ts }
  slippagePrice self := some self.price

def update := impl.update

def apply := impl.apply

end StopLimitOrder

/-! ## Market to limit -/

structure MarketToLimitOrder where
  core : OrderCore
  price : Option Price
deriving DecidableEq

namespace MarketToLimitOrder

def tryFrom : Fallible MarketToLimitOrder := do
  checkOrder event
  let core ← newCore
    { event with
      orderType := .marketToLimit, price := none, triggerPrice := none, triggerType := none
      limitOffset := none, trailingOffset := none, trailingOffsetType := none
      emulationTrigger := some .noTrigger }
  return { core, price := none }

def impl : OrderImpl MarketToLimitOrder where
  core := core
  withCore self core := { self with core }
  allows event := event.triggerPrice.isNone
  reprice self event := { self with price := event.price.or self.price }
  triggered self _ := self
  slippagePrice self := self.price

def update := impl.update

def apply := impl.apply

end MarketToLimitOrder

/-! ## Market if touched -/

structure MarketIfTouchedOrder where
  core : OrderCore
  triggerPrice : Price
  isTriggered : Bool
  tsTriggered : Option UnixNanos
deriving DecidableEq

namespace MarketIfTouchedOrder

def tryFrom : Fallible MarketIfTouchedOrder := do
  let triggerPrice ← required event.triggerPrice "trigger_price" "MarketIfTouchedOrder"
  let _ ← required event.triggerType "trigger_type" "MarketIfTouchedOrder"
  checkPositiveQuantity event.quantity "quantity"
  checkTimeInForce event.timeInForce event.expireTime
  let core ← newCore
    { event with
      orderType := .marketIfTouched, price := none, limitOffset := none
      trailingOffset := none, trailingOffsetType := none, displayQty := none }
  return { core, triggerPrice, isTriggered := false, tsTriggered := none }

def impl : OrderImpl MarketIfTouchedOrder where
  core := core
  withCore self core := { self with core }
  allows event := event.price.isNone
  reprice self event :=
    { self with triggerPrice := event.triggerPrice.getD self.triggerPrice }
  triggered self ts := { self with isTriggered := true, tsTriggered := some ts }
  slippagePrice self := some self.triggerPrice

def update := impl.update

def apply := impl.apply

end MarketIfTouchedOrder

/-! ## Limit if touched -/

structure LimitIfTouchedOrder where
  core : OrderCore
  price : Price
  triggerPrice : Price
  isTriggered : Bool
  tsTriggered : Option UnixNanos
deriving DecidableEq

namespace LimitIfTouchedOrder

def tryFrom : Fallible LimitIfTouchedOrder := do
  let price ← required event.price "price" "LimitIfTouchedOrder"
  let triggerPrice ← required event.triggerPrice "trigger_price" "LimitIfTouchedOrder"
  let _ ← required event.triggerType "trigger_type" "LimitIfTouchedOrder"
  checkOrder event
  checkPredicateFalse (event.orderSide == .buy && price.raw < triggerPrice.raw)
    "BUY Limit-If-Touched must have `trigger_price` <= `price`"
  checkPredicateFalse (event.orderSide == .sell && triggerPrice.raw < price.raw)
    "SELL Limit-If-Touched must have `trigger_price` >= `price`"
  let core ← newCore
    { event with
      orderType := .limitIfTouched, limitOffset := none, trailingOffset := none
      trailingOffsetType := none }
  return { core, price, triggerPrice, isTriggered := false, tsTriggered := none }

def impl : OrderImpl LimitIfTouchedOrder where
  core := core
  withCore self core := { self with core }
  allows _ := true
  reprice self event :=
    { self with
      price := event.price.getD self.price
      triggerPrice := event.triggerPrice.getD self.triggerPrice }
  triggered self ts := { self with isTriggered := true, tsTriggered := some ts }
  slippagePrice self := some self.price

def update := impl.update

def apply := impl.apply

end LimitIfTouchedOrder

/-! ## Trailing stop market -/

structure TrailingStopMarketOrder where
  core : OrderCore
  triggerPrice : Price
  isTriggered : Bool
  tsTriggered : Option UnixNanos
deriving DecidableEq

namespace TrailingStopMarketOrder

def tryFrom : Fallible TrailingStopMarketOrder := do
  let triggerPrice ← required event.triggerPrice "trigger_price" "TrailingStopMarketOrder"
  let _ ← required event.triggerType "trigger_type" "TrailingStopMarketOrder"
  let _ ← required event.trailingOffset "trailing_offset" "TrailingStopMarketOrder"
  let _ ← required event.trailingOffsetType "trailing_offset_type" "TrailingStopMarketOrder"
  checkOrder event
  let core ← newCore
    { event with
      orderType := .trailingStopMarket, price := none, limitOffset := none }
  return { core, triggerPrice, isTriggered := false, tsTriggered := none }

def impl : OrderImpl TrailingStopMarketOrder where
  core := core
  withCore self core := { self with core }
  allows event := event.price.isNone
  reprice self event :=
    { self with triggerPrice := event.triggerPrice.getD self.triggerPrice }
  triggered self ts := { self with isTriggered := true, tsTriggered := some ts }
  slippagePrice self := some self.triggerPrice

def update := impl.update

def apply := impl.apply

end TrailingStopMarketOrder

/-! ## Trailing stop limit -/

structure TrailingStopLimitOrder where
  core : OrderCore
  price : Price
  triggerPrice : Price
  isTriggered : Bool
  tsTriggered : Option UnixNanos
deriving DecidableEq

namespace TrailingStopLimitOrder

def tryFrom : Fallible TrailingStopLimitOrder := do
  let price ← required event.price "price" "TrailingStopLimitOrder"
  let triggerPrice ← required event.triggerPrice "trigger_price" "TrailingStopLimitOrder"
  let _ ← required event.triggerType "trigger_type" "TrailingStopLimitOrder"
  let _ ← required event.limitOffset "limit_offset" "TrailingStopLimitOrder"
  let _ ← required event.trailingOffset "trailing_offset" "TrailingStopLimitOrder"
  let _ ← required event.trailingOffsetType "trailing_offset_type" "TrailingStopLimitOrder"
  checkOrder event
  let core ← newCore
    { event with
      orderType := .trailingStopLimit }
  return { core, price, triggerPrice, isTriggered := false, tsTriggered := none }

def impl : OrderImpl TrailingStopLimitOrder where
  core := core
  withCore self core := { self with core }
  allows _ := true
  reprice self event :=
    { self with
      price := event.price.getD self.price
      triggerPrice := event.triggerPrice.getD self.triggerPrice }
  triggered self ts := { self with isTriggered := true, tsTriggered := some ts }
  slippagePrice self := some self.price

def update := impl.update

def apply := impl.apply

end TrailingStopLimitOrder

/-! ## Any order -/

/-- `orders/any.rs`. -/
inductive OrderAny where
  | limit (order : LimitOrder)
  | limitIfTouched (order : LimitIfTouchedOrder)
  | market (order : MarketOrder)
  | marketIfTouched (order : MarketIfTouchedOrder)
  | marketToLimit (order : MarketToLimitOrder)
  | stopLimit (order : StopLimitOrder)
  | stopMarket (order : StopMarketOrder)
  | trailingStopLimit (order : TrailingStopLimitOrder)
  | trailingStopMarket (order : TrailingStopMarketOrder)
deriving DecidableEq

namespace OrderAny

/-- `TryFrom<OrderInitialized> for OrderAny` (`events/order/initialized.rs:551`). -/
def tryFrom : Fallible OrderAny :=
  match event.orderType with
  | .limit => do return limit (← LimitOrder.tryFrom event)
  | .limitIfTouched => do return limitIfTouched (← LimitIfTouchedOrder.tryFrom event)
  | .market => do return market (← MarketOrder.tryFrom event)
  | .marketIfTouched => do return marketIfTouched (← MarketIfTouchedOrder.tryFrom event)
  | .marketToLimit => do return marketToLimit (← MarketToLimitOrder.tryFrom event)
  | .stopLimit => do return stopLimit (← StopLimitOrder.tryFrom event)
  | .stopMarket => do return stopMarket (← StopMarketOrder.tryFrom event)
  | .trailingStopLimit => do return trailingStopLimit (← TrailingStopLimitOrder.tryFrom event)
  | .trailingStopMarket => do return trailingStopMarket (← TrailingStopMarketOrder.tryFrom event)

def core : OrderAny → OrderCore
  | limit order => order.core
  | limitIfTouched order => order.core
  | market order => order.core
  | marketIfTouched order => order.core
  | marketToLimit order => order.core
  | stopLimit order => order.core
  | stopMarket order => order.core
  | trailingStopLimit order => order.core
  | trailingStopMarket order => order.core

/-- The type of the wrapper; `order_type` reads it off the core. -/
def kind : OrderAny → OrderType
  | limit _ => .limit
  | limitIfTouched _ => .limitIfTouched
  | market _ => .market
  | marketIfTouched _ => .marketIfTouched
  | marketToLimit _ => .marketToLimit
  | stopLimit _ => .stopLimit
  | stopMarket _ => .stopMarket
  | trailingStopLimit _ => .trailingStopLimit
  | trailingStopMarket _ => .trailingStopMarket

/-- A new order has a new core, of its type and of the quantity that was asked for. -/
theorem new_of_tryFrom {event : OrderInitialized} {o : OrderAny}
    (h : (tryFrom event).run = some (.ok o)) : ∃ init, OrderCore.new init = some o.core ∧
      init.quantity = event.quantity ∧ init.orderType = o.kind := by
  revert h
  suffices Yields (fun o : OrderAny => ∃ init, OrderCore.new init = some o.core ∧
    init.quantity = event.quantity ∧ init.orderType = o.kind) (tryFrom event) from this o
  unfold tryFrom
  split
  all_goals
    refine Yields.wrap ?_
    repeat first
      | exact Yields.newCore fun _ hnew => ⟨_, hnew, rfl, rfl⟩
      | refine Yields.bind fun _ => ?_

def withCore : OrderAny → OrderCore → OrderAny
  | limit order, core => limit { order with core }
  | limitIfTouched order, core => limitIfTouched { order with core }
  | market order, core => market { order with core }
  | marketIfTouched order, core => marketIfTouched { order with core }
  | marketToLimit order, core => marketToLimit { order with core }
  | stopLimit order, core => stopLimit { order with core }
  | stopMarket order, core => stopMarket { order with core }
  | trailingStopLimit order, core => trailingStopLimit { order with core }
  | trailingStopMarket order, core => trailingStopMarket { order with core }

/-- `Order::apply`, dispatched on the order type. -/
def apply (self : OrderAny) (event : OrderEventAny) : Outcome OrderError OrderAny :=
  match self with
  | limit order => (order.apply event).map (Prod.map limit id)
  | limitIfTouched order => (order.apply event).map (Prod.map limitIfTouched id)
  | market order => (order.apply event).map (Prod.map market id)
  | marketIfTouched order => (order.apply event).map (Prod.map marketIfTouched id)
  | marketToLimit order => (order.apply event).map (Prod.map marketToLimit id)
  | stopLimit order => (order.apply event).map (Prod.map stopLimit id)
  | stopMarket order => (order.apply event).map (Prod.map stopMarket id)
  | trailingStopLimit order => (order.apply event).map (Prod.map trailingStopLimit id)
  | trailingStopMarket order => (order.apply event).map (Prod.map trailingStopMarket id)

/-- The order after a call, accepted or not. -/
def step (self : OrderAny) (event : OrderEventAny) : Option OrderAny :=
  (self.apply event).map Prod.fst

end OrderAny

end Nautilus
