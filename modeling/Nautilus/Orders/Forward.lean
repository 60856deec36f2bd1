import Nautilus.Orders.Step

/-!
# What an accepted event leaves

`Orders/Step.lean` inverts `Order::apply`; this module runs it forward. `OrderAny.apply_eq` states
the nine bodies as one, over the prices a type has (`price`, `triggerPrice`), the updates it allows
and the prices it takes from them. An event the core accepts is applied as the lemmas after it say.
-/

namespace Nautilus

open Option

namespace OrderAny

/-! ## What the types differ in -/

/-- `Order::price`: the market types answer with their protection price. -/
def price : OrderAny → Option Price
  | limit order => some order.price
  | limitIfTouched order => some order.price
  | market order => order.protectionPrice
  | marketIfTouched _ => none
  | marketToLimit order => order.price
  | stopLimit order => some order.price
  | stopMarket order => order.protectionPrice
  | trailingStopLimit order => some order.price
  | trailingStopMarket _ => none

def triggerPrice : OrderAny → Option Price
  | limit _ | market _ | marketToLimit _ => none
  | limitIfTouched order => some order.triggerPrice
  | marketIfTouched order => some order.triggerPrice
  | stopLimit order => some order.triggerPrice
  | stopMarket order => some order.triggerPrice
  | trailingStopLimit order => some order.triggerPrice
  | trailingStopMarket order => some order.triggerPrice

variable (self : OrderAny)

/-- The assertions of the nine `update`. -/
def allows (event : OrderUpdated) : Bool :=
  match self with
  | limit _ => LimitOrder.impl.allows event
  | limitIfTouched _ => LimitIfTouchedOrder.impl.allows event
  | market _ => MarketOrder.impl.allows event
  | marketIfTouched _ => MarketIfTouchedOrder.impl.allows event
  | marketToLimit _ => MarketToLimitOrder.impl.allows event
  | stopLimit _ => StopLimitOrder.impl.allows event
  | stopMarket _ => StopMarketOrder.impl.allows event
  | trailingStopLimit _ => TrailingStopLimitOrder.impl.allows event
  | trailingStopMarket _ => TrailingStopMarketOrder.impl.allows event

/-- The prices taken from an update. -/
def reprice (event : OrderUpdated) : OrderAny :=
  match self with
  | limit order => limit (LimitOrder.impl.reprice order event)
  | limitIfTouched order => limitIfTouched (LimitIfTouchedOrder.impl.reprice order event)
  | market order => market (MarketOrder.impl.reprice order event)
  | marketIfTouched order => marketIfTouched (MarketIfTouchedOrder.impl.reprice order event)
  | marketToLimit order => marketToLimit (MarketToLimitOrder.impl.reprice order event)
  | stopLimit order => stopLimit (StopLimitOrder.impl.reprice order event)
  | stopMarket order => stopMarket (StopMarketOrder.impl.reprice order event)
  | trailingStopLimit order => trailingStopLimit (TrailingStopLimitOrder.impl.reprice order event)
  | trailingStopMarket order =>
    trailingStopMarket (TrailingStopMarketOrder.impl.reprice order event)

/-- The flags set by a trigger. -/
def triggered (ts : UnixNanos) : OrderAny :=
  match self with
  | limit order => limit (LimitOrder.impl.triggered order ts)
  | limitIfTouched order => limitIfTouched (LimitIfTouchedOrder.impl.triggered order ts)
  | market order => market (MarketOrder.impl.triggered order ts)
  | marketIfTouched order => marketIfTouched (MarketIfTouchedOrder.impl.triggered order ts)
  | marketToLimit order => marketToLimit (MarketToLimitOrder.impl.triggered order ts)
  | stopLimit order => stopLimit (StopLimitOrder.impl.triggered order ts)
  | stopMarket order => stopMarket (StopMarketOrder.impl.triggered order ts)
  | trailingStopLimit order => trailingStopLimit (TrailingStopLimitOrder.impl.triggered order ts)
  | trailingStopMarket order =>
    trailingStopMarket (TrailingStopMarketOrder.impl.triggered order ts)

/-- The price a fill is measured against. -/
def slippagePrice : OrderAny → Option Price
  | limit order => LimitOrder.impl.slippagePrice order
  | limitIfTouched order => LimitIfTouchedOrder.impl.slippagePrice order
  | market order => MarketOrder.impl.slippagePrice order
  | marketIfTouched order => MarketIfTouchedOrder.impl.slippagePrice order
  | marketToLimit order => MarketToLimitOrder.impl.slippagePrice order
  | stopLimit order => StopLimitOrder.impl.slippagePrice order
  | stopMarket order => StopMarketOrder.impl.slippagePrice order
  | trailingStopLimit order => TrailingStopLimitOrder.impl.slippagePrice order
  | trailingStopMarket order => TrailingStopMarketOrder.impl.slippagePrice order

/-! ## Reading what was written -/

section

variable (self : OrderAny) (core : OrderCore)

@[simp] theorem core_withCore : (self.withCore core).core = core := by cases self <;> rfl

@[simp] theorem withCore_core : self.withCore self.core = self := by cases self <;> rfl

@[simp] theorem kind_withCore : (self.withCore core).kind = self.kind := by cases self <;> rfl

@[simp] theorem price_withCore : (self.withCore core).price = self.price := by cases self <;> rfl

@[simp] theorem triggerPrice_withCore : (self.withCore core).triggerPrice = self.triggerPrice := by
  cases self <;> rfl

@[simp] theorem allows_withCore : (self.withCore core).allows = self.allows := by
  cases self <;> rfl

variable (event : OrderUpdated)

@[simp] theorem reprice_withCore :
    (self.withCore core).reprice event = (self.reprice event).withCore core := by
  cases self <;> rfl

@[simp] theorem slippagePrice_withCore :
    (self.withCore core).slippagePrice = self.slippagePrice := by
  cases self <;> rfl

@[simp] theorem withCore_withCore (core' : OrderCore) :
    (self.withCore core).withCore core' = self.withCore core' := by
  cases self <;> rfl

@[simp] theorem kind_reprice : (self.reprice event).kind = self.kind := by
  cases self <;> rfl

@[simp] theorem core_reprice : (self.reprice event).core = self.core := by
  cases self <;> rfl

variable (ts : UnixNanos)

@[simp] theorem core_triggered : (self.triggered ts).core = self.core := by
  cases self <;> rfl

@[simp] theorem kind_triggered : (self.triggered ts).kind = self.kind := by
  cases self <;> rfl

@[simp] theorem price_triggered : (self.triggered ts).price = self.price := by
  cases self <;> rfl

@[simp] theorem triggerPrice_triggered : (self.triggered ts).triggerPrice = self.triggerPrice := by
  cases self <;> rfl

end

/-! ## One body for the nine -/

variable [Build]

/-- What the type does after its core has accepted the event. -/
def finish : OrderEventAny → Option OrderAny
  | .updated event =>
    if self.allows event then
      some ((self.reprice event).withCore (self.core.requantify event.quantity))
    else
      none
  | .triggered event => some (self.triggered event.tsEvent)
  | .filled _ =>
    match self.slippagePrice with
    | some price => (self.core.setSlippage price).map self.withCore
    | none => some self
  | _ => some self

/-- A type is one of the nine: what it supplies is what `OrderAny` dispatches to. -/
structure Wraps {τ : Type} (impl : OrderImpl τ) (wrap : τ → OrderAny) : Prop where
  core : ∀ t, (wrap t).core = impl.core t
  withCore : ∀ t c, (wrap t).withCore c = wrap (impl.withCore t c)
  allows : ∀ t, (wrap t).allows = impl.allows
  reprice : ∀ t event, (wrap t).reprice event = wrap (impl.reprice t event)
  triggered : ∀ t ts, (wrap t).triggered ts = wrap (impl.triggered t ts)
  slippagePrice : ∀ t, (wrap t).slippagePrice = impl.slippagePrice t

namespace Wraps

variable {τ : Type} {impl : OrderImpl τ} {wrap : τ → OrderAny}

theorem finish (h : Wraps impl wrap) (t : τ) (event : OrderEventAny) :
    (wrap t).finish event = (impl.finish t event).map wrap := by
  cases event with
  | updated event =>
    simp only [OrderAny.finish, OrderImpl.finish, OrderImpl.update, h.allows, h.reprice, h.core,
      h.withCore]
    split <;> rfl
  | triggered event => simp only [OrderAny.finish, OrderImpl.finish, h.triggered, map_some]
  | filled event =>
    simp only [OrderAny.finish, OrderImpl.finish, h.slippagePrice, h.core]
    cases impl.slippagePrice t with
    | none => rfl
    | some price =>
      simp only [map_map]
      congr 1
      exact funext (h.withCore t)
  | _ => rfl

theorem apply (h : Wraps impl wrap) (t : τ) (event : OrderEventAny) :
    (impl.apply t event).map (Prod.map wrap id) =
      ((wrap t).core.apply event).bind fun
        | (core, .error e) => some ((wrap t).withCore core, .error e)
        | (core, .ok ()) => (((wrap t).withCore core).finish event).map (·, .ok ()) := by
  unfold OrderImpl.apply
  rw [h.core]
  cases (impl.core t).apply event with
  | none => rfl
  | some out =>
    obtain ⟨core, e | _⟩ := out
    · simp [h.withCore]
    · simp only [bind_some, h.withCore, h.finish, map_map]
      rfl

end Wraps

theorem apply_eq (event : OrderEventAny) :
    self.apply event =
      (self.core.apply event).bind fun
        | (core, .error e) => some (self.withCore core, .error e)
        | (core, .ok ()) => ((self.withCore core).finish event).map (·, .ok ()) := by
  cases self <;>
    exact Wraps.apply ⟨fun _ => rfl, fun _ _ => rfl, fun _ => rfl, fun _ _ => rfl, fun _ _ => rfl,
      fun _ => rfl⟩ _ event

theorem apply_of_core {self : OrderAny} {event : OrderEventAny} {core : OrderCore}
    (h : self.core.apply event = some (core, .ok ())) :
    self.apply event = ((self.withCore core).finish event).map (·, .ok ()) := by
  rw [apply_eq, h]
  rfl

end OrderAny

/-! ## Accepted events -/

namespace OrderCore

variable [Build] {c c₂ : OrderCore} {event : OrderEventAny} {n : OrderStatus}

/-- An accepted event is handled with the new status in place and recorded. -/
theorem apply_ok (hm : c.matchesIds event) (hn : c.newStatus event = .ok n)
    (hk : keepsPrevious event = false)
    (hh : { c with previousStatus := c.saved, status := n }.handle event = some (c₂, .ok ())) :
    c.apply event = some (c₂.record event, .ok ()) := by
  rw [apply_of_newStatus hm hn, savePrevious_of_not_keeps hk, hh]
  rfl

theorem apply_refused {e : OrderError} (hm : c.matchesIds event)
    (hn : c.newStatus event = .error e) : c.apply event = some (c.savePrevious event, .error e) := by
  unfold apply
  rw [if_neg (not_not.mpr hm.1), if_neg (not_not.mpr hm.2)]
  simp only [newStatus_savePrevious, hn]

end OrderCore

end Nautilus
