import Nautilus.Engine.Events

/-!
# Filling an order

`apply_fills` takes a **clone** of the order, a list of fills and a **snapshot** of the position,
fills the order level by level through `fill_order`, and decides whether the rest is cancelled. It
decides from the clone and the snapshot alone, so its calls can be listed beforehand: `fillCalls` is
the list and `perform` makes the calls.

`fill_order` counts what was filled (`cached_filled_qty`), sends the event, and handles the linked
orders: the children of an `OTO` order are submitted, the siblings of an `OCO` order cancelled,
those of an `OUO` order cut down. The calls that lead back to the top of the engine are `Handlers`.
-/

namespace Nautilus

open Lib Acting

variable {venuePositionId : Option PositionId} {liquiditySide : LiquiditySide}

variable {w w' : World} {u : Unit}

/-- `ContingencyType::NoContingency` or none leaves the other orders alone. -/
def EngineEnv.handlesContingencies (env : EngineEnv) (order : EngineOrder) : Bool :=
  env.config.supportContingentOrders && order.isContingent

/-! ## Values of the instrument -/

section Normalize

variable [Build]

def priceMatchesPrecision (price : Price) (precision : Nat) : Bool :=
  price.raw % 10 ^ (fixedPrecision - precision) == 0

def priceMatchesTick (price increment : Price) : Bool :=
  increment.raw == 0 || price.raw % increment.raw == 0

def quantityMatchesPrecision (quantity : Quantity) (precision : Nat) : Bool :=
  quantity.raw % 10 ^ (fixedPrecision - precision) == 0

namespace EngineEnv

variable (env : EngineEnv)

def priceMatchesCurrentInstrument (price : Price) : Bool :=
  priceMatchesPrecision price env.instrument.pricePrecision &&
    priceMatchesTick price env.instrument.priceIncrement

/-- `normalize_price_for_current_instrument`. The raw value is a price's and the
precision the instrument's, so `from_raw` does not fail. -/
def normalizePrice (price : Price) : Option Price :=
  if env.priceMatchesCurrentInstrument price then
    some ⟨price.raw, env.instrument.pricePrecision⟩
  else
    none

/-- `normalize_quantity_for_current_instrument`. -/
def normalizeQuantity (quantity : Quantity) : Option Quantity :=
  if quantityMatchesPrecision quantity env.instrument.sizePrecision then
    some ⟨quantity.raw, env.instrument.sizePrecision⟩
  else
    none

/-- Both at once: a fill that is not compatible is skipped. -/
def normalizeFill (fill : Price × Quantity) : Option (Price × Quantity) :=
  match env.normalizePrice fill.1, env.normalizeQuantity fill.2 with
  | some price, some quantity => some (price, quantity)
  | _, _ => none

end EngineEnv

end Normalize

/-! ## The calls of a pass -/

inductive FillCall where
  /-- `generate_order_rejected`: no market -/
  | reject
  /-- `generate_order_updated` -/
  | update (quantity : Quantity) (price : Option Price)
  /-- a draw of `is_slipped`, and the price moved if it says so -/
  | slip (price : Price)
  /-- `fill_order` -/
  | fill (price : Price) (quantity : Quantity)
  /-- `cancel_order` -/
  | cancel
  /-- `todo!("Exhausted simulated book volume")` -/
  | exhausted
deriving DecidableEq

/-- The sizes `apply_fills` was called with, for one order. -/
structure FillPass where
  order : EngineOrder
  fills : List (Price × Quantity)
  position : Option HeldPosition

namespace FillPass

variable [Build] (env : EngineEnv) (pass : FillPass)

/-- The first fill of a market-to-limit order fixes its price and ends the pass. The order is a
clone, so every fill does. -/
def fixesPrice : Bool :=
  pass.order.filledQty.isZero && pass.order.orderType == .marketToLimit

/-- What a reduce-only order may fill at most, when the fill is larger than that. -/
def cap (quantity : Quantity) : Option Quantity :=
  if env.config.useReduceOnly && pass.order.isReduceOnly then
    pass.position.bind fun p => if p.quantity.lt quantity then some p.quantity else none
  else
    none

/-- In front of a fill: the price of a market-to-limit order, the draw of an L1 book. -/
def before (price : Price) : List FillCall :=
  (if pass.fixesPrice then [.update pass.order.quantity (some price)] else []) ++
    (if env.bookType = .l1Mbp then [.slip price] else [])

/-- The calls for one fill, and whether the pass ends with it. -/
def callsFor (price : Price) (quantity : Quantity) : List FillCall × Bool :=
  match pass.cap env quantity with
  | some held =>
    if held.isZero then (pass.before env price, true)
    else
      let adjusted : Quantity := ⟨held.raw, quantity.precision⟩
      let adjust := if pass.order.quantity.raw ≠ adjusted.raw then [.update adjusted none] else []
      (pass.before env price ++ adjust ++ [.fill price (quantity.minimum adjusted)],
        pass.fixesPrice)
  | none =>
    if quantity.isZero then
      let refused := pass.fills.length = 1 ∧ pass.order.status = .submitted
      (pass.before env price ++ if refused then [.reject] else [], true)
    else
      (pass.before env price ++ [.fill price quantity], pass.fixesPrice)

/-- The loop over the fills; the Boolean says whether it ran through. -/
def loopCalls : List (Price × Quantity) → List FillCall × Bool
  | [] => ([], true)
  | fill :: fills =>
    match env.normalizeFill fill with
    | none => loopCalls fills
    | some (price, quantity) =>
      match pass.callsFor env price quantity with
      | (calls, true) => (calls, false)
      | (calls, false) =>
        let (rest, through) := loopCalls fills
        (calls ++ rest, through)

/-- The types that are filled at any price. -/
def isAggressiveType (orderType : OrderType) : Bool :=
  orderType ∈ [OrderType.market, .marketIfTouched, .stopMarket, .trailingStopMarket]

/-- What follows the loop: it asks the clone whether it is open. -/
def completion : List FillCall :=
  if pass.order.timeInForce = .ioc ∧ pass.order.isOpen then [.cancel]
  else if pass.order.isOpen ∧ env.bookType = .l1Mbp ∧ isAggressiveType pass.order.orderType then
    [.exhausted]
  else []

/-- The total of the compatible fills. -/
def totalSize : Option Quantity := do
  let zero ← Quantity.zero pass.order.quantity.precision
  (pass.fills.filterMap env.normalizeFill).foldlM (fun total fill => total.add fill.2) zero

/-- A fill-or-kill order that the fills do not complete. -/
def isKilled : Option Bool :=
  if pass.order.timeInForce = .fok then
    (pass.totalSize env).map fun total => total.lt pass.order.leavesQty
  else
    some false

/-- What `apply_fills` does; `none` is a panic while the total is taken. -/
def fillCalls : Option (List FillCall) :=
  (pass.isKilled env).map fun killed =>
    if killed then [.cancel]
    else if pass.fills.isEmpty ∧ pass.order.status ≠ .submitted then []
    else
      let refused := if pass.fills.isEmpty then [.reject] else []
      match pass.loopCalls env pass.fills with
      | (calls, true) => refused ++ calls ++ pass.completion env
      | (calls, false) => refused ++ calls

end FillPass

/-! ## Cancelling -/

namespace EngineM

variable [Build] [BookCode] (env : EngineEnv) (clientOrderId : ClientOrderId)
  (order : EngineOrder)

/-- The cached order, where its absence is a panic. -/
def cachedOrder {env : EngineEnv} : EngineM env EngineOrder := do
  let w ← read
  Acting.ofOption (w.cache.orders.get? clientOrderId)

/-- `if core.order_exists(id) { let _ = core.delete_order(id); }`. -/
def deleteResting {env : EngineEnv} : EngineM env Unit := do
  let w ← read
  if w.engine.core.orderExists clientOrderId then onCore (.delete clientOrderId) else pure ()

/-- `cancel_order` of this order alone. -/
def cancelAlone : EngineM env Unit :=
  if order.isActiveLocal then pure ()
  else do
    deleteResting order.clientOrderId
    dropFilledQty order.clientOrderId
    let _ ← getVenueOrderId env order
    generateOrderCanceled env order

def cancelContingentOrders : EngineM env Unit :=
  (order.linkedOrderIds.getD []).forM fun clientOrderId => do
    let contingentOrder ← cachedOrder clientOrderId
    if !contingentOrder.isActiveLocal && !contingentOrder.isClosed then
      cancelAlone env contingentOrder
    else
      pure ()

/-- `cancel_order` with the orders linked to it. -/
def cancelOrder : EngineM env Unit := do
  cancelAlone env order
  if !order.isActiveLocal && env.handlesContingencies order then cancelContingentOrders env order
  else pure ()

/-! ## One fill -/

/-- The count of `fill_order`. -/
def countFilled (lastQty : Quantity) : Prog World Unit :=
  Prog.change fun w =>
    (w.engine.countedQty order lastQty).map fun filledQty =>
      { w with
        engine :=
          { w.engine with
            cachedFilledQty := w.engine.cachedFilledQty.insert order.clientOrderId filledQty } }

/-- The count reached the quantity of the clone. -/
def isFullyFilled (w : World) : Bool :=
  (w.engine.cachedFilledQty.get? order.clientOrderId).any fun filledQty =>
    order.quantity.raw ≤ filledQty.raw

/-- An order that is done leaves the core, and its count is dropped. -/
def releaseFilled : Prog World Unit := do
  let w ← get
  if order.isPassive && (order.isClosed || isFullyFilled order w) then do
    (deleteResting order.clientOrderId : EngineM env Unit).prog
    if order.orderType ≠ .marketToLimit then
      (dropFilledQty order.clientOrderId : EngineM env Unit).prog
    else pure ()
  else pure ()

/-- `fill_order` up to the contingencies. -/
def recordFill (lastPx : Price) (lastQty : Quantity)
    (liquiditySide : LiquiditySide) (venuePositionId : Option PositionId) : Prog World Unit :=
  if lastQty.precision ≠ env.instrument.sizePrecision then Prog.panics
  else do
    countFilled order lastQty
    let commission ← Prog.ofOption (env.feeModel order lastQty lastPx)
    let venueOrderId ← (getVenueOrderId env order).prog
    generateOrderFilled env order venueOrderId venuePositionId lastQty lastPx commission
      liquiditySide
    releaseFilled env order

/-! ## A fill is one act -/

/-- Bars, events, the core, the book and the counts are left alone. -/
def Quiet (w w' : World) : Prop :=
  ∃ fields cache draws, fields.SameBars w.engine.toEngineData ∧
    w' = { w with engine := { w.engine with toEngineData := fields }, cache, draws }

omit [Build] [BookCode] in
theorem Quiet.refl (w : World) : Quiet w w :=
  ⟨w.engine.toEngineData, w.cache, w.draws, ⟨rfl, rfl, rfl, rfl⟩, rfl⟩

omit [Build] [BookCode] in
theorem Quiet.trans {w₁ w₂ : World} (h : Quiet w w₁) (h' : Quiet w₁ w₂) : Quiet w w₂ := by
  obtain ⟨_, _, _, hsame, rfl⟩ := h
  obtain ⟨fields', cache', draws', hsame', rfl⟩ := h'
  refine ⟨fields', cache', draws', ?_, rfl⟩
  exact ⟨hsame'.1.trans hsame.1, hsame'.2.1.trans hsame.2.1, hsame'.2.2.1.trans hsame.2.2.1,
    hsame'.2.2.2.trans hsame.2.2.2⟩

/-- A program that is quiet whatever it returns. -/
def IsQuiet {α : Type} (m : EngineM env α) : Prop :=
  ∀ w a w', m.run w = some (a, w') → Quiet w w'

namespace IsQuiet

variable {env} {α β : Type} {m : EngineM env α}

theorem of_eq (h : ∀ w a w', m.run w = some (a, w') → w' = w) : IsQuiet env m := by
  intro w a w' hw
  cases h w a w' hw
  exact Quiet.refl w

theorem bind {f : α → EngineM env β} (hm : IsQuiet env m) (hf : ∀ a, IsQuiet env (f a)) :
    IsQuiet env (m >>= f) := by
  intro w b w' hw
  obtain ⟨a, w₁, hfirst, hrest⟩ := bind_run_eq_some.mp hw
  exact (hm w a w₁ hfirst).trans (hf a w₁ b w' hrest)

theorem pure (a : α) : IsQuiet env (pure a) := of_eq fun _ _ _ h => by cases h; rfl

theorem read : IsQuiet env (read : EngineM env World) := of_eq fun _ _ _ h => by cases h; rfl

theorem ofOption (x : Option α) : IsQuiet env (ofOption x) :=
  of_eq fun _ _ _ h => (Prog.ofOption_eq_some.mp h).2

theorem modifyData {f : EngineData → EngineData} (h : ∀ d, (f d).SameBars d) :
    IsQuiet env (modifyData f h) := by
  intro w a w' hw
  cases hw
  exact ⟨_, w.cache, w.draws, h _, rfl⟩

theorem modifyCache (f : Cache → Cache) : IsQuiet env (modifyCache f) := by
  intro w a w' hw
  cases hw
  exact ⟨w.engine.toEngineData, _, w.draws, ⟨rfl, rfl, rfl, rfl⟩, rfl⟩

theorem draw (answer : Nat → α) : IsQuiet env (draw answer) := by
  intro w a w' hw
  cases hw
  exact ⟨w.engine.toEngineData, w.cache, _, ⟨rfl, rfl, rfl, rfl⟩, rfl⟩

theorem count (f : IdsGenerator → IdsGenerator) : IsQuiet env (count f) :=
  .bind (.modifyData _) fun _ => .bind .read fun _ => .pure _

variable (env)

theorem venueId (n : Nat) : IsQuiet env (venueId env n) := by
  unfold EngineM.venueId
  split
  · exact .draw _
  · exact .pure _

theorem getVenueOrderId : IsQuiet env (getVenueOrderId env order) := by
  refine .bind .read fun w => ?_
  split
  · exact .pure _
  · refine .bind (.bind (.count _) fun _ => .bind (.venueId env _) fun _ => .pure _) fun _ => ?_
    exact .bind (.modifyCache _) fun _ => .pure _

theorem generateTradeId (tsInit : UnixNanos) : IsQuiet env (generateTradeId env tsInit) :=
  .bind (.count _) fun _ => .pure _

theorem accountIdOf : IsQuiet env (accountIdOf env order) :=
  .bind .read fun _ => .bind (.ofOption _) fun _ => .pure _

end IsQuiet

variable {order}

/-- The event names the order and the quantity of the fill. -/
theorem generateOrderFilled_cases {venueOrderId : VenueOrderId} {lastQty : Quantity}
    {lastPx : Price} {commission : Money}
    (h : generateOrderFilled env order venueOrderId venuePositionId lastQty lastPx commission
      liquiditySide w = some (u, w')) :
    ∃ event fields cache draws, event.clientOrderId = order.clientOrderId ∧
      event.lastQty = lastQty ∧ fields.SameBars w.engine.toEngineData ∧
      w' =
        { w with
          engine := { w.engine with toEngineData := fields }
          cache
          draws
          events := w.events ++ [⟨.filled event, none⟩] } := by
  obtain ⟨_, w₁, haccount, h⟩ := Prog.bind_eq_some.mp h
  obtain ⟨event, _, hstamp, h⟩ := Prog.bind_eq_some.mp h
  obtain ⟨_, w₃, htrade, h⟩ := Prog.bind_eq_some.mp h
  cases hstamp
  obtain ⟨fields, cache, draws, hsame, rfl⟩ :=
    (IsQuiet.accountIdOf env order w _ w₁ haccount).trans
      (IsQuiet.generateTradeId env _ w₁ _ w₃ htrade)
  cases h
  exact ⟨_, fields, _, draws, rfl, rfl, hsame, rfl⟩

/-- `delete_order` for an order that is there. -/
theorem deleteResting_cases {clientOrderId : ClientOrderId}
    (h : (deleteResting clientOrderId : EngineM env Unit).run w = some (u, w')) :
    ∃ core, w' = { w with engine := { w.engine with core } } ∧
      (if w.engine.core.orderExists clientOrderId then w.engine.core.step (.delete clientOrderId)
        else some w.engine.core) = some core := by
  obtain ⟨_, _, hread, h⟩ := bind_run_eq_some.mp h
  cases hread
  split_ifs at h with hexists
  · obtain ⟨core, hcore, rfl⟩ := onCore_run_eq_some.mp h
    exact ⟨core, rfl, (if_pos hexists).trans hcore⟩
  · cases h
    exact ⟨w.engine.core, rfl, if_neg hexists⟩

/-- An order that is done leaves the core, and its count is dropped. -/
theorem releaseFilled_cases {filledQty : Quantity}
    (hcount : w.engine.cachedFilledQty.get? order.clientOrderId = some filledQty)
    (h : releaseFilled env order w = some (u, w')) :
    ∃ core, Act.coreAfter w.engine.core order filledQty = some core ∧
      w' =
        { w with
          engine :=
            { w.engine with
              core
              cachedFilledQty :=
                if order.isDone filledQty ∧ order.orderType ≠ .marketToLimit then
                  w.engine.cachedFilledQty.remove order.clientOrderId
                else w.engine.cachedFilledQty } } := by
  have hfull : isFullyFilled order w = decide (order.quantity.raw ≤ filledQty.raw) := by
    rw [isFullyFilled, hcount]
    rfl
  obtain ⟨_, _, hget, h⟩ := Prog.bind_eq_some.mp h
  cases hget
  rw [hfull] at h
  unfold Act.coreAfter
  by_cases hdone : order.isDone filledQty
  · rw [if_pos (show (order.isPassive && (order.isClosed || _)) = true from hdone)] at h
    obtain ⟨_, _, hdelete, h⟩ := Prog.bind_eq_some.mp h
    obtain ⟨core, rfl, hcore⟩ := deleteResting_cases env hdelete
    refine ⟨core, ?_, ?_⟩
    · simpa [hdone] using hcore
    split_ifs at h with htype
    · cases h
      rw [if_pos ⟨hdone, htype⟩]
    · cases h
      rw [if_neg fun hc => htype hc.2]
  · rw [if_neg (show ¬ (order.isPassive && (order.isClosed || _)) = true from hdone)] at h
    cases h
    refine ⟨w.engine.core, if_neg fun hc => hdone hc.1, ?_⟩
    rw [if_neg fun hc => hdone hc.1]

/-- What `fill_order` does up to the contingencies is one act, a fill of that quantity. -/
theorem recordFill_cases {lastPx : Price} {lastQty : Quantity}
    (h : recordFill env order lastPx lastQty liquiditySide venuePositionId w = some (u, w')) :
    ∃ event fields cache draws, event.lastQty = lastQty ∧
      Act.step env w (.fill order event fields cache draws) = some w' := by
  unfold recordFill at h
  split at h
  · nomatch h
  obtain ⟨_, _, hcounted, h⟩ := Prog.bind_eq_some.mp h
  have hcounted := Prog.change_eq_some.mp hcounted
  obtain ⟨filledQty, hfilledQty, rfl⟩ := Option.map_eq_some_iff.mp hcounted
  obtain ⟨_, _, hfee, h⟩ := Prog.bind_eq_some.mp h
  obtain ⟨-, rfl⟩ := Prog.ofOption_eq_some.mp hfee
  obtain ⟨_, _, hids, h⟩ := Prog.bind_eq_some.mp h
  obtain ⟨fields, cache, draws, hsame, rfl⟩ := IsQuiet.getVenueOrderId env order _ _ _ hids
  obtain ⟨_, _, hevent, h⟩ := Prog.bind_eq_some.mp h
  obtain ⟨event, fields', cache', draws', hid, hqty, hsame', rfl⟩ :=
    generateOrderFilled_cases env hevent
  obtain ⟨core, hcore, rfl⟩ := releaseFilled_cases env (IndexMap.get?_insert_self _ _ _) h
  refine ⟨event, fields', cache', draws', hqty, ?_⟩
  have hbars : fields'.SameBars w.engine.toEngineData :=
    ⟨hsame'.1.trans hsame.1, hsame'.2.1.trans hsame.2.1, hsame'.2.2.1.trans hsame.2.2.1,
      hsame'.2.2.2.trans hsame.2.2.2⟩
  rw [← hqty] at hfilledQty
  exact Act.step_fill_eq_some env |>.mpr ⟨⟨hid, hbars⟩, filledQty, core, hfilledQty, hcore, rfl⟩

def fill (order : EngineOrder) (lastPx : Price) (lastQty : Quantity)
    (liquiditySide : LiquiditySide) (venuePositionId : Option PositionId) : EngineM env Unit where
  prog := recordFill env order lastPx lastQty liquiditySide venuePositionId
  madeOf := .one fun _ _ _ h => by
    obtain ⟨event, fields, cache, draws, -, hstep⟩ := recordFill_cases env h
    exact ⟨_, hstep⟩

/-! ## Contingencies -/

/-- The calls from the linked orders back to the top of the engine: `process_order`, and
`update_order` without the contingencies of the updated order. -/
structure Handlers where
  processOrder : EngineOrder → AccountId → EngineM env Unit
  updateOrder : EngineOrder → Option Quantity → Option Price → Option Price → EngineM env Bool

variable (handlers : Handlers env) (order : EngineOrder)

/-- The position of the parent, indexed for a child that has none. -/
def indexPosition {env : EngineEnv} (order child : EngineOrder) : EngineM env Unit :=
  match child.core.positionId, order.core.positionId with
  | none, some positionId =>
    modifyCache fun cache => cache.addPositionId positionId child.clientOrderId
  | _, _ => pure ()

/-- A child of a one-triggers-other order is submitted. -/
def submitChild (clientOrderId : ClientOrderId) : EngineM env Unit := do
  let child ← cachedOrder clientOrderId
  if child.isClosed || child.isActiveLocal then pure ()
  else do
    indexPosition order child
    if !child.isOpen ||
        (child.status = .pendingUpdate ∧ child.core.previousStatus = some .submitted) then do
      let w ← read
      let accountId ←
        Acting.ofOption (order.core.accountId.or (w.engine.accountIds.get? order.traderId))
      handlers.processOrder child accountId
    else pure ()

/-- A sibling in a one-cancels-other group is cancelled. -/
def cancelSibling : EngineM env Unit := do
  let sibling ← cachedOrder clientOrderId
  if sibling.isClosed || sibling.isActiveLocal then pure () else cancelOrder env sibling

/-- A sibling in a one-updates-other group follows. -/
def updateSibling (clientOrderId : ClientOrderId) : EngineM env Unit := do
  let sibling ← cachedOrder clientOrderId
  if sibling.isActiveLocal then pure ()
  else if order.isClosed && sibling.isOpen then cancelOrder env sibling
  else if order.leavesQty.raw ≠ 0 ∧ order.leavesQty.raw ≠ sibling.leavesQty.raw then do
    let _ ← handlers.updateOrder sibling (some order.leavesQty) sibling.price sibling.triggerPrice
    pure ()
  else pure ()

/-- The end of `fill_order`. -/
def handleContingencies : EngineM env Unit :=
  let linked := order.linkedOrderIds.getD []
  if !env.config.supportContingentOrders then pure ()
  else
    match order.contingencyType with
    | some .oto => linked.forM (submitChild env handlers order)
    | some .oco => linked.forM (cancelSibling env)
    | some .ouo => linked.forM (updateSibling env handlers order)
    | _ => pure ()

def fillOrder (lastPx : Price) (lastQty : Quantity)
    (liquiditySide : LiquiditySide) (venuePositionId : Option PositionId) : EngineM env Unit := do
  fill env order lastPx lastQty liquiditySide venuePositionId
  handleContingencies env handlers order

/-- A tick against the order; panics on no side and on overflow. -/
def slippedPrice (price : Price) : Option Price :=
  let tick := env.instrument.priceIncrement
  (order.orderSide.asSpecified.map fun
    | .buy => (⟨price.raw + tick.raw, max price.precision tick.precision⟩ : Price)
    | .sell => ⟨price.raw - tick.raw, max price.precision tick.precision⟩).filter fun p =>
      -(quantityRawTypeMax / 2 + 1 : Int) ≤ p.raw && p.raw ≤ quantityRawTypeMax / 2

/-- The calls, made; `moved` is the price the last draw moved, if it did. -/
def perform (order : EngineOrder) (liquiditySide : LiquiditySide)
    (venuePositionId : Option PositionId) : Option Price → List FillCall → EngineM env Unit
  | _, [] => pure ()
  | moved, .reject :: calls => do
    generateOrderRejected env order .noMarket
    perform order liquiditySide venuePositionId moved calls
  | moved, .update quantity price :: calls => do
    generateOrderUpdated env order quantity price none
    perform order liquiditySide venuePositionId moved calls
  | _, .slip price :: calls => do
    let slipped ← draw env.fillModel.isSlipped
    let moved ← Acting.ofOption (if slipped then (slippedPrice env order price).map some else some none)
    perform order liquiditySide venuePositionId moved calls
  | moved, .fill price quantity :: calls => do
    fillOrder env handlers order (moved.getD price) quantity liquiditySide venuePositionId
    perform order liquiditySide venuePositionId moved calls
  | moved, .cancel :: calls => do
    cancelOrder env order
    perform order liquiditySide venuePositionId moved calls
  | _, .exhausted :: _ => Acting.panics

/-- A netting venue has no position ids of its own. -/
def applyFills (pass : FillPass) (liquiditySide : LiquiditySide)
    (venuePositionId : Option PositionId) : EngineM env Unit := do
  let calls ← Acting.ofOption (pass.fillCalls env)
  let venuePositionId := if env.omsType = .netting then none else venuePositionId
  perform env handlers pass.order liquiditySide venuePositionId none calls

end EngineM

end Nautilus
