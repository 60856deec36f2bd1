import Nautilus.Lib.Groups
import Nautilus.Lib.IndexMap
import Nautilus.Orders.Events

/-!
# The order matching core

`OrderMatchingCore` of `matching_core/mod.rs`: the resting orders of one market and the prices they
are matched against. Each side has a **limit book** keyed by limit price, a **stop book** keyed by
trigger price and a pending list for orders with neither; an index leads from client order ids to
the place of an order. `matchOrder` does not know an order's type and decides between filling and
triggering by **which prices are present**.
-/

namespace Nautilus

open Lib

variable {a b : Price}

/-! ## Prices as keys -/

/-- `Ord for Price`: the raw values decide. -/
def Price.cmp (a b : Price) : Ordering := compare a.raw b.raw

/-- `PartialOrd for Price`, `<=`. -/
def Price.le (a b : Price) : Bool := a.raw ≤ b.raw

namespace Price

instance : Std.TransCmp Price.cmp :=
  inferInstanceAs (Std.TransCmp (compareOn fun p : Price => p.raw))

@[simp] theorem le_iff : a.le b = true ↔ a.raw ≤ b.raw := decide_eq_true_iff

theorem cmp_eq_iff : a.cmp b = .eq ↔ a.raw = b.raw := Std.compare_eq_iff_eq

end Price

/-! ## Resting orders -/

/-- Which of a side's two books an order lives in. -/
inductive BookKind where
  | limit
  | stop
deriving DecidableEq

inductive MatchAction where
  | fillLimit (clientOrderId : ClientOrderId)
  | triggerStop (clientOrderId : ClientOrderId)
deriving DecidableEq

structure RestingOrder where
  clientOrderId : ClientOrderId
  orderSide : OrderSideSpecified
  orderType : OrderType
  triggerPrice : Option Price
  limitPrice : Option Price
  isActivated : Bool
deriving DecidableEq

namespace RestingOrder

variable (order : RestingOrder)

def isStop : Bool := order.triggerPrice.isSome

def isLimit : Bool := order.limitPrice.isSome && order.triggerPrice.isNone

/-- The book and the key in it. -/
def locate : Option (BookKind × Price) :=
  match order.triggerPrice with
  | some price => some (.stop, price)
  | none => order.limitPrice.map (.limit, ·)

end RestingOrder

abbrev PriceBook := OrdMap Price.cmp (List RestingOrder)

structure OrderMatchingCore where
  instrumentId : InstrumentId
  priceIncrement : Price
  bid : Option Price
  ask : Option Price
  last : Option Price
  fillLimitInsideSpread : Bool
  bidLimits : PriceBook
  askLimits : PriceBook
  bidStops : PriceBook
  askStops : PriceBook
  pendingBid : List RestingOrder
  pendingAsk : List RestingOrder
  orderIndex : IndexMap ClientOrderId (OrderSideSpecified × Option (BookKind × Price))

/-- `OrderError::NotFound`, the one error of `delete_order`. -/
inductive MatchingCoreError where
  | notFound (clientOrderId : ClientOrderId)
deriving DecidableEq

namespace OrderMatchingCore

def new (instrumentId : InstrumentId) (priceIncrement : Price) : OrderMatchingCore where
  instrumentId := instrumentId
  priceIncrement := priceIncrement
  bid := none
  ask := none
  last := none
  fillLimitInsideSpread := false
  bidLimits := .empty
  askLimits := .empty
  bidStops := .empty
  askStops := .empty
  pendingBid := []
  pendingAsk := []
  orderIndex := .empty

/-! ## Places -/

variable (c : OrderMatchingCore)

def bookFor : OrderSideSpecified → BookKind → PriceBook
  | .buy, .limit => c.bidLimits
  | .buy, .stop => c.bidStops
  | .sell, .limit => c.askLimits
  | .sell, .stop => c.askStops

variable (side : OrderSideSpecified)

/-- The same place written. -/
def setBook (kind : BookKind) (book : PriceBook) : OrderMatchingCore :=
  match side, kind with
  | .buy, .limit => { c with bidLimits := book }
  | .buy, .stop => { c with bidStops := book }
  | .sell, .limit => { c with askLimits := book }
  | .sell, .stop => { c with askStops := book }

def pendingFor : OrderSideSpecified → List RestingOrder
  | .buy => c.pendingBid
  | .sell => c.pendingAsk

/-- The same place written. -/
def setPending (pending : List RestingOrder) : OrderMatchingCore :=
  match side with
  | .buy => { c with pendingBid := pending }
  | .sell => { c with pendingAsk := pending }

/-! ## Queries -/

variable (clientOrderId : ClientOrderId)

def getOrder : Option RestingOrder :=
  (c.orderIndex.get? clientOrderId).bind fun (side, location) =>
    match location with
    | some (kind, price) =>
      ((c.bookFor side kind).get? price).bind fun bucket =>
        bucket.find? fun o => o.clientOrderId = clientOrderId
    | none => (c.pendingFor side).find? fun o => o.clientOrderId = clientOrderId

def orderExists : Bool :=
  c.orderIndex.containsKey clientOrderId

def iterBidOrders : List RestingOrder :=
  c.bidLimits.values.reverse.flatten ++ c.bidStops.values.flatten ++ c.pendingBid

def iterAskOrders : List RestingOrder :=
  c.askLimits.values.flatten ++ c.askStops.values.reverse.flatten ++ c.pendingAsk

def iterOrders : List RestingOrder :=
  c.iterBidOrders ++ c.iterAskOrders

/-! ## Commands -/

def setFillLimitInsideSpread (value : Bool) : OrderMatchingCore :=
  { c with fillLimitInsideSpread := value }

def reset : OrderMatchingCore :=
  { c with
    bid := none
    ask := none
    last := none
    bidLimits := .empty
    askLimits := .empty
    bidStops := .empty
    askStops := .empty
    pendingBid := []
    pendingAsk := []
    orderIndex := .empty }

variable (order : RestingOrder)

/-- The order appended to the place its prices imply. -/
def place : OrderMatchingCore :=
  match order.locate with
  | some (kind, price) =>
    let book := c.bookFor order.orderSide kind
    c.setBook order.orderSide kind (book.insert price ((book.get? price).getD [] ++ [order]))
  | none => c.setPending order.orderSide (c.pendingFor order.orderSide ++ [order])

def addOrder : OrderMatchingCore :=
  let placed := c.place order
  { placed with
    orderIndex := c.orderIndex.insert order.clientOrderId (order.orderSide, order.locate) }

/-- `position(..)`, then `remove(pos)`; `none` where `expect` panics. -/
def removeFrom (bucket : List RestingOrder) (clientOrderId : ClientOrderId) :
    Option (List RestingOrder) :=
  if bucket.any fun o => o.clientOrderId = clientOrderId then
    some (bucket.eraseP fun o => o.clientOrderId = clientOrderId)
  else
    none

/-- The order taken out of the place the index names. -/
def displace (side : OrderSideSpecified) :
    Option (BookKind × Price) → Option OrderMatchingCore
  | some (kind, price) => do
    let bucket ← (c.bookFor side kind).get? price
    let bucket ← removeFrom bucket clientOrderId
    some (c.setBook side kind ((c.bookFor side kind).store List.isEmpty price bucket))
  | none => do
    let pending ← removeFrom (c.pendingFor side) clientOrderId
    some (c.setPending side pending)

def deleteOrder : Outcome MatchingCoreError OrderMatchingCore :=
  match c.orderIndex.get? clientOrderId with
  | none => some (c, .error (.notFound clientOrderId))
  | some (side, location) =>
    let unindexed := { c with orderIndex := c.orderIndex.remove clientOrderId }
    (unindexed.displace clientOrderId side location).map fun c' => (c', .ok ())

/-! ## Matching -/

def isLimitMatched (price : Price) : Bool :=
  match side with
  | .buy => c.ask.any fun a => a.le price
  | .sell => c.bid.any fun b => price.le b

def isStopMatched (price : Price) : Bool :=
  match side with
  | .buy => c.ask.any fun a => price.le a
  | .sell => c.bid.any fun b => b.le price

def isTouchTriggered (triggerPrice : Price) : Bool :=
  match side with
  | .buy => c.ask.any fun a => a.le triggerPrice
  | .sell => c.bid.any fun b => triggerPrice.le b

def isLimitFillable (price : Price) : Bool :=
  if c.isLimitMatched side price then true
  else if !c.fillLimitInsideSpread then false
  else
    match c.bid, c.ask with
    | some bid, some ask =>
      match side with
      | .buy => bid.le price
      | .sell => price.le ask
    | _, _ => false

def matchLimitOrder : Option MatchAction :=
  if order.limitPrice.any fun p => c.isLimitFillable order.orderSide p then
    some (.fillLimit order.clientOrderId)
  else
    none

def matchStopOrder : Option MatchAction :=
  if !order.isActivated then none
  else if order.triggerPrice.any fun p => c.isStopMatched order.orderSide p then
    some (.triggerStop order.clientOrderId)
  else
    none

def matchOrder : Option MatchAction :=
  if order.isStop then c.matchStopOrder order
  else if order.isLimit then c.matchLimitOrder order
  else none

def iterateBids : List MatchAction :=
  (c.bidLimits.values.reverse.flatten ++ c.bidStops.values.flatten).filterMap c.matchOrder

def iterateAsks : List MatchAction :=
  (c.askLimits.values.flatten ++ c.askStops.values.reverse.flatten).filterMap c.matchOrder

def iterate : List MatchAction := c.iterateBids ++ c.iterateAsks

/-! ## Reading what was written -/

variable (side side' : OrderSideSpecified) (kind : BookKind) (book : PriceBook)
  (pending : List RestingOrder)

theorem bookFor_setBook (kind' : BookKind) :
    (c.setBook side kind book).bookFor side' kind' =
      if side' = side ∧ kind' = kind then book else c.bookFor side' kind' := by
  cases side <;> cases kind <;> cases side' <;> cases kind' <;> rfl

theorem pendingFor_setPending :
    (c.setPending side pending).pendingFor side' =
      if side' = side then pending else c.pendingFor side' := by
  cases side <;> cases side' <;> rfl

@[simp] theorem pendingFor_setBook :
    (c.setBook side kind book).pendingFor side' = c.pendingFor side' := by
  cases side <;> cases kind <;> cases side' <;> rfl

@[simp] theorem bookFor_setPending :
    (c.setPending side pending).bookFor side' kind = c.bookFor side' kind := by
  cases side <;> cases kind <;> cases side' <;> rfl

@[simp] theorem orderIndex_setBook (kind : BookKind) (book : PriceBook) :
    (c.setBook side kind book).orderIndex = c.orderIndex := by
  cases side <;> cases kind <;> rfl

@[simp] theorem orderIndex_setPending
    (pending : List RestingOrder) : (c.setPending side pending).orderIndex = c.orderIndex := by
  cases side <;> rfl

end OrderMatchingCore

end Nautilus
