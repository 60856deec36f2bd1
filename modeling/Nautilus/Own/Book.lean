import Nautilus.Book.Book

/-!
# The own order book

`OwnOrderBook` (`orderbook/own.rs`): a trader's orders at a venue, in two ladders of price levels
with a cache from client order ids to prices. Unlike `OrderBook` its operations check no size,
report a missing order as an error and index into a level without looking first.

A panic is `none`; a fallible method returns what it leaves behind with its result (`Outcome`). The
fields of an order that no operation reads are left out.
-/

namespace Nautilus

open Lib

structure OwnBookOrder where
  clientOrderId : ClientOrderId
  side : OrderSideSpecified
  price : Price
  size : Quantity
  tsLast : UnixNanos
deriving DecidableEq

def OwnBookOrder.toBookPrice (order : OwnBookOrder) : BookPrice :=
  ⟨order.price, order.side⟩

inductive OwnBookError where
  | orderNotFoundInCache (clientOrderId : ClientOrderId)
  | cachedLevelMissing (clientOrderId : ClientOrderId) (price : BookPrice)
  | orderNotFoundAtLevel (clientOrderId : ClientOrderId) (price : BookPrice)
deriving DecidableEq

/-! ## Levels -/

structure OwnBookLevel where
  price : BookPrice
  orders : IndexMap ClientOrderId OwnBookOrder
deriving DecidableEq

namespace OwnBookLevel

variable (level : OwnBookLevel)

def isEmpty : Bool := level.orders.isEmpty

variable (order : OwnBookOrder)

def fromOrder : OwnBookLevel :=
  { price := order.toBookPrice
    orders := IndexMap.empty.insert order.clientOrderId order }

def add : OwnBookLevel :=
  { level with orders := level.orders.insert order.clientOrderId order }

/-- Size zero removes; another size is assigned by the index operator, which panics
when the id is not here. -/
def update : Option OwnBookLevel :=
  if order.size.isZero then
    some { level with orders := level.orders.remove order.clientOrderId }
  else if level.orders.containsKey order.clientOrderId then
    some { level with orders := level.orders.insert order.clientOrderId order }
  else
    none

def delete (clientOrderId : ClientOrderId) : Except OwnBookError OwnBookLevel :=
  if level.orders.containsKey clientOrderId then
    .ok { level with orders := level.orders.remove clientOrderId }
  else
    .error (.orderNotFoundAtLevel clientOrderId level.price)

end OwnBookLevel

/-! ## Ladders -/

structure OwnBookLadder where
  side : OrderSideSpecified
  levels : OrdMap BookPrice.cmp OwnBookLevel
  cache : IndexMap ClientOrderId BookPrice

namespace OwnBookLadder

def new (side : OrderSideSpecified) : OwnBookLadder :=
  { side, levels := .empty, cache := .empty }

variable (l : OwnBookLadder)

def clear : OwnBookLadder :=
  { l with levels := .empty, cache := .empty }

variable (order : OwnBookOrder)

def add : OwnBookLadder :=
  let bookPrice := order.toBookPrice
  { l with
    cache := l.cache.insert order.clientOrderId bookPrice
    levels :=
      match l.levels.get? bookPrice with
      | some level => l.levels.insert bookPrice (level.add order)
      | none => l.levels.insert bookPrice (OwnBookLevel.fromOrder order) }

/-- The end of a removal: the cache entry goes, and the level too when it is empty. -/
def dropOrder (clientOrderId : ClientOrderId) (price : BookPrice)
    (level : OwnBookLevel) : OwnBookLadder :=
  { l with
    cache := l.cache.remove clientOrderId
    levels := l.levels.store OwnBookLevel.isEmpty price level }

/-- In place at the same price, else from the old level into the new, whatever the
size. -/
def update : Outcome OwnBookError OwnBookLadder :=
  let clientOrderId := order.clientOrderId
  match l.cache.get? clientOrderId with
  | none => some (l, .error (.orderNotFoundInCache clientOrderId))
  | some price =>
    match l.levels.get? price with
    | none => some (l, .error (.cachedLevelMissing clientOrderId price))
    | some level =>
      if order.price.eq level.price.value then
        (level.update order).map fun level =>
          if order.size.isZero then
            (l.dropOrder clientOrderId price level, .ok ())
          else
            ({ l with levels := l.levels.insert price level }, .ok ())
      else
        match level.delete clientOrderId with
        | .error e => some (l, .error e)
        | .ok level => some ((l.dropOrder clientOrderId price level).add order, .ok ())

def remove (clientOrderId : ClientOrderId) : OwnBookLadder × Except OwnBookError Unit :=
  match l.cache.get? clientOrderId with
  | none => (l, .error (.orderNotFoundInCache clientOrderId))
  | some price =>
    match l.levels.get? price with
    | none => (l, .error (.cachedLevelMissing clientOrderId price))
    | some level =>
      match level.delete clientOrderId with
      | .error e => (l, .error e)
      | .ok level => (l.dropOrder clientOrderId price level, .ok ())

def delete : OwnBookLadder × Except OwnBookError Unit :=
  l.remove order.clientOrderId

/-- One side of `audit_open_orders`: cached ids that are not open go; errors are
logged. -/
def audit (openOrderIds : List ClientOrderId) : OwnBookLadder :=
  let toRemove := l.cache.keys.filter fun clientOrderId => clientOrderId ∉ openOrderIds
  toRemove.foldl (fun l clientOrderId => (l.remove clientOrderId).1) l

end OwnBookLadder

/-! ## The book -/

structure OwnOrderBook where
  instrumentId : InstrumentId
  tsLast : UnixNanos
  updateCount : Nat
  bids : OwnBookLadder
  asks : OwnBookLadder

namespace OwnOrderBook

def new (instrumentId : InstrumentId) : OwnOrderBook :=
  { instrumentId, tsLast := 0, updateCount := 0, bids := .new .buy, asks := .new .sell }

variable (b : OwnOrderBook)

def ladder : OrderSideSpecified → OwnBookLadder
  | .buy => b.bids
  | .sell => b.asks

def setLadder (s : OrderSideSpecified) (l : OwnBookLadder) : OwnOrderBook :=
  match s with
  | .buy => { b with bids := l }
  | .sell => { b with asks := l }

variable (order : OwnBookOrder)

/-- The count wraps, as it does without overflow checks. -/
def increment : OwnOrderBook :=
  { b with tsLast := order.tsLast, updateCount := (b.updateCount + 1) % 2 ^ 64 }

def reset : OwnOrderBook :=
  { b with bids := b.bids.clear, asks := b.asks.clear, tsLast := 0, updateCount := 0 }

def add : OwnOrderBook :=
  let b := b.increment order
  b.setLadder order.side ((b.ladder order.side).add order)

/-- The end of `update` and `delete`: the ladder is put back, and a success is counted. -/
def settle (outcome : OwnBookLadder × Except OwnBookError Unit) :
    OwnOrderBook × Except OwnBookError Unit :=
  let b := b.setLadder order.side outcome.1
  match outcome.2 with
  | .ok () => (b.increment order, .ok ())
  | .error e => (b, .error e)

def update : Outcome OwnBookError OwnOrderBook :=
  ((b.ladder order.side).update order).map (b.settle order)

def delete : OwnOrderBook × Except OwnBookError Unit :=
  b.settle order ((b.ladder order.side).delete order)

def clear : OwnOrderBook :=
  { b with bids := b.bids.clear, asks := b.asks.clear }

/-- Both lists of ids are collected first; each only depends on its own ladder. -/
def auditOpenOrders (openOrderIds : List ClientOrderId) : OwnOrderBook :=
  { b with bids := b.bids.audit openOrderIds, asks := b.asks.audit openOrderIds }

end OwnOrderBook

/-! ## Runs -/

/-- One call of a mutating method. -/
inductive OwnBookOp where
  | add (order : OwnBookOrder)
  | update (order : OwnBookOrder)
  | delete (order : OwnBookOrder)
  | clear
  | auditOpenOrders (openOrderIds : List ClientOrderId)
  | reset

namespace OwnOrderBook

/-- One call with its result; the calls that cannot fail return `Ok`. -/
def apply (b : OwnOrderBook) : OwnBookOp → Outcome OwnBookError OwnOrderBook
  | .add order => some (b.add order, .ok ())
  | .update order => b.update order
  | .delete order => some (b.delete order)
  | .clear => some (b.clear, .ok ())
  | .auditOpenOrders openOrderIds => some (b.auditOpenOrders openOrderIds, .ok ())
  | .reset => some (b.reset, .ok ())

/-- The book after one call, whatever it returned; `none` if it panicked. -/
def step (b : OwnOrderBook) (op : OwnBookOp) : Option OwnOrderBook :=
  (b.apply op).map Prod.fst

end OwnOrderBook

end Nautilus
