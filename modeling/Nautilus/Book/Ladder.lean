import Nautilus.Lib.Buckets
import Nautilus.Book.Data

/-!
# Price levels and ladders

`BookLevel` (`orderbook/level.rs`) keeps the orders of one price in insertion order, `BookLadder`
(`orderbook/ladder.rs`) the levels of one side in price order, a cache from order ids to prices,
and, for L1 books, the kind of batch being accumulated.

A panic is `none`. The `debug_assert`s are compiled out of release builds and not modelled.
-/

namespace Nautilus

open Lib

/-! ## Levels -/

structure BookLevel where
  price : BookPrice
  orders : IndexMap OrderId BookOrder
deriving DecidableEq

namespace BookLevel

variable [Build] (level : BookLevel)

def len : Nat := level.orders.len

def isEmpty : Bool := level.orders.isEmpty

def first : Option BookOrder := level.orders.values.head?

variable (order : BookOrder)

/-- `level.rs:160`: a non-positive size is ignored. -/
def add : BookLevel :=
  if order.size.isPositive then
    { level with orders := level.orders.insert order.orderId order }
  else
    level

def fromOrder [BookCode] : BookLevel :=
  add { price := BookCode.toBookPrice order, orders := .empty } order

/-- `level.rs:177`: size zero removes. -/
def update : BookLevel :=
  if order.size.raw = 0 then
    { level with orders := level.orders.remove order.orderId }
  else
    { level with orders := level.orders.insert order.orderId order }

def delete : BookLevel :=
  { level with orders := level.orders.remove order.orderId }

/-- `level.rs:204`: panics when the id is not at this level. -/
def removeById (orderId : OrderId) : Option BookLevel :=
  if level.orders.containsKey orderId then
    some { level with orders := level.orders.remove orderId }
  else
    none

end BookLevel

/-! ## Ladders -/

inductive L1BatchState where
  | none
  | mbpBatch
  | snapshotBatch
deriving DecidableEq

structure BookLadder where
  side : OrderSideSpecified
  bookType : BookType
  levels : OrdMap BookPrice.cmp BookLevel
  cache : IndexMap OrderId BookPrice
  batchState : L1BatchState

namespace BookLadder

def new (side : OrderSideSpecified) (bookType : BookType) : BookLadder :=
  { side, bookType, levels := .empty, cache := .empty, batchState := .none }

variable (l : BookLadder)

def top : Option BookLevel := l.levels.first.map Prod.snd

/-- Every order, best level first, each level in its own order. -/
def orders : List BookOrder :=
  l.levels.values.flatMap fun level => level.orders.values

def clear : BookLadder :=
  { l with levels := .empty, cache := .empty, batchState := .none }

/-- Keep the first level and rebuild the cache from what is left. -/
def retainBestOnly : BookLadder :=
  if l.levels.len ≤ 1 then
    l
  else
    match l.levels.first with
    | none => l
    | some (bestPrice, _) =>
      let levels := l.levels.retain fun price => price.eq bestPrice
      let cache := levels.entries.foldl
        (fun cache (bookPrice, level) =>
          level.orders.keys.foldl (fun cache orderId => cache.insert orderId bookPrice) cache)
        IndexMap.empty
      { l with levels, cache }

/-- The level a `get_mut` changed in place, dropped again when it is empty. -/
def storeLevel (price : BookPrice) (level : BookLevel) : BookLadder :=
  { l with levels := l.levels.store BookLevel.isEmpty price level }

section

variable [Build] [BookCode]

/-- Clear or accumulate, by the flags and the batch. The Boolean: the add goes on.
-/
def handleL1Add (l : BookLadder) (order : BookOrder) (flags : UInt8) : BookLadder × Bool :=
  if !order.size.isPositive then
    (l.clear, false)
  else
    let isMbp := RecordFlag.fMbp.matches flags
    let isSnapshot := RecordFlag.fSnapshot.matches flags
    let isLast := RecordFlag.fLast.matches flags
    if isSnapshot && isLast then
      -- end of a snapshot batch
      (if l.batchState ≠ .snapshotBatch then l.clear else l, true)
    else if isSnapshot then
      -- start or continue a snapshot batch
      (if l.batchState ≠ .snapshotBatch then { l.clear with batchState := .snapshotBatch }
        else l, true)
    else if isMbp && isLast then
      (if l.batchState ≠ .mbpBatch then l.clear else l, true)
    else if isMbp then
      ({ l.clear with batchState := .mbpBatch }, true)
    else
      (l.clear, true)

/-- The middle of `add` (`:181–189`): the cache entry, then the level. -/
def place (l : BookLadder) (order : BookOrder) : BookLadder :=
  let bookPrice := BookCode.toBookPrice order
  { l with
    cache := l.cache.insert order.orderId bookPrice
    levels :=
      match l.levels.get? bookPrice with
      | some level => l.levels.insert bookPrice (level.add order)
      | none => l.levels.insert bookPrice (BookLevel.fromOrder order) }

/-- The end of `add` (`:193–200`): an L1 batch keeps the best level. -/
def settleBatch (l : BookLadder) (flags : UInt8) : BookLadder :=
  let isBatch := RecordFlag.fMbp.matches flags || RecordFlag.fSnapshot.matches flags
  if l.bookType = .l1Mbp ∧ isBatch then
    let l := l.retainBestOnly
    if RecordFlag.fLast.matches flags then { l with batchState := .none } else l
  else
    l

def add (l : BookLadder) (order : BookOrder) (flags : UInt8) : BookLadder :=
  if l.bookType = .l1Mbp then
    match l.handleL1Add order flags with
    | (l, true) => (l.place order).settleBatch flags
    | (l, false) => l
  else if order.size.isPositive then
    (l.place order).settleBatch flags
  else
    l

/-- In place at the same price, otherwise out of the old level and into the new
one. -/
def update (l : BookLadder) (order : BookOrder) (flags : UInt8) : BookLadder :=
  let addIfPositive (l : BookLadder) : BookLadder :=
    if order.size.isPositive then l.add order flags else l
  match l.cache.get? order.orderId with
  | none => addIfPositive l
  | some price =>
    match l.levels.get? price with
    | none => addIfPositive l
    | some level =>
      if order.price.eq level.price.value then
        let cache := if order.size.raw = 0 then l.cache.remove order.orderId else l.cache
        { l with cache }.storeLevel price (level.update order)
      else
        let l := { l with cache := l.cache.remove order.orderId }
        addIfPositive (l.storeLevel price (level.delete order))

end

/-- The sequence and the timestamp only appear in the panic message. -/
def removeOrder (orderId : OrderId) : Option BookLadder :=
  match l.cache.get? orderId with
  | none => some l
  | some price =>
    match l.levels.get? price with
    | none => some l
    | some level =>
      if level.orders.containsKey orderId then do
        let level ← level.removeById orderId
        some ({ l with cache := l.cache.remove orderId }.storeLevel price level)
      else
        some l

def delete (order : BookOrder) : Option BookLadder :=
  l.removeOrder order.orderId

def removeLevel (price : BookPrice) : BookLadder × Option BookLevel :=
  match l.levels.get? price with
  | some level =>
    ({ l with
        levels := l.levels.remove price
        cache := level.orders.keys.foldl (fun cache orderId => cache.remove orderId) l.cache },
      some level)
  | none => (l, none)

end BookLadder

end Nautilus
