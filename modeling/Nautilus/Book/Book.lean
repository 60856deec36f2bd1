import Nautilus.Book.Ladder
import Nautilus.Lib.Run

/-!
# The order book

`OrderBook` (`orderbook/book.rs`): two ladders, the instrument, and the high-water marks of
sequence and timestamp. `BookOp` lists the entry points that change it, so a reachable book is a
value of `runs step`.

A panic is `none`; a fallible function returns the book it leaves and its result (`Outcome`).
-/

namespace Nautilus

open Lib BookLevel

def u64Max : Nat := 2 ^ 64 - 1

/-- `orderbook/error.rs:35`: the variants the book returns. -/
inductive BookIntegrityError where
  | noOrderSide
  | orderNotFoundForSideResolution (orderId : OrderId)
  | instrumentMismatch (book delta : InstrumentId)
deriving DecidableEq

/-- `error.rs:25`: the variant the book returns. -/
inductive InvalidBookOperation where
  | update (bookType : BookType)
deriving DecidableEq

structure OrderBook where
  instrumentId : InstrumentId
  bookType : BookType
  sequence : Nat
  tsLast : UnixNanos
  updateCount : Nat
  bids : BookLadder
  asks : BookLadder

namespace OrderBook

def new (instrumentId : InstrumentId) (bookType : BookType) : OrderBook :=
  { instrumentId, bookType, sequence := 0, tsLast := 0, updateCount := 0
    bids := .new .buy bookType, asks := .new .sell bookType }

variable (b : OrderBook)

def ladder : OrderSideSpecified → BookLadder
  | .buy => b.bids
  | .sell => b.asks

def setLadder (s : OrderSideSpecified) (l : BookLadder) : OrderBook :=
  match s with
  | .buy => { b with bids := l }
  | .sell => { b with asks := l }

/-- High-water marks and a saturating count. -/
def increment (sequence : Nat) (tsEvent : UnixNanos) : OrderBook :=
  { b with
    sequence := max sequence b.sequence
    tsLast := max tsEvent b.tsLast
    updateCount := min (b.updateCount + 1) u64Max }

def reset : OrderBook :=
  { b with
    bids := b.bids.clear, asks := b.asks.clear
    sequence := 0, tsLast := 0, updateCount := 0 }

def clear (sequence : Nat) (tsEvent : UnixNanos) : OrderBook :=
  { b with bids := b.bids.clear, asks := b.asks.clear }.increment sequence tsEvent

def clearBids (sequence : Nat) (tsEvent : UnixNanos) : OrderBook :=
  { b with bids := b.bids.clear }.increment sequence tsEvent

def clearAsks (sequence : Nat) (tsEvent : UnixNanos) : OrderBook :=
  { b with asks := b.asks.clear }.increment sequence tsEvent

def bestBidPrice : Option Price := b.bids.top.map fun top => top.price.value

def bestAskPrice : Option Price := b.asks.top.map fun top => top.price.value

/-- The removal loop of `clear_stale_levels`: the ladder left and the levels taken. -/
def removeLevels (l : BookLadder) : List BookPrice → BookLadder × List BookLevel
  | [] => (l, [])
  | price :: prices =>
    let (l, level) := l.removeLevel price
    let (l, levels) := removeLevels l prices
    (l, level.toList ++ levels)

/-- The prices `clear_stale_levels` collects (`:172–232`), bids and asks: none on an L1, a
one-sided or an uncrossed book. The scans stop at the first price that is not crossed. -/
def stalePrices (side : Option OrderSide) : List BookPrice × List BookPrice :=
  if b.bookType = .l1Mbp then
    ([], [])
  else
    match b.bestBidPrice, b.bestAskPrice with
    | some bestBid, some bestAsk =>
      if bestBid.raw ≤ bestAsk.raw then
        ([], [])
      else
        let clearBids := side ≠ some .sell
        let clearAsks := side ≠ some .buy
        (if clearBids then b.bids.levels.keys.takeWhile fun bp => bp.value.raw ≥ bestAsk.raw
          else [],
        if clearAsks then b.asks.levels.keys.takeWhile fun bp => bp.value.raw ≤ bestBid.raw
          else [])
    | _, _ => ([], [])

def clearStaleLevels (side : Option OrderSide) : OrderBook × Option (List BookLevel) :=
  let (bidPrices, askPrices) := b.stalePrices side
  if askPrices.isEmpty && bidPrices.isEmpty then
    (b, none)
  else
    let (bids, removedBids) := removeLevels b.bids bidPrices
    let (asks, removedAsks) := removeLevels b.asks askPrices
    let removedLevels := removedBids ++ removedAsks
    ({ b with bids, asks }.increment b.sequence b.tsLast,
      if removedLevels.isEmpty then none else some removedLevels)

/-- The side of the cached price, bids first. -/
def resolveNoSideOrder (order : BookOrder) : Except BookIntegrityError BookOrder :=
  match (b.bids.cache.get? order.orderId).or (b.asks.cache.get? order.orderId) with
  | some bookPrice => .ok { order with side := bookPrice.side.asOrderSide }
  | none => .error (.orderNotFoundForSideResolution order.orderId)

section

variable [Build] [BookCode] (b : OrderBook) (order : BookOrder)

def add (flags : UInt8) (sequence : Nat) (tsEvent : UnixNanos) : Option OrderBook := do
  let order := preProcessOrder b.bookType order flags
  let s ← order.side.asSpecified
  some ((b.setLadder s ((b.ladder s).add order flags)).increment sequence tsEvent)

def update (flags : UInt8) (sequence : Nat) (tsEvent : UnixNanos) : Option OrderBook := do
  let order := preProcessOrder b.bookType order flags
  let s ← order.side.asSpecified
  some ((b.setLadder s ((b.ladder s).update order flags)).increment sequence tsEvent)

def delete (flags : UInt8) (sequence : Nat) (tsEvent : UnixNanos) : Option OrderBook := do
  let order := preProcessOrder b.bookType order flags
  let s ← order.side.asSpecified
  let l ← (b.ladder s).delete order
  some ((b.setLadder s l).increment sequence tsEvent)

variable (delta : OrderBookDelta)

/-- The dispatch on the action in `apply_delta_unchecked`. -/
def applyAction (order : BookOrder) : Option OrderBook :=
  match delta.action with
  | .add => b.add order delta.flags delta.sequence delta.tsEvent
  | .update => b.update order delta.flags delta.sequence delta.tsEvent
  | .delete => b.delete order delta.flags delta.sequence delta.tsEvent
  | .clear => some (b.clear delta.sequence delta.tsEvent)

/-- The end of `apply_delta_unchecked` (`:339–353`), once the order has its
side. -/
def dispatchDelta (order : BookOrder) : Outcome BookIntegrityError OrderBook :=
  if order.side = .noOrderSide ∧ delta.action ≠ .clear then
    some (b, .error .noOrderSide)
  else
    (b.applyAction delta order).map fun b => (b, .ok ())

def applyDeltaUnchecked : Outcome BookIntegrityError OrderBook :=
  if delta.order.side = .noOrderSide ∧ delta.order.orderId ≠ 0 then
    match b.resolveNoSideOrder delta.order with
    | .ok order => b.dispatchDelta delta order
    | .error (.orderNotFoundForSideResolution _) =>
      match delta.action with
      | .add => some (b, .error .noOrderSide)
      | .update | .delete => some (b, .ok ()) -- already consistent
      | .clear => b.dispatchDelta delta delta.order
    | .error e => some (b, .error e)
  else
    b.dispatchDelta delta delta.order

def applyDelta : Outcome BookIntegrityError OrderBook :=
  if delta.instrumentId ≠ b.instrumentId then
    some (b, .error (.instrumentMismatch b.instrumentId delta.instrumentId))
  else
    b.applyDeltaUnchecked delta

/-- The loop of `apply_deltas_unchecked`: `?` stops at the first
error. -/
def applyDeltasUnchecked (b : OrderBook) :
    List OrderBookDelta → Outcome BookIntegrityError OrderBook
  | [] => some (b, .ok ())
  | delta :: deltas =>
    match b.applyDeltaUnchecked delta with
    | some (b, .ok ()) => applyDeltasUnchecked b deltas
    | failed => failed

def applyDeltas (deltas : OrderBookDeltas) : Outcome BookIntegrityError OrderBook :=
  if deltas.instrumentId ≠ b.instrumentId then
    some (b, .error (.instrumentMismatch b.instrumentId deltas.instrumentId))
  else
    b.applyDeltasUnchecked deltas.deltas

/-- One side of `apply_depth_unchecked` (`:490–534`), without padding and orders of the wrong
side. -/
def addDepthSide (bookType : BookType) (side : OrderSide) (flags : UInt8) (l : BookLadder)
    (orders : List BookOrder) : BookLadder :=
  orders.foldl (fun l order =>
    if order.side = .noOrderSide ∨ !order.size.isPositive then l
    else if order.side ≠ side then l
    else l.add (preProcessOrder bookType order flags) flags) l

def applyDepthUnchecked (depth : OrderBookDepth10) : OrderBook :=
  { b with
    bids := addDepthSide b.bookType .buy depth.flags b.bids.clear depth.bids
    asks := addDepthSide b.bookType .sell depth.flags b.asks.clear depth.asks }.increment
      depth.sequence depth.tsEvent

def applyDepth (depth : OrderBookDepth10) : OrderBook × Except BookIntegrityError Unit :=
  if depth.instrumentId ≠ b.instrumentId then
    (b, .error (.instrumentMismatch b.instrumentId depth.instrumentId))
  else
    (b.applyDepthUnchecked depth, .ok ())

/-- `update_book_bid`, `update_book_ask` (`:1138, 1147`): the tick's order replaces the top
order. -/
def updateTop (l : BookLadder) (order : BookOrder) : Option BookLadder := do
  let l ← match l.top.bind BookLevel.first with
    | some topOrder => l.removeOrder topOrder.orderId
    | none => some l
  some (l.add order 0)

/-- The common end of the two tick updates: both sides, then the sequence. -/
def updateBothTops (bid ask : BookOrder) (tsEvent : UnixNanos) : Option OrderBook := do
  let bids ← updateTop b.bids bid
  let asks ← updateTop b.asks ask
  some ({ b with bids, asks }.increment (min (b.sequence + 1) u64Max) tsEvent)

def updateQuoteTick (quote : QuoteTick) : Outcome InvalidBookOperation OrderBook :=
  if b.bookType ≠ .l1Mbp then
    some (b, .error (.update b.bookType))
  else if quote.tsEvent < b.tsLast then
    some (b, .ok ())
  else
    let bid := ⟨.buy, quote.bidPrice, quote.bidSize, OrderSide.buy.toUInt64⟩
    let ask := ⟨.sell, quote.askPrice, quote.askSize, OrderSide.sell.toUInt64⟩
    (b.updateBothTops bid ask quote.tsEvent).map fun b => (b, .ok ())

def updateTradeTick (trade : TradeTick) : Outcome InvalidBookOperation OrderBook :=
  if b.bookType ≠ .l1Mbp then
    some (b, .error (.update b.bookType))
  else if trade.tsEvent < b.tsLast then
    some (b, .ok ())
  else
    let bid := ⟨.buy, trade.price, trade.size, OrderSide.buy.toUInt64⟩
    let ask := ⟨.sell, trade.price, trade.size, OrderSide.sell.toUInt64⟩
    (b.updateBothTops bid ask trade.tsEvent).map fun b => (b, .ok ())

/-- The loops of `to_deltas` over the orders (`:417–456`); the last order carries `F_LAST`.
-/
def addDeltas [DeltaCode] (b : OrderBook) (totalOrders : Nat) (tsEvent tsInit : UnixNanos) :
    Nat → List BookOrder → Option (List OrderBookDelta)
  | _, [] => some []
  | orderCount, order :: orders => do
    let orderCount := orderCount + 1
    let flags :=
      if orderCount = totalOrders then
        RecordFlag.fSnapshot.toUInt8 ||| RecordFlag.fLast.toUInt8
      else
        RecordFlag.fSnapshot.toUInt8
    let delta ← DeltaCode.newDelta b.instrumentId .add order flags b.sequence tsEvent tsInit
    let deltas ← addDeltas b totalOrders tsEvent tsInit orderCount orders
    some (delta :: deltas)

/-- A clear, then every order, bids first. -/
def toDeltas [DeltaCode] (tsEvent tsInit : UnixNanos) : Option OrderBookDeltas := do
  let totalOrders :=
    (b.bids.levels.values.map BookLevel.len).sum + (b.asks.levels.values.map BookLevel.len).sum
  let clear := DeltaCode.clearDelta b.instrumentId b.sequence tsEvent tsInit
  let clear :=
    if totalOrders = 0 then { clear with flags := clear.flags ||| RecordFlag.fLast.toUInt8 }
    else clear
  let deltas ← b.addDeltas totalOrders tsEvent tsInit 0 (b.bids.orders ++ b.asks.orders)
  DeltaCode.newDeltas b.instrumentId (clear :: deltas)

end

end OrderBook

/-! ## Runs -/

/-- One call of a mutating method. -/
inductive BookOp where
  | add (order : BookOrder) (flags : UInt8) (sequence : Nat) (tsEvent : UnixNanos)
  | update (order : BookOrder) (flags : UInt8) (sequence : Nat) (tsEvent : UnixNanos)
  | delete (order : BookOrder) (flags : UInt8) (sequence : Nat) (tsEvent : UnixNanos)
  | clear (sequence : Nat) (tsEvent : UnixNanos)
  | clearBids (sequence : Nat) (tsEvent : UnixNanos)
  | clearAsks (sequence : Nat) (tsEvent : UnixNanos)
  | clearStaleLevels (side : Option OrderSide)
  | applyDelta (delta : OrderBookDelta)
  | applyDeltaUnchecked (delta : OrderBookDelta)
  | applyDepth (depth : OrderBookDepth10)
  | applyDepthUnchecked (depth : OrderBookDepth10)
  | updateQuoteTick (quote : QuoteTick)
  | updateTradeTick (trade : TradeTick)
  | reset

namespace OrderBook

variable [Build] [BookCode]

/-- The book after one call, whatever it returned; `none` if it panicked. -/
def step (b : OrderBook) : BookOp → Option OrderBook
  | .add order flags sequence tsEvent => b.add order flags sequence tsEvent
  | .update order flags sequence tsEvent => b.update order flags sequence tsEvent
  | .delete order flags sequence tsEvent => b.delete order flags sequence tsEvent
  | .clear sequence tsEvent => some (b.clear sequence tsEvent)
  | .clearBids sequence tsEvent => some (b.clearBids sequence tsEvent)
  | .clearAsks sequence tsEvent => some (b.clearAsks sequence tsEvent)
  | .clearStaleLevels side => some (b.clearStaleLevels side).1
  | .applyDelta delta => (b.applyDelta delta).map Prod.fst
  | .applyDeltaUnchecked delta => (b.applyDeltaUnchecked delta).map Prod.fst
  | .applyDepth depth => some (b.applyDepth depth).1
  | .applyDepthUnchecked depth => some (b.applyDepthUnchecked depth)
  | .updateQuoteTick quote => (b.updateQuoteTick quote).map Prod.fst
  | .updateTradeTick trade => (b.updateTradeTick trade).map Prod.fst
  | .reset => some b.reset

end OrderBook

end Nautilus
