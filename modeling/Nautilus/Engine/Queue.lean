import Nautilus.Engine.Fills

/-!
# Liquidity consumption and queue positions

Two ways to be less generous than the book. With `liquidity_consumption` the engine remembers how
much of each displayed level was taken since it last changed. With `queue_position` it estimates how
much is queued ahead of each resting order: in `queue_ahead` with the price it was taken at, or in
`queue_pending` while an L1 book does not show that price. Trades that clear a queue leave an excess
that may be filled.
-/

namespace Nautilus

open Lib Acting

/-- The side and the leaves of a cached order that is not closed. -/
def Cache.liveOrder (cache : Cache) (clientOrderId : ClientOrderId) : Option (OrderSide × Nat) :=
  ((cache.orders.get? clientOrderId).filter fun o => !o.isClosed).map fun o =>
    (o.orderSide, o.leavesQty.raw)

namespace EngineM

variable [Build] [BookCode] (env : EngineEnv)

/-! ## Consumption -/

/-- The entry of a level: fresh, or restarted when the displayed size has changed. -/
def consumptionEntry (consumption : IndexMap Int (Nat × Nat)) (priceRaw : Int) (levelSize : Nat) :
    Nat × Nat :=
  match consumption.get? priceRaw with
  | none => (levelSize, 0)
  | some (originalSize, consumed) =>
    if originalSize ≠ levelSize then (levelSize, 0) else (originalSize, consumed)

/-- The loop of `apply_liquidity_consumption`. The prices in front are the
book's, where they differ from those of the fills. -/
def consume (book : OrderBook) (side : OrderSide) :
    IndexMap Int (Nat × Nat) → Nat → List (Price × Price × Quantity) →
      Option (IndexMap Int (Nat × Nat) × List (Price × Quantity))
  | consumption, _, [] => some (consumption, [])
  | consumption, remainingQty, (bookPrice, price, qty) :: fills =>
    if remainingQty = 0 then some (consumption, [])
    else do
      let levelSize ← book.getQuantityAtLevel bookPrice side qty.precision
      let entry := consumptionEntry consumption bookPrice.raw levelSize.raw
      let adjusted := min (min qty.raw (entry.1 - entry.2)) remainingQty
      let consumption := consumption.insert bookPrice.raw (entry.1, entry.2 + adjusted)
      if adjusted = 0 then consume book side consumption remainingQty fills
      else do
        let adjustedQty ← Quantity.fromRaw adjusted qty.precision
        let (consumption, rest) ← consume book side consumption (remainingQty - adjusted) fills
        return (consumption, (price, adjustedQty) :: rest)

def applyLiquidityConsumption (fills : List (Price × Quantity)) (side : OrderSide)
    (leavesQty : Quantity) (bookPrices : List Price) : EngineM env (List (Price × Quantity)) := do
  let w ← read
  let priced := fills.zipIdx.map fun (fill, i) => (bookPrices.getD i fill.1, fill)
  if !env.config.liquidityConsumption then return fills
  else
    match side with
    | .noOrderSide => return fills
    | .buy => do
      let (consumption, granted) ← Acting.ofOption
        (consume w.engine.book side w.engine.askConsumption leavesQty.raw priced)
      modifyData fun d => { d with askConsumption := consumption }
      return granted
    | .sell => do
      let (consumption, granted) ← Acting.ofOption
        (consume w.engine.book side w.engine.bidConsumption leavesQty.raw priced)
      modifyData fun d => { d with bidConsumption := consumption }
      return granted

/-- The loop of `seed_trade_consumption`. -/
def seed : IndexMap Int (Nat × Nat) → Nat → List BookLevel → IndexMap Int (Nat × Nat)
  | consumption, _, [] => consumption
  | consumption, remaining, level :: levels =>
    if remaining = 0 then consumption
    else
      let entry := consumptionEntry consumption level.price.value.raw level.sizeRaw
      let taken := min remaining (level.sizeRaw - entry.2)
      seed (consumption.insert level.price.value.raw (entry.1, entry.2 + taken))
        (remaining - taken) levels

def seedTradeConsumption {env : EngineEnv} (tradePriceRaw : Int) (tradeSizeRaw : Nat)
    (tsEvent : UnixNanos) (aggressorSide : AggressorSide) : EngineM env Unit := do
  let w ← read
  let book := w.engine.book
  if tradeSizeRaw = 0 ∨ tsEvent < book.tsLast then pure ()
  else
    match aggressorSide with
    | .noAggressor => pure ()
    | .buyer =>
      let levels := book.asks.levels.values.takeWhile fun l => l.price.value.raw ≤ tradePriceRaw
      modifyData fun d => { d with askConsumption := seed d.askConsumption tradeSizeRaw levels }
    | .seller =>
      let levels := book.bids.levels.values.takeWhile fun l => tradePriceRaw ≤ l.price.value.raw
      modifyData fun d => { d with bidConsumption := seed d.bidConsumption tradeSizeRaw levels }

/-! ## Queue positions -/

def oppositeSide : OrderSide → OrderSide
  | .buy => .sell
  | .sell => .buy
  | .noOrderSide => .noOrderSide

/-- A price behind the best price of its own side. -/
def isBehindBbo (book : OrderBook) (side : OrderSide) (price : Price) : Bool :=
  match side with
  | .buy => book.bestBidPrice.any fun bid => price.raw < bid.raw
  | .sell => book.bestAskPrice.any fun ask => ask.raw < price.raw
  | .noOrderSide => false

def snapshotQueuePosition (order : EngineOrder) (price : Price) : EngineM env Unit :=
  if !env.config.queuePosition then pure ()
  else do
    let w ← read
    let book := w.engine.book
    let qtyAhead ← Acting.ofOption
      (book.getQuantityAtLevel price (oppositeSide order.orderSide) env.instrument.sizePrecision)
    let id := order.clientOrderId
    modifyData fun d =>
      { d with queuePending := d.queuePending.remove id, queueAhead := d.queueAhead.remove id }
    if env.bookType = .l1Mbp ∧ qtyAhead.raw = 0 ∧ isBehindBbo book order.orderSide price then
      modifyData fun d => { d with queuePending := d.queuePending.insert id price.raw }
    else
      modifyData fun d =>
        { d with queueAhead := d.queueAhead.insert id (price.raw, qtyAhead.raw) }

/-- The orders a trade decrements: at its price, hit by it, with something
ahead. -/
def isHit (aggressorSide : AggressorSide) (side : OrderSide) : Bool :=
  match aggressorSide, side with
  | .noAggressor, _ | .buyer, .sell | .seller, .buy => true
  | _, _ => false

/-- What `decrement_queue_on_trade` keeps while it goes through the queue. -/
structure QueueBudget where
  queueAhead : IndexMap ClientOrderId (Int × Nat)
  queueExcess : IndexMap ClientOrderId Nat
  remaining : Nat
  prevPosition : Nat

/-- One order of the queue. -/
def QueueBudget.take (priceRaw : Int) (tradeSizeRaw : Nat) (b : QueueBudget)
    (entry : ClientOrderId × Nat × Nat) : QueueBudget :=
  let (id, aheadRaw, leavesRaw) := entry
  let newAhead := aheadRaw - tradeSizeRaw
  let gap := aheadRaw - b.prevPosition
  let queueConsumed := min b.remaining gap
  let remaining := b.remaining - queueConsumed
  if b.remaining = 0 then
    { b with
      queueAhead := b.queueAhead.insert id (priceRaw, newAhead)
      queueExcess := if newAhead = 0 then b.queueExcess.insert id 0 else b.queueExcess }
  else if remaining = 0 ∧ queueConsumed < gap then
    { b with queueAhead := b.queueAhead.insert id (priceRaw, newAhead), remaining }
  else
    let excess := min remaining leavesRaw
    { queueAhead := b.queueAhead.insert id (priceRaw, 0)
      queueExcess := b.queueExcess.insert id excess
      remaining := remaining - excess
      prevPosition := aheadRaw + excess }

/-- The entries at the traded price, earliest first; the sort is stable. -/
def queueEntries (cache : Cache) (queueAhead : IndexMap ClientOrderId (Int × Nat))
    (priceRaw : Int) (aggressorSide : AggressorSide) : List (ClientOrderId × Nat × Nat) :=
  let entries := queueAhead.entries.filterMap fun (id, orderPriceRaw, aheadRaw) =>
    (cache.liveOrder id).bind fun (side, leavesRaw) =>
      if orderPriceRaw = priceRaw ∧ aheadRaw ≠ 0 ∧ isHit aggressorSide side then
        some (id, aheadRaw, leavesRaw)
      else none
  entries.insertionSort fun a b => a.2.1 ≤ b.2.1

def decrementQueueOnTrade (priceRaw : Int) (tradeSizeRaw : Nat) (aggressorSide : AggressorSide) :
    EngineM env Unit :=
  if !env.config.queuePosition then pure ()
  else do
    let w ← read
    modifyData fun d =>
      let entries := queueEntries w.cache d.queueAhead priceRaw aggressorSide
      let live := d.queueAhead.retain fun id _ => (w.cache.liveOrder id).isSome
      let b := entries.foldl (QueueBudget.take priceRaw tradeSizeRaw)
        ⟨live, .empty, tradeSizeRaw, 0⟩
      { d with queueAhead := b.queueAhead, queueExcess := b.queueExcess }

def determineTradeFillQty (order : EngineOrder) (w : World) : Option Nat :=
  let e := w.engine
  let id := order.clientOrderId
  let leavesRaw := order.leavesQty.raw
  let blocked := (e.queueAhead.get? id).any fun (priceRaw, aheadRaw) =>
    order.price.any (fun p => p.raw = priceRaw) && aheadRaw > 0
  let excess := e.lastTradeSize.bind fun _ => e.queueExcess.get? id
  let available :=
    match e.lastTradeSize with
    | none => leavesRaw
    | some tradeSize =>
      let capped := min leavesRaw (tradeSize.raw - e.tradeConsumption)
      (e.queueExcess.get? id).elim capped (min capped)
  if !env.config.queuePosition then some leavesRaw
  else if e.queuePending.containsKey id || blocked || leavesRaw = 0 || excess = some 0 ||
      available = 0 then none
  else some available

def clearAllQueuePositions {env : EngineEnv} : EngineM env Unit :=
  modifyData fun d =>
    { d with queueAhead := d.queueAhead.filterMap fun _ (priceRaw, _) => some (priceRaw, 0) }

def clearQueueOnDelete {env : EngineEnv} (deletedPriceRaw : Int) (deletedSide : OrderSide) :
    EngineM env Unit := do
  let w ← read
  modifyData fun d =>
    { d with
      queueAhead := d.queueAhead.filterMap fun id (priceRaw, aheadRaw) =>
        let deleted := priceRaw = deletedPriceRaw ∧
          (w.cache.orders.get? id).any fun o => o.orderSide = deletedSide
        some (priceRaw, if deleted then 0 else aheadRaw) }

/-- An entry above the new size whose order is gone leaves. -/
def capQueueAhead {env : EngineEnv} (priceRaw : Int) (sizeRaw : Nat) (side : OrderSide) :
    EngineM env Unit := do
  let w ← read
  modifyData fun d =>
    { d with
      queueAhead := d.queueAhead.filterMap fun id (orderPriceRaw, aheadRaw) =>
        if orderPriceRaw ≠ priceRaw ∨ aheadRaw ≤ sizeRaw then some (orderPriceRaw, aheadRaw)
        else (w.cache.liveOrder id).map fun live =>
          (orderPriceRaw, if live.1 = side then sizeRaw else aheadRaw) }

def seedTobBaseline {env : EngineEnv} : EngineM env Unit := do
  let w ← read
  let book := w.engine.book
  modifyData fun d =>
    { d with
      prevBidPriceRaw := book.bestBidPrice.elim 0 fun p => p.raw
      prevBidSizeRaw := book.bestBidSize.elim 0 fun q => q.raw
      prevAskPriceRaw := book.bestAskPrice.elim 0 fun p => p.raw
      prevAskSizeRaw := book.bestAskSize.elim 0 fun q => q.raw
      tobInitialized := book.bestBidPrice.isSome || book.bestAskPrice.isSome }

/-- The loop over `queue_pending` of three methods: an entry whose order is gone leaves, and one
that is `resolved` moves to `queue_ahead` with the size it is resolved to. -/
def resolvePending {env : EngineEnv} (resolved : OrderSide → Int → Option Nat) :
    EngineM env Unit := do
  let w ← read
  let size id priceRaw := (w.cache.liveOrder id).bind fun live => resolved live.1 priceRaw
  modifyData fun d =>
    { d with
      queuePending := d.queuePending.retain fun id priceRaw =>
        (w.cache.liveOrder id).isSome && (size id priceRaw).isNone
      queueAhead := d.queuePending.entries.foldl
        (fun ahead (id, priceRaw) =>
          (size id priceRaw).elim ahead fun sizeRaw => ahead.insert id (priceRaw, sizeRaw))
        d.queueAhead }

/-- The market left the price behind. -/
def isCrossed (side : OrderSide) (orderPriceRaw newPriceRaw : Int) : Bool :=
  match side with
  | .buy => newPriceRaw < orderPriceRaw
  | _ => orderPriceRaw < newPriceRaw

def adjustL1QueueOnPriceMove {env : EngineEnv} (newPriceRaw : Int) (newSizeRaw : Nat)
    (side : OrderSide) :
    EngineM env Unit := do
  let w ← read
  modifyData fun d =>
    { d with
      queueAhead := d.queueAhead.filterMap fun id (priceRaw, aheadRaw) =>
        (w.cache.liveOrder id).map fun live =>
          if live.1 ≠ side then (priceRaw, aheadRaw)
          else if isCrossed side priceRaw newPriceRaw then (priceRaw, 0)
          else if priceRaw = newPriceRaw ∧ newSizeRaw < aheadRaw then (priceRaw, newSizeRaw)
          else (priceRaw, aheadRaw) }
  resolvePending fun orderSide priceRaw =>
    if orderSide ≠ side then none
    else if isCrossed side priceRaw newPriceRaw then some 0
    else if priceRaw = newPriceRaw then some newSizeRaw
    else none

variable (bidPriceRaw : Int) (bidSizeRaw : Nat)

def resolvePendingL1Snapshots {env : EngineEnv} (askPriceRaw : Int)
    (askSizeRaw : Nat) : EngineM env Unit :=
  resolvePending fun side priceRaw =>
    match side with
    | .buy => if priceRaw = bidPriceRaw then some bidSizeRaw else none
    | .sell => if priceRaw = askPriceRaw then some askSizeRaw else none
    | .noOrderSide => none

def resolvePendingOnTrade {env : EngineEnv} (tradePriceRaw : Int) : EngineM env Unit :=
  resolvePending fun side priceRaw =>
    match side with
    | .buy => if tradePriceRaw < priceRaw then some 0 else none
    | .sell => if priceRaw < tradePriceRaw then some 0 else none
    | .noOrderSide => none

/-- A bid that fell and an ask that rose against the last top of the book. -/
def adjustL1Queue {env : EngineEnv} (askPriceRaw : Int) (askSizeRaw : Nat) : EngineM env Unit := do
  let w ← read
  if w.engine.tobInitialized then do
    (if bidPriceRaw < w.engine.prevBidPriceRaw then
      adjustL1QueueOnPriceMove bidPriceRaw bidSizeRaw .buy else pure ())
    (if w.engine.prevAskPriceRaw < askPriceRaw then
      adjustL1QueueOnPriceMove askPriceRaw askSizeRaw .sell else pure ())
  else pure ()

/-- The new top of the book. -/
def setTobBaseline {env : EngineEnv} (askPriceRaw : Int) (askSizeRaw : Nat) : EngineM env Unit :=
  modifyData fun d =>
    { d with
      prevBidPriceRaw := bidPriceRaw
      prevBidSizeRaw := bidSizeRaw
      prevAskPriceRaw := askPriceRaw
      prevAskSizeRaw := askSizeRaw
      tobInitialized := true }

/-- `decrement_l1_queue_on_quote` and the lines that follow its call. -/
def decrementL1QueueOnQuote (askPriceRaw : Int) (askSizeRaw : Nat) : EngineM env Unit :=
  if !env.config.queuePosition then pure ()
  else do
    adjustL1Queue bidPriceRaw bidSizeRaw askPriceRaw askSizeRaw
    resolvePendingL1Snapshots bidPriceRaw bidSizeRaw askPriceRaw askSizeRaw
    setTobBaseline bidPriceRaw bidSizeRaw askPriceRaw askSizeRaw

end EngineM

end Nautilus
