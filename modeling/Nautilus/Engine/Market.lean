import Nautilus.Engine.Iterate

/-!
# Market data

Deltas, depths, quotes, trades, bars, the status of the market and the close of the instrument. Each
is checked, changes the book or the prices of the core, and ends in `iterate`.

A bar becomes the four quotes or trades of its open, high, low and close. Quote bars come in pairs,
so the last bid bar and the last ask bar are kept until both are there.
-/

namespace Nautilus

open Lib Option IndexMap Quantity Acting

variable {w : World} {barType : BarType}

/-! ## Data and its checks -/

structure EngineQuote extends QuoteTick where
  tsInit : UnixNanos
deriving DecidableEq

/-- `TradeTick` with its aggressor and its initialisation time. -/
structure EngineTrade extends TradeTick where
  aggressorSide : AggressorSide
  tsInit : UnixNanos
deriving DecidableEq

structure EngineDeltas extends OrderBookDeltas where
  tsInit : UnixNanos
deriving DecidableEq

structure EngineDepth10 extends OrderBookDepth10 where
  tsInit : UnixNanos
deriving DecidableEq

namespace EngineEnv

variable (env : EngineEnv)

def checkPricePrecision (price : Price) (field : String) : Except DataError Unit :=
  if price.precision ≠ env.instrument.pricePrecision then
    .error (.precision field price.precision env.instrument.pricePrecision)
  else .ok ()

def checkSizePrecision (size : Quantity) (field : String) : Except DataError Unit :=
  if size.precision ≠ env.instrument.sizePrecision then
    .error (.precision field size.precision env.instrument.sizePrecision)
  else .ok ()

/-- A delta that deletes or clears may have no order to check. -/
def checkDelta (delta : OrderBookDelta) : Except DataError Unit :=
  if delta.action = .add ∨ delta.action = .update then do
    env.checkPricePrecision delta.order.price "delta order price"
    env.checkSizePrecision delta.order.size "delta order size"
  else .ok ()

/-- One side of a depth; padding is not checked. -/
def checkDepthSide [Build] (side : String) (orders : List BookOrder) : Except DataError Unit :=
  orders.forM fun order =>
    if order.side = .noOrderSide ∨ !order.size.isPositive then .ok ()
    else do
      env.checkPricePrecision order.price (side ++ " price")
      env.checkSizePrecision order.size (side ++ " size")

def checkDepth [Build] (depth : OrderBookDepth10) : Except DataError Unit := do
  env.checkDepthSide "bid" depth.bids
  env.checkDepthSide "ask" depth.asks

def checkQuote (quote : QuoteTick) : Except DataError Unit := do
  env.checkPricePrecision quote.bidPrice "bid_price"
  env.checkPricePrecision quote.askPrice "ask_price"
  env.checkSizePrecision quote.bidSize "bid_size"
  env.checkSizePrecision quote.askSize "ask_size"

def checkTrade (trade : TradeTick) : Except DataError Unit := do
  env.checkPricePrecision trade.price "trade price"
  env.checkSizePrecision trade.size "trade size"

def checkBar (bar : Bar) : Except DataError Unit := do
  env.checkPricePrecision bar.open_ "bar open"
  env.checkPricePrecision bar.high "bar high"
  env.checkPricePrecision bar.low "bar low"
  env.checkPricePrecision bar.close "bar close"
  env.checkSizePrecision bar.volume "bar volume"

end EngineEnv

namespace EngineM

variable [Build] [BookCode] (env : EngineEnv) (handlers : Handlers env)

/-! ## The book -/

/-- The queues follow the deltas (`:1176-1195, 1229-1250`): a snapshot or a clear leaves
nothing ahead of anyone and ends the loop. -/
def followDeltas {env : EngineEnv} : List OrderBookDelta → EngineM env Unit
  | [] => pure ()
  | delta :: deltas =>
    if delta.flags &&& 32 != 0 || delta.action = .clear then do
      clearAllQueuePositions
      seedTobBaseline
    else do
      (match delta.action with
      | .delete => clearQueueOnDelete delta.order.price.raw delta.order.side
      | .update => capQueueAhead delta.order.price.raw delta.order.size.raw delta.order.side
      | _ => pure ())
      followDeltas deltas

/-- The two methods for deltas: an L1 book **ignores** them. -/
def processDeltas (check : Except DataError Unit) (call : BookCall)
    (deltas : List OrderBookDelta) (tsInit : UnixNanos) : EngineM env (Except DataError Unit) :=
  match check with
  | .error e => return .error e
  | .ok () =>
    if env.bookType = .l1Mbp then do
      iterate env handlers tsInit .noAggressor
      return .ok ()
    else do
      let result ← onBook call
      match result with
      | .error e => return .error e
      | .ok () => do
        (if env.config.queuePosition then followDeltas deltas else pure ())
        iterate env handlers tsInit .noAggressor
        return .ok ()

def processOrderBookDelta (delta : OrderBookDelta) : EngineM env (Except DataError Unit) :=
  processDeltas env handlers (env.checkDelta delta) (.applyDelta delta) [delta] delta.tsInit

def processOrderBookDeltas (deltas : EngineDeltas) : EngineM env (Except DataError Unit) :=
  processDeltas env handlers (deltas.deltas.forM env.checkDelta)
    (.applyDeltas deltas.toOrderBookDeltas) deltas.deltas deltas.tsInit

/-- The book takes the depth, an L1 book only its top. -/
def takeDepth (depth : OrderBookDepth10) (bid ask : BookOrder) :
    EngineM env (Except DataError Unit) :=
  if env.bookType = .l1Mbp then do
    let quote : QuoteTick := ⟨bid.price, ask.price, bid.size, ask.size, depth.tsEvent⟩
    if !env.acceptsQuote quote then Acting.panics
    else do
      let result ← onBook (.updateQuoteTick quote)
      match result with
      | .error e => return .error e
      | .ok () => do
        modifyData fun d =>
          { d with lastQuoteBid := some bid.price, lastQuoteAsk := some ask.price }
        return .ok ()
  else onBook (.applyDepth depth)

/-- The arrays have a first place. -/
def processOrderBookDepth10 (depth : EngineDepth10) : EngineM env (Except DataError Unit) :=
  match env.checkDepth depth.toOrderBookDepth10 with
  | .error e => return .error e
  | .ok () => do
    let bid ← Acting.ofOption depth.bids.head?
    let ask ← Acting.ofOption depth.asks.head?
    let result ← takeDepth env depth.toOrderBookDepth10 bid ask
    match result with
    | .error e => return .error e
    | .ok () => do
      (if env.config.queuePosition then do
        clearAllQueuePositions
        decrementL1QueueOnQuote env bid.price.raw bid.size.raw ask.price.raw ask.size.raw
      else pure ())
      iterate env handlers depth.tsInit .noAggressor
      return .ok ()

/-! ## Ticks -/

/-- A saturating count of 32 bits. -/
def logPrecisionMismatch {env : EngineEnv} : EngineM env Unit :=
  modifyData fun d =>
    { d with precisionMismatchStreak := min (d.precisionMismatchStreak + 1) (2 ^ 32 - 1) }

/-- Data that passes the check ends the streak of mismatches; other data is skipped. -/
def ifPrecise {env : EngineEnv} (check : Except DataError Unit) (process : EngineM env Unit) :
    EngineM env Unit :=
  match check with
  | .error _ => logPrecisionMismatch
  | .ok () => do
    modifyData fun d => { d with precisionMismatchStreak := 0 }
    process

/-- A quote for an L1 book that is not stale. -/
def takeQuote (quote : EngineQuote) : EngineM env Unit := do
  let result ← onBook (.updateQuoteTick quote.toQuoteTick)
  match result with
  | .error _ => pure ()
  | .ok () => do
    decrementL1QueueOnQuote env quote.bidPrice.raw quote.bidSize.raw quote.askPrice.raw
      quote.askSize.raw
    modifyData fun d =>
      { d with lastQuoteBid := some quote.bidPrice, lastQuoteAsk := some quote.askPrice }
    iterate env handlers quote.tsInit .noAggressor

def processQuoteTick (quote : EngineQuote) : EngineM env Unit :=
  ifPrecise (env.checkQuote quote.toQuoteTick) do
    let w ← read
    if env.bookType = .l1Mbp ∧ w.engine.book.tsLast ≤ quote.tsEvent then
      takeQuote env handlers quote
    else iterate env handlers quote.tsInit .noAggressor

variable (aggressorSide : AggressorSide)

/-- The prices a trade leaves at least. -/
def widened (price : Price) (bid ask : Option Price) : Option Price × Option Price :=
  match aggressorSide with
  | .buyer =>
    (bid.or (some price), if ask.all (fun a => a.raw < price.raw) then some price else ask)
  | .seller =>
    (if bid.all (fun b => price.raw < b.raw) then some price else bid, ask.or (some price))
  | .noAggressor =>
    (if bid.all (fun b => price.raw ≤ b.raw) then some price else bid,
      if ask.all (fun a => a.raw ≤ price.raw) then some price else ask)

/-- The prices orders are matched at while a trade is processed. -/
def overridden (price : Price) (bid ask : Option Price) : Option Price × Option Price :=
  match aggressorSide with
  | .seller => (bid, if ask.any (fun a => price.raw < a.raw) then some price else ask)
  | .buyer => (if bid.any (fun b => b.raw < price.raw) then some price else bid, ask)
  | .noAggressor => (some price, some price)

/-- The side that was not hit gets its price back. -/
def restoreAfterTrade (price : Price) (bid ask : Option Price) : EngineM env Unit := do
  let w ← read
  let core := w.engine.core
  let isL1 := env.bookType = .l1Mbp
  let formerBid := if isL1 then w.engine.lastQuoteBid else bid.filter fun b => b.raw < price.raw
  let formerAsk := if isL1 then w.engine.lastQuoteAsk else ask.filter fun a => price.raw < a.raw
  match aggressorSide with
  | .seller => onCore (.setPrices core.bid (formerAsk.or core.ask) core.last)
  | .buyer => onCore (.setPrices (formerBid.or core.bid) core.ask core.last)
  | .noAggressor => pure ()

variable (trade : EngineTrade)

/-- The end of `process_trade_tick`. -/
def matchTrade : EngineM env Unit := do
  let w ← read
  let core := w.engine.core
  let (bid, ask) := widened trade.aggressorSide trade.price core.bid core.ask
  let (matchBid, matchAsk) := overridden trade.aggressorSide trade.price bid ask
  onCore (.setPrices matchBid matchAsk core.last)
  modifyData fun d => { d with lastTradeSize := some trade.size, tradeConsumption := 0 }
  (if env.config.liquidityConsumption ∧ env.bookType ≠ .l1Mbp then
    seedTradeConsumption trade.price.raw trade.size.raw trade.tsEvent trade.aggressorSide
  else pure ())
  resolvePendingOnTrade trade.price.raw
  decrementQueueOnTrade env trade.price.raw trade.size.raw trade.aggressorSide
  iterate env handlers trade.tsInit trade.aggressorSide
  modifyData fun d => { d with lastTradeSize := none, tradeConsumption := 0 }
  restoreAfterTrade env trade.aggressorSide trade.price bid ask

/-- A trade the book took, or does not need. -/
def takeTrade : EngineM env Unit := do
  setLastRaw trade.price
  if env.config.tradeExecution then matchTrade env handlers trade
  else if env.bookType = .l1Mbp then syncFromBook
  else pure ()

/-- A trade for an L1 book goes through the book first. -/
def takeTradeL1 : EngineM env Unit := do
  let result ← onBook (.updateTradeTick trade.toTradeTick)
  match result with
  | .error _ => pure ()
  | .ok () => takeTrade env handlers trade

def processTradeTick : EngineM env Unit :=
  ifPrecise (env.checkTrade trade.toTradeTick) do
    let w ← read
    if env.bookType ≠ .l1Mbp then takeTrade env handlers trade
    else if trade.tsEvent < w.engine.book.tsLast then iterate env handlers trade.tsInit .noAggressor
    else takeTradeL1 env handlers trade

/-! ## Bars -/

/-- A trade of a bar: the book takes it (or the Boolean is false), the orders are matched, and it is
the last price. -/
def playTrade (trade : TradeTick) (tsInit : UnixNanos) : EngineM env Bool := do
  let result ← onBook (.updateTradeTick trade)
  match result with
  | .error _ => return false
  | .ok () => do
    iterate env handlers tsInit .noAggressor
    setLastRaw trade.price
    return true

/-- `process_bar_high`, `process_bar_low` (`:1580, 1597`) and the close: a trade at a price
the market moves through. -/
def playMove (isMove : Price → Bool) (trade : TradeTick) (tsInit : UnixNanos) : EngineM env Bool := do
  let w ← read
  if w.engine.core.last.any isMove then do
    modifyData fun d => { d with fillAtMarket := false }
    let _ ← generateTradeId env tsInit
    playTrade env handlers trade tsInit
  else return true

/-- The open of a bar is a gap after the last price. -/
def playOpen (trade : TradeTick) (tsInit : UnixNanos) : EngineM env Bool := do
  let w ← read
  if w.engine.core.last.all fun last => trade.price.raw ≠ last.raw then do
    modifyData fun d => { d with fillAtMarket := true }
    playTrade env handlers trade tsInit
  else return true

variable (bar : Bar)

/-- High and low, in either order. A refused trade ends only its own part.
-/
def playHighLow (size : Quantity) : EngineM env Unit := do
  let high := playMove env handlers (fun last => last.raw < bar.high.raw)
    ⟨bar.high, size, bar.tsInit⟩ bar.tsInit
  let low := playMove env handlers (fun last => bar.low.raw < last.raw)
    ⟨bar.low, size, bar.tsInit⟩ bar.tsInit
  if !env.config.barAdaptiveHighLowOrdering ||
      (bar.high.raw - bar.open_.raw).natAbs < (bar.low.raw - bar.open_.raw).natAbs then do
    let _ ← high
    let _ ← low
    pure ()
  else do
    let _ ← low
    let _ ← high
    pure ()

/-- A quarter of the volume each, the rest with the close. -/
def processTradeTicksFromBar : EngineM env Unit := do
  let quarter := bar.volume.raw / 4
  let size ← Acting.ofOption (Quantity.fromRaw quarter bar.volume.precision)
  let closeSize ← Acting.ofOption
    (Quantity.fromRaw (quarter + bar.volume.raw % 4) bar.volume.precision)
  let _ ← generateTradeId env bar.tsInit
  let opening : TradeTick := ⟨bar.open_, size, bar.tsInit⟩
  if !env.acceptsTrade opening then Acting.panics
  else do
    let opened ← playOpen env handlers opening bar.tsInit
    if !opened then pure ()
    else do
      playHighLow env handlers bar size
      let closed ← playMove env handlers (fun last => bar.close.raw ≠ last.raw)
        ⟨bar.close, closeSize, bar.tsInit⟩ bar.tsInit
      if closed then modifyData fun d => { d with fillAtMarket := true } else pure ()

/-- The quotes of a pair of bars, until the book refuses one. -/
def playQuotes (tsInit : UnixNanos) : Bool → List QuoteTick → EngineM env Unit
  | _, [] => do
    clearBars
    modifyData fun d => { d with fillAtMarket := true }
  | fillAtMarket, quote :: quotes => do
    modifyData fun d => { d with fillAtMarket }
    let result ← onBook (.updateQuoteTick quote)
    match result with
    | .error _ => pure ()
    | .ok () => do
      (if quotes.isEmpty then
        modifyData fun d =>
          { d with lastQuoteBid := some quote.bidPrice, lastQuoteAsk := some quote.askPrice }
      else pure ())
      iterate env handlers tsInit .noAggressor
      playQuotes tsInit false quotes

/-- The four quotes of a pair of bars. -/
def quotesOf (bidBar askBar : Bar) (precision : Nat) : Option (List QuoteTick) := do
  let bidSize ← Quantity.fromRaw (bidBar.volume.raw / 4) precision
  let askSize ← Quantity.fromRaw (askBar.volume.raw / 4) precision
  let bidCloseSize ← Quantity.fromRaw (bidBar.volume.raw / 4 + bidBar.volume.raw % 4) precision
  let askCloseSize ← Quantity.fromRaw (askBar.volume.raw / 4 + askBar.volume.raw % 4) precision
  return [⟨bidBar.open_, askBar.open_, bidSize, askSize, bidBar.tsInit⟩,
    ⟨bidBar.high, askBar.high, bidSize, askSize, bidBar.tsInit⟩,
    ⟨bidBar.low, askBar.low, bidSize, askSize, bidBar.tsInit⟩,
    ⟨bidBar.close, askBar.close, bidCloseSize, askCloseSize, bidBar.tsInit⟩]

/-- Waits for the other bar of the pair. -/
def processQuoteTicksFromBar : EngineM env Unit := do
  let w ← read
  match w.engine.lastBarBid, w.engine.lastBarAsk with
  | some bidBar, some askBar =>
    if bidBar.tsInit ≠ askBar.tsInit then pure ()
    else do
      let quotes ← Acting.ofOption (quotesOf bidBar askBar bar.volume.precision)
      if !quotes.head?.all env.acceptsQuote then Acting.panics
      else playQuotes env handlers bidBar.tsInit true quotes
  | _, _ => pure ()

/-- `execution_bar_deltas` with an entry for the bar type. -/
def knowBarType (barType : BarType) (d : EngineData) : Option EngineData :=
  if d.executionBarDeltas.containsKey barType then some d
  else
    (env.timedelta barType.step barType.aggregation).map fun delta =>
      { d with executionBarDeltas := d.executionBarDeltas.insert barType delta }

def executeBarType (barType : BarType) (d : EngineData) : EngineData :=
  { d with executionBarTypes := d.executionBarTypes.insert barType.instrumentId barType }

/-- Only the bar type with the shortest bars so far is executed: whether it
is this one, and the fields after that. -/
def selectBarType (barType : BarType) (d : EngineData) : Option (Bool × EngineData) :=
  match d.executionBarTypes.get? barType.instrumentId with
  | none =>
    (env.timedelta barType.step barType.aggregation).map fun delta =>
      let d := { d with executionBarDeltas := d.executionBarDeltas.insert barType delta }
      (true, executeBarType barType d)
  | some executed =>
    if executed = barType then some (true, d)
    else
      (knowBarType env barType d).bind fun d =>
        match d.executionBarDeltas.get? barType, d.executionBarDeltas.get? executed with
        | some delta, some executedDelta =>
          if delta ≤ executedDelta then some (true, executeBarType barType d) else some (false, d)
        | _, _ => none

/-- Quote bars are kept until both are there. -/
def storeBar (d : EngineData) : EngineData :=
  match bar.barType.priceType with
  | .bid => { d with lastBarBid := some bar }
  | .ask => { d with lastBarAsk := some bar }
  | _ => d

/-- The same world with other fields. -/
def withData (w : World) (d : EngineData) : World :=
  { w with engine := { w.engine with toEngineData := d } }

/-- A bar type with a known length is one act away from being executed. -/
theorem step_executeBarType (h : w.engine.executionBarDeltas.containsKey barType = true) :
    Act.step env w (.executeBarType barType) =
      some (withData w (executeBarType barType w.engine.toEngineData)) := if_pos h

theorem step_knowBarType {delta : Nat}
    (h : env.timedelta barType.step barType.aggregation = some delta) :
    Act.step env w (.knowBarType barType delta) =
      some (withData w
        { w.engine.toEngineData with
          executionBarDeltas := w.engine.executionBarDeltas.insert barType delta }) := if_pos h

theorem knowBarType_acts {d : EngineData}
    (h : knowBarType env barType w.engine.toEngineData = some d) :
    (∃ acts, runs (Act.step env) w acts = some (withData w d)) ∧
      d.executionBarDeltas.containsKey barType = true := by
  unfold knowBarType at h
  split at h
  · cases h
    exact ⟨⟨[], rfl⟩, ‹_›⟩
  · obtain ⟨delta, hdelta, rfl⟩ := map_eq_some_iff.mp h
    refine ⟨⟨[.knowBarType barType delta], ?_⟩, ?_⟩
    · rw [runs_cons, step_knowBarType env hdelta]
      rfl
    · exact containsKey_iff.mpr ⟨delta, get?_insert_self _ _ _⟩

/-- Selecting a bar type is a sequence of acts, and a type that is selected is executed. -/
theorem selectBarType_acts {isExecuted : Bool} {d : EngineData}
    (h : selectBarType env barType w.engine.toEngineData = some (isExecuted, d)) :
    (∃ acts, runs (Act.step env) w acts = some (withData w d)) ∧
      (isExecuted = true → d.executionBarTypes.get? barType.instrumentId = some barType) := by
  unfold selectBarType at h
  split at h
  · obtain ⟨delta, hdelta, heq⟩ := map_eq_some_iff.mp h
    cases heq
    refine ⟨⟨[.knowBarType barType delta, .executeBarType barType], ?_⟩, ?_⟩
    · have hknown : (w.engine.executionBarDeltas.insert barType delta).containsKey barType :=
        containsKey_iff.mpr ⟨delta, get?_insert_self _ _ _⟩
      rw [runs_cons, step_knowBarType env hdelta, bind_some, runs_cons,
        step_executeBarType env hknown]
      rfl
    · intro _
      exact get?_insert_self _ _ _
  · rename_i executed hexecuted
    split at h
    · rename_i heq
      cases h
      exact ⟨⟨[], rfl⟩, fun _ => heq ▸ hexecuted⟩
    obtain ⟨_, hknow, h⟩ := bind_eq_some_iff.mp h
    obtain ⟨⟨acts, hacts⟩, hknown⟩ := knowBarType_acts env hknow
    split at h
    · split at h
      · cases h
        refine ⟨⟨acts ++ [.executeBarType barType], ?_⟩, fun _ => get?_insert_self _ _ _⟩
        rw [runs_append, hacts, bind_some, runs_cons, step_executeBarType env hknown]
        rfl
      · cases h
        exact ⟨⟨acts, hacts⟩, by rintro ⟨⟩⟩
    · cases h

theorem storeBar_acts (h : env.ExecutesBars) {bar : Bar}
    (hexecuted : w.engine.executionBarTypes.get? bar.barType.instrumentId = some bar.barType) :
    ∃ acts, runs (Act.step env) w acts = some (withData w (storeBar bar w.engine.toEngineData)) := by
  have hstep : Act.step env w (.storeBar bar) =
      match bar.barType.priceType with
      | .bid => some { w with engine := { w.engine with lastBarBid := some bar } }
      | .ask => some { w with engine := { w.engine with lastBarAsk := some bar } }
      | _ => none := if_pos ⟨h, hexecuted⟩
  unfold storeBar
  cases htype : bar.barType.priceType with
  | bid | ask =>
    rw [htype] at hstep
    refine ⟨[.storeBar bar], ?_⟩
    rw [runs_cons, hstep]
    rfl
  | mid | last | mark => exact ⟨[], rfl⟩

/-- The bar, selected and stored; the Boolean says whether it is executed. -/
def admitBar (h : env.ExecutesBars) (bar : Bar) : EngineM env Bool where
  prog w :=
    (selectBarType env bar.barType w.engine.toEngineData).map fun (isExecuted, d) =>
      (isExecuted, withData w (if isExecuted then storeBar bar d else d))
  madeOf := by
    intro w isExecuted w' hw
    obtain ⟨⟨selected, d⟩, hselect, heq⟩ := Option.map_eq_some_iff.mp hw
    cases heq
    obtain ⟨⟨acts, hacts⟩, hexecuted⟩ := selectBarType_acts env hselect
    cases isExecuted with
    | false => exact ⟨acts, hacts⟩
    | true =>
      obtain ⟨acts', hacts'⟩ := storeBar_acts env h (w := withData w d) (hexecuted rfl)
      refine ⟨acts ++ acts', ?_⟩
      rw [runs_append, hacts]
      exact hacts'

/-- The end of `process_bar`. -/
def playBar : EngineM env Unit :=
  match bar.barType.priceType with
  | .last | .mid => processTradeTicksFromBar env handlers bar
  | .bid | .ask => processQuoteTicksFromBar env handlers bar
  | .mark => Acting.panics

def processBar : EngineM env Unit :=
  if h : env.ExecutesBars then
    if bar.barType.aggregationSource = .internal then pure ()
    else ifPrecise (env.checkBar bar) do
      let isExecuted ← admitBar env h bar
      if isExecuted then playBar env handlers bar else pure ()
  else pure ()

/-! ## Status and close -/

/-- `process_status`, the four tests in their order. -/
def nextStatus (status : MarketStatus) (action : MarketStatusAction) : MarketStatus :=
  let status := if status = .closed ∧ (action = .trading ∨ action = .preOpen) then .open else status
  let status := if status = .open ∧ action = .pause then .paused else status
  let status := if status = .open ∧ action = .suspend then .suspended else status
  if status = .open ∧ (action = .halt ∨ action = .close) then .closed else status

def processStatus {env : EngineEnv} (action : MarketStatusAction) : EngineM env Unit :=
  modifyData fun d => { d with marketStatus := nextStatus d.marketStatus action }

def processInstrumentClose (close : InstrumentClose) : EngineM env Unit :=
  if close.instrumentId ≠ env.instrument.id then pure ()
  else if close.closeType = .contractExpired then do
    modifyData fun d => { d with instrumentClose := some close }
    iterate env handlers close.tsInit .noAggressor
  else pure ()

end EngineM

end Nautilus
