import Nautilus.Engine.Market

/-!
# Inputs

What reaches the engine from outside is an `Input`: market data, the market's status, commands, the
methods other components call, and what the platform does in between to the cache and the clock.
`feed` processes one.

`depth` bounds how deep orders may trigger the submission of others; deeper, the engine does not
return, as the source does not when orders trigger each other in a circle. Every result below is for
every depth.
-/

namespace Nautilus

open Lib

inductive Input where
  | delta (delta : OrderBookDelta)
  | deltas (deltas : EngineDeltas)
  | depth10 (depth : EngineDepth10)
  | quote (quote : EngineQuote)
  | trade (trade : EngineTrade)
  | bar (bar : Bar)
  | status (action : MarketStatusAction)
  | close (close : InstrumentClose)
  | submit (order : EngineOrder) (accountId : AccountId)
  | modify (command : OrderCommand) (quantity : Option Quantity)
      (price triggerPrice : Option Price)
  | cancel (command : OrderCommand)
  | cancelAll (instrumentId : InstrumentId) (side : OrderSide)
  | batchCancel (commands : List OrderCommand)
  | iterate (tsNow : UnixNanos) (aggressorSide : AggressorSide)
  | fillMarket (clientOrderId : ClientOrderId)
  | fillLimit (clientOrderId : ClientOrderId)
  | triggerStop (clientOrderId : ClientOrderId)
  | settlementPrice (price : Price)
  | fillAtMarket (value : Bool)
  /-- the rest of the platform changes the cache, for one by applying events late -/
  | cache (cache : Cache)
  | clock (now : UnixNanos)

theorem EngineData.sameBars_fillAtMarket (value : Bool) (d : EngineData) :
    SameBars { d with fillAtMarket := value } d :=
  ⟨rfl, rfl, rfl, rfl⟩

section

variable [Build] [BookCode] (env : EngineEnv) (depth : Nat)

/-- The call an input leads to; what `process_order_book_*` return is dropped. -/
def EngineM.handle : Input → EngineM env Unit
  | .delta delta => do
    let _ ← processOrderBookDelta env (handlersAt env depth) delta
    pure ()
  | .deltas deltas => do
    let _ ← processOrderBookDeltas env (handlersAt env depth) deltas
    pure ()
  | .depth10 depth10 => do
    let _ ← processOrderBookDepth10 env (handlersAt env depth) depth10
    pure ()
  | .quote quote => processQuoteTick env (handlersAt env depth) quote
  | .trade trade => processTradeTick env (handlersAt env depth) trade
  | .bar bar => processBar env (handlersAt env depth) bar
  | .status action => processStatus action
  | .close close => processInstrumentClose env (handlersAt env depth) close
  | .submit order accountId => processOrder env (handlersAt env depth) order accountId
  | .modify command quantity price triggerPrice =>
    processModify env (handlersAt env depth) command quantity price triggerPrice
  | .cancel command => processCancel env command
  | .cancelAll instrumentId side => processCancelAll env instrumentId side
  | .batchCancel commands => processBatchCancel env commands
  | .iterate tsNow aggressorSide => iterate env (handlersAt env depth) tsNow aggressorSide
  | .fillMarket clientOrderId => fillMarketOrder env (handlersAt env depth) clientOrderId
  | .fillLimit clientOrderId => fillLimitOrder env (handlersAt env depth) clientOrderId
  | .triggerStop clientOrderId => triggerStopOrder env (handlersAt env depth) clientOrderId
  | .settlementPrice price => modifyData fun d => { d with settlementPrice := some price }
  | .fillAtMarket value =>
    modifyData (fun d => { d with fillAtMarket := value }) (EngineData.sameBars_fillAtMarket value)
  | .cache cache => modifyCache fun _ => cache
  | .clock now => setClock now

def feed (w : World) (input : Input) : Option World :=
  ((EngineM.handle env depth input).run w).map Prod.snd

/-- **Whatever the engine is fed, it does by acts.** -/
theorem runs_feed_acts {inputs : List Input} {w w' : World}
    (h : runs (feed env depth) w inputs = some w') :
    ∃ acts, runs (Act.step env) w acts = some w' := by
  induction inputs generalizing w with
  | nil =>
    cases h
    exact ⟨[], rfl⟩
  | cons input inputs ih =>
    rw [runs_cons, Option.bind_eq_some_iff] at h
    obtain ⟨_, hfeed, hrest⟩ := h
    obtain ⟨⟨u, _⟩, hrun, rfl⟩ := Option.map_eq_some_iff.mp hfeed
    obtain ⟨acts, hacts⟩ := (EngineM.handle env depth input).madeOf w u _ hrun
    obtain ⟨acts', hacts'⟩ := ih hrest
    refine ⟨acts ++ acts', ?_⟩
    rw [runs_append, hacts]
    exact hacts'

end

end Nautilus
