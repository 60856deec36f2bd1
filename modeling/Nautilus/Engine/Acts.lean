import Nautilus.Engine.State

/-!
# What the engine can do

`Act` lists what the engine does to the world, and `Act.step` what an act changes. Programs are
written in `EngineM env`, whose values carry the proof that they are made of acts; so what every act
keeps, every call of the engine keeps.

Two acts are larger than a write. A `fill` is `fill_order` up to the contingencies: the count, the
event, and the order's way out of the core. Storing a bar needs an engine that executes bars and a
bar type selected before.
-/

namespace Nautilus

open Lib Option IndexMap

/-- `std::cmp::min` on quantities. -/
def Quantity.minimum (a b : Quantity) : Quantity := if b.lt a then b else a

@[simp] theorem Quantity.minimum_raw (a b : Quantity) : (a.minimum b).raw = min a.raw b.raw := by
  unfold Quantity.minimum
  split
  · have hlt := Quantity.lt_iff.mp ‹_›
    omega
  · have hle := mt Quantity.lt_iff.mpr ‹_›
    omega

/-! ## Calls of the book -/

/-- Why market data is refused. -/
inductive DataError where
  /-- "Invalid {field} precision {actual}, expected {expected} for {}" -/
  | precision (field : String) (actual expected : Nat)
  | integrity (error : BookIntegrityError)
  | operation (error : InvalidBookOperation)
deriving DecidableEq

inductive BookCall where
  | applyDelta (delta : OrderBookDelta)
  | applyDeltas (deltas : OrderBookDeltas)
  | applyDepth (depth : OrderBookDepth10)
  | updateQuoteTick (quote : QuoteTick)
  | updateTradeTick (trade : TradeTick)

def OrderBook.call [Build] [BookCode] (b : OrderBook) : BookCall → Outcome DataError OrderBook
  | .applyDelta delta => (b.applyDelta delta).map fun r => (r.1, r.2.mapError .integrity)
  | .applyDeltas deltas => (b.applyDeltas deltas).map fun r => (r.1, r.2.mapError .integrity)
  | .applyDepth depth => some ((b.applyDepth depth).1, (b.applyDepth depth).2.mapError .integrity)
  | .updateQuoteTick quote => (b.updateQuoteTick quote).map fun r => (r.1, r.2.mapError .operation)
  | .updateTradeTick trade => (b.updateTradeTick trade).map fun r => (r.1, r.2.mapError .operation)

/-! ## Acts -/

def OrderEventAny.isFill : OrderEventAny → Bool
  | .filled _ => true
  | _ => false

/-- The calls of the core the engine makes, apart from `reset`. -/
def CoreOp.isMatching : CoreOp → Bool
  | .add _ | .delete _ | .setPrices _ _ _ => true
  | .reset | .setFillLimitInsideSpread _ => false

/-- Equal in what only bars change. -/
def EngineData.SameBars (d d' : EngineData) : Prop :=
  d.lastBarBid = d'.lastBarBid ∧ d.lastBarAsk = d'.lastBarAsk ∧
    d.executionBarTypes = d'.executionBarTypes ∧ d.executionBarDeltas = d'.executionBarDeltas

instance (d d' : EngineData) : Decidable (d.SameBars d') :=
  inferInstanceAs (Decidable (_ ∧ _ ∧ _ ∧ _))

/-- `bar_execution` and an L1 book (`engine.rs:1416`). -/
def EngineEnv.ExecutesBars (env : EngineEnv) : Prop :=
  env.config.barExecution = true ∧ env.bookType = .l1Mbp

instance (env : EngineEnv) : Decidable env.ExecutesBars := inferInstanceAs (Decidable (_ ∧ _))

/-- One thing the engine does. -/
inductive Act where
  | core (op : CoreOp)
  | book (call : BookCall)
  /-- a fill of the clone `order`; the fields, the cache and the draws are those after it -/
  | fill (order : EngineOrder) (event : OrderFilled) (fields : EngineData) (cache : Cache)
      (draws : Nat)
  | drop (clientOrderId : ClientOrderId)
  /-- an event that is no fill -/
  | emit (event : OrderEventAny) (reason : Option Reason)
  | data (fields : EngineData)
  | knowBarType (barType : BarType) (delta : Nat)
  | executeBarType (barType : BarType)
  | storeBar (bar : Bar)
  | clearBars
  /-- the cache, the draws or the clock move on -/
  | outside (cache : Cache) (draws : Nat) (now : UnixNanos)

/-- The count of `fill_order` (`engine.rs:4401-4414`). With a count kept, the fill is **cut down to
what is left**; the cut shadows `last_qty` only here. -/
def OrderMatchingEngine.countedQty [Build] (self : OrderMatchingEngine) (order : EngineOrder)
    (lastQty : Quantity) : Option Quantity :=
  match self.cachedFilledQty.get? order.clientOrderId with
  | some filledQty => filledQty.add (lastQty.minimum (order.quantity.saturatingSub filledQty))
  | none => some lastQty

/-- The clone is passive, and closed or counted up to its quantity (`engine.rs:4433-4438`). -/
def EngineOrder.isDone (order : EngineOrder) (filledQty : Quantity) : Bool :=
  order.isPassive && (order.isClosed || order.quantity.raw ≤ filledQty.raw)

namespace Act

variable [Build] [BookCode] (env : EngineEnv)

def coreAfter (core : OrderMatchingCore) (order : EngineOrder) (filledQty : Quantity) :
    Option OrderMatchingCore :=
  if order.isDone filledQty ∧ core.orderExists order.clientOrderId then
    core.step (.delete order.clientOrderId)
  else some core

/-- The counts after a fill: those of market-to-limit orders are read again by their caller. -/
def countsAfter (counts : IndexMap ClientOrderId Quantity) (order : EngineOrder)
    (filledQty : Quantity) : IndexMap ClientOrderId Quantity :=
  let counts := counts.insert order.clientOrderId filledQty
  if order.isDone filledQty ∧ order.orderType ≠ .marketToLimit then
    counts.remove order.clientOrderId
  else counts

/-- The world after an act; `none` if it panics or is not possible. -/
def step (w : World) : Act → Option World
  | .core op =>
    if op.isMatching then
      (w.engine.core.step op).map fun core => { w with engine := { w.engine with core } }
    else none
  | .book call =>
    (w.engine.book.call call).map fun r => { w with engine := { w.engine with book := r.1 } }
  | .fill order event fields cache draws =>
    if event.clientOrderId = order.clientOrderId ∧ fields.SameBars w.engine.toEngineData then
      (w.engine.countedQty order event.lastQty).bind fun filledQty =>
        (coreAfter w.engine.core order filledQty).map fun core =>
          { w with
            engine :=
              { toEngineData := fields
                core
                book := w.engine.book
                cachedFilledQty := countsAfter w.engine.cachedFilledQty order filledQty }
            cache
            draws
            events := w.events ++ [⟨.filled event, none⟩] }
    else none
  | .drop clientOrderId =>
    some
      { w with
        engine :=
          { w.engine with cachedFilledQty := w.engine.cachedFilledQty.remove clientOrderId } }
  | .emit event reason =>
    if event.isFill then none
    else some
      { w with events := w.events ++ [⟨event, reason⟩], cache := env.receive event w.cache }
  | .data fields =>
    if fields.SameBars w.engine.toEngineData then
      some { w with engine := { w.engine with toEngineData := fields } }
    else none
  | .knowBarType barType delta =>
    if env.timedelta barType.step barType.aggregation = some delta then
      some
        { w with
          engine :=
            { w.engine with
              executionBarDeltas := w.engine.executionBarDeltas.insert barType delta } }
    else none
  | .executeBarType barType =>
    if w.engine.executionBarDeltas.containsKey barType then
      some
        { w with
          engine :=
            { w.engine with
              executionBarTypes :=
                w.engine.executionBarTypes.insert barType.instrumentId barType } }
    else none
  | .storeBar bar =>
    if env.ExecutesBars ∧
        w.engine.executionBarTypes.get? bar.barType.instrumentId = some bar.barType then
      match bar.barType.priceType with
      | .bid => some { w with engine := { w.engine with lastBarBid := some bar } }
      | .ask => some { w with engine := { w.engine with lastBarAsk := some bar } }
      | _ => none
    else none
  | .clearBars =>
    some { w with engine := { w.engine with lastBarBid := none, lastBarAsk := none } }
  | .outside cache draws now => some { w with cache, draws, now }

/-- A fill counts, sends its event and lets go of an order that is done. -/
theorem step_fill_eq_some {w w' : World} {order : EngineOrder} {event : OrderFilled}
    {fields : EngineData} {cache : Cache} {draws : Nat} :
    step env w (.fill order event fields cache draws) = some w' ↔
      (event.clientOrderId = order.clientOrderId ∧ fields.SameBars w.engine.toEngineData) ∧
        ∃ filledQty core, w.engine.countedQty order event.lastQty = some filledQty ∧
          coreAfter w.engine.core order filledQty = some core ∧
          { w with
            engine :=
              { toEngineData := fields
                core
                book := w.engine.book
                cachedFilledQty := countsAfter w.engine.cachedFilledQty order filledQty }
            cache
            draws
            events := w.events ++ [⟨.filled event, none⟩] } = w' := by
  simp [step, ite_none_right_eq_some, bind_eq_some_iff, map_eq_some_iff, ← exists_and_left]

end Act

/-! ## What an act reaches -/

def EngineEnv.KnowsLength (env : EngineEnv) (barType : BarType) : Prop :=
  (env.timedelta barType.step barType.aggregation).isSome

/-- Bars are kept only by an engine that executes them, and their lengths are known. -/
structure EngineData.BarsSound (env : EngineEnv) (d : EngineData) : Prop where
  known : ∀ barType, d.executionBarDeltas.containsKey barType = true → env.KnowsLength barType
  executed : ∀ instrumentId barType, d.executionBarTypes.get? instrumentId = some barType →
    env.KnowsLength barType
  bid : ∀ bar, d.lastBarBid = some bar → env.ExecutesBars ∧ env.KnowsLength bar.barType
  ask : ∀ bar, d.lastBarAsk = some bar → env.ExecutesBars ∧ env.KnowsLength bar.barType

theorem EngineData.BarsSound.of_sameBars {env : EngineEnv} {d d' : EngineData}
    (h : d'.SameBars d) (hd : d.BarsSound env) : d'.BarsSound env := by
  obtain ⟨hbid, hask, htypes, hdeltas⟩ := h
  refine ⟨?_, ?_, ?_, ?_⟩
  · rw [hdeltas]
    exact hd.known
  · rw [htypes]
    exact hd.executed
  · rw [hbid]
    exact hd.bid
  · rw [hask]
    exact hd.ask

namespace Act

def sends : Act → Bool
  | .fill _ _ _ _ _ | .emit _ _ => true
  | _ => false

variable [Build] [BookCode] (env : EngineEnv)

/-- **An act is at most one call of the core and one of the book**; it keeps the bars sound, and
where it sends nothing it changes no count but by dropping it. -/
theorem step_parts {w w' : World} {act : Act} (h : step env w act = some w') :
    (w'.engine.core = w.engine.core ∨
        ∃ op : CoreOp, op.isMatching = true ∧ w.engine.core.step op = some w'.engine.core) ∧
      (w'.engine.book = w.engine.book ∨
        ∃ call result, w.engine.book.call call = some (w'.engine.book, result)) ∧
      (w.engine.BarsSound env → w'.engine.BarsSound env) ∧
      (act.sends = false → w'.events = w.events ∧ w'.engine.cachedFilledQty =
        match act with
        | .drop clientOrderId => w.engine.cachedFilledQty.remove clientOrderId
        | _ => w.engine.cachedFilledQty) := by
  have hquiet : ∀ {sends : Bool}, sends = false → w.events = w.events ∧
      w.engine.cachedFilledQty = w.engine.cachedFilledQty := fun _ => ⟨rfl, rfl⟩
  have hstep := h
  cases act with
    simp only [step, ite_none_left_eq_some, ite_none_right_eq_some, map_eq_some_iff, some.injEq] at h
  | core op =>
    obtain ⟨hop, core, hcore, rfl⟩ := h
    exact ⟨.inr ⟨op, hop, hcore⟩, .inl rfl, id, hquiet⟩
  | book call =>
    obtain ⟨⟨book, result⟩, hbook, rfl⟩ := h
    exact ⟨.inl rfl, .inr ⟨call, result, hbook⟩, id, hquiet⟩
  | fill order event fields cache draws =>
    obtain ⟨⟨-, hbars⟩, _, core, -, hcore, rfl⟩ := (step_fill_eq_some env).mp hstep
    refine ⟨?_, .inl rfl, .of_sameBars hbars, by rintro ⟨⟩⟩
    unfold coreAfter at hcore
    split at hcore
    · exact .inr ⟨.delete order.clientOrderId, rfl, hcore⟩
    · exact .inl (some.inj hcore).symm
  | emit event reason =>
    obtain ⟨-, rfl⟩ := h
    exact ⟨.inl rfl, .inl rfl, id, by rintro ⟨⟩⟩
  | data fields =>
    obtain ⟨hbars, rfl⟩ := h
    exact ⟨.inl rfl, .inl rfl, .of_sameBars hbars, hquiet⟩
  | knowBarType barType delta =>
    obtain ⟨hdelta, rfl⟩ := h
    refine ⟨.inl rfl, .inl rfl, fun hbars => { hbars with known := ?_ }, hquiet⟩
    intro barType' hknown
    obtain ⟨delta', hget⟩ := containsKey_iff.mp hknown
    rw [get?_insert] at hget
    split at hget
    · subst barType'
      exact isSome_of_mem hdelta
    · exact hbars.known barType' (containsKey_iff.mpr ⟨delta', hget⟩)
  | executeBarType barType =>
    obtain ⟨hknown, rfl⟩ := h
    refine ⟨.inl rfl, .inl rfl, fun hbars => { hbars with executed := ?_ }, hquiet⟩
    intro instrumentId barType' hget
    rw [get?_insert] at hget
    split at hget
    · cases hget
      exact hbars.known barType hknown
    · exact hbars.executed instrumentId barType' hget
  | storeBar bar =>
    obtain ⟨⟨hexecutes, hexecuted⟩, h⟩ := h
    have hbar : w.engine.BarsSound env → env.ExecutesBars ∧ env.KnowsLength bar.barType :=
      fun hbars => ⟨hexecutes, hbars.executed _ _ hexecuted⟩
    split at h
    · cases h
      refine ⟨.inl rfl, .inl rfl, fun hbars => { hbars with bid := ?_ }, hquiet⟩
      rintro _ ⟨⟩
      exact hbar hbars
    · cases h
      refine ⟨.inl rfl, .inl rfl, fun hbars => { hbars with ask := ?_ }, hquiet⟩
      rintro _ ⟨⟩
      exact hbar hbars
    · cases h
  | clearBars =>
    subst h
    refine ⟨.inl rfl, .inl rfl, fun hbars => { hbars with bid := ?_, ask := ?_ }, hquiet⟩
    · rintro _ ⟨⟩
    · rintro _ ⟨⟩
  | drop clientOrderId | outside cache draws now =>
    subst h
    exact ⟨.inl rfl, .inl rfl, id, fun _ => ⟨rfl, rfl⟩⟩

end Act

/-! ## Programs of the engine -/

variable [Build] [BookCode]

/-- A call of the engine: a program over the world, made of acts. -/
abbrev EngineM (env : EngineEnv) := Acting (Act.step env)

namespace EngineM

variable {env : EngineEnv}

/-- Fields are changed. -/
def modifyData (f : EngineData → EngineData)
    (h : ∀ d, (f d).SameBars d := by exact fun _ => ⟨rfl, rfl, rfl, rfl⟩) : EngineM env Unit :=
  .change
    (fun w => some
      { w with engine := { w.engine with toEngineData := f w.engine.toEngineData } })
    (fun w _ hw => ⟨.data (f w.engine.toEngineData), (if_pos (h _)).trans hw⟩)

def modifyCache (f : Cache → Cache) : EngineM env Unit :=
  .change (fun w => some { w with cache := f w.cache })
    (fun w _ hw => ⟨.outside (f w.cache) w.draws w.now, hw⟩)

def setClock (now : UnixNanos) : EngineM env Unit :=
  .change (fun w => some { w with now }) (fun w _ hw => ⟨.outside w.cache w.draws now, hw⟩)

def onCore (op : CoreOp) (h : op.isMatching = true := by exact .refl true) : EngineM env Unit :=
  .change
    (fun w =>
      (w.engine.core.step op).map fun core => { w with engine := { w.engine with core } })
    (fun _ _ hw => ⟨.core op, (if_pos h).trans hw⟩)

def onBook (call : BookCall) : EngineM env (Except DataError Unit) where
  prog w :=
    (w.engine.book.call call).map fun r =>
      (r.2, { w with engine := { w.engine with book := r.1 } })
  madeOf := by
    refine .one fun w result w' hw => ⟨.book call, ?_⟩
    obtain ⟨r, hr, heq⟩ := map_eq_some_iff.mp hw
    cases heq
    exact map_eq_some_iff.mpr ⟨r, hr, rfl⟩

def setBidRaw (bid : Price) : EngineM env Unit := do
  let w ← read
  onCore (.setPrices (some bid) w.engine.core.ask w.engine.core.last)

def setAskRaw (ask : Price) : EngineM env Unit := do
  let w ← read
  onCore (.setPrices w.engine.core.bid (some ask) w.engine.core.last)

def setLastRaw (last : Price) : EngineM env Unit := do
  let w ← read
  onCore (.setPrices w.engine.core.bid w.engine.core.ask (some last))

/-- `cached_filled_qty.swap_remove`; nothing depends on the order of the entries. -/
def dropFilledQty (clientOrderId : ClientOrderId) : EngineM env Unit :=
  .change
    (fun w => some
      { w with
        engine :=
          { w.engine with cachedFilledQty := w.engine.cachedFilledQty.remove clientOrderId } })
    (fun _ _ hw => ⟨.drop clientOrderId, hw⟩)

/-- The pair of quote bars is used up. -/
def clearBars : EngineM env Unit :=
  .change
    (fun w => some { w with engine := { w.engine with lastBarBid := none, lastBarAsk := none } })
    (fun _ _ hw => ⟨.clearBars, hw⟩)

/-- A number or text that is drawn at random. -/
def draw {α : Type} (answer : Nat → α) : EngineM env α where
  prog w := some (answer w.draws, { w with draws := w.draws + 1 })
  madeOf := by
    refine .one fun w _ w' hw => ⟨.outside w.cache (w.draws + 1) w.now, ?_⟩
    cases hw
    rfl

variable (env)

/-- `dispatch_order_event` (`engine.rs:224`) of an event that is no fill. -/
def dispatchOrderEvent (event : OrderEventAny) (reason : Option Reason)
    (h : event.isFill = false := by rfl) : EngineM env Unit :=
  .change
    (fun w => some
      { w with events := w.events ++ [⟨event, reason⟩], cache := env.receive event w.cache })
    (fun _ _ hw => ⟨.emit event reason, (if_neg (Bool.eq_false_iff.mp h)).trans hw⟩)

/-! ## Running the elementary calls -/

variable {env} {w w' : World} {u : Unit}

theorem onCore_run_eq_some {op : CoreOp} {h : op.isMatching = true} :
    (onCore op h : EngineM env Unit).run w = some (u, w') ↔
      ∃ core, w.engine.core.step op = some core ∧
        { w with engine := { w.engine with core } } = w' :=
  Acting.change_run_eq_some.trans map_eq_some_iff

end EngineM

end Nautilus
