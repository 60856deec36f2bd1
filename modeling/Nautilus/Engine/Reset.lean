import Nautilus.Engine.Accounting
import Nautilus.Book.Calls

/-!
# Starting over

`reset` should return the engine to its initial state, and assigns all but three of the fields that
change: the market status and the two quote bars that wait for each other
(`World.Restorable.reset_eq`). Whether that shows depends on what comes later, so two runs are
compared: the same calls after `reset`, and on a new engine (**`reset_restores_iff`**).

The core and the book come back because no call changes what `reset` leaves in them: `reset` after a
call is `reset` before it.
-/

namespace Nautilus

open Lib Option Acting

variable {b b' : OrderBook} {call : BookCall} {result : Except DataError Unit}

/-! ## The core -/

namespace OrderMatchingCore

variable (c : OrderMatchingCore)

theorem reset_setBook (side : OrderSideSpecified) (kind : BookKind)
    (book : PriceBook) : (c.setBook side kind book).reset = c.reset := by
  cases side <;> cases kind <;> rfl

theorem reset_setPending (side : OrderSideSpecified)
    (pending : List RestingOrder) : (c.setPending side pending).reset = c.reset := by
  cases side <;> rfl

theorem reset_displace {c c' : OrderMatchingCore} {clientOrderId : ClientOrderId}
    {side : OrderSideSpecified} {location : Option (BookKind × Price)}
    (h : c.displace clientOrderId side location = some c') : c'.reset = c.reset := by
  cases location with
  | some location =>
    obtain ⟨_, -, h⟩ := bind_eq_some_iff.mp h
    obtain ⟨_, -, heq⟩ := bind_eq_some_iff.mp h
    cases heq
    exact c.reset_setBook _ _ _
  | none =>
    obtain ⟨_, -, heq⟩ := bind_eq_some_iff.mp h
    cases heq
    exact c.reset_setPending _ _

/-- What the engine does to its core, `reset` undoes. -/
theorem reset_step {c c' : OrderMatchingCore} {op : CoreOp} (hop : op.isMatching = true)
    (h : c.step op = some c') : c'.reset = c.reset := by
  cases op with
  | add order =>
    cases h
    show (c.place order).reset = _
    unfold place
    split
    · exact c.reset_setBook _ _ _
    · exact c.reset_setPending _ _
  | delete clientOrderId =>
    obtain ⟨⟨_, _⟩, hdelete, rfl⟩ := map_eq_some_iff.mp h
    unfold deleteOrder at hdelete
    split at hdelete
    · cases hdelete
      rfl
    · obtain ⟨_, hdisplace, heq⟩ := map_eq_some_iff.mp hdelete
      cases heq
      have hreset := reset_displace hdisplace
      exact hreset
  | setPrices bid ask last =>
    cases h
    rfl
  | reset | setFillLimitInsideSpread value => nomatch hop

end OrderMatchingCore

/-! ## The book -/

namespace OrderBook

variable [Build] [BookCode]

/-- What a call does to a book, `reset` undoes. -/
theorem reset_step {op : BookOp} (h : b.step op = some b') : b'.reset = b.reset := by
  have hclear : ∀ s, (b'.ladder s).clear = (b.ladder s).clear := by
    intro s
    refine runs_inv_mem (fun l => l.clear = (b.ladder s).clear) ?_ rfl (step_calls h s)
    intro l c l' _ hl hcall
    obtain ⟨hside, htype⟩ := BookLadder.call_fields hcall
    rw [← hl]
    unfold BookLadder.clear
    rw [hside, htype]
  obtain ⟨hinstrument, htype⟩ := sameBook_step h
  have hbids : b'.bids.clear = b.bids.clear := hclear .buy
  have hasks : b'.asks.clear = b.asks.clear := hclear .sell
  unfold reset
  rw [hinstrument, htype, hbids, hasks]

/-- A call of the engine is a sequence of calls of the book, `reset` not among them. -/
theorem call_runs (h : b.call call = some (b', result)) :
    ∃ ops : List BookOp, .reset ∉ ops ∧ runs OrderBook.step b ops = some b' := by
  have one : ∀ op : BookOp, op ≠ .reset → b.step op = (b.call call).map Prod.fst →
      ∃ ops : List BookOp, .reset ∉ ops ∧ runs OrderBook.step b ops = some b' := by
    intro op hop hstep
    refine ⟨[op], by simpa using hop.symm, ?_⟩
    rw [runs_cons, hstep, h]
    rfl
  cases call with
  | applyDelta delta =>
    exact one (.applyDelta delta) nofun (by simp [step, OrderBook.call, Function.comp_def])
  | applyDeltas deltas =>
    obtain ⟨⟨_, _⟩, hr, heq⟩ := map_eq_some_iff.mp h
    cases heq
    unfold applyDeltas at hr
    split at hr
    · cases hr
      exact ⟨[], List.not_mem_nil, rfl⟩
    · obtain ⟨_, -, hruns⟩ := applyDeltasUnchecked_runs hr
      refine ⟨_, ?_, hruns⟩
      intro hreset
      obtain ⟨delta, -, heq⟩ := List.mem_map.mp hreset
      nomatch heq
  | applyDepth depth => exact one (.applyDepth depth) nofun rfl
  | updateQuoteTick quote =>
    exact one (.updateQuoteTick quote) nofun (by simp [step, OrderBook.call, Function.comp_def])
  | updateTradeTick trade =>
    exact one (.updateTradeTick trade) nofun (by simp [step, OrderBook.call, Function.comp_def])

theorem reset_call (h : b.call call = some (b', result)) : b'.reset = b.reset := by
  obtain ⟨_, -, hruns⟩ := call_runs h
  exact runs_inv_mem (fun b₁ => b₁.reset = b.reset)
    (fun _ _ _ _ hb hstep => (reset_step hstep).trans hb) rfl hruns

/-- A book that was written since it was new or reset stays so. -/
theorem updateCount_pos_call (hb : 0 < b.updateCount) (h : b.call call = some (b', result)) :
    0 < b'.updateCount := by
  obtain ⟨_, hreset, hruns⟩ := call_runs h
  refine runs_inv_mem (fun b => 0 < b.updateCount) ?_ hb hruns
  intro b op b' hop hb hstep
  have hne : op ≠ .reset := fun heq => hreset (heq ▸ hop)
  rcases updates_step hne hstep with rfl | ⟨_, _, _, _, rfl⟩
  · exact hb
  · exact lt_min (Nat.succ_pos _) (by decide)

end OrderBook

/-! ## The engine -/

/-- `reset`, called on the engine of a world. -/
def World.reset (w : World) : World := { w with engine := w.engine.reset }

def World.renew (w : World) (env : EngineEnv) : World := { w with engine := .new env }

/-- `reset` brings back the core and the book the engine was built with. -/
structure World.Restorable (env : EngineEnv) (w : World) : Prop where
  core : w.engine.core.reset = (OrderMatchingEngine.new env).core
  book : w.engine.book.reset = (OrderMatchingEngine.new env).book
  bars : w.engine.BarsSound env

/-- Without bar types, only the bars that wait have to be known. -/
theorem EngineData.barsSound_of_empty {env : EngineEnv} {d : EngineData}
    (htypes : d.executionBarTypes = .empty) (hdeltas : d.executionBarDeltas = .empty)
    (hbid : ∀ bar, d.lastBarBid = some bar → env.ExecutesBars ∧ env.KnowsLength bar.barType)
    (hask : ∀ bar, d.lastBarAsk = some bar → env.ExecutesBars ∧ env.KnowsLength bar.barType) :
    d.BarsSound env := by
  refine ⟨?_, ?_, hbid, hask⟩
  · intro barType hknown
    rw [hdeltas] at hknown
    nomatch hknown
  · intro instrumentId barType hexecuted
    rw [htypes] at hexecuted
    nomatch hexecuted

theorem World.restorable_of_new {env : EngineEnv} {w : World} (h : w.engine = .new env) :
    w.Restorable env := by
  refine ⟨?_, ?_, ?_⟩
  · rw [h]
    rfl
  · rw [h]
    rfl
  · rw [h]
    refine EngineData.barsSound_of_empty rfl rfl ?_ ?_
    · rintro _ ⟨⟩
    · rintro _ ⟨⟩

namespace World.Restorable

variable {env : EngineEnv} {w w' : World}

/-- **What `reset` leaves**: a new engine with the status and the quote bars of the old. -/
theorem reset_eq (hw : w.Restorable env) :
    w.engine.reset =
      { OrderMatchingEngine.new env with
        marketStatus := w.engine.marketStatus
        lastBarBid := w.engine.lastBarBid
        lastBarAsk := w.engine.lastBarAsk } := by
  unfold OrderMatchingEngine.reset
  rw [hw.core, hw.book]
  rfl

theorem reset (hw : w.Restorable env) : w.reset.Restorable env := by
  refine ⟨?_, ?_, ?_⟩
  · exact hw.core
  · exact hw.book
  · exact EngineData.barsSound_of_empty rfl rfl hw.bars.bid hw.bars.ask

variable [Build] [BookCode]

theorem step (hw : w.Restorable env) {act : Act} (h : Act.step env w act = some w') :
    w'.Restorable env := by
  obtain ⟨hcore, hbook, hbars, -⟩ := Act.step_parts env h
  refine ⟨?_, ?_, hbars hw.bars⟩
  · rcases hcore with hcore | ⟨_, hop, hcore⟩
    · rw [hcore]
      exact hw.core
    · exact (OrderMatchingCore.reset_step hop hcore).trans hw.core
  · rcases hbook with hbook | ⟨_, _, hbook⟩
    · rw [hbook]
      exact hw.book
    · exact (OrderBook.reset_call hbook).trans hw.book

end World.Restorable

/-! ## Two runs -/

/-- A call from outside: an input, or `reset`. -/
inductive EngineCall where
  | input (input : Input)
  | reset

/-- What can be seen of the engine: events, status, book, core, and how many orders it counts
(`cached_filled_qty_len`). -/
structure World.SameView (w w' : World) : Prop where
  events : w.events = w'.events
  marketStatus : w.engine.marketStatus = w'.engine.marketStatus
  book : w.engine.book = w'.engine.book
  core : w.engine.core = w'.engine.core
  counts : w.engine.cachedFilledQty.len = w'.engine.cachedFilledQty.len

theorem World.SameView.refl (w : World) : w.SameView w := ⟨rfl, rfl, rfl, rfl, rfl⟩

section

variable [Build] [BookCode] (env : EngineEnv) (depth : Nat)

def serve (w : World) : EngineCall → Option World
  | .input input => feed env depth w input
  | .reset => some w.reset

/-- From a world, the calls lead to what is seen after them on a new engine, or panic with it. -/
def World.LikeNew (w : World) : Prop :=
  ∀ later : List EngineCall, Option.Rel World.SameView
    (runs (serve env depth) w later) (runs (serve env depth) (w.renew env) later)

variable {env depth}

theorem World.Restorable.of_serve {w w' : World} {call : EngineCall} (hw : w.Restorable env)
    (h : serve env depth w call = some w') : w'.Restorable env := by
  cases call with
  | input input =>
    have hruns : runs (feed env depth) w [input] = some w' := by
      exact (bind_eq_some_iff.mpr ⟨w', h, rfl⟩)
    obtain ⟨_, hacts⟩ := runs_feed_acts env depth hruns
    exact runs_inv (fun _ _ _ hw hstep => hw.step hstep) hw hacts
  | reset =>
    cases h
    exact hw.reset

theorem World.LikeNew.sameView {w : World} (h : w.LikeNew env depth) :
    w.SameView (w.renew env) := by
  cases h [] with
  | some hview => exact hview

end

/-! ## The bar that was forgotten

A quote bar that waits is seen when the other bar of its pair comes: a new engine stores that
one and waits, an engine with the old bar plays the pair. -/

namespace EngineM

variable (env : EngineEnv)

/-- The other bar of a pair, at a price and for a size the engine accepts. -/
def partner (bar : Bar) (priceType : PriceType) : Bar where
  barType := { bar.barType with priceType, aggregationSource := .external }
  open_ := ⟨0, env.instrument.pricePrecision⟩
  high := ⟨0, env.instrument.pricePrecision⟩
  low := ⟨0, env.instrument.pricePrecision⟩
  close := ⟨0, env.instrument.pricePrecision⟩
  volume := ⟨0, env.instrument.sizePrecision⟩
  tsInit := bar.tsInit

theorem checkBar_partner (bar : Bar) (priceType : PriceType) :
    env.checkBar (partner env bar priceType) = .ok () := by
  simp only [EngineEnv.checkBar, EngineEnv.checkPricePrecision, EngineEnv.checkSizePrecision,
    partner, ne_eq, not_true_eq_false, if_false]
  rfl

variable [Build] [BookCode] (handlers : Handlers env) {env handlers} {w w' : World} {bar : Bar}

/-- Where no bar type was chosen yet, the next one is, and its bar is stored. -/
theorem admitBar_run (hexecutes : env.ExecutesBars) (hlength : env.KnowsLength bar.barType)
    (htypes : w.engine.executionBarTypes = .empty) :
    ∃ d : EngineData, d.lastBarBid = w.engine.lastBarBid ∧ d.lastBarAsk = w.engine.lastBarAsk ∧
      (admitBar env hexecutes bar).run w = some (true, withData w (storeBar bar d)) := by
  obtain ⟨_, hdelta⟩ := isSome_iff_exists.mp hlength
  have hnone : w.engine.executionBarTypes.get? bar.barType.instrumentId = none := by
    rw [htypes]
    exact IndexMap.get?_empty _
  have hselect : ∃ d : EngineData,
      selectBarType env bar.barType w.engine.toEngineData = some (true, d) ∧
        d.lastBarBid = w.engine.lastBarBid ∧ d.lastBarAsk = w.engine.lastBarAsk := by
    simp only [selectBarType, hnone, hdelta, map_some]
    exact ⟨_, rfl, rfl, rfl⟩
  obtain ⟨d, hselect, hbid, hask⟩ := hselect
  exact ⟨d, hbid, hask, map_eq_some_iff.mpr ⟨_, hselect, rfl⟩⟩

variable (handlers) in
theorem processBar_run (hexecutes : env.ExecutesBars)
    (hlength : env.KnowsLength bar.barType) (hsource : bar.barType.aggregationSource = .external)
    (hprecise : env.checkBar bar = .ok ()) (htypes : w.engine.executionBarTypes = .empty) :
    ∃ d : EngineData, d.lastBarBid = w.engine.lastBarBid ∧ d.lastBarAsk = w.engine.lastBarAsk ∧
      (processBar env handlers bar).run w =
        (playBar env handlers bar).run (withData w (storeBar bar d)) := by
  obtain ⟨d, hbid, hask, hadmit⟩ := admitBar_run hexecutes hlength
    (w := withData w { w.engine.toEngineData with precisionMismatchStreak := 0 }) htypes
  refine ⟨d, hbid, hask, ?_⟩
  unfold processBar
  rw [dif_pos hexecutes, if_neg (by rw [hsource]; decide), hprecise]
  exact congrArg (fun r => r.bind fun r => ((if r.1 then playBar env handlers bar
    else pure () : EngineM env Unit).run r.2)) hadmit

theorem processQuoteTicksFromBar_waits
    (h : w.engine.lastBarBid = none ∨ w.engine.lastBarAsk = none) :
    (processQuoteTicksFromBar env handlers bar).run w = some ((), w) := by
  rw [processQuoteTicksFromBar, run_read_bind]
  rcases h with h | h
  · rw [h]
    rfl
  · rw [h]
    cases w.engine.lastBarBid <;> rfl

/-- A book that was written stays so, whatever the engine does. -/
theorem updateCount_pos_run {α : Type} {m : EngineM env α} {a : α}
    (hw : 0 < w.engine.book.updateCount) (h : m.run w = some (a, w')) :
    0 < w'.engine.book.updateCount := by
  obtain ⟨_, hacts⟩ := m.madeOf w a w' h
  refine runs_inv_mem (fun w => 0 < w.engine.book.updateCount) ?_ hw hacts
  intro w act w' _ hw hstep
  obtain ⟨-, hbook, -⟩ := Act.step_parts env hstep
  rcases hbook with hbook | ⟨_, _, hcall⟩
  · rw [hbook]
    exact hw
  · exact OrderBook.updateCount_pos_call hw hcall

theorem updateCount_pos_quote {quote : QuoteTick} (htype : b.bookType = .l1Mbp) (hts : b.tsLast = 0)
    (h : b.call (.updateQuoteTick quote) = some (b', result)) :
    0 < b'.updateCount ∧ result = .ok () := by
  obtain ⟨⟨_, _⟩, hquote, heq⟩ := map_eq_some_iff.mp h
  cases heq
  unfold OrderBook.updateQuoteTick at hquote
  rw [if_neg (not_not.mpr htype), hts, if_neg (Nat.not_lt_zero _)] at hquote
  obtain ⟨_, htops, heq⟩ := map_eq_some_iff.mp hquote
  cases heq
  obtain ⟨_, -, htops⟩ := bind_eq_some_iff.mp htops
  obtain ⟨_, -, heq⟩ := bind_eq_some_iff.mp htops
  cases heq
  exact ⟨lt_min (Nat.succ_pos _) (by decide), rfl⟩

theorem playQuotes_writes {tsInit : UnixNanos} {fillAtMarket : Bool} {quote : QuoteTick}
    {quotes : List QuoteTick} {u : Unit} (htype : w.engine.book.bookType = .l1Mbp)
    (hts : w.engine.book.tsLast = 0)
    (h : (playQuotes env handlers tsInit fillAtMarket (quote :: quotes)).run w = some (u, w')) :
    0 < w'.engine.book.updateCount := by
  obtain ⟨_, w₁, hfields, h⟩ := bind_run_eq_some.mp h
  have hw₁ : w₁.engine.book = w.engine.book := by
    have heq := change_run_eq_some.mp hfields
    cases heq
    rfl
  obtain ⟨_, _, hbook, h⟩ := bind_run_eq_some.mp h
  obtain ⟨⟨book, _⟩, hcall, heq⟩ := map_eq_some_iff.mp hbook
  cases heq
  rw [hw₁] at hcall
  -- the first quote is never stale here; what follows it cannot take the write back
  obtain ⟨hpos, -⟩ := updateCount_pos_quote htype hts hcall
  exact updateCount_pos_run hpos h

omit [BookCode] in
theorem quotesOf_eq_cons {bidBar askBar : Bar} {precision : Nat} {quotes : List QuoteTick}
    (h : quotesOf bidBar askBar precision = some quotes) :
    ∃ quote rest, quotes = quote :: rest := by
  obtain ⟨_, -, h⟩ := bind_eq_some_iff.mp h
  obtain ⟨_, -, h⟩ := bind_eq_some_iff.mp h
  obtain ⟨_, -, h⟩ := bind_eq_some_iff.mp h
  obtain ⟨_, -, h⟩ := bind_eq_some_iff.mp h
  cases h
  exact ⟨_, _, rfl⟩

theorem processQuoteTicksFromBar_writes {bidBar askBar : Bar} {u : Unit}
    (hbid : w.engine.lastBarBid = some bidBar) (hask : w.engine.lastBarAsk = some askBar)
    (hinit : bidBar.tsInit = askBar.tsInit) (htype : w.engine.book.bookType = .l1Mbp)
    (hts : w.engine.book.tsLast = 0)
    (h : (processQuoteTicksFromBar env handlers bar).run w = some (u, w')) :
    0 < w'.engine.book.updateCount := by
  obtain ⟨_, w₁, hread, h⟩ := bind_run_eq_some.mp h
  cases hread
  rw [hbid, hask] at h
  simp only [hinit, ne_eq, not_true_eq_false, if_false] at h
  obtain ⟨_, w₁, hunwrap, h⟩ := bind_run_eq_some.mp h
  obtain ⟨hquotes, rfl⟩ := Prog.ofOption_eq_some.mp hunwrap
  obtain ⟨_, _, rfl⟩ := quotesOf_eq_cons hquotes
  split at h
  · nomatch h
  · exact playQuotes_writes htype hts h

end EngineM

section

variable [Build] [BookCode] {env : EngineEnv} {depth : Nat} {w : World}

/-- A bar that completes a pair after `reset`, and no pair on a new engine, tells them apart. -/
theorem World.Restorable.not_likeNew (hw : w.Restorable env)
    (hexecutes : env.ExecutesBars) (bar : Bar) (hlength : env.KnowsLength bar.barType)
    (hsource : bar.barType.aggregationSource = .external) (hprecise : env.checkBar bar = .ok ())
    (hplay : EngineM.playBar env (EngineM.handlersAt env depth) bar =
      EngineM.processQuoteTicksFromBar env (EngineM.handlersAt env depth) bar)
    (hpair : ∀ d : EngineData, d.lastBarBid = w.engine.lastBarBid →
      d.lastBarAsk = w.engine.lastBarAsk →
      ∃ bidBar askBar, (EngineM.storeBar bar d).lastBarBid = some bidBar ∧
        (EngineM.storeBar bar d).lastBarAsk = some askBar ∧ bidBar.tsInit = askBar.tsInit)
    (hsingle : ∀ d : EngineData, d.lastBarBid = none → d.lastBarAsk = none →
      (EngineM.storeBar bar d).lastBarBid = none ∨ (EngineM.storeBar bar d).lastBarAsk = none) :
    ¬ w.reset.LikeNew env depth := by
  intro hlike
  have hbook : w.reset.engine.book = (OrderMatchingEngine.new env).book := hw.book
  have htype : w.reset.engine.book.bookType = .l1Mbp := by
    rw [hbook]
    exact hexecutes.2
  have hts : w.reset.engine.book.tsLast = 0 := by
    rfl
  obtain ⟨d, hbid, hask, hrun⟩ := EngineM.processBar_run (w := w.reset)
    (EngineM.handlersAt env depth) hexecutes hlength hsource hprecise rfl
  obtain ⟨d', hbid', hask', hrun'⟩ := EngineM.processBar_run (w := w.reset.renew env)
    (EngineM.handlersAt env depth) hexecutes hlength hsource hprecise rfl
  obtain ⟨bidBar, askBar, hbidBar, haskBar, hinit⟩ := hpair d hbid hask
  -- the new engine waits, with the book it was built with
  rw [hplay, EngineM.processQuoteTicksFromBar_waits (hsingle d' hbid' hask')] at hrun'
  have hnew : runs (serve env depth) (w.reset.renew env) [.input (.bar bar)] =
      some (EngineM.withData (w.reset.renew env) (EngineM.storeBar bar d')) := by
    exact congrArg (fun r => (r.map Prod.snd).bind some) hrun'
  have hrel := hlike [.input (.bar bar)]
  rw [hnew] at hrel
  cases hreset : runs (serve env depth) w.reset [.input (.bar bar)] with
  | none =>
    rw [hreset] at hrel
    nomatch hrel
  | some w₁ =>
    rw [hreset] at hrel
    have hview : w₁.engine.book.updateCount = 0 := by
      cases hrel with
      | some hview =>
        rw [hview.book]
        rfl
    -- the engine that was reset plays the pair
    rw [runs_cons, bind_eq_some_iff] at hreset
    obtain ⟨_, hfeed, heq⟩ := hreset
    cases heq
    obtain ⟨⟨u, _⟩, hprocess, heq⟩ := map_eq_some_iff.mp hfeed
    cases heq
    have hplayed := (hrun.symm.trans hprocess)
    rw [hplay] at hplayed
    have hpos := EngineM.processQuoteTicksFromBar_writes
      (w := EngineM.withData w.reset (EngineM.storeBar bar d)) hbidBar haskBar hinit htype hts
      hplayed
    exact absurd hview (Nat.ne_of_gt hpos)

/-- A quote bar that waits through `reset` is noticed. -/
theorem World.Restorable.bars_eq_none (hw : w.Restorable env) (hlike : w.reset.LikeNew env depth) :
    w.engine.lastBarBid = none ∧ w.engine.lastBarAsk = none := by
  refine ⟨?_, ?_⟩
  · cases hbar : w.engine.lastBarBid with
    | none => rfl
    | some bar =>
      obtain ⟨hexecutes, hlength⟩ := hw.bars.bid bar hbar
      refine absurd hlike (hw.not_likeNew hexecutes (EngineM.partner env bar .ask) hlength
        rfl (EngineM.checkBar_partner env bar .ask) rfl ?_ ?_)
      · intro d hbid _
        exact ⟨bar, _, hbid.trans hbar, rfl, rfl⟩
      · intro d hbid _
        exact .inl hbid
  · cases hbar : w.engine.lastBarAsk with
    | none => rfl
    | some bar =>
      obtain ⟨hexecutes, hlength⟩ := hw.bars.ask bar hbar
      refine absurd hlike (hw.not_likeNew hexecutes (EngineM.partner env bar .bid) hlength
        rfl (EngineM.checkBar_partner env bar .bid) rfl ?_ ?_)
      · intro d _ hask
        exact ⟨_, bar, rfl, hask.trans hbar, rfl⟩
      · intro d _ hask
        exact .inr hask

/-! ## When starting over works -/

theorem World.restorable_of_runs {w₀ : World} (hnew : w₀.engine = .new env)
    {history : List EngineCall} (h : runs (serve env depth) w₀ history = some w) :
    w.Restorable env :=
  runs_inv (fun _ _ _ hw hserve => hw.of_serve hserve) (World.restorable_of_new hnew) h

variable (env depth)

/-- **After any history, `reset` cannot be told from a new engine iff** the market status was open
and no quote bar was waiting. -/
theorem reset_restores_iff {w₀ : World} (hnew : w₀.engine = .new env)
    {history : List EngineCall} (h : runs (serve env depth) w₀ history = some w) :
    w.reset.LikeNew env depth ↔
      w.engine.marketStatus = .open ∧ w.engine.lastBarBid = none ∧
        w.engine.lastBarAsk = none := by
  have hw := World.restorable_of_runs hnew h
  constructor
  · intro hlike
    exact ⟨hlike.sameView.marketStatus, hw.bars_eq_none hlike⟩
  rintro ⟨hstatus, hbid, hask⟩ later
  have heq : w.reset = w.reset.renew env := by
    unfold World.reset World.renew
    rw [hw.reset_eq, hstatus, hbid, hask]
    rfl
  rw [← heq]
  cases runs (serve env depth) w.reset later with
  | none => exact .none
  | some w' => exact .some (World.SameView.refl w')

end

section Instances

attribute [local instance] Build.standard BookCode.truncating

namespace EngineM.Sample

def barVenue : EngineEnv := env .l1Mbp {} applyNow

def bidBar : Bar where
  barType := ⟨⟨"AUD/USD.SIM"⟩, 1, .minute, .bid, .external⟩
  open_ := price 100
  high := price 101
  low := price 99
  close := price 100
  volume := quantity 8
  tsInit := 60

end EngineM.Sample

open EngineM
open Sample (barVenue world limit)

open Sample

/-- A market that was halted and opened again is reset to what a new engine is. -/
theorem reset_restores_reopened :
    ∃ w, runs (serve barVenue 0) (world barVenue limit)
        [.input (.status .halt), .input (.status .trading)] = some w ∧
      w.reset.LikeNew barVenue 0 := by
  obtain ⟨w, hrun, hfields⟩ := map_eq_some_iff.mp
    (show (runs (serve barVenue 0) (world barVenue limit)
        [.input (.status .halt), .input (.status .trading)]).map (fun w =>
          (w.engine.marketStatus, w.engine.lastBarBid, w.engine.lastBarAsk)) =
      some (.open, none, none) by decide +kernel)
  simp only [Prod.mk.injEq] at hfields
  exact ⟨w, hrun, (reset_restores_iff barVenue 0 rfl hrun).mpr hfields⟩

/-- A market that was paused stays paused, and a bar of bids that waits goes on waiting. -/
theorem reset_forgets :
    (∃ w, runs (serve barVenue 0) (world barVenue limit)
        [.input (.status .pause)] = some w ∧ ¬ w.reset.LikeNew barVenue 0) ∧
      ∃ w, runs (serve barVenue 0) (world barVenue limit)
        [.input (.bar bidBar)] = some w ∧ ¬ w.reset.LikeNew barVenue 0 := by
  constructor
  · obtain ⟨w, hrun, hstatus⟩ := map_eq_some_iff.mp
      (show (runs (serve barVenue 0) (world barVenue limit)
        [.input (.status .pause)]).map (fun w => w.engine.marketStatus) = some .paused
        by decide +kernel)
    refine ⟨w, hrun, fun hlike => ?_⟩
    have hopen : w.engine.marketStatus = .open := hlike.sameView.marketStatus
    rw [hstatus] at hopen
    nomatch hopen
  · obtain ⟨w, hrun, hbar⟩ := map_eq_some_iff.mp
      (show (runs (serve barVenue 0) (world barVenue limit)
        [.input (.bar bidBar)]).map (fun w => w.engine.lastBarBid) =
          some (some bidBar) by decide +kernel)
    refine ⟨w, hrun, fun hlike => ?_⟩
    have hnone := ((World.restorable_of_runs rfl hrun).bars_eq_none hlike).1
    rw [hbar] at hnone
    nomatch hnone

end Instances

end Nautilus
