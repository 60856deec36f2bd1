import Nautilus.Book.Book
import Nautilus.Book.LadderSpec

/-!
# Ladder calls

Every entry point of the book comes down to a list of calls on each ladder: `OrderBook.calls b op s`
for side `s`. A completed step is exactly a run of it (`step_calls`), so an invariant that every
call keeps is one of books (`runs_calls_inv`).

`calls_orders`: the orders in the calls have the ladder's side and a preprocessed id, and come from
the operation's arguments.
-/

namespace Nautilus

open Lib List Option Bool BookLadder

variable {instrumentId : InstrumentId}

variable {l l' : BookLadder} {s : OrderSideSpecified} {b b' : OrderBook} {action : BookAction}
  {ask bid order stored : BookOrder} {flags : UInt8} {sequence : Nat} {tsEvent : UnixNanos}
  {delta : OrderBookDelta} {result : Except BookIntegrityError Unit} {op : BookOp}
  {bookType : BookType} {ops : List BookOp} {deltas : List OrderBookDelta}

inductive LadderCall where
  | clear
  | add (order : BookOrder) (flags : UInt8)
  | update (order : BookOrder) (flags : UInt8)
  | removeOrder (orderId : OrderId)
  | removeLevel (price : BookPrice)

def LadderCall.stores : LadderCall → Option BookOrder
  | .add order _ => some order
  | .update order _ => some order
  | _ => none

variable {c : LadderCall}

namespace BookLadder

variable [Build] [BookCode]

def call (l : BookLadder) : LadderCall → Option BookLadder
  | .clear => some l.clear
  | .add order flags => some (l.add order flags)
  | .update order flags => some (l.update order flags)
  | .removeOrder orderId => l.removeOrder orderId
  | .removeLevel price => some (l.removeLevel price).1

theorem call_fields (h : l.call c = some l') : l'.side = l.side ∧ l'.bookType = l.bookType := by
  cases c with
  | clear => cases h; exact ⟨rfl, rfl⟩
  | add order flags => cases h; exact l.add_fields order flags
  | update order flags => cases h; exact l.update_fields order flags
  | removeOrder orderId =>
    obtain ⟨hs, ht, -⟩ := removeOrder_order? h
    exact ⟨hs, ht⟩
  | removeLevel price =>
    cases h
    unfold removeLevel
    split <;> exact ⟨rfl, rfl⟩

theorem LevelsOk.call (hok : l.LevelsOk)
    (hc : ∀ order, c.stores = some order → order.side.asSpecified = some l.side)
    (h : l.call c = some l') : l'.LevelsOk := by
  cases c with
  | clear => cases h; exact levelsOk_clear l
  | add order flags => cases h; exact hok.add (hc order rfl) flags
  | update order flags => cases h; exact hok.update (hc order rfl) flags
  | removeOrder orderId => exact hok.removeOrder h
  | removeLevel price => cases h; exact hok.removeLevel price

/-- **Provenance**: an order found after a call was there before, or was stored at a non-zero size.
-/
theorem call_order? (h : l.call c = some l') {p : BookPrice} {id : OrderId}
    {o : BookOrder} (ho : l'.order? p id = some o) :
    l.order? p id = some o ∨ (c.stores = some o ∧ o.size.raw ≠ 0) := by
  cases c with
  | clear => cases h; nomatch ho
  | add order flags =>
    cases h
    rcases add_order? ho with ho | ⟨rfl, hpos⟩
    · exact .inl ho
    · exact .inr ⟨rfl, Quantity.raw_ne_zero_of_isPositive hpos⟩
  | update order flags =>
    cases h
    rcases update_order? ho with ho | ⟨rfl, hne⟩
    · exact .inl ho
    · exact .inr ⟨rfl, hne⟩
  | removeOrder orderId => exact .inl ((removeOrder_order? h).2.2 p id o ho)
  | removeLevel price =>
    cases h
    rw [removeLevel_order?] at ho
    split at ho
    · cases ho
    · exact .inl ho

end BookLadder

/-! ## The calls of an operation -/

namespace OrderBook

variable (b)

@[simp] theorem ladder_setLadder_self (s : OrderSideSpecified)
    (l : BookLadder) : (b.setLadder s l).ladder s = l := by
  cases s <;> rfl

theorem ladder_setLadder_of_ne {s' : OrderSideSpecified} (l : BookLadder)
    (h : s' ≠ s) : (b.setLadder s l).ladder s' = b.ladder s' := by
  cases s <;> cases s' <;> first | rfl | exact absurd rfl h

@[simp] theorem ladder_increment (sequence : Nat) (tsEvent : UnixNanos)
    (s : OrderSideSpecified) : (b.increment sequence tsEvent).ladder s = b.ladder s := by
  cases s <;> rfl

/-- The order of a delta with its own side, or the side the cache gives (`book.rs:311`). -/
def resolvedOrder (delta : OrderBookDelta) : Option BookOrder :=
  if delta.order.side = .noOrderSide ∧ delta.order.orderId ≠ 0 then
    (b.resolveNoSideOrder delta.order).toOption
  else
    some delta.order

variable {b}

/-- Side resolution finds a cached price or reports the id as unknown. -/
theorem resolveNoSideOrder_cases (b : OrderBook) (order : BookOrder) :
    (∃ s : OrderSideSpecified,
      b.resolveNoSideOrder order = .ok { order with side := s.asOrderSide }) ∨
    b.resolveNoSideOrder order = .error (.orderNotFoundForSideResolution order.orderId) := by
  unfold resolveNoSideOrder
  split
  · exact .inl ⟨_, rfl⟩
  · exact .inr rfl

/-- The early return and the removal of no level leave the same ladders. -/
theorem clearStaleLevels_ladders (b : OrderBook) (side : Option OrderSide) :
    (b.clearStaleLevels side).1.bids = (removeLevels b.bids (b.stalePrices side).1).1 ∧
      (b.clearStaleLevels side).1.asks = (removeLevels b.asks (b.stalePrices side).2).1 := by
  unfold clearStaleLevels
  cases b.stalePrices side with
  | mk bidPrices askPrices =>
    by_cases hempty : (askPrices.isEmpty && bidPrices.isEmpty) = true
    · simp only [hempty, if_true]
      rw [and_eq_true, List.isEmpty_iff, List.isEmpty_iff] at hempty
      rw [hempty.1, hempty.2]
      exact ⟨rfl, rfl⟩
    · simp only [hempty, false_eq_true, if_false]
      exact ⟨rfl, rfl⟩

theorem ne_noOrderSide {side : OrderSide} (hs : side.asSpecified = some s) :
    side ≠ .noOrderSide := by
  rintro rfl
  cases hs

theorem resolvedOrder_eq (h : b.resolvedOrder delta = some order) :
    order = { delta.order with side := order.side } := by
  unfold resolvedOrder at h
  split at h
  · rcases b.resolveNoSideOrder_cases delta.order with ⟨s, heq⟩ | heq
    · rw [heq] at h
      cases h
      rfl
    · rw [heq] at h
      cases h
  · cases h
    rfl

variable (b)

variable [Build] [BookCode]

def actionCalls (action : BookAction) (order : BookOrder) (flags : UInt8)
    (s : OrderSideSpecified) : List LadderCall :=
  let order := preProcessOrder b.bookType order flags
  if order.side.asSpecified = some s then
    match action with
    | .add => [.add order flags]
    | .update => [.update order flags]
    | .delete => [.removeOrder order.orderId]
    | .clear => []
  else
    []

def deltaCalls (delta : OrderBookDelta) (s : OrderSideSpecified) : List LadderCall :=
  if delta.action = .clear then
    [.clear]
  else
    match b.resolvedOrder delta with
    | some order => b.actionCalls delta.action order delta.flags s
    | none => []

def keptOrders (side : OrderSide) (orders : List BookOrder) : List BookOrder :=
  orders.filter fun order => order.side = side && order.size.isPositive

def depthOrders (depth : OrderBookDepth10) (s : OrderSideSpecified) : List BookOrder :=
  match s with
  | .buy => keptOrders .buy depth.bids
  | .sell => keptOrders .sell depth.asks

def depthCalls (depth : OrderBookDepth10) (s : OrderSideSpecified) : List LadderCall :=
  .clear :: (depthOrders depth s).map fun order =>
    .add (preProcessOrder b.bookType order depth.flags) depth.flags

def topCalls (l : BookLadder) (order : BookOrder) : List LadderCall :=
  match l.top.bind BookLevel.first with
  | some topOrder => [.removeOrder topOrder.orderId, .add order 0]
  | none => [.add order 0]

def tickCalls (bid ask : BookOrder) (tsEvent : UnixNanos)
    (s : OrderSideSpecified) : List LadderCall :=
  if b.bookType ≠ .l1Mbp ∨ tsEvent < b.tsLast then []
  else
    match s with
    | .buy => topCalls b.bids bid
    | .sell => topCalls b.asks ask

def staleCalls (side : Option OrderSide) (s : OrderSideSpecified) : List LadderCall :=
  match s with
  | .buy => (b.stalePrices side).1.map .removeLevel
  | .sell => (b.stalePrices side).2.map .removeLevel

def calls (op : BookOp) (s : OrderSideSpecified) : List LadderCall :=
  match op with
  | .add order flags _ _ => b.actionCalls .add order flags s
  | .update order flags _ _ => b.actionCalls .update order flags s
  | .delete order flags _ _ => b.actionCalls .delete order flags s
  | .clear _ _ => [.clear]
  | .clearBids _ _ => if s = .buy then [.clear] else []
  | .clearAsks _ _ => if s = .sell then [.clear] else []
  | .clearStaleLevels side => b.staleCalls side s
  | .applyDelta delta => if delta.instrumentId ≠ b.instrumentId then [] else b.deltaCalls delta s
  | .applyDeltaUnchecked delta => b.deltaCalls delta s
  | .applyDepth depth => if depth.instrumentId ≠ b.instrumentId then [] else b.depthCalls depth s
  | .applyDepthUnchecked depth => b.depthCalls depth s
  | .updateQuoteTick quote =>
    b.tickCalls ⟨.buy, quote.bidPrice, quote.bidSize, OrderSide.buy.toUInt64⟩
      ⟨.sell, quote.askPrice, quote.askSize, OrderSide.sell.toUInt64⟩ quote.tsEvent s
  | .updateTradeTick trade =>
    b.tickCalls ⟨.buy, trade.price, trade.size, OrderSide.buy.toUInt64⟩
      ⟨.sell, trade.price, trade.size, OrderSide.sell.toUInt64⟩ trade.tsEvent s
  | .reset => [.clear]

/-! ## A step is a run of its calls -/

variable {b}

/-- The call leaves the book alone, or writes the ladders and counts itself. -/
def Updates (b b' : OrderBook) : Prop :=
  b' = b ∨ ∃ bids asks sequence tsEvent, b' = { b with bids, asks }.increment sequence tsEvent

/-- What a completed operation does to the book, with the calls it makes on each ladder. -/
structure Performs (b : OrderBook) (calls : OrderSideSpecified → List LadderCall)
    (b' : OrderBook) : Prop where
  updates : Updates b b'
  runs : ∀ s, runs BookLadder.call (b.ladder s) (calls s) = some (b'.ladder s)

theorem Performs.nothing (b : OrderBook) : Performs b (fun _ => []) b := ⟨.inl rfl, fun _ => rfl⟩

/-- The call of an action is made on the side of its order, and none on the other. -/
theorem performs_action {s₀ : OrderSideSpecified}
    (hs : (preProcessOrder b.bookType order flags).side.asSpecified = some s₀)
    (hc : b.actionCalls action order flags s₀ = [c]) (hl : (b.ladder s₀).call c = some l') :
    Performs b (b.actionCalls action order flags)
      ((b.setLadder s₀ l').increment sequence tsEvent) := by
  refine ⟨?_, fun s => ?_⟩
  · cases s₀ with
    | buy => exact .inr ⟨l', b.asks, sequence, tsEvent, rfl⟩
    | sell => exact .inr ⟨b.bids, l', sequence, tsEvent, rfl⟩
  rw [ladder_increment]
  by_cases h : s₀ = s
  · subst h
    rw [hc, runs_cons, hl, ladder_setLadder_self]
    rfl
  have hnone : b.actionCalls action order flags s = [] := by
    refine if_neg ?_
    rw [hs]
    exact fun he => h (some.inj he)
  rw [hnone, ladder_setLadder_of_ne b l' (Ne.symm h)]
  rfl

theorem add_performs (h : b.add order flags sequence tsEvent = some b') :
    Performs b (b.actionCalls .add order flags) b' := by
  obtain ⟨_, hs, heq⟩ := bind_eq_some_iff.mp h
  cases heq
  exact performs_action hs (if_pos hs) rfl

theorem update_performs (h : b.update order flags sequence tsEvent = some b') :
    Performs b (b.actionCalls .update order flags) b' := by
  obtain ⟨_, hs, heq⟩ := bind_eq_some_iff.mp h
  cases heq
  exact performs_action hs (if_pos hs) rfl

theorem delete_performs (h : b.delete order flags sequence tsEvent = some b') :
    Performs b (b.actionCalls .delete order flags) b' := by
  obtain ⟨_, hs, h⟩ := bind_eq_some_iff.mp h
  obtain ⟨_, hl', heq⟩ := bind_eq_some_iff.mp h
  cases heq
  exact performs_action hs (if_pos hs) hl'

theorem dispatchDelta_performs (hne : delta.action ≠ .clear)
    (h : b.dispatchDelta delta order = some (b', result)) :
    Performs b (b.actionCalls delta.action order delta.flags) b' := by
  unfold dispatchDelta at h
  by_cases hside : order.side = .noOrderSide
  · rw [if_pos ⟨hside, hne⟩] at h
    cases h
    have hnone : b.actionCalls delta.action order delta.flags = fun _ => [] :=
      funext fun s => if_neg (by rw [preProcessOrder_side, hside]; nofun)
    rw [hnone]
    exact .nothing b
  · rw [if_neg fun hc => hside hc.1] at h
    obtain ⟨_, hb₁, heq⟩ := map_eq_some_iff.mp h
    cases heq
    unfold applyAction at hb₁
    cases ha : delta.action with
    | add => exact add_performs (by simpa only [ha] using hb₁)
    | update => exact update_performs (by simpa only [ha] using hb₁)
    | delete => exact delete_performs (by simpa only [ha] using hb₁)
    | clear => exact absurd ha hne

theorem applyDeltaUnchecked_clear (h : delta.action = .clear) :
    b.applyDeltaUnchecked delta = some (b.clear delta.sequence delta.tsEvent, .ok ()) := by
  have hdispatch : ∀ order, b.dispatchDelta delta order =
      some (b.clear delta.sequence delta.tsEvent, .ok ()) := by
    intro order
    simp [dispatchDelta, applyAction, h]
  unfold applyDeltaUnchecked
  split
  · rcases b.resolveNoSideOrder_cases delta.order with ⟨s, heq⟩ | heq
    · rw [heq]
      exact hdispatch _
    · simpa only [heq, h] using hdispatch delta.order
  · exact hdispatch delta.order

theorem applyDeltaUnchecked_performs (h : b.applyDeltaUnchecked delta = some (b', result)) :
    Performs b (b.deltaCalls delta) b' := by
  by_cases hclear : delta.action = .clear
  · rw [applyDeltaUnchecked_clear hclear] at h
    cases h
    refine ⟨.inr ⟨_, _, _, _, rfl⟩, fun s => ?_⟩
    rw [deltaCalls, if_pos hclear, clear, ladder_increment]
    cases s <;> rfl
  unfold applyDeltaUnchecked at h
  unfold deltaCalls resolvedOrder
  simp only [if_neg hclear]
  split_ifs at h with hno
  · rw [if_pos hno]
    rcases b.resolveNoSideOrder_cases delta.order with ⟨_, heq⟩ | heq
    · rw [heq] at h ⊢
      exact dispatchDelta_performs hclear h
    -- an unknown id changes nothing, with or without an error
    have hb' : b' = b := by
      rw [heq] at h
      cases ha : delta.action with
      | add | update | delete =>
        rw [ha] at h
        cases h
        rfl
      | clear => exact absurd ha hclear
    rw [heq, hb']
    exact .nothing b
  · rw [if_neg hno]
    exact dispatchDelta_performs hclear h

/-! ### Depth snapshots, stale levels, ticks -/

theorem addDepthSide_calls (bookType : BookType) (s : OrderSideSpecified) (flags : UInt8)
    (orders : List BookOrder) (l : BookLadder) :
    runs call l ((keptOrders s.asOrderSide orders).map fun order =>
        .add (preProcessOrder bookType order flags) flags) =
      some (addDepthSide bookType s.asOrderSide flags l orders) := by
  induction orders generalizing l with
  | nil => rfl
  | cons order orders ih =>
    have hspec : s.asOrderSide ≠ .noOrderSide := by cases s <;> nofun
    unfold keptOrders addDepthSide
    rw [filter_cons, foldl_cons]
    by_cases hpos : order.size.isPositive = true
    · by_cases hside : order.side = s.asOrderSide
      · rw [if_pos (by simp [hside, hpos]), map_cons, runs_cons]
        have hkeep : ¬ (order.side = .noOrderSide ∨ (!order.size.isPositive) = true) := by
          simp [hside, hspec, hpos]
        rw [if_neg hkeep, if_neg (not_not.mpr hside)]
        exact ih (l.add (preProcessOrder bookType order flags) flags)
      · -- the loop passes over an order of the other side
        rw [if_neg (by simp [hside])]
        rw [if_pos hside, ite_self]
        exact ih l
    · -- and over one without a size
      rw [if_neg (by simp [hpos]), if_pos (.inr (by simpa using hpos))]
      exact ih l

theorem applyDepthUnchecked_calls (b : OrderBook) (depth : OrderBookDepth10)
    (s : OrderSideSpecified) :
    runs call (b.ladder s) (b.depthCalls depth s) =
      some ((b.applyDepthUnchecked depth).ladder s) := by
  unfold applyDepthUnchecked depthCalls
  cases s with
  | buy => exact addDepthSide_calls b.bookType .buy depth.flags depth.bids b.bids.clear
  | sell => exact addDepthSide_calls b.bookType .sell depth.flags depth.asks b.asks.clear

theorem removeLevels_calls (prices : List BookPrice) (l : BookLadder) :
    runs call l (prices.map .removeLevel) = some (removeLevels l prices).1 := by
  induction prices generalizing l with
  | nil => rfl
  | cons price prices ih => exact ih (l.removeLevel price).1

theorem clearStaleLevels_performs (b : OrderBook) (side : Option OrderSide) :
    Performs b (b.staleCalls side) (b.clearStaleLevels side).1 := by
  obtain ⟨hbids, hasks⟩ := b.clearStaleLevels_ladders side
  refine ⟨?_, fun s => ?_⟩
  · unfold clearStaleLevels
    dsimp only
    split
    · exact .inl rfl
    · exact .inr ⟨_, _, _, _, rfl⟩
  · cases s with
    | buy =>
      show Lib.runs _ b.bids _ = some (b.clearStaleLevels side).1.bids
      rw [hbids]
      exact removeLevels_calls (b.stalePrices side).1 b.bids
    | sell =>
      show Lib.runs _ b.asks _ = some (b.clearStaleLevels side).1.asks
      rw [hasks]
      exact removeLevels_calls (b.stalePrices side).2 b.asks

theorem updateTop_calls (h : updateTop l order = some l') :
    runs call l (topCalls l order) = some l' := by
  unfold updateTop at h
  unfold topCalls
  cases htop : l.top.bind BookLevel.first with
  | some topOrder =>
    rw [htop] at h
    obtain ⟨l₁, hl₁, heq⟩ := bind_eq_some_iff.mp h
    cases heq
    have hcall : l.call (.removeOrder topOrder.orderId) = some l₁ := hl₁
    simp only [runs_cons, hcall, bind_some]
    rfl
  | none =>
    rw [htop] at h
    cases h
    rfl

/-- The two tick updates: nothing on a stale tick or on another type of book. -/
theorem tick_performs {result : Except InvalidBookOperation Unit} {e : InvalidBookOperation}
    (h : (if b.bookType ≠ .l1Mbp then some (b, .error e)
      else if tsEvent < b.tsLast then some (b, .ok ())
      else (b.updateBothTops bid ask tsEvent).map fun b => (b, .ok ())) = some (b', result)) :
    Performs b (b.tickCalls bid ask tsEvent) b' := by
  by_cases hskip : b.bookType ≠ .l1Mbp ∨ tsEvent < b.tsLast
  · have hcalls : b.tickCalls bid ask tsEvent = fun _ => [] := funext fun s => if_pos hskip
    rw [hcalls]
    split at h
    · cases h
      exact .nothing b
    · rename_i ht
      rw [if_pos (hskip.resolve_left ht)] at h
      cases h
      exact .nothing b
  · rw [if_neg (not_or.mp hskip).1, if_neg (not_or.mp hskip).2] at h
    obtain ⟨_, hb₁, heq⟩ := map_eq_some_iff.mp h
    cases heq
    obtain ⟨_, hbids, hb₁⟩ := bind_eq_some_iff.mp hb₁
    obtain ⟨_, hasks, heq⟩ := bind_eq_some_iff.mp hb₁
    cases heq
    refine ⟨.inr ⟨_, _, _, _, rfl⟩, fun s => ?_⟩
    unfold tickCalls
    rw [if_neg hskip]
    cases s with
    | buy => exact updateTop_calls hbids
    | sell => exact updateTop_calls hasks

theorem step_performs (hop : op ≠ .reset) (h : b.step op = some b') :
    Performs b (b.calls op) b' := by
  cases op with
  | add order flags sequence tsEvent => exact add_performs h
  | update order flags sequence tsEvent => exact update_performs h
  | delete order flags sequence tsEvent => exact delete_performs h
  | clear sequence tsEvent | clearBids sequence tsEvent | clearAsks sequence tsEvent =>
    cases h
    refine ⟨.inr ⟨_, _, _, _, rfl⟩, fun s => ?_⟩
    cases s <;> rfl
  | clearStaleLevels side =>
    cases h
    exact b.clearStaleLevels_performs side
  | applyDelta delta =>
    obtain ⟨⟨b₁, result⟩, hb₁, heq⟩ := map_eq_some_iff.mp h
    cases heq
    unfold applyDelta at hb₁
    unfold calls
    split at hb₁
    · rename_i hne
      cases hb₁
      simp only [if_pos hne]
      exact .nothing b
    · rename_i heq
      simp only [if_neg heq]
      exact applyDeltaUnchecked_performs hb₁
  | applyDeltaUnchecked delta =>
    obtain ⟨⟨b₁, result⟩, hb₁, heq⟩ := map_eq_some_iff.mp h
    cases heq
    exact applyDeltaUnchecked_performs hb₁
  | applyDepth depth =>
    cases h
    unfold calls applyDepth
    by_cases hne : depth.instrumentId ≠ b.instrumentId
    · simp only [if_pos hne]
      exact .nothing b
    · simp only [if_neg hne]
      exact ⟨.inr ⟨_, _, _, _, rfl⟩, b.applyDepthUnchecked_calls depth⟩
  | applyDepthUnchecked depth =>
    cases h
    exact ⟨.inr ⟨_, _, _, _, rfl⟩, b.applyDepthUnchecked_calls depth⟩
  | updateQuoteTick quote | updateTradeTick trade =>
    obtain ⟨⟨b₁, result⟩, hb₁, heq⟩ := map_eq_some_iff.mp h
    cases heq
    exact tick_performs hb₁
  | reset => exact absurd rfl hop

/-- Every call but `reset` leaves the book alone, or writes it and counts itself. -/
theorem updates_step (hop : op ≠ .reset) (h : b.step op = some b') : Updates b b' :=
  (step_performs hop h).updates

/-- **A completed step runs its calls on each ladder, and nothing else.** -/
theorem step_calls (h : b.step op = some b') (s : OrderSideSpecified) :
    runs call (b.ladder s) (b.calls op s) = some (b'.ladder s) := by
  by_cases hop : op = .reset
  · subst hop
    cases h
    cases s <;> rfl
  · exact (step_performs hop h).runs s

end OrderBook

/-! ## The orders in the calls -/

section Orders

variable [BookCode]

/-- The orders an operation is given. -/
def BookOp.orders : BookOp → List BookOrder
  | .add order _ _ _ | .update order _ _ _ | .delete order _ _ _ => [order]
  | .applyDelta delta | .applyDeltaUnchecked delta => [delta.order]
  | .applyDepth depth | .applyDepthUnchecked depth => depth.bids ++ depth.asks
  | .updateQuoteTick quote =>
    [⟨.buy, quote.bidPrice, quote.bidSize, OrderSide.buy.toUInt64⟩,
      ⟨.sell, quote.askPrice, quote.askSize, OrderSide.sell.toUInt64⟩]
  | .updateTradeTick trade =>
    [⟨.buy, trade.price, trade.size, OrderSide.buy.toUInt64⟩,
      ⟨.sell, trade.price, trade.size, OrderSide.sell.toUInt64⟩]
  | .clear _ _ | .clearBids _ _ | .clearAsks _ _ | .clearStaleLevels _ | .reset => []

/-- L1 and L2 books do not use the id an order comes with. -/
structure IdOk (bookType : BookType) (order : BookOrder) : Prop where
  l1 : bookType = .l1Mbp → order.orderId = order.side.toUInt64
  l2 : bookType = .l2Mbp → order.orderId = priceBasedOrderId order

theorem idOk_preProcessOrder (bookType : BookType) (order : BookOrder) (flags : UInt8) :
    IdOk bookType (preProcessOrder bookType order flags) := by
  constructor
  · rintro rfl
    rfl
  · rintro rfl
    rfl

structure Arrives (bookType : BookType) (op : BookOp) (s : OrderSideSpecified)
    (order : BookOrder) : Prop where
  side : order.side.asSpecified = some s
  idOk : IdOk bookType order
  given : ∃ o ∈ op.orders, o.price = order.price ∧ o.size = order.size

theorem arrives_preProcessOrder (flags : UInt8) (hside : order.side.asSpecified = some s)
    (hgiven : ∃ o ∈ op.orders, o.price = order.price ∧ o.size = order.size) :
    Arrives bookType op s (preProcessOrder bookType order flags) := by
  refine ⟨?_, idOk_preProcessOrder bookType order flags, ?_⟩
  · rw [preProcessOrder_side]
    exact hside
  · rw [preProcessOrder_price, preProcessOrder_size]
    exact hgiven

namespace OrderBook

theorem arrives_of_actionCalls (hc : c ∈ b.actionCalls action order flags s)
    (hs : c.stores = some stored)
    (hgiven : ∃ o ∈ op.orders, o.price = order.price ∧ o.size = order.size) :
    Arrives b.bookType op s stored := by
  by_cases hside : (preProcessOrder b.bookType order flags).side.asSpecified = some s
  · simp only [actionCalls, if_pos hside] at hc
    rw [preProcessOrder_side] at hside
    have hstored : stored = preProcessOrder b.bookType order flags := by
      cases action with
      | add | update => cases mem_singleton.mp hc; exact (some.inj hs).symm
      | delete => cases mem_singleton.mp hc; nomatch hs
      | clear => nomatch hc
    rw [hstored]
    exact arrives_preProcessOrder flags hside hgiven
  · simp only [actionCalls, if_neg hside] at hc
    cases hc

theorem arrives_of_deltaCalls (hc : c ∈ b.deltaCalls delta s)
    (hs : c.stores = some stored) (hgiven : delta.order ∈ op.orders) :
    Arrives b.bookType op s stored := by
  unfold deltaCalls at hc
  split at hc
  · cases mem_singleton.mp hc
    cases hs
  cases hr : b.resolvedOrder delta with
  | none =>
    rw [hr] at hc
    cases hc
  | some order =>
    rw [hr] at hc
    have hsame : delta.order.price = order.price ∧ delta.order.size = order.size := by
      rw [resolvedOrder_eq hr]
      exact ⟨rfl, rfl⟩
    exact arrives_of_actionCalls hc hs ⟨delta.order, hgiven, hsame⟩

theorem arrives_of_tickCalls (hc : c ∈ b.tickCalls bid ask tsEvent s) (hs : c.stores = some stored)
    (hbid : bid ∈ op.orders ∧ bid.side = .buy ∧ bid.orderId = OrderSide.buy.toUInt64)
    (hask : ask ∈ op.orders ∧ ask.side = .sell ∧ ask.orderId = OrderSide.sell.toUInt64) :
    Arrives b.bookType op s stored := by
  unfold tickCalls at hc
  split at hc
  · cases hc
  rename_i hl1
  have ht : b.bookType = .l1Mbp := not_not.mp (not_or.mp hl1).1
  -- whether or not the old top is removed first, only the new one is stored
  have hstored : ∀ (l : BookLadder) (order : BookOrder),
      c ∈ topCalls l order → stored = order := by
    intro l order hmem
    unfold topCalls at hmem
    split at hmem
    · rcases mem_cons.mp hmem with rfl | hmem
      · cases hs
      · cases mem_singleton.mp hmem
        exact (some.inj hs).symm
    · cases mem_singleton.mp hmem
      exact (some.inj hs).symm
  cases s with
  | buy =>
    obtain ⟨hmem, hside, hid⟩ := hbid
    rw [hstored _ _ hc]
    refine ⟨by rw [hside]; rfl, ⟨fun _ => by rw [hid, hside], ?_⟩, bid, hmem, rfl, rfl⟩
    intro hl2
    rw [ht] at hl2
    nomatch hl2
  | sell =>
    obtain ⟨hmem, hside, hid⟩ := hask
    rw [hstored _ _ hc]
    refine ⟨by rw [hside]; rfl, ⟨fun _ => by rw [hid, hside], ?_⟩, ask, hmem, rfl, rfl⟩
    intro hl2
    rw [ht] at hl2
    nomatch hl2

variable [Build]

omit [BookCode] in
/-- The orders of a depth that count: of the ladder's side and of positive size. -/
theorem mem_depthOrders {depth : OrderBookDepth10} (h : order ∈ depthOrders depth s) :
    order ∈ depth.bids ++ depth.asks ∧ order.side.asSpecified = some s ∧
      order.size.isPositive = true := by
  cases s with
  | buy =>
    obtain ⟨hmem, hkeep⟩ := mem_filter.mp h
    rw [and_eq_true, decide_eq_true_eq] at hkeep
    exact ⟨mem_append_left _ hmem, by rw [hkeep.1]; rfl, hkeep.2⟩
  | sell =>
    obtain ⟨hmem, hkeep⟩ := mem_filter.mp h
    rw [and_eq_true, decide_eq_true_eq] at hkeep
    exact ⟨mem_append_right _ hmem, by rw [hkeep.1]; rfl, hkeep.2⟩

theorem arrives_of_depthCalls {depth : OrderBookDepth10}
    (hc : c ∈ b.depthCalls depth s) (hs : c.stores = some stored)
    (hgiven : ∀ order ∈ depth.bids ++ depth.asks, order ∈ op.orders) :
    Arrives b.bookType op s stored := by
  rcases mem_cons.mp hc with rfl | hc
  · cases hs
  obtain ⟨order, horder, rfl⟩ := mem_map.mp hc
  cases hs
  obtain ⟨hin, hside, -⟩ := mem_depthOrders horder
  exact arrives_preProcessOrder depth.flags hside ⟨order, hgiven order hin, rfl, rfl⟩

omit [Build] [BookCode] in
theorem stores_of_staleCalls {side : Option OrderSide}
    (hc : c ∈ b.staleCalls side s) : c.stores = none := by
  cases s <;> (obtain ⟨_, -, rfl⟩ := mem_map.mp hc; rfl)

/-- Every order a step hands to a ladder arrives there in the sense of `Arrives`. -/
theorem arrives_of_calls (hc : c ∈ b.calls op s) (hs : c.stores = some stored) :
    Arrives b.bookType op s stored := by
  -- a clear stores nothing
  have hclear : ∀ cond : Bool, c ∈ (if cond then [LadderCall.clear] else []) →
      Arrives b.bookType op s stored := by
    intro cond hmem
    cases cond with
    | true =>
      cases mem_singleton.mp hmem
      cases hs
    | false => nomatch hmem
  cases op with
  | add order _ _ _ | update order _ _ _ | delete order _ _ _ =>
    unfold calls at hc
    exact arrives_of_actionCalls hc hs ⟨order, mem_singleton_self _, rfl, rfl⟩
  | clear sequence tsEvent => exact hclear true hc
  | clearBids sequence tsEvent => exact hclear (s = .buy) (by simpa [calls] using hc)
  | clearAsks sequence tsEvent => exact hclear (s = .sell) (by simpa [calls] using hc)
  | clearStaleLevels side =>
    rw [stores_of_staleCalls hc] at hs
    cases hs
  | applyDelta delta =>
    simp only [calls] at hc
    split at hc
    · cases hc
    · exact arrives_of_deltaCalls hc hs (mem_singleton_self _)
  | applyDeltaUnchecked delta => exact arrives_of_deltaCalls hc hs (mem_singleton_self _)
  | applyDepth depth =>
    simp only [calls] at hc
    split at hc
    · cases hc
    · exact arrives_of_depthCalls hc hs fun _ h => h
  | applyDepthUnchecked depth => exact arrives_of_depthCalls hc hs fun _ h => h
  | updateQuoteTick quote | updateTradeTick trade =>
    exact arrives_of_tickCalls hc hs ⟨mem_cons_self, rfl, rfl⟩
      ⟨mem_cons_of_mem _ mem_cons_self, rfl, rfl⟩
  | reset => exact hclear true hc

/-! ## Books in good shape -/

/-- The ladders are the book's own, and their levels are in good shape. -/
structure WellFormed (b : OrderBook) : Prop where
  side : ∀ s, (b.ladder s).side = s
  bookType : ∀ s, (b.ladder s).bookType = b.bookType
  levelsOk : ∀ s, (b.ladder s).LevelsOk

omit [Build] [BookCode] in
theorem wellFormed_new (instrumentId : InstrumentId) (bookType : BookType) :
    (new instrumentId bookType).WellFormed := by
  refine ⟨?_, ?_, ?_⟩
  · intro s
    cases s <;> rfl
  · intro s
    cases s <;> rfl
  · intro s
    cases s <;> exact levelsOk_of_levels_empty rfl

/-- The two fields no operation touches. -/
def SameBook (b b' : OrderBook) : Prop :=
  b'.instrumentId = b.instrumentId ∧ b'.bookType = b.bookType

theorem sameBook_step (h : b.step op = some b') : SameBook b b' := by
  by_cases hop : op = .reset
  · subst hop
    cases h
    exact ⟨rfl, rfl⟩
  · rcases updates_step hop h with rfl | ⟨_, _, _, _, rfl⟩ <;> exact ⟨rfl, rfl⟩

/-- **Invariants of ladders are invariants of books**: what every call with an
arriving order keeps, a step keeps. -/
theorem step_ladder_inv {P : BookLadder → Prop} (hside : (b.ladder s).side = s)
    (htype : (b.ladder s).bookType = b.bookType)
    (hcall : ∀ l c l', l.side = s → l.bookType = b.bookType →
      (∀ order, c.stores = some order → Arrives b.bookType op s order) →
      l.call c = some l' → P l → P l') (h : b.step op = some b') (hp : P (b.ladder s)) :
    (b'.ladder s).side = s ∧ (b'.ladder s).bookType = b.bookType ∧ P (b'.ladder s) := by
  refine runs_inv_mem (fun l => l.side = s ∧ l.bookType = b.bookType ∧ P l) ?_
    ⟨hside, htype, hp⟩ (step_calls h s)
  rintro l c l' hc ⟨hs, ht, hpl⟩ hl
  obtain ⟨hs', ht'⟩ := call_fields hl
  exact ⟨hs'.trans hs, ht'.trans ht,
    hcall l c l' hs ht (fun order ho => arrives_of_calls hc ho) hl hpl⟩

theorem WellFormed.step (hb : b.WellFormed) (h : b.step op = some b') : b'.WellFormed := by
  have hinv := fun s => step_ladder_inv (hb.side s) (hb.bookType s)
    (fun l c l' hs _ harr hl (hok : l.LevelsOk) =>
      hok.call (fun order ho => hs ▸ (harr order ho).side) hl) h (hb.levelsOk s)
  refine ⟨fun s => (hinv s).1, fun s => ?_, fun s => (hinv s).2.2⟩
  rw [(sameBook_step h).2]
  exact (hinv s).2.1

theorem wellFormed_of_runs
    (h : runs OrderBook.step (new instrumentId bookType) ops = some b) : b.WellFormed :=
  runs_inv (fun _ _ _ hb hs => WellFormed.step hb hs) (wellFormed_new instrumentId bookType) h

theorem sameBook_of_runs (h : runs OrderBook.step b ops = some b') : SameBook b b' :=
  runs_inv_mem (SameBook b)
    (fun _ _ _ _ hb hs => ⟨(sameBook_step hs).1.trans hb.1, (sameBook_step hs).2.trans hb.2⟩)
    ⟨rfl, rfl⟩ h

/-! ## Stored orders -/

def Stored (Good : BookOrder → Prop) (b : OrderBook) : Prop :=
  ∀ s p id order, (b.ladder s).order? p id = some order → Good order

omit [Build] [BookCode] in
theorem stored_new (Good : BookOrder → Prop) (instrumentId : InstrumentId)
    (bookType : BookType) : (new instrumentId bookType).Stored Good := by
  intro s p id order ho
  cases s <;> nomatch ho

/-- What holds of every non-empty order that an operation brings holds of every order stored after
it. -/
theorem Stored.step {Good : BookOrder → Prop} (hst : b.Stored Good) (hb : b.WellFormed)
    (hgood : ∀ s order, Arrives b.bookType op s order → order.size.raw ≠ 0 → Good order)
    (h : b.step op = some b') : b'.Stored Good := by
  intro s
  refine (step_ladder_inv (P := fun l => ∀ p id order, l.order? p id = some order → Good order)
    (hb.side s) (hb.bookType s) ?_ h (hst s)).2.2
  intro l c l' _ _ harr hl hp p id order ho
  rcases call_order? hl ho with hold | ⟨hstored, hne⟩
  · exact hp p id order hold
  · exact hgood s order (harr order hstored) hne

theorem stored_of_runs {Good : BookOrder → Prop}
    (hgood : ∀ op ∈ ops, ∀ s order, Arrives bookType op s order → order.size.raw ≠ 0 →
      Good order) (h : runs OrderBook.step (new instrumentId bookType) ops = some b) :
    b.Stored Good := by
  refine (runs_inv_mem (fun b => b.WellFormed ∧ b.bookType = bookType ∧ b.Stored Good) ?_
    ⟨wellFormed_new instrumentId bookType, rfl, stored_new Good instrumentId bookType⟩ h).2.2
  rintro b op b' hop ⟨hb, ht, hst⟩ hstep
  refine ⟨hb.step hstep, (sameBook_step hstep).2.trans ht, hst.step hb ?_ hstep⟩
  intro s order harr hne
  exact hgood op hop s order (ht ▸ harr) hne

/-! ## Lists of deltas -/

theorem applyDeltaUnchecked_add (ha : delta.action = .add)
    (hs : delta.order.side.asSpecified = some s) :
    b.applyDeltaUnchecked delta =
      some ((b.setLadder s ((b.ladder s).add
          (preProcessOrder b.bookType delta.order delta.flags) delta.flags)).increment
        delta.sequence delta.tsEvent, .ok ()) := by
  have hside := ne_noOrderSide hs
  have hpre : (preProcessOrder b.bookType delta.order delta.flags).side.asSpecified = some s := by
    rw [preProcessOrder_side]
    exact hs
  unfold applyDeltaUnchecked dispatchDelta applyAction
  rw [if_neg fun hc => hside hc.1, if_neg fun hc => hside hc.1, ha]
  show (b.add delta.order delta.flags delta.sequence delta.tsEvent).map _ = _
  rw [add, hpre]
  rfl

def addAll (bookType : BookType) (s : OrderSideSpecified) (l : BookLadder)
    (deltas : List OrderBookDelta) : BookLadder :=
  (deltas.filter fun delta => delta.order.side.asSpecified = some s).foldl
    (fun l delta => l.add (preProcessOrder bookType delta.order delta.flags) delta.flags) l

/-- **A list of `Add`s** with sides succeeds, and each ladder sees its own. -/
theorem applyDeltasUnchecked_adds (hadd : ∀ delta ∈ deltas, delta.action = .add ∧
      ∃ s, delta.order.side.asSpecified = some s) :
    ∃ b', b.applyDeltasUnchecked deltas = some (b', .ok ()) ∧ SameBook b b' ∧
      (∀ s, b'.ladder s = addAll b.bookType s (b.ladder s) deltas) ∧
      ((∀ delta ∈ deltas, delta.sequence ≤ b.sequence) → b'.sequence = b.sequence) := by
  induction deltas generalizing b with
  | nil => exact ⟨b, rfl, ⟨rfl, rfl⟩, fun s => rfl, fun _ => rfl⟩
  | cons delta deltas ih =>
    obtain ⟨ha, s₀, hs₀⟩ := hadd delta mem_cons_self
    have hstep := applyDeltaUnchecked_add (b := b) ha hs₀
    set b₁ := (b.setLadder s₀ ((b.ladder s₀).add
      (preProcessOrder b.bookType delta.order delta.flags) delta.flags)).increment
        delta.sequence delta.tsEvent with hb₁
    have hsame : SameBook b b₁ := by cases s₀ <;> exact ⟨rfl, rfl⟩
    obtain ⟨b', hrun, hsame', hladder, hseq⟩ := ih fun d hd => hadd d (mem_cons_of_mem _ hd)
    -- the first add goes to the ladder of its side, the induction hypothesis does the rest
    refine ⟨b', ?_, ⟨hsame'.1.trans hsame.1, hsame'.2.trans hsame.2⟩, ?_, ?_⟩
    · rw [applyDeltasUnchecked, hstep]
      exact hrun
    · intro s
      rw [hladder s, hsame.2, hb₁, ladder_increment]
      by_cases hs : s = s₀
      · subst hs
        rw [ladder_setLadder_self, addAll, addAll, filter_cons, if_pos (decide_eq_true hs₀),
          foldl_cons]
      · rw [ladder_setLadder_of_ne b _ hs, addAll, addAll, filter_cons, if_neg]
        rw [hs₀, decide_eq_true_iff]
        exact fun he => hs (some.inj he).symm
    · intro hle
      -- the sequence is a running maximum
      have hb₁seq : b₁.sequence = b.sequence := by
        have hset : ∀ l, (b.setLadder s₀ l).sequence = b.sequence := by
          intro l
          cases s₀ <;> rfl
        show max delta.sequence (b.setLadder s₀ _).sequence = b.sequence
        rw [hset]
        exact max_eq_right (hle delta mem_cons_self)
      rw [hseq, hb₁seq]
      intro d hd
      rw [hb₁seq]
      exact hle d (mem_cons_of_mem _ hd)

/-- `apply_deltas` goes through states of `apply_delta_unchecked` only, also up to an error. -/
theorem applyDeltasUnchecked_runs (h : b.applyDeltasUnchecked deltas = some (b', result)) :
    ∃ applied, applied <+: deltas ∧
      runs step b (applied.map .applyDeltaUnchecked) = some b' := by
  induction deltas generalizing b with
  | nil =>
    cases h
    exact ⟨[], nil_prefix, rfl⟩
  | cons delta deltas ih =>
    rw [applyDeltasUnchecked] at h
    have hone : ∀ b₁ r, b.applyDeltaUnchecked delta = some (b₁, r) →
        b.step (.applyDeltaUnchecked delta) = some b₁ := by
      intro b₁ r hr
      show (b.applyDeltaUnchecked delta).map Prod.fst = _
      rw [hr]
      rfl
    split at h
    · -- the first delta is accepted: the loop goes on
      rename_i b₁ hr
      obtain ⟨applied, hpre, hruns⟩ := ih h
      refine ⟨delta :: applied, prefix_cons_inj delta |>.mpr hpre, ?_⟩
      rw [map_cons, runs_cons, hone b₁ _ hr]
      exact hruns
    · -- it is refused: the loop stops behind it
      refine ⟨[delta], prefix_cons_inj delta |>.mpr nil_prefix, ?_⟩
      rw [map_cons, runs_cons, hone b' result h]
      rfl

theorem WellFormed.applyDeltasUnchecked (hb : b.WellFormed)
    (h : b.applyDeltasUnchecked deltas = some (b', result)) : b'.WellFormed := by
  obtain ⟨_, -, hruns⟩ := applyDeltasUnchecked_runs h
  exact runs_inv (fun _ _ _ hb hs => WellFormed.step hb hs) hb hruns

end OrderBook

end Orders

end Nautilus
