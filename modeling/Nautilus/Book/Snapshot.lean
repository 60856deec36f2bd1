import Nautilus.Book.TopOfBook

/-!
# Snapshots of a book

`to_deltas` writes a book as a clear and one `Add` per order. The replay on a fresh book goes
through id preprocessing, the L1 batch machine and the insertion-ordered levels, and has to bring
the same book back.

`BookLadder.queues` is what a reader sees: the prices in order, with the orders queued at each.
Levels arrive best first, so each order opens a new last level or joins the last one.
-/

namespace Nautilus

open Lib List IndexMap BookLadder BookPrice Price

variable {deltas : List OrderBookDelta}
open RecordFlag (fLast fSnapshot)
open BookCode (toBookPrice)

variable {s : OrderSideSpecified} {p : BookPrice} {level : BookLevel} {l : BookLadder}
  {order : BookOrder} {es : List (BookPrice × BookLevel)} {bookType : BookType} {b : OrderBook}
  {instrumentId : InstrumentId} {ops : List BookOp}

namespace BookLadder

/-- The raw prices in order, with the orders queued at each. -/
def queues (l : BookLadder) : List (Int × List BookOrder) :=
  l.levels.entries.map fun e => (e.1.value.raw, e.2.orders.values)

theorem LevelOk.entries_eq (h : LevelOk s p level) :
    level.orders.entries = level.orders.values.map fun order => (order.orderId, order) := by
  unfold values
  rw [map_map]
  refine (map_id' _).symm.trans (map_congr_left ?_)
  rintro ⟨id, order⟩ hmem
  have hid := (h.orders id order (get?_eq_some_iff.mpr hmem)).2.2
  show (id, order) = (order.orderId, order)
  rw [hid]

theorem LevelOk.nodup_ids (h : LevelOk s p level) :
    (level.orders.values.map BookOrder.orderId).Nodup := by
  have hkeys : level.orders.entries.map Prod.fst = level.orders.values.map BookOrder.orderId := by
    rw [h.entries_eq, map_map]
    rfl
  rw [← hkeys]
  exact level.orders.nodup

section Place

theorem orders_eq (l : BookLadder) :
    l.orders = l.levels.entries.flatMap fun e => e.2.orders.values := by
  unfold orders OrdMap.values
  rw [flatMap_map]

theorem exists_order?_of_mem_orders (h : order ∈ l.orders) :
    ∃ p id, l.order? p id = some order := by
  rw [orders_eq] at h
  obtain ⟨⟨p, _⟩, he, hmem⟩ := mem_flatMap.mp h
  obtain ⟨id, hget⟩ := mem_values_iff.mp hmem
  exact ⟨p, id, (order?_of_get? (OrdMap.get?_of_mem he) id).trans hget⟩

/-- A ladder with at most one level, whose orders all have one id, has at most one
order. -/
theorem OneLevel.queues_cases (h : l.OneLevel) (hok : l.LevelsOk) {id : OrderId}
    (hid : ∀ p id' order, l.order? p id' = some order → id' = id) :
    (l.queues = [] ∧ l.orders = []) ∨
    ∃ order, l.queues = [(order.price.raw, [order])] ∧ l.orders = [order] := by
  rw [orders_eq]
  unfold queues
  cases hes : l.levels.entries with
  | nil => exact .inl ⟨rfl, rfl⟩
  | cons e es =>
    obtain ⟨p, level⟩ := e
    have hget : l.levels.get? p = some level := OrdMap.get?_of_mem (hes ▸ mem_cons_self)
    -- a second entry would be a second price
    have hnil : es = [] := by
      cases es with
      | nil => rfl
      | cons e' es =>
        have hlt := (pairwise_cons.mp (hes ▸ l.levels.sorted)).1 e' mem_cons_self
        have hget' : l.levels.get? e'.1 = some e'.2 :=
          OrdMap.get?_of_mem (hes ▸ mem_cons_of_mem _ mem_cons_self)
        rw [h p e'.1 level e'.2 hget hget'] at hlt
        nomatch hlt
    obtain ⟨hlevel, hne⟩ := hok p level hget
    obtain ⟨id₀, order, horder⟩ := IndexMap.isEmpty_eq_false_iff.mp hne
    -- and a second order a second id
    have hsingle : level.orders.entries = [(id₀, order)] := by
      refine entries_eq_singleton horder ?_
      intro id' hmem
      obtain ⟨order', horder'⟩ := mem_keys_iff.mp hmem
      have hall := fun i o (ho : level.orders.get? i = some o) =>
        hid p i o ((order?_of_get? hget i).trans ho)
      rw [hall id' order' horder', hall id₀ order horder]
    have hvalues : level.orders.values = [order] := by
      unfold values
      rw [hsingle]
      rfl
    refine .inr ⟨order, ?_, ?_⟩
    · rw [hnil, map_cons, map_nil, hvalues, (hlevel.orders id₀ order horder).1]
    · rw [hnil, flatMap_cons, flatMap_nil, hvalues]
      rfl

variable [Build] [BookCode]

/-! ## Rebuilding the levels -/

theorem place_new_level (hpos : order.size.isPositive = true)
    (h : ∀ e ∈ l.levels.entries, e.1.cmp (toBookPrice order) = .lt) :
    ∃ level, (l.place order).levels.entries = l.levels.entries ++ [(toBookPrice order, level)] ∧
      level.orders.entries = [(order.orderId, order)] := by
  have hnone : l.levels.get? (toBookPrice order) = none := by
    rw [Option.eq_none_iff_forall_ne_some]
    intro level hget
    obtain ⟨p, hp, hmem⟩ := OrdMap.get?_eq_some_iff.mp hget
    have hlt : p.cmp (toBookPrice order) = .lt := h (p, level) hmem
    rw [hlt] at hp
    nomatch hp
  refine ⟨l.placedLevel order, ?_, ?_⟩
  · rw [place_levels]
    exact OrdMap.entries_insert_of_lt _ h
  · rw [placedLevel_orders hpos, hnone]
    rfl

theorem place_last_level (hpos : order.size.isPositive = true)
    (hes : l.levels.entries = es ++ [(p, level)]) (hp : p.cmp (toBookPrice order) = .eq)
    (hid : order.orderId ∉ level.orders.keys) :
    ∃ level', (l.place order).levels.entries = es ++ [(p, level')] ∧
      level'.orders.entries = level.orders.entries ++ [(order.orderId, order)] := by
  have hget : l.levels.get? (toBookPrice order) = some level := by
    refine OrdMap.get?_eq_some_iff.mpr ⟨p, hp, ?_⟩
    rw [hes]
    exact mem_append_right _ (mem_singleton_self _)
  refine ⟨l.placedLevel order, ?_, ?_⟩
  · rw [place_levels]
    exact OrdMap.entries_insert_last hes hp _
  · rw [placedLevel_orders hpos, hget]
    exact entries_insert_of_not_mem order hid

/-- A queue that arrives order by order, with distinct ids, joins the last level. -/
theorem foldl_place_last_level {orders : List BookOrder}
    (hes : l.levels.entries = es ++ [(p, level)])
    (horders : ∀ order ∈ orders, order.size.isPositive = true ∧
      p.cmp (toBookPrice order) = .eq)
    (hnd : (level.orders.keys ++ orders.map BookOrder.orderId).Nodup) :
    ∃ level', (orders.foldl place l).levels.entries = es ++ [(p, level')] ∧
      level'.orders.values = level.orders.values ++ orders := by
  induction orders generalizing l level with
  | nil => exact ⟨level, hes, (append_nil _).symm⟩
  | cons order orders ih =>
    obtain ⟨hpos, hp⟩ := horders order mem_cons_self
    -- a new id is appended to the queue
    have hid : order.orderId ∉ level.orders.keys := by
      intro hmem
      exact disjoint_of_nodup_append hnd hmem mem_cons_self
    obtain ⟨level₁, hes₁, hentries₁⟩ := place_last_level hpos hes hp hid
    have hkeys : level₁.orders.keys = level.orders.keys ++ [order.orderId] := by
      unfold IndexMap.keys
      rw [hentries₁, map_append]
      rfl
    have hvalues₁ : level₁.orders.values = level.orders.values ++ [order] := by
      unfold values
      rw [hentries₁, map_append]
      rfl
    have hnd₁ : (level₁.orders.keys ++ orders.map BookOrder.orderId).Nodup := by
      rw [hkeys, append_assoc]
      exact hnd
    obtain ⟨level', hes', hvalues⟩ := ih hes₁ (fun o ho => horders o (mem_cons_of_mem _ ho)) hnd₁
    refine ⟨level', hes', ?_⟩
    rw [hvalues, hvalues₁, append_assoc]
    rfl

/-- A whole level, order by order, onto a ladder whose levels are all better. -/
theorem foldl_place_level (hok : LevelOk s p level) (hne : level.isEmpty = false)
    (hpos : ∀ order ∈ level.orders.values, order.size.isPositive = true)
    (h : ∀ e ∈ l.levels.entries, e.1.cmp p = .lt) :
    ∃ p' level', (level.orders.values.foldl place l).levels.entries =
        l.levels.entries ++ [(p', level')] ∧
      p'.cmp p = .eq ∧ level'.orders.values = level.orders.values := by
  have hprice : ∀ order ∈ level.orders.values, (toBookPrice order).cmp p = .eq := by
    intro order hmem
    obtain ⟨id, hget⟩ := mem_values_iff.mp hmem
    obtain ⟨hraw, hside, -⟩ := hok.orders id order hget
    rw [BookCode.toBookPrice_eq order s hside, cmp_eq_iff]
    exact ⟨hok.side.symm, hraw⟩
  have hnd := hok.nodup_ids
  cases hvalues : level.orders.values with
  | nil =>
    have hkeys : level.orders.keys = [] := map_eq_nil_iff.mpr (map_eq_nil_iff.mp hvalues)
    have hempty : level.isEmpty = true := isEmpty_iff.mpr hkeys
    rw [hempty] at hne
    nomatch hne
  | cons order orders =>
    rw [hvalues] at hprice hpos hnd
    -- the first order opens the level behind all others, the rest join it
    have hfirst := hprice order mem_cons_self
    obtain ⟨level₁, hes₁, hentries₁⟩ := place_new_level (hpos order mem_cons_self)
      fun e he => Std.TransCmp.lt_of_lt_of_eq (h e he) (Std.OrientedCmp.eq_symm hfirst)
    have hjoin : ∀ o ∈ orders, o.size.isPositive = true ∧
        (toBookPrice order).cmp (toBookPrice o) = .eq := by
      intro o ho
      refine ⟨hpos o (mem_cons_of_mem _ ho), ?_⟩
      exact Std.TransCmp.eq_trans hfirst (Std.OrientedCmp.eq_symm (hprice o (mem_cons_of_mem _ ho)))
    have hnd₁ : (level₁.orders.keys ++ orders.map BookOrder.orderId).Nodup := by
      unfold IndexMap.keys
      rw [hentries₁]
      exact hnd
    obtain ⟨level', hes', hvalues'⟩ := foldl_place_last_level hes₁ hjoin hnd₁
    refine ⟨toBookPrice order, level', hes', hfirst, ?_⟩
    rw [hvalues']
    unfold values
    rw [hentries₁]
    rfl

/-- **Rebuilding a ladder**: the orders of levels in price order, placed one by one behind better
levels, append the queues of these levels. -/
theorem foldl_place_queues (hsorted : Sorted.Asc cmp es)
    (hes : ∀ e ∈ es, LevelOk s e.1 e.2 ∧ e.2.isEmpty = false ∧
      ∀ order ∈ e.2.orders.values, order.size.isPositive = true)
    (hlt : ∀ e₀ ∈ l.levels.entries, ∀ e ∈ es, e₀.1.cmp e.1 = .lt) :
    ((es.flatMap fun e => e.2.orders.values).foldl place l).queues =
      l.queues ++ es.map fun e => (e.1.value.raw, e.2.orders.values) := by
  induction es generalizing l with
  | nil => exact (append_nil _).symm
  | cons e es ih =>
    obtain ⟨p, level⟩ := e
    obtain ⟨hok, hne, hpos⟩ := hes (p, level) mem_cons_self
    obtain ⟨hhead, htail⟩ := pairwise_cons.mp hsorted
    obtain ⟨_, _, hentries, hp', hvalues⟩ := foldl_place_level hok hne hpos
      fun e₀ he₀ => hlt e₀ he₀ (p, level) mem_cons_self
    rw [flatMap_cons, foldl_append]
    rw [ih htail (fun e he => hes e (mem_cons_of_mem _ he)) ?_]
    · -- one level is replayed as one queue
      have hqueue : (level.orders.values.foldl place l).queues =
          l.queues ++ [(p.value.raw, level.orders.values)] := by
        unfold queues
        rw [hentries, map_append, map_cons, map_nil, hvalues, (cmp_eq_iff.mp hp').2]
      rw [hqueue, append_assoc]
      rfl
    · -- the new level still lies before the remaining ones
      intro e₀ he₀ e he
      rw [hentries] at he₀
      rcases mem_append.mp he₀ with he₀ | he₀
      · exact hlt e₀ he₀ e (mem_cons_of_mem _ he)
      · rw [mem_singleton.mp he₀]
        exact Std.TransCmp.lt_of_eq_of_lt hp' (hhead e he)

/-! ## Replaying the adds of one side -/

/-- Outside L1 an `Add` places its order, whatever the flags. -/
theorem foldl_add_eq_place (ht : l.bookType ≠ .l1Mbp)
    (h : ∀ delta ∈ deltas, preProcessOrder bookType delta.order delta.flags = delta.order ∧
      delta.order.size.isPositive = true) :
    deltas.foldl (fun l delta =>
        l.add (preProcessOrder bookType delta.order delta.flags) delta.flags) l =
      (deltas.map OrderBookDelta.order).foldl place l := by
  induction deltas generalizing l with
  | nil => rfl
  | cons delta deltas ih =>
    obtain ⟨hpre, hpos⟩ := h delta mem_cons_self
    have hadd : l.add delta.order delta.flags = l.place delta.order := by
      unfold add
      rw [if_neg ht, if_pos hpos]
      exact settleBatch_of_ne_l1 (l := l.place delta.order) ht delta.flags
    rw [foldl_cons, hpre, hadd]
    exact ih ht fun d hd => h d (mem_cons_of_mem _ hd)

theorem queues_add_snapshot {flags : UInt8} (hside : order.side.asSpecified = some s)
    (hpos : order.size.isPositive = true) (hsnap : fSnapshot.matches flags = true) :
    ((new s .l1Mbp).add order flags).queues = [(order.price.raw, [order])] := by
  have hbase : ((new s .l1Mbp).snapshotBase flags).levels.entries = [] := rfl
  obtain ⟨_, hentries, horders⟩ :=
    place_new_level (l := (new s .l1Mbp).snapshotBase flags) hpos (by
      intro e he
      nomatch he)
  rw [add_snapshot rfl hpos hsnap]
  unfold queues
  rw [(settleBatch_snapshot
    rfl hsnap).1, retainBestOnly_entries (by rw [OrdMap.first, hentries]; rfl),
    map_cons, map_nil, BookCode.toBookPrice_eq order s hside]
  unfold values
  rw [horders]
  rfl

/-- What the orders of a reachable ladder look like when no size is `QUANTITY_UNDEF`. -/
structure Replayable (bookType : BookType) (order : BookOrder) : Prop where
  idOk : IdOk bookType order
  pos : order.size.isPositive = true

/-- The id of a stored order survives preprocessing as a snapshot add. -/
theorem Replayable.preProcessOrder_eq (h : Replayable bookType order) (last : Bool) :
    preProcessOrder bookType order (OrderBook.snapshotFlags last) = order := by
  cases bookType with
  | l1Mbp =>
    show { order with orderId := order.side.toUInt64 } = order
    rw [← h.idOk.l1 rfl]
  | l2Mbp =>
    show { order with orderId := priceBasedOrderId order } = order
    rw [← h.idOk.l2 rfl]
  | l3Mbo =>
    cases last <;> rfl

/-- **One side of the round trip**: the adds of a ladder's orders bring its queues back. -/
theorem foldl_add_queues (hok : l.LevelsOk) (hone : l.bookType = .l1Mbp → l.OneLevel)
    (hstored : ∀ p id order, l.order? p id = some order → Replayable l.bookType order)
    (horders : deltas.map OrderBookDelta.order = l.orders)
    (hflags : ∀ delta ∈ deltas, ∃ last, delta.flags = OrderBook.snapshotFlags last) :
    (deltas.foldl (fun l' delta =>
        l'.add (preProcessOrder l.bookType delta.order delta.flags) delta.flags)
      (new l.side l.bookType)).queues = l.queues := by
  -- pre-processing leaves an order that has been stored before as it is
  have hgood : ∀ delta ∈ deltas, Replayable l.bookType delta.order ∧
      delta.order.side.asSpecified = some l.side ∧
      preProcessOrder l.bookType delta.order delta.flags = delta.order := by
    intro delta hd
    obtain ⟨p, id, ho⟩ := exists_order?_of_mem_orders (horders ▸ mem_map_of_mem hd)
    obtain ⟨last, hlast⟩ := hflags delta hd
    refine ⟨hstored p id _ ho, (hok.order ho).2.2.1, ?_⟩
    rw [hlast]
    exact (hstored p id _ ho).preProcessOrder_eq last
  by_cases ht : l.bookType = .l1Mbp
  · -- on an L1 ladder there is at most one order to replay
    have hid : ∀ p id order, l.order? p id = some order → id = l.side.asOrderSide.toUInt64 := by
      intro p id order ho
      obtain ⟨-, -, hside, hfiled⟩ := hok.order ho
      rw [← hfiled, (hstored p id order ho).idOk.l1 ht, OrderSide.eq_asOrderSide hside]
    rcases (hone ht).queues_cases hok hid with ⟨hq, ho⟩ | ⟨order, hq, ho⟩
    · rw [ho] at horders
      rw [map_eq_nil_iff.mp horders, hq]
      rfl
    rw [ho] at horders
    obtain ⟨delta, rfl, hdelta⟩ := map_eq_singleton_iff.mp horders
    obtain ⟨hrep, hside, hpre⟩ := hgood delta mem_cons_self
    obtain ⟨last, hlast⟩ := hflags delta mem_cons_self
    have hsnap : fSnapshot.matches delta.flags = true := by
      rw [hlast]
      exact OrderBook.snapshot_snapshotFlags last
    rw [foldl_cons, foldl_nil, hpre, ht, queues_add_snapshot hside hrep.pos hsnap, hq, hdelta]
  · rw [foldl_add_eq_place (l := new l.side l.bookType) ht
      fun delta hd => ⟨(hgood delta hd).2.2, (hgood delta hd).1.pos⟩, horders, orders_eq]
    refine foldl_place_queues (s := l.side) l.levels.sorted ?_ ?_
    · rintro ⟨p, level⟩ he
      have hget := OrdMap.get?_of_mem he
      obtain ⟨hlevel, hne⟩ := hok p level hget
      refine ⟨hlevel, hne, ?_⟩
      intro order hmem
      obtain ⟨id, ho⟩ := mem_values_iff.mp hmem
      exact (hstored p id order ((order?_of_get? hget id).trans ho)).pos
    · nofun

end Place

end BookLadder

/-! ## The orders of a book -/

namespace OrderBook

theorem length_orders (l : BookLadder) :
    l.orders.length = (l.levels.values.map BookLevel.len).sum := by
  unfold orders
  rw [length_flatMap]
  refine congrArg sum (map_congr_left ?_)
  intro level _
  exact length_map _

theorem WellFormed.side_of_mem_orders (hb : b.WellFormed) (h : order ∈ (b.ladder s).orders) :
    order.side.asSpecified = some s := by
  obtain ⟨p, _, ho⟩ := exists_order?_of_mem_orders h
  rw [((hb.levelsOk s).order ho).2.2.1, hb.side s]

/-- Of all orders of the book, those of side `s` are the orders of its ladder. -/
theorem WellFormed.filter_orders (hb : b.WellFormed) (s : OrderSideSpecified) :
    (b.bids.orders ++ b.asks.orders).filter
        (fun order => order.side.asSpecified = some s) = (b.ladder s).orders := by
  have hkeep : ∀ s', (b.ladder s').orders.filter
      (fun order => order.side.asSpecified = some s) =
        if s' = s then (b.ladder s').orders else [] := by
    intro s'
    by_cases hs : s' = s
    · rw [if_pos hs]
      refine filter_eq_self.mpr fun order ho => decide_eq_true ?_
      rw [hb.side_of_mem_orders ho, hs]
    · rw [if_neg hs]
      refine filter_eq_nil_iff.mpr fun order ho hd => hs ?_
      exact Option.some.inj ((hb.side_of_mem_orders ho).symm.trans (of_decide_eq_true hd))
  have hbids := hkeep .buy
  have hasks := hkeep .sell
  rw [filter_append]
  cases s with
  | buy => exact (congrArg₂ (· ++ ·) hbids hasks).trans (append_nil _)
  | sell => exact congrArg₂ (· ++ ·) hbids hasks

theorem top_raw_of_queues (hok : l.LevelsOk) :
    (l.top.map fun top => top.price.value.raw) = l.queues.head?.map Prod.fst := by
  unfold top OrdMap.first queues
  cases hes : l.levels.entries with
  | nil => rfl
  | cons e es =>
    obtain ⟨p, level⟩ := e
    have hlevel := (hok p level (OrdMap.get?_of_mem (hes ▸ mem_cons_self))).1
    exact congrArg some (cmp_eq_iff.mp hlevel.price).2

theorem best_of_queues {b' : OrderBook} (hb : b.WellFormed) (hb' : b'.WellFormed)
    (h : ∀ s, (b'.ladder s).queues = (b.ladder s).queues) :
    b'.bestBidPrice.map raw = b.bestBidPrice.map raw ∧
      b'.bestAskPrice.map raw = b.bestAskPrice.map raw := by
  have htop : ∀ s, ((b'.ladder s).top.map fun top => top.price.value.raw) =
      (b.ladder s).top.map fun top => top.price.value.raw := by
    intro s
    rw [top_raw_of_queues (hb'.levelsOk s), top_raw_of_queues (hb.levelsOk s), h s]
  unfold bestBidPrice bestAskPrice
  rw [Option.map_map, Option.map_map, Option.map_map, Option.map_map]
  exact ⟨htop .buy, htop .sell⟩

theorem WellFormed.exists_side (hb : b.WellFormed) (hmem : order ∈ b.bids.orders ++ b.asks.orders) :
    ∃ s, order.side.asSpecified = some s := by
  rcases mem_append.mp hmem with ho | ho
  · exact ⟨.buy, hb.side_of_mem_orders ho⟩
  · exact ⟨.sell, hb.side_of_mem_orders ho⟩

/-! ## The deltas of a snapshot -/

variable [Build] [BookCode] [DeltaCode]

/-- A delta `to_deltas` writes for an order of the book. -/
structure IsAddOf (b : OrderBook) (delta : OrderBookDelta) : Prop where
  action : delta.action = .add
  sequence : delta.sequence = b.sequence
  flags : ∃ last, delta.flags = snapshotFlags last

omit [BookCode] in
/-- One `Add` per order; with the count running up to the total, the last one carries `F_LAST`. -/
theorem addDeltas_spec (b : OrderBook) {totalOrders : Nat} (tsEvent tsInit : UnixNanos)
    {orders : List BookOrder} {orderCount : Nat}
    (hpos : ∀ order ∈ orders, order.size.isPositive = true)
    (hcount : orderCount + orders.length = totalOrders) :
    ∃ deltas, b.addDeltas totalOrders tsEvent tsInit orderCount orders = some deltas ∧
      deltas.map OrderBookDelta.order = orders ∧
      (∀ delta ∈ deltas, b.IsAddOf delta) ∧
      (orders ≠ [] → LastOnly deltas) := by
  induction orders generalizing orderCount with
  | nil => exact ⟨[], rfl, rfl, nofun, fun h => absurd rfl h⟩
  | cons order orders ih =>
    have hlen : orderCount + 1 + orders.length = totalOrders := by
      rw [length_cons] at hcount
      omega
    obtain ⟨deltas, hdeltas, horders, hadds, hlast⟩ :=
      ih (fun o ho => hpos o (mem_cons_of_mem _ ho)) hlen
    -- the flags of this delta, read as `snapshotFlags`
    let last := decide (orderCount + 1 = totalOrders)
    let delta : OrderBookDelta :=
      ⟨b.instrumentId, .add, order, snapshotFlags last, b.sequence, tsEvent, tsInit⟩
    have hflags : (if orderCount + 1 = totalOrders then
        fSnapshot.toUInt8 ||| fLast.toUInt8
        else fSnapshot.toUInt8) = snapshotFlags last := by
      unfold snapshotFlags
      simp [last]
    refine ⟨delta :: deltas, ?_, by rw [map_cons, horders], ?_, ?_⟩
    · rw [addDeltas]
      simp only [hflags]
      rw [DeltaCode.newDelta_add _ _ _ _ _ _ (hpos order mem_cons_self), hdeltas]
      rfl
    · intro d hd
      rcases mem_cons.mp hd with rfl | hd
      · exact ⟨rfl, rfl, last, rfl⟩
      · exact hadds d hd
    · intro _
      by_cases hnil : orders = []
      · -- this is the last order of the book
        have hdnil : deltas = [] := map_eq_nil_iff.mp (horders.trans hnil)
        rw [hdnil]
        refine lastOnly_singleton ((last_snapshotFlags last).trans ?_)
        rw [hnil, length_nil] at hlen
        exact decide_eq_true hlen
      · refine (hlast hnil).cons ((last_snapshotFlags last).trans ?_)
        have hlen_pos := length_pos_iff.mpr hnil
        exact decide_eq_false (by omega)

omit [BookCode] in
/-- What `to_deltas` writes: a clear with the book's sequence, then the orders. -/
theorem toDeltas_spec (tsEvent tsInit : UnixNanos)
    (hpos : ∀ order ∈ b.bids.orders ++ b.asks.orders, order.size.isPositive = true) :
    ∃ clear adds, b.toDeltas tsEvent tsInit = some ⟨b.instrumentId, clear :: adds⟩ ∧
      clear.action = .clear ∧ clear.sequence = b.sequence ∧
      adds.map OrderBookDelta.order = b.bids.orders ++ b.asks.orders ∧
      (∀ delta ∈ adds, b.IsAddOf delta) ∧ LastOnly (clear :: adds) := by
  have htotal : (b.bids.levels.values.map BookLevel.len).sum +
      (b.asks.levels.values.map BookLevel.len).sum = (b.bids.orders ++ b.asks.orders).length := by
    rw [length_append, length_orders, length_orders]
  obtain ⟨adds, hadds, horders, hall, hlast⟩ :=
    addDeltas_spec b tsEvent tsInit hpos (Nat.zero_add _)
  let clear := DeltaCode.clearDelta b.instrumentId b.sequence tsEvent tsInit
  have hclear : fLast.matches clear.flags = false :=
    DeltaCode.clearDelta_flags b.instrumentId b.sequence tsEvent tsInit
  have hnew := fun d : OrderBookDelta =>
    DeltaCode.newDeltas_of_ne_nil b.instrumentId (d :: adds) (cons_ne_nil d adds)
  by_cases hnil : b.bids.orders ++ b.asks.orders = []
  · -- an empty book: the clear itself is the last delta
    have hadds_nil : adds = [] := map_eq_nil_iff.mp (horders.trans hnil)
    refine ⟨{ clear with flags := clear.flags ||| fLast.toUInt8 }, adds, ?_,
      DeltaCode.clearDelta_action _ _ _ _, DeltaCode.clearDelta_sequence _ _ _ _, horders,
      hall, ?_⟩
    · unfold toDeltas
      simp only [htotal, hadds]
      rw [if_pos (by rw [hnil]; rfl)]
      exact hnew _
    · rw [hadds_nil]
      exact lastOnly_singleton (RecordFlag.matches_or_self .fLast clear.flags)
  · refine ⟨clear, adds, ?_, DeltaCode.clearDelta_action _ _ _ _,
      DeltaCode.clearDelta_sequence _ _ _ _, horders, hall, (hlast hnil).cons hclear⟩
    unfold toDeltas
    simp only [htotal, hadds]
    rw [if_neg fun hzero => hnil (eq_nil_of_length_eq_zero hzero)]
    exact hnew _

/-! ## The round trip -/

section

variable (h : runs step (new instrumentId bookType) ops = some b)
  (hsize : ∀ op ∈ ops, ∀ order ∈ op.orders, order.size.raw ≠ quantityUndef)

include h hsize
omit [DeltaCode]

theorem replayable_of_runs : b.Stored (Replayable bookType) := by
  refine stored_of_runs (fun op hop s order harr hne => ⟨harr.idOk, ?_⟩) h
  obtain ⟨o, ho, -, hsz⟩ := harr.given
  exact Quantity.isPositive_iff.mpr ⟨hsz ▸ hsize op hop o ho, Nat.pos_of_ne_zero hne⟩

/-- The orders of a book reached with sizes other than the sentinel are positive. -/
theorem isPositive_of_runs :
    ∀ order ∈ b.bids.orders ++ b.asks.orders, order.size.isPositive = true := by
  intro order hmem
  have hladder : ∀ s, order ∈ (b.ladder s).orders → order.size.isPositive = true := by
    intro s ho
    obtain ⟨p, id, ho⟩ := exists_order?_of_mem_orders ho
    exact (replayable_of_runs h hsize s p id order ho).pos
  rcases mem_append.mp hmem with ho | ho
  · exact hladder .buy ho
  · exact hladder .sell ho

/-- `Add`s of the orders of a book, replayed on empty ladders, rebuild its queues. -/
theorem addAll_queues {adds : List OrderBookDelta}
    (horders : adds.map OrderBookDelta.order = b.bids.orders ++ b.asks.orders)
    (hflags : ∀ delta ∈ adds, ∃ last, delta.flags = snapshotFlags last) (s : OrderSideSpecified) :
    (addAll bookType s (BookLadder.new s bookType) adds).queues = (b.ladder s).queues := by
  have hb := wellFormed_of_runs h
  have htype : (b.ladder s).bookType = bookType := (hb.bookType s).trans (sameBook_of_runs h).2
  -- the adds of the side are the orders of its ladder
  have hmap : (adds.filter fun delta => delta.order.side.asSpecified = some s).map
      OrderBookDelta.order = (b.ladder s).orders := by
    rw [← hb.filter_orders s, ← horders, filter_map]
    rfl
  have hone : (b.ladder s).bookType = .l1Mbp → (b.ladder s).OneLevel := by
    intro hl1
    rw [htype] at hl1
    subst hl1
    exact oneLevel_of_runs h s
  have hstored : ∀ p id order, (b.ladder s).order? p id = some order →
      Replayable (b.ladder s).bookType order := by
    rw [htype]
    exact replayable_of_runs h hsize s
  have hqueues := foldl_add_queues (hb.levelsOk s) hone hstored hmap
    fun delta hd => hflags delta (mem_of_mem_filter hd)
  rw [htype, hb.side s] at hqueues
  exact hqueues

end

/-- **Snapshots round-trip.** On every book reached with sizes other than `QUANTITY_UNDEF`,
`to_deltas` succeeds, a fresh book accepts its deltas and ends with the same queues, best prices and
sequence, and only the last delta carries `F_LAST`. -/
theorem toDeltas_replay {instrumentId : InstrumentId} {bookType : BookType}
    {ops : List BookOp} {b : OrderBook} (h : runs step (new instrumentId bookType) ops = some b)
    (hsize : ∀ op ∈ ops, ∀ order ∈ op.orders, order.size.raw ≠ quantityUndef)
    (tsEvent tsInit : UnixNanos) :
    ∃ deltas b', b.toDeltas tsEvent tsInit = some deltas ∧
      (new instrumentId bookType).applyDeltas deltas = some (b', .ok ()) ∧
      (∀ s, (b'.ladder s).queues = (b.ladder s).queues) ∧
      b'.bestBidPrice.map Price.raw = b.bestBidPrice.map Price.raw ∧
      b'.bestAskPrice.map Price.raw = b.bestAskPrice.map Price.raw ∧
      b'.sequence = b.sequence ∧
      LastOnly deltas.deltas := by
  have hb := wellFormed_of_runs h
  obtain ⟨clear, adds, hto, hclear, hseq, horders, hadds, hlast⟩ :=
    toDeltas_spec tsEvent tsInit (isPositive_of_runs h hsize)
  -- the replay: a clear of a book that is clear already, then the adds
  let b₀ := (new instrumentId bookType).clear clear.sequence clear.tsEvent
  have hsides : ∀ delta ∈ adds, delta.action = .add ∧
      ∃ s, delta.order.side.asSpecified = some s := by
    intro delta hd
    exact ⟨(hadds delta hd).action, hb.exists_side (horders ▸ mem_map_of_mem hd)⟩
  obtain ⟨b', hrun, -, hladder, hsame⟩ := applyDeltasUnchecked_adds hsides
  have hqueues : ∀ s, (b'.ladder s).queues = (b.ladder s).queues := by
    intro s
    have hfresh : b₀.ladder s = BookLadder.new s bookType := by
      cases s <;> rfl
    rw [hladder s, hfresh]
    exact addAll_queues h hsize horders (fun delta hd => (hadds delta hd).flags) s
  have hnew : b₀.WellFormed :=
    have hstep : (new instrumentId bookType).step (.clear clear.sequence clear.tsEvent) =
        some b₀ := rfl
    (wellFormed_new instrumentId bookType).step hstep
  obtain ⟨hbid, hask⟩ := best_of_queues hb (hnew.applyDeltasUnchecked hrun) hqueues
  refine ⟨_, b', hto, ?_, hqueues, hbid, hask, ?_, hlast⟩
  · unfold applyDeltas
    refine (if_neg (not_not.mpr (sameBook_of_runs h).1)).trans ?_
    show applyDeltasUnchecked _ (clear :: adds) = _
    rw [applyDeltasUnchecked, applyDeltaUnchecked_clear hclear]
    exact hrun
  · have hb₀ : b₀.sequence = b.sequence := by
      show max clear.sequence 0 = b.sequence
      rw [hseq, Nat.max_zero]
    rw [hsame, hb₀]
    intro delta hd
    rw [hb₀, (hadds delta hd).sequence]

end OrderBook

namespace OrderBook

attribute [local instance] Build.standard BookCode.truncating DeltaCode.checked

/-- Two bids in one queue and an ask, in an L3 book. -/
def threeOrders : List BookOp :=
  [.add ⟨.buy, ⟨100, 0⟩, ⟨1, 0⟩, 7⟩ 0 1 1, .add ⟨.buy, ⟨100, 0⟩, ⟨2, 0⟩, 8⟩ 0 2 2,
    .add ⟨.sell, ⟨101, 0⟩, ⟨3, 0⟩, 9⟩ 0 3 3]

/-- The hypotheses can be met, with a queue of two orders to bring back. -/
theorem toDeltas_replay_threeOrders :
    ∃ b deltas b', runs step (new ⟨"ETHUSDT.BINANCE"⟩ .l3Mbo) threeOrders = some b ∧
      b.bids.queues = [(100, [⟨.buy, ⟨100, 0⟩, ⟨1, 0⟩, 7⟩, ⟨.buy, ⟨100, 0⟩, ⟨2, 0⟩, 8⟩])] ∧
      b.toDeltas 5 6 = some deltas ∧
      (new ⟨"ETHUSDT.BINANCE"⟩ .l3Mbo).applyDeltas deltas = some (b', .ok ()) ∧
      b'.bids.queues = b.bids.queues ∧ b'.sequence = b.sequence := by
  have hrun : ∃ b, runs step (new ⟨"ETHUSDT.BINANCE"⟩ .l3Mbo) threeOrders = some b ∧
      b.bids.queues = [(100, [⟨.buy, ⟨100, 0⟩, ⟨1, 0⟩, 7⟩, ⟨.buy, ⟨100, 0⟩, ⟨2, 0⟩, 8⟩])] :=
    ⟨_, rfl, rfl⟩
  obtain ⟨b, hrun, hbids⟩ := hrun
  obtain ⟨deltas, b', hto, happly, hqueues, -, -, hseq, -⟩ := toDeltas_replay hrun (by decide) 5 6
  exact ⟨b, deltas, b', hrun, hbids, hto, happly, hqueues .buy, hseq⟩

end OrderBook

end Nautilus
