import Nautilus.Book.Consistency

/-!
# An L2 book is a price map

What an L2 book is for: one size per price and side. The abstract book is a pair of maps from raw
prices to sizes, without ids, caches or levels; `PriceMaps.apply` is what a delta does to it.

`Refines l m`: the order under the id of a price, and no other id at that price, has the size the
map gives. Each ladder call is matched by one map operation, so a run of deltas ends in a book
whose levels are **exactly the graph of the map** (`l2_refines_priceMaps`). The hash from prices to
ids only has to tell the prices in use apart.
-/

namespace Nautilus

open Lib List IndexMap BookLadder BookPrice
open BookCode (hashOne)

variable {raw : Int} {l l' : BookLadder} {used : Set Int} {delta : OrderBookDelta} {b : OrderBook}

/-! ## The abstract book -/

/-- Sizes by raw price. -/
abbrev PriceMap := Int → Option Quantity

abbrev PriceMaps := OrderSideSpecified → PriceMap

variable {m : PriceMap}

theorem PriceMap.update_none_eq_self (h : m raw = none) : Function.update m raw none = m := by
  rw [← h, Function.update_eq_self]

section Spec

variable [Build]

/-- An action at a price, on the map of its side. `QUANTITY_UNDEF` is neither zero nor positive: an
add ignores it, an update writes it over a present entry only. -/
def PriceMap.act (m : PriceMap) (action : BookAction) (raw : Int) (size : Quantity) : PriceMap :=
  match action with
  | .add => if size.isPositive then Function.update m raw (some size) else m
  | .update =>
    if size.raw = 0 then Function.update m raw none
    else if size.isPositive ∨ (m raw).isSome then Function.update m raw (some size)
    else m
  | .delete => Function.update m raw none
  | .clear => fun _ => none

/-- Nothing for another instrument; `Clear` empties both sides; anything else acts on the side of
its order. -/
def PriceMaps.apply (instrumentId : InstrumentId) (m : PriceMaps) (delta : OrderBookDelta) :
    PriceMaps :=
  if delta.instrumentId ≠ instrumentId then m
  else if delta.action = .clear then fun _ _ => none
  else
    match delta.order.side.asSpecified with
    | some s => Function.update m s
        ((m s).act delta.action delta.order.price.raw delta.order.size)
    | none => m

end Spec

/-! ## A ladder and its map -/

namespace BookLadder

/-- A better price of a side comes first: bids descend, asks ascend. -/
def Before (s : OrderSideSpecified) (a b : Int) : Prop :=
  match s with
  | .buy => b < a
  | .sell => a < b

/-- The levels of the ladder, read in order, are the graph of the map, with one order
a level. -/
structure IsGraph (s : OrderSideSpecified) (l : BookLadder) (m : PriceMap) : Prop where
  sorted : (l.levels.keys.map fun p => p.value.raw).Pairwise (Before s)
  oneOrder : ∀ e ∈ l.levels.entries, ∃ order, e.2.orders.values = [order] ∧
    order.price.raw = e.1.value.raw ∧ e.2.price.value.raw = e.1.value.raw
  graph : ∀ raw size, m raw = some size ↔
    ∃ e ∈ l.levels.entries, e.1.value.raw = raw ∧
      e.2.orders.values.map BookOrder.size = [size]

/-- Bid keys descend and ask keys ascend. -/
theorem LevelsOk.sorted (h : l.LevelsOk) :
    (l.levels.keys.map fun p => p.value.raw).Pairwise (Before l.side) := by
  rw [OrdMap.keys, map_map, pairwise_map]
  refine l.levels.sorted.imp_of_mem ?_
  intro e e' he he' hlt
  have hs := (h e.1 e.2 (OrdMap.get?_of_mem he)).1.side
  have hs' := (h e'.1 e'.2 (OrdMap.get?_of_mem he')).1.side
  rw [cmp_of_side_eq (hs.trans hs'.symm)] at hlt
  have hrank : e.1.rank < e'.1.rank := Int.compare_eq_lt.mp hlt
  unfold rank at hrank
  rw [hs, hs'] at hrank
  cases hside : l.side with
  | buy =>
    rw [hside] at hrank
    exact Int.neg_lt_neg_iff.mp hrank
  | sell =>
    rw [hside] at hrank
    exact hrank

variable [BookCode]

/-- The order under a price has the size the map gives, the price's own id is the only id there, and
the map knows only prices in use. -/
structure Refines (used : Set Int) (l : BookLadder) (m : PriceMap) : Prop where
  levelsOk : l.LevelsOk
  indexed : l.Indexed
  ofType : l.bookType = .l2Mbp
  sizes : ∀ p id, p.side = l.side → (l.order? p id).map BookOrder.size =
    if id = hashOne p.value.raw then m p.value.raw else none
  domain : ∀ raw size, m raw = some size → raw ∈ used

theorem refines_empty (ht : l.bookType = .l2Mbp) (hlevels : l.levels = .empty)
    (hcache : l.cache = .empty) :
    l.Refines used fun _ => none where
  levelsOk := levelsOk_of_levels_empty hlevels
  indexed := indexExact_empty (fun p id => by rw [order?, hlevels]; rfl)
    fun id => by rw [hcache]; rfl
  ofType := ht
  sizes p id _ := by
    rw [order?, hlevels, ite_self]
    rfl
  domain _ _ h := nomatch h

variable (h : l.Refines used m)

include h

/-- A level of a refining ladder holds one order, under the id of its price. -/
theorem Refines.level {e : BookPrice × BookLevel} (he : e ∈ l.levels.entries) :
    ∃ order, e.2.orders.entries = [(hashOne e.1.value.raw, order)] ∧
      m e.1.value.raw = some order.size := by
  obtain ⟨hok, hne⟩ := h.levelsOk e.1 e.2 (OrdMap.get?_of_mem he)
  have hread : ∀ id, l.order? e.1 id = e.2.orders.get? id := item_of_mem he
  have hids : ∀ id ∈ e.2.orders.keys, id = hashOne e.1.value.raw := by
    intro id hid
    obtain ⟨order, ho⟩ := mem_keys_iff.mp hid
    have hsize := h.sizes e.1 id hok.side
    rw [hread, ho, Option.map_some] at hsize
    by_contra hcon
    rw [if_neg hcon] at hsize
    nomatch hsize
  obtain ⟨id, order, ho⟩ := IndexMap.isEmpty_eq_false_iff.mp hne
  have hid := hids id (mem_keys_iff.mpr ⟨order, ho⟩)
  rw [hid] at ho
  refine ⟨order, entries_eq_singleton ho hids, ?_⟩
  have hsize := h.sizes e.1 (hashOne e.1.value.raw) hok.side
  rw [hread, ho, if_pos rfl] at hsize
  exact hsize.symm

theorem Refines.isGraph : IsGraph l.side l m where
  sorted := h.levelsOk.sorted
  oneOrder e he := by
    obtain ⟨order, hentries, -⟩ := h.level he
    have hok := (h.levelsOk e.1 e.2 (OrdMap.get?_of_mem he)).1
    have hget : e.2.orders.get? (hashOne e.1.value.raw) = some order := by
      rw [get?_eq_some_iff, hentries]
      exact mem_singleton_self _
    refine ⟨order, ?_, (hok.orders _ order hget).1, (cmp_eq_iff.mp hok.price).2⟩
    rw [values, hentries]
    rfl
  graph raw size := by
    constructor
    · intro hm
      -- the map is read back through the id that is the hash of the price
      have hread := h.sizes ⟨⟨raw, 0⟩, l.side⟩ (hashOne raw) rfl
      rw [if_pos rfl, hm] at hread
      obtain ⟨order, ho, -⟩ := Option.map_eq_some_iff.mp hread
      obtain ⟨p, level, he, hp, -⟩ := exists_entry_of_item ho
      have hraw : p.value.raw = raw := (cmp_eq_iff.mp hp).2
      obtain ⟨order', hentries, hsize⟩ := h.level he
      refine ⟨(p, level), he, hraw, ?_⟩
      rw [show m p.value.raw = some size by rw [hraw, hm]] at hsize
      rw [values, hentries]
      show [order'.size] = [size]
      rw [Option.some.inj hsize]
    · rintro ⟨e, he, hraw, hvalues⟩
      obtain ⟨order, hentries, hsize⟩ := h.level he
      rw [values, hentries] at hvalues
      have heq : order.size = size := head_eq_of_cons_eq hvalues
      rw [← hraw, hsize, heq]

/-! ## The calls -/

/-- Writing the order of one price writes the map there. -/
theorem Refines.write {q : BookPrice} (value : Option BookOrder) (hq : q.side = l.side)
    (hused : q.value.raw ∈ used) (hok : l'.LevelsOk) (hidx : l'.Indexed) (hside : l'.side = l.side)
    (ht : l'.bookType = l.bookType) (horder : ∀ p id, l'.order? p id =
      if id = hashOne q.value.raw ∧ q.cmp p = .eq then value else l.order? p id) :
    l'.Refines used (Function.update m q.value.raw (value.map BookOrder.size)) where
  levelsOk := hok
  indexed := hidx
  ofType := ht.trans h.ofType
  sizes p id hp := by
    rw [hside] at hp
    -- on one side a write at `q` is a write at its raw price
    have hsame : q.cmp p = .eq ↔ q.value.raw = p.value.raw :=
      cmp_eq_iff.trans (and_iff_right (hq.trans hp.symm))
    rw [horder]
    by_cases hraw : q.value.raw = p.value.raw
    · rw [← hraw, Function.update_self]
      by_cases hid : id = hashOne q.value.raw
      · rw [if_pos ⟨hid, hsame.mpr hraw⟩, if_pos hid]
      · have hold := h.sizes p id hp
        rw [if_neg fun hc => hid hc.1, if_neg hid, hold, ← hraw, if_neg hid]
    · rw [if_neg fun hc => hraw (hsame.mp hc.2), Function.update_of_ne (Ne.symm hraw)]
      exact h.sizes p id hp
  domain raw size hm := by
    by_cases hraw : raw = q.value.raw
    · rw [hraw]
      exact hused
    · rw [Function.update_of_ne hraw] at hm
      exact h.domain raw size hm

theorem Refines.cached (hinj : Set.InjOn hashOne used) (hraw : raw ∈ used) {q : BookPrice}
    (hc : l.cache.get? (hashOne raw) = some q) :
    q.side = l.side ∧ q.value.raw = raw ∧ ∃ size, m raw = some size := by
  have hq := h.indexed.cache_side h.levelsOk hc
  obtain ⟨order, ho⟩ := h.indexed.sound _ q hc
  have hsize := h.sizes q (hashOne raw) hq
  rw [ho, Option.map_some] at hsize
  by_cases hid : hashOne raw = hashOne q.value.raw
  · rw [if_pos hid] at hsize
    have heq : raw = q.value.raw := hinj hraw (h.domain _ _ hsize.symm) hid
    rw [heq]
    exact ⟨hq, rfl, order.size, hsize.symm⟩
  · rw [if_neg hid] at hsize
    nomatch hsize

theorem Refines.not_cached (hc : l.cache.get? (hashOne raw) = none) : m raw = none := by
  have hsize := h.sizes ⟨⟨raw, 0⟩, l.side⟩ (hashOne raw) rfl
  rw [if_pos rfl] at hsize
  cases ho : l.order? ⟨⟨raw, 0⟩, l.side⟩ (hashOne raw) with
  | none =>
    rw [ho] at hsize
    exact hsize.symm
  | some order =>
    obtain ⟨q, hq, -⟩ := (h.indexed _ _).mp ⟨order, ho⟩
    rw [hc] at hq
    nomatch hq

theorem Refines.removeOrder (hinj : Set.InjOn hashOne used) (hraw : raw ∈ used)
    (hl : l.removeOrder (hashOne raw) = some l') :
    l'.Refines used (Function.update m raw none) := by
  have hok := h.levelsOk.removeOrder hl
  have hidx := h.indexed.removeOrder hl
  rcases l.removeOrder_cases (hashOne raw) with ⟨heq, hnone⟩ | ⟨q, level, hc, hget, heq⟩
  · rw [heq] at hl
    cases hl
    have hnc : l.cache.get? (hashOne raw) = none := by
      cases hc : l.cache.get? (hashOne raw) with
      | none => rfl
      | some q =>
        obtain ⟨_, ho⟩ := h.indexed.sound _ q hc
        rw [hnone q hc] at ho
        nomatch ho
    rw [PriceMap.update_none_eq_self (h.not_cached hnc)]
    exact h
  · rw [heq] at hl
    cases hl
    obtain ⟨hq, hqraw, -⟩ := h.cached hinj hraw hc
    subst hqraw
    exact h.write none hq hraw hok hidx rfl rfl (withdrawn_order? hget _)

variable [Build] (order : BookOrder) (hinj : Set.InjOn hashOne used)
  (hraw : order.price.raw ∈ used) (hside : order.side.asSpecified = some l.side)
  (hid : order.orderId = hashOne order.price.raw) (flags : UInt8)

include hinj hraw hside hid

theorem Refines.add : (l.add order flags).Refines used (m.act .add order.price.raw order.size) := by
  have ht : l.bookType ≠ .l1Mbp := by
    rw [h.ofType]
    nofun
  -- an id in the cache is the hash of the price it is filed under
  have hfresh : l.Fresh order := by
    intro q hq
    rw [hid] at hq
    exact (h.cached hinj hraw hq).2.1
  have hidx := (add_indexed_iff h.indexed h.levelsOk hside flags ht).mpr fun _ => hfresh
  have hok := h.levelsOk.add hside flags
  unfold PriceMap.act
  rcases l.add_cases order flags with ⟨hpos, -, heq⟩ | ⟨-, ht', -⟩ | ⟨hpos, -, heq⟩ | ⟨-, ht', -⟩
  · simp only [hpos, Bool.false_eq_true, if_false]
    rw [heq]
    exact h
  · exact absurd ht' ht
  · simp only [hpos, if_true]
    rw [heq] at hidx hok ⊢
    refine h.write (q := ⟨order.price, l.side⟩) (some order) rfl hraw hok hidx rfl rfl ?_
    intro p id
    rw [place_order? hpos, BookCode.toBookPrice_eq order l.side hside, hid]
  · exact absurd ht' ht

theorem Refines.update :
    (l.update order flags).Refines used (m.act .update order.price.raw order.size) := by
  have hidx := h.indexed.update h.levelsOk hside flags
  have hok := h.levelsOk.update hside flags
  obtain ⟨hs, ht⟩ := l.update_fields order flags
  rcases l.update_cases order flags with ⟨hnone, heq⟩ | ⟨q, level, hc, hget, -, heq⟩ |
    ⟨q, level, hc, hget, hne, -⟩
  · -- an absent price: positive sizes are added, all others ignored
    have hnc := h.indexed.not_cached_of_no_level hnone
    rw [hid] at hnc
    have hm := h.not_cached hnc
    rw [heq]
    unfold PriceMap.act
    by_cases hpos : order.size.isPositive = true
    · have hadd := h.add order hinj hraw hside hid flags
      simp only [PriceMap.act, hpos, if_true] at hadd
      simp only [hpos, if_true, Quantity.raw_ne_zero_of_isPositive hpos, if_false, true_or]
      exact hadd
    · simp only [hpos, hm, Option.isSome_none, Bool.false_eq_true, or_self, if_false]
      split
      · rw [PriceMap.update_none_eq_self hm]
        exact h
      · exact h
  · -- a present price: the order is overwritten or, at size zero, removed
    rw [hid] at hc
    obtain ⟨hq, hqraw, size, hm⟩ := h.cached hinj hraw hc
    have horder := updateInPlace_order? hget order
      (if order.size.raw = 0 then l.cache.remove order.orderId else l.cache)
    have hact : m.act .update order.price.raw order.size = Function.update m q.value.raw
        ((if order.size.raw = 0 then none else some order).map BookOrder.size) := by
      unfold PriceMap.act
      rw [hqraw]
      by_cases hzero : order.size.raw = 0
      · simp [hzero]
      · simp [hzero, hm]
    rw [hact]
    refine h.write _ hq (hqraw ▸ hraw) hok hidx hs ht ?_
    intro p id
    rw [heq, horder, hid, hqraw]
  · -- an L2 order never changes its price
    exfalso
    rw [hid] at hc
    obtain ⟨hq, hqraw, -⟩ := h.cached hinj hraw hc
    have hprice := (cmp_eq_iff.mp (h.levelsOk q level hget).1.price).2
    exact hne (hprice.trans hqraw).symm

end BookLadder

/-! ## Deltas -/

namespace OrderBook

variable [Build] [BookCode]

def afterDelta (b : OrderBook) (delta : OrderBookDelta) : Option OrderBook :=
  (b.applyDelta delta).map Prod.fst

structure RefinesMaps (used : Set Int) (instrumentId : InstrumentId) (b : OrderBook)
    (m : PriceMaps) : Prop where
  instrument : b.instrumentId = instrumentId
  ofType : b.bookType = .l2Mbp
  side : ∀ s, (b.ladder s).side = s
  refines : ∀ s, (b.ladder s).Refines used (m s)

/-- A delta that clears or names a side is applied without a panic. -/
theorem exists_afterDelta (b : OrderBook)
    (hd : delta.action = .clear ∨ ∃ s, delta.order.side.asSpecified = some s) :
    ∃ b', b.afterDelta delta = some b' := by
  by_cases hne : delta.instrumentId ≠ b.instrumentId
  · refine ⟨b, ?_⟩
    simp [afterDelta, applyDelta, if_pos hne]
  simp only [afterDelta, applyDelta, if_neg hne]
  by_cases hclear : delta.action = .clear
  · rw [applyDeltaUnchecked_clear hclear]
    exact ⟨_, rfl⟩
  obtain ⟨s, hs⟩ := hd.resolve_left hclear
  have hside := ne_noOrderSide hs
  have hproc : (preProcessOrder b.bookType delta.order delta.flags).side.asSpecified =
      some s := by rw [preProcessOrder_side, hs]
  -- with a side none of the three actions panics
  obtain ⟨b', hb'⟩ : ∃ b', b.applyAction delta delta.order = some b' := by
    unfold applyAction
    cases ha : delta.action with
    | add | update => exact ⟨_, Option.bind_eq_some_iff.mpr ⟨s, hproc, rfl⟩⟩
    | delete =>
      obtain ⟨l', hl'⟩ := (b.ladder s).removeOrder_isSome
        (preProcessOrder b.bookType delta.order delta.flags).orderId
      exact ⟨_, Option.bind_eq_some_iff.mpr ⟨s, hproc, Option.bind_eq_some_iff.mpr ⟨l', hl', rfl⟩⟩⟩
    | clear => exact absurd ha hclear
  refine ⟨b', ?_⟩
  simp [applyDeltaUnchecked, dispatchDelta, hside, false_and, hb']

theorem refines_actionCalls {action : BookAction} {order : BookOrder} {flags : UInt8}
    {s : OrderSideSpecified} (h : l.Refines used m) (hinj : Set.InjOn hashOne used)
    (ht : b.bookType = .l2Mbp) (hside : order.side.asSpecified = some l.side)
    (hraw : order.price.raw ∈ used) (hclear : action ≠ .clear)
    (hs : order.side.asSpecified = some s)
    (hrun : runs call l (b.actionCalls action order flags s) = some l') :
    l'.Refines used (m.act action order.price.raw order.size) := by
  have hproc : preProcessOrder b.bookType order flags =
      { order with orderId := hashOne order.price.raw } := by
    rw [ht]
    rfl
  simp only [actionCalls, hproc, if_pos hs] at hrun
  cases action with
  | add =>
    rw [← Option.some.inj hrun]
    exact h.add { order with orderId := hashOne order.price.raw } hinj hraw hside rfl flags
  | update =>
    rw [← Option.some.inj hrun]
    exact h.update { order with orderId := hashOne order.price.raw } hinj hraw hside rfl flags
  | delete =>
    obtain ⟨_, hl₁, heq⟩ := Option.bind_eq_some_iff.mp hrun
    cases heq
    exact h.removeOrder hinj hraw hl₁
  | clear => exact absurd rfl hclear

/-- **One delta on the book is one operation on the maps.** -/
theorem RefinesMaps.afterDelta {instrumentId : InstrumentId} {b' : OrderBook} {m : PriceMaps}
    (h : b.RefinesMaps used instrumentId m) (hinj : Set.InjOn hashOne used)
    (hd : delta.action = .clear ∨
      (∃ s, delta.order.side.asSpecified = some s) ∧ delta.order.price.raw ∈ used)
    (hb' : b.afterDelta delta = some b') :
    b'.RefinesMaps used instrumentId (m.apply instrumentId delta) := by
  have hstep : b.step (.applyDelta delta) = some b' := hb'
  obtain ⟨hinst, htype⟩ := sameBook_step hstep
  have hfields : ∀ s, (b'.ladder s).side = s := by
    intro s
    have hinv := runs_inv (fun l c l' hl hc => (call_fields hc).1.trans hl)
      (h.side s) (step_calls hstep s)
    exact hinv
  refine ⟨hinst.trans h.instrument, htype.trans h.ofType, hfields, ?_⟩
  intro s
  have hrun := step_calls hstep s
  unfold PriceMaps.apply
  by_cases hne : delta.instrumentId ≠ instrumentId
  · -- the delta of another instrument is refused
    have hcalls : b.calls (.applyDelta delta) s = [] := if_pos (h.instrument ▸ hne)
    rw [hcalls] at hrun
    rw [if_pos hne, ← Option.some.inj hrun]
    exact h.refines s
  · have hcalls : b.calls (.applyDelta delta) s = b.deltaCalls delta s :=
      if_neg (h.instrument ▸ hne)
    rw [hcalls] at hrun
    rw [if_neg hne]
    by_cases hclear : delta.action = .clear
    · rw [deltaCalls, if_pos hclear] at hrun
      rw [if_pos hclear, ← Option.some.inj hrun]
      exact refines_empty (h.refines s).ofType rfl rfl
    obtain ⟨⟨s₀, hs₀⟩, hraw⟩ := hd.resolve_left hclear
    have hres : b.resolvedOrder delta = some delta.order := if_neg fun hc => ne_noOrderSide hs₀ hc.1
    simp only [deltaCalls, if_neg hclear, hres] at hrun
    rw [if_neg hclear]
    simp only [hs₀]
    by_cases hs : s₀ = s
    · subst hs
      rw [Function.update_self]
      exact refines_actionCalls (h.refines s₀) hinj h.ofType (hs₀.trans
        (congrArg some (h.side s₀).symm)) hraw hclear hs₀ hrun
    · have hnone : b.actionCalls delta.action delta.order delta.flags s = [] := by
        refine if_neg ?_
        rw [preProcessOrder_side, hs₀]
        exact fun he => hs (Option.some.inj he)
      rw [hnone] at hrun
      rw [Function.update_of_ne (Ne.symm hs), ← Option.some.inj hrun]
      exact h.refines s

def actedPrices (deltas : List OrderBookDelta) : Set Int :=
  {raw | ∃ delta ∈ deltas, delta.action ≠ .clear ∧ delta.order.price.raw = raw}

/-- **An L2 book refines a price map.** Deltas with sides are all applied to a fresh L2 book, and
leave on each side levels that are exactly the graph of the map folded from them, best price first,
one order a level. -/
theorem l2_refines_priceMaps (instrumentId : InstrumentId) (deltas : List OrderBookDelta)
    (hsides : ∀ delta ∈ deltas, delta.action ≠ .clear → delta.order.side ≠ .noOrderSide)
    (hinj : Set.InjOn BookCode.hashOne (actedPrices deltas)) :
    ∃ b, runs afterDelta (new instrumentId .l2Mbp) deltas = some b ∧
      BookLadder.IsGraph .buy b.bids
        (deltas.foldl (PriceMaps.apply instrumentId) (fun _ _ => none) .buy) ∧
      BookLadder.IsGraph .sell b.asks
        (deltas.foldl (PriceMaps.apply instrumentId) (fun _ _ => none) .sell) := by
  have hok : ∀ delta ∈ deltas, delta.action = .clear ∨
      (∃ s, delta.order.side.asSpecified = some s) ∧
        delta.order.price.raw ∈ actedPrices deltas := by
    intro delta hmem
    by_cases hclear : delta.action = .clear
    · exact .inl hclear
    refine .inr ⟨?_, delta, hmem, hclear, rfl⟩
    have hside := hsides delta hmem hclear
    cases hs : delta.order.side with
    | noOrderSide => exact absurd hs hside
    | buy => exact ⟨.buy, rfl⟩
    | sell => exact ⟨.sell, rfl⟩
  obtain ⟨b, hrun, href⟩ := runs_simulates (RefinesMaps (actedPrices deltas) instrumentId)
    (PriceMaps.apply instrumentId) (fun b m delta hmem h => by
      have hd := hok delta hmem
      obtain ⟨b', hb'⟩ := b.exists_afterDelta (hd.imp_right fun hr => hr.1)
      exact ⟨b', hb', h.afterDelta hinj hd hb'⟩)
    (s := new instrumentId .l2Mbp) (t := fun _ _ => none) ⟨rfl, rfl, fun s => by cases s <;> rfl,
      fun s => by cases s <;> exact refines_empty rfl rfl rfl⟩
  have hgraph := fun s => (href.refines s).isGraph
  simp only [href.side] at hgraph
  exact ⟨b, hrun, hgraph .buy, hgraph .sell⟩

end OrderBook

namespace OrderBook

attribute [local instance] Build.standard BookCode.truncating

/-- A bid delta of the instrument of the witness below. -/
def bidDelta (action : BookAction) (raw : Int) (size : Nat) : OrderBookDelta :=
  ⟨⟨"ETHUSDT.BINANCE"⟩, action, ⟨.buy, ⟨raw, 0⟩, ⟨size, 0⟩, 0⟩, 0, 0, 0, 0⟩

/-- The hypotheses can be met: two bids, one of them resized to nothing. -/
theorem l2_refines_priceMaps_two_bids :
    ∃ b, runs afterDelta (new ⟨"ETHUSDT.BINANCE"⟩ .l2Mbp)
        [bidDelta .add 100 1, bidDelta .add 101 2, bidDelta .update 100 0] = some b ∧
      BookLadder.IsGraph .buy b.bids
        ([bidDelta .add 100 1, bidDelta .add 101 2, bidDelta .update 100 0].foldl
          (PriceMaps.apply ⟨"ETHUSDT.BINANCE"⟩) (fun _ _ => none) .buy) ∧
      BookLadder.IsGraph .sell b.asks
        ([bidDelta .add 100 1, bidDelta .add 101 2, bidDelta .update 100 0].foldl
          (PriceMaps.apply ⟨"ETHUSDT.BINANCE"⟩) (fun _ _ => none) .sell) := by
  refine l2_refines_priceMaps _ _ ?_ ?_
  · decide
  refine BookCode.truncating_injOn ?_
  rintro raw ⟨_, hd, -, rfl⟩
  simp only [mem_cons, not_mem_nil, or_false] at hd
  rcases hd with rfl | rfl | rfl <;> decide

end OrderBook

end Nautilus
