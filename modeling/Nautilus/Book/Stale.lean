import Nautilus.Book.Calls

/-!
# Clearing a crossed book

`clear_stale_levels` (`book.rs:172`): where the best bid is above the best ask, every level of the
side to clear, or of both, that reaches the other side's best price is taken out (`ClearsStale`).

The levels come out right in every book. The caches do not: `remove_level` forgets every id of the
level, and an id that was added again at another price has an order in a level that stays.
-/

namespace Nautilus

open Lib List Option OrdMap BookLadder
open BookPrice (rank)

namespace OrderBook

variable {b b' : OrderBook} {side : Option OrderSide}

/-- The best bid and the best ask of a book that is strictly crossed. -/
def crossing (b : OrderBook) : Option (Price × Price) :=
  match b.bestBidPrice, b.bestAskPrice with
  | some bid, some ask => if bid.raw ≤ ask.raw then none else some (bid, ask)
  | _, _ => none

/-- The price of a level that is to be cleared on side `s`. -/
def stale (b : OrderBook) (side : Option OrderSide) (s : OrderSideSpecified) (p : BookPrice) :
    Bool :=
  match s, b.crossing with
  | .buy, some (_, ask) => side ≠ some .sell && ask.raw ≤ p.value.raw
  | .sell, some (bid, _) => side ≠ some .buy && p.value.raw ≤ bid.raw
  | _, none => false

def staleLevels (b : OrderBook) (side : Option OrderSide) (s : OrderSideSpecified) :
    List (BookPrice × BookLevel) :=
  (b.ladder s).levels.entries.filter fun e => b.stale side s e.1

/-- What the call is for: the book `b'` it leaves and the levels it returns. -/
structure ClearsStale (b : OrderBook) (side : Option OrderSide) (b' : OrderBook)
    (removed : Option (List BookLevel)) : Prop where
  uncrossed : b'.crossing = none
  levels : ∀ s, (b'.ladder s).levels.entries =
    (b.ladder s).levels.entries.filter fun e => !b.stale side s e.1
  returned : removed =
    let levels := (b.staleLevels side .buy ++ b.staleLevels side .sell).map Prod.snd
    if levels = [] then none else some levels
  cached : ∀ s, ∀ e ∈ (b'.ladder s).levels.entries, ∀ id, (e.2.orders.get? id).isSome →
    (b'.ladder s).cache.get? id = (b.ladder s).cache.get? id
  quiet : b.crossing = none → b' = b ∧ removed = none

/-- No id that the cache knows stands both at a level to be cleared and at one that stays. -/
def Unshared (b : OrderBook) (side : Option OrderSide) : Prop :=
  ∀ s, ∀ e ∈ (b.ladder s).levels.entries, ∀ e' ∈ (b.ladder s).levels.entries,
    b.stale side s e.1 = true → b.stale side s e'.1 = false → ∀ id,
      (e.2.orders.get? id).isSome → (e'.2.orders.get? id).isSome → (b.ladder s).cache.get? id = none

/-! ## The scan -/

section

variable (hb : b.WellFormed) (side : Option OrderSide) (s : OrderSideSpecified)

include hb

/-- The levels of a side stand in the order of their prices, the best one first. -/
theorem WellFormed.pairwise_rank :
    (b.ladder s).levels.entries.Pairwise fun e e' =>
      rank ⟨e.1.value, s⟩ < rank ⟨e'.1.value, s⟩ := by
  have hside : ∀ e ∈ (b.ladder s).levels.entries, e.1 = ⟨e.1.value, s⟩ := fun e he =>
    congrArg (BookPrice.mk _) ((hb.levelsOk s _ _ (get?_of_mem he)).1.side.trans (hb.side s))
  refine (b.ladder s).levels.sorted.imp_of_mem fun {e e'} he he' hlt => ?_
  rw [hside e he, hside e' he'] at hlt
  exact compare_lt_iff_lt.mp ((BookPrice.cmp_of_side_eq (by rfl)).symm.trans hlt)

/-- The best price is that of an entry, and no entry has a better one. -/
theorem WellFormed.best {price : Price}
    (h : ((b.ladder s).top.map fun top => top.price.value) = some price) :
    (∃ e ∈ (b.ladder s).levels.entries, e.1.value.raw = price.raw) ∧
      ∀ e ∈ (b.ladder s).levels.entries, rank ⟨price, s⟩ ≤ rank ⟨e.1.value, s⟩ := by
  obtain ⟨_, htop, rfl⟩ := map_eq_some_iff.mp h
  obtain ⟨best, hfirst, rfl⟩ := map_eq_some_iff.mp htop
  have hmem := mem_of_first hfirst
  have hraw := (BookPrice.cmp_eq_iff.mp (hb.levelsOk s _ _ (get?_of_mem hmem)).1.price).2
  refine ⟨⟨best, hmem, hraw.symm⟩, fun e he => ?_⟩
  have hrank : rank ⟨best.2.price.value, s⟩ = rank ⟨best.1.value, s⟩ := by
    simp [rank, hraw]
  obtain ⟨_, hrest⟩ := head?_eq_some_iff.mp hfirst
  have hsorted := hb.pairwise_rank s
  rw [hrest] at he hsorted
  rw [hrank]
  rcases mem_cons.mp he with rfl | he
  · exact le_rfl
  · exact ((pairwise_cons.mp hsorted).1 e he).le

theorem WellFormed.pairwise_stale : (b.ladder s).levels.entries.Pairwise fun e e' =>
      b.stale side s e'.1 = true → b.stale side s e.1 = true := by
  refine (hb.pairwise_rank s).imp fun {e e'} hlt => ?_
  unfold stale
  cases s <;> cases b.crossing <;> simp_all [rank] <;> omega

theorem WellFormed.entries_eq : (b.ladder s).levels.entries = b.staleLevels side s ++
      (b.ladder s).levels.entries.filter fun e => !b.stale side s e.1 := by
  obtain ⟨htake, hdrop⟩ := Sorted.takeWhile_eq_filter (hb.pairwise_stale side s)
  rw [staleLevels, ← htake, ← hdrop, takeWhile_append_dropWhile]

/-- The scans collect the keys of the levels to be cleared. -/
theorem WellFormed.stalePrices_eq (ht : b.bookType ≠ .l1Mbp) : b.stalePrices side =
      ((b.staleLevels side .buy).map Prod.fst, (b.staleLevels side .sell).map Prod.fst) := by
  have hscan : ∀ s, (b.staleLevels side s).map Prod.fst =
      (b.ladder s).levels.keys.takeWhile (b.stale side s) := by
    intro s
    rw [staleLevels, ← (Sorted.takeWhile_eq_filter (hb.pairwise_stale side s)).1, OrdMap.keys,
      takeWhile_map]
    rfl
  have hnone : ∀ keys : List BookPrice, keys.takeWhile (fun _ => false) = [] := by
    intro keys
    cases keys <;> rfl
  rw [hscan, hscan]
  unfold stalePrices stale crossing ladder
  rw [if_neg ht]
  cases b.bestBidPrice <;> cases b.bestAskPrice <;> simp only [hnone]
  split
  · simp [hnone]
  · by_cases hbuy : side = some .buy <;> by_cases hsell : side = some .sell <;> simp_all

end

/-- Removing the levels at the front leaves the others, and forgets the ids of the levels it takes.
-/
theorem removeLevels_front {l : BookLadder} {taken rest : List (BookPrice × BookLevel)}
    (h : l.levels.entries = taken ++ rest) :
    (removeLevels l (taken.map Prod.fst)).1.levels.entries = rest ∧
      (removeLevels l (taken.map Prod.fst)).2 = taken.map Prod.snd ∧
      ∀ id, (removeLevels l (taken.map Prod.fst)).1.cache.get? id =
        if ∃ e ∈ taken, (e.2.orders.get? id).isSome then none else l.cache.get? id := by
  induction taken generalizing l with
  | nil => exact ⟨h, rfl, fun id => (if_neg (by simp)).symm⟩
  | cons e taken ih =>
    obtain ⟨p, level⟩ := e
    have hget : l.levels.get? p = some level := by
      refine get?_of_mem ?_
      rw [h]
      exact mem_cons_self
    have hremove : (l.removeLevel p).1.levels = l.levels.remove p ∧
        (l.removeLevel p).2 = some level := by
      unfold removeLevel
      rw [hget]
      exact ⟨rfl, rfl⟩
    obtain ⟨hentries, hlevels, hcache⟩ := ih (by rw [hremove.1]; exact entries_remove_first h)
    refine ⟨hentries, ?_, fun id => (hcache id).trans ?_⟩
    · show (l.removeLevel p).2.toList ++
        (removeLevels (l.removeLevel p).1 (taken.map Prod.fst)).2 = level :: taken.map Prod.snd
      rw [hremove.2, hlevels]
      rfl
    · rw [removeLevel_cache, order?_of_get? hget]
      by_cases hid : (level.orders.get? id).isSome = true
      · simp [hid]
      · simp only [mem_cons, exists_eq_or_imp, hid, false_or, Bool.false_eq_true, if_false]

section

variable (hb : b.WellFormed) (ht : b.bookType ≠ .l1Mbp) (side : Option OrderSide)

include hb ht

theorem clearStaleLevels_ladder (s : OrderSideSpecified) :
    ((b.clearStaleLevels side).1.ladder s).levels.entries =
        (b.ladder s).levels.entries.filter (fun e => !b.stale side s e.1) ∧
      ∀ id, ((b.clearStaleLevels side).1.ladder s).cache.get? id =
        if ∃ e ∈ b.staleLevels side s, (e.2.orders.get? id).isSome then none
        else (b.ladder s).cache.get? id := by
  have hladder : (b.clearStaleLevels side).1.ladder s =
      (removeLevels (b.ladder s) ((b.staleLevels side s).map Prod.fst)).1 := by
    obtain ⟨hbids, hasks⟩ := b.clearStaleLevels_ladders side
    rw [hb.stalePrices_eq side ht] at hbids hasks
    cases s with
    | buy => exact hbids
    | sell => exact hasks
  obtain ⟨hentries, -, hcache⟩ := removeLevels_front (hb.entries_eq side s)
  rw [hladder]
  exact ⟨hentries, hcache⟩

theorem clearStaleLevels_returned : (b.clearStaleLevels side).2 =
    let levels := (b.staleLevels side .buy ++ b.staleLevels side .sell).map Prod.snd
    if levels = [] then none else some levels := by
  have hbids := (removeLevels_front (hb.entries_eq side .buy)).2.1
  have hasks := (removeLevels_front (hb.entries_eq side .sell)).2.1
  unfold clearStaleLevels
  rw [hb.stalePrices_eq side ht]
  dsimp only [ladder] at hbids hasks ⊢
  rw [hbids, hasks, ← map_append]
  cases b.staleLevels side .buy <;> cases b.staleLevels side .sell <;> simp

theorem clearStaleLevels_of_not_crossing (h : b.crossing = none) :
    b.clearStaleLevels side = (b, none) := by
  have hnone : ∀ s, b.staleLevels side s = [] := by
    intro s
    refine filter_eq_nil_iff.mpr fun e _ => ?_
    unfold stale
    rw [h]
    cases s <;> nofun
  unfold clearStaleLevels
  rw [hb.stalePrices_eq side ht, hnone, hnone]
  rfl

end

theorem crossing_eq_some {bid ask : Price} (h : b.crossing = some (bid, ask)) :
    b.bestBidPrice = some bid ∧ b.bestAskPrice = some ask ∧ ask.raw < bid.raw := by
  unfold crossing at h
  split at h
  · obtain ⟨hlt, heq⟩ := ite_none_left_eq_some.mp h
    cases heq
    exact ⟨‹_›, ‹_›, not_le.mp hlt⟩
  · nomatch h

variable [Build] [BookCode]

theorem clearStaleLevels_uncrossed (hb : b.WellFormed) (ht : b.bookType ≠ .l1Mbp)
    (side : Option OrderSide) : (b.clearStaleLevels side).1.crossing = none := by
  cases hcross : b.crossing with
  | none => rw [clearStaleLevels_of_not_crossing hb ht side hcross, hcross]
  | some prices =>
    obtain ⟨hbid, hask, -⟩ := crossing_eq_some hcross
    refine eq_none_iff_forall_ne_some.mpr fun prices' h => ?_
    obtain ⟨hbid', hask', _⟩ := crossing_eq_some h
    have hb' : (b.clearStaleLevels side).1.WellFormed :=
      hb.step (show b.step (.clearStaleLevels side) = some _ from rfl)
    obtain ⟨⟨e, he, _⟩, -⟩ := hb'.best .buy hbid'
    obtain ⟨⟨e', he', _⟩, -⟩ := hb'.best .sell hask'
    rw [(clearStaleLevels_ladder hb ht side _).1, mem_filter] at he he'
    have hbest := (hb.best .buy hbid).2 e he.1
    have hbest' := (hb.best .sell hask).2 e' he'.1
    -- what is left of the side that was cleared does not reach the other one
    have hstale := he.2
    have hstale' := he'.2
    simp only [rank] at hbest hbest'
    simp only [stale, hcross] at hstale hstale'
    by_cases hside : side = some .sell <;> simp_all <;> omega

/-- **The call does what it is for exactly when** no id that it forgets is still in use. -/
theorem clearStaleLevels_iff {instrumentId : InstrumentId} {bookType : BookType}
    {ops : List BookOp} (ht : bookType ≠ .l1Mbp)
    (h : runs step (new instrumentId bookType) ops = some b) (side : Option OrderSide) :
    b.ClearsStale side (b.clearStaleLevels side).1 (b.clearStaleLevels side).2 ↔
      b.Unshared side := by
  have hb := wellFormed_of_runs h
  replace ht : b.bookType ≠ .l1Mbp := by
    rw [(sameBook_of_runs h).2]
    exact ht
  have hladder := clearStaleLevels_ladder hb ht side
  constructor
  · intro hclears s e he e' he' hstale hkept id hid hid'
    have hsame := hclears.cached s e' (by simp [(hladder s).1, he', hkept]) id hid'
    rw [(hladder s).2, if_pos ⟨e, mem_filter.mpr ⟨he, hstale⟩, hid⟩] at hsame
    exact hsame.symm
  · intro hunshared
    refine ⟨clearStaleLevels_uncrossed hb ht side, fun s => (hladder s).1,
      clearStaleLevels_returned hb ht side, fun s e' he' id hid' => ?_, fun hcross => ?_⟩
    · rw [(hladder s).1, mem_filter] at he'
      rw [(hladder s).2]
      split_ifs with hshared
      · obtain ⟨e, he, hid⟩ := hshared
        obtain ⟨he, hstale⟩ := mem_filter.mp he
        exact (hunshared s e he e' he'.1 hstale (by simpa using he'.2) id hid hid').symm
      · rfl
    · rw [clearStaleLevels_of_not_crossing hb ht side hcross]
      exact ⟨rfl, rfl⟩

end OrderBook

/-! ## A crossed book, with and without an id in two levels -/

namespace OrderBook

attribute [local instance] Build.standard BookCode.truncating

/-- Bids of one unit at 101, under the id 7, and at 99, and an ask between them. -/
def crossedOps (id : OrderId) : List BookOp :=
  [.add ⟨.buy, ⟨101, 0⟩, ⟨1, 0⟩, 7⟩ 0 1 1, .add ⟨.buy, ⟨99, 0⟩, ⟨1, 0⟩, id⟩ 0 2 2,
    .add ⟨.sell, ⟨100, 0⟩, ⟨1, 0⟩, 3⟩ 0 3 3]

/-- Both sides lose the level that reaches the other. -/
theorem clearStaleLevels_iff_both_sides :
    ∃ b, runs step (new ⟨"ETHUSDT.BINANCE"⟩ .l3Mbo) (crossedOps 8) = some b ∧
      ((b.clearStaleLevels none).2.map fun levels => levels.map (·.price.value.raw)) =
        some [101, 100] ∧
      b.ClearsStale none (b.clearStaleLevels none).1 (b.clearStaleLevels none).2 := by
  have hrun : runs step (new ⟨"ETHUSDT.BINANCE"⟩ .l3Mbo) (crossedOps 8) = some _ := rfl
  refine ⟨_, hrun, by decide, (clearStaleLevels_iff (by nofun) hrun none).mpr ?_⟩
  intro s e he e' he' hstale hkept id hid hid'
  rw [isSome_iff_exists, ← IndexMap.mem_keys_iff] at hid hid'
  cases s with
  | buy =>
    rcases he with _ | ⟨_, _ | ⟨_, ⟨⟩⟩⟩
    · rcases he' with _ | ⟨_, _ | ⟨_, ⟨⟩⟩⟩
      · cases hstale.symm.trans hkept
      · -- the two bids have ids of their own
        cases mem_singleton (b := 7).mp hid
        cases mem_singleton (b := 8).mp hid'
    · exact absurd hstale (by decide)
  | sell =>
    rcases he with _ | ⟨_, ⟨⟩⟩
    rcases he' with _ | ⟨_, ⟨⟩⟩
    cases hstale.symm.trans hkept

/-- Clearing the level at 101 takes the id out of the cache; the order added again under it at 99
stays but is no longer found. -/
theorem not_clearsStale_readded_id :
    ∃ b, runs step (new ⟨"ETHUSDT.BINANCE"⟩ .l3Mbo) (crossedOps 7) = some b ∧
      ¬ b.ClearsStale none (b.clearStaleLevels none).1 (b.clearStaleLevels none).2 := by
  refine ⟨_, rfl, fun hclears => ?_⟩
  have hcached := hclears.cached .buy _ (Mem.head _) 7 rfl
  revert hcached
  decide

end OrderBook

end Nautilus
