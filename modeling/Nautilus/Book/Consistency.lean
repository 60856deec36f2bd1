import Nautilus.Book.Calls

/-!
# Consistency of the ladders

Is the cache of a ladder in step with its levels? `BookLadder.Consistent`: no empty level, every
order where its price and side put it, no id in two levels, and a cache that knows exactly the
stored ids, each under its level.

`LevelsOk` holds whatever is done (`wellFormed_of_runs`). That the cache is exact (`Indexed`) the
source only debug-asserts ("Cache size should equal total orders across all levels",
`ladder.rs:304, 327, 365, 380`), and **an `Add` of a live id at another price breaks it**: the cache
entry is overwritten and the old order stays.
-/

namespace Nautilus

open Lib List Option OrdMap BookLadder BookPrice
open BookCode (toBookPrice toBookPrice_eq hashOne)

variable {l : BookLadder} {id : OrderId} {order : BookOrder} {orders : List BookOrder}
  {s : OrderSideSpecified} {flags : UInt8} {b b' : OrderBook} {op : BookOp} {used : Set Int}

/-! ## Consistent ladders -/

namespace BookLadder

/-- Levels and cache are in step, and every order has the price and the side of its level. -/
structure Consistent (l : BookLadder) : Prop where
  inStep : InStep BookLevel.orders l.levels l.cache
  belongs : ∀ e ∈ l.levels.entries, e.2.price.eq e.1 = true ∧ e.1.side = l.side ∧
    ∀ order ∈ e.2.orders.values, order.price.raw = e.2.price.value.raw ∧
      order.side.asSpecified = some e.2.price.side

/-- The cache is the exact index of the stored orders. -/
def Indexed (l : BookLadder) : Prop := IndexExact BookPrice.cmp l.order? l.cache.get?

/-- For a ladder with levels in good shape, consistency is exactness of the cache. -/
theorem consistent_iff_indexed (hok : l.LevelsOk) : l.Consistent ↔ l.Indexed := by
  have hiff : InStep BookLevel.orders l.levels l.cache ↔ l.Indexed :=
    inStep_iff_exact fun p level hget => (hok p level hget).2
  constructor
  · intro h
    exact hiff.mp h.inStep
  intro h
  refine ⟨hiff.mpr h, ?_⟩
  intro e he
  have hlevel := (hok e.1 e.2 (get?_of_mem he)).1
  obtain ⟨hs, hv⟩ := cmp_eq_iff.mp hlevel.price
  refine ⟨eq_iff_cmp.mpr hlevel.price, hlevel.side, ?_⟩
  intro order ho
  obtain ⟨id, hget⟩ := IndexMap.mem_values_iff.mp ho
  obtain ⟨hprice, hside, -⟩ := hlevel.orders id order hget
  rw [hv, hs, hlevel.side]
  exact ⟨hprice, hside⟩

/-! ## What the calls do to the index -/

theorem indexed_clear (l : BookLadder) : l.clear.Indexed :=
  indexExact_empty (fun _ _ => rfl) (fun _ => rfl)

theorem Indexed.withdrawn (h : l.Indexed) {p : BookPrice} {level : BookLevel}
    (hc : l.cache.get? id = some p) (hget : l.levels.get? p = some level) :
    (l.withdrawn p level id).Indexed :=
  IndexExact.drop h hc (withdrawn_order? hget id) (l.withdrawn_cache p level id)

theorem Indexed.removeOrder {l' : BookLadder} (h : l.Indexed) (hl : l.removeOrder id = some l') :
    l'.Indexed := by
  rcases l.removeOrder_cases id with ⟨heq, -⟩ | ⟨p, _, hc, hget, heq⟩
  · rw [heq] at hl
    cases hl
    exact h
  · rw [heq] at hl
    cases hl
    exact h.withdrawn hc hget

theorem Indexed.removeLevel (h : l.Indexed) (price : BookPrice) : (l.removeLevel price).1.Indexed :=
  IndexExact.dropBucket h l.respects_order? (l.removeLevel_order? price) (l.removeLevel_cache price)

theorem Indexed.cache_side (h : l.Indexed) (hok : l.LevelsOk) {q : BookPrice}
    (hq : l.cache.get? id = some q) : q.side = l.side := by
  obtain ⟨order, ho⟩ := h.sound id q hq
  exact (hok.order ho).1

theorem Indexed.level_of_cached (h : l.Indexed) {p : BookPrice} (hc : l.cache.get? id = some p) :
    ∃ level, l.levels.get? p = some level := by
  obtain ⟨_, ho⟩ := h.sound id p hc
  obtain ⟨level, hget, -⟩ := item_eq_some_iff.mp ho
  exact ⟨level, hget⟩

theorem Indexed.not_cached_of_no_level (h : l.Indexed)
    (hnone : ∀ p, l.cache.get? id = some p → l.levels.get? p = none) : l.cache.get? id = none := by
  cases hc : l.cache.get? id with
  | none => rfl
  | some p =>
    obtain ⟨_, hget⟩ := h.level_of_cached hc
    rw [hnone p hc] at hget
    nomatch hget

section

variable [Build] [BookCode]

/-- The id of the order is not cached at another price. -/
def Fresh (l : BookLadder) (order : BookOrder) : Prop :=
  ∀ q, l.cache.get? order.orderId = some q → q.value.raw = order.price.raw

section

variable (h : l.Indexed)

include h

omit [Build] in
theorem fresh_iff_cmp (hok : l.LevelsOk) (hside : order.side.asSpecified = some l.side) :
    l.Fresh order ↔ ∀ q, l.cache.get? order.orderId = some q → q.cmp (toBookPrice order) = .eq := by
  rw [toBookPrice_eq order l.side hside]
  refine forall_congr' fun q => forall_congr' fun hq => ?_
  rw [cmp_eq_iff]
  exact ⟨fun hraw => ⟨h.cache_side hok hq, hraw⟩, fun hcmp => hcmp.2⟩

theorem place_indexed_iff (hok : l.LevelsOk) (hpos : order.size.isPositive = true)
    (hside : order.side.asSpecified = some l.side) : (l.place order).Indexed ↔ l.Fresh order := by
  rw [fresh_iff_cmp h hok hside]
  exact IndexExact.put_iff h (place_order? hpos) (l.place_cache order)

/-- Placing and then retaining the best level is exact: the index is rebuilt, or the one level left
is the one placed into. -/
theorem place_retainBestOnly_indexed (hpos : order.size.isPositive = true) :
    (l.place order).retainBestOnly.Indexed := by
  rcases (l.place order).retainBestOnly_cases with ⟨hlen, heq⟩ |
    ⟨best, level, hfirst, hentries, hcache⟩
  · rw [heq]
    refine (IndexExact.put_iff h (place_order? hpos) (l.place_cache order)).mpr ?_
    intro q hq
    obtain ⟨_, hold⟩ := h.sound _ q hq
    obtain ⟨level, hlevel, -⟩ := item_eq_some_iff.mp hold
    -- both prices have a level in a map with one entry
    obtain ⟨level', hlevel'⟩ : ∃ level', (l.place order).levels.get? q = some level' := by
      rw [place_levels, get?_insert]
      split
      · exact ⟨_, rfl⟩
      · exact ⟨level, hlevel⟩
    have hplaced : (l.place order).levels.get? (toBookPrice order) =
        some (l.placedLevel order) := by
      rw [place_levels]
      exact get?_insert_self _ _ _
    exact cmp_eq_of_len_le_one hlen hlevel' hplaced
  · have hbest : (l.place order).levels.get? best = some level := get?_of_mem (mem_of_first hfirst)
    refine indexExact_rebuild (l.place order).respects_order? ?_ hcache
    intro p id
    rw [order?_of_entries_singleton hentries]
    by_cases hp : best.cmp p = .eq
    · rw [if_pos hp, if_pos hp, ← (l.place order).respects_order? best p hp, order?_of_get? hbest]
    · rw [if_neg hp, if_neg hp]

theorem Indexed.add_l1 (hside : order.side.asSpecified = some l.side)
    (flags : UInt8) (ht : l.bookType = .l1Mbp) : (l.add order flags).Indexed := by
  rcases l.add_cases order flags with ⟨-, hne, -⟩ | ⟨-, -, heq⟩ | ⟨-, hne, -⟩ |
    ⟨hpos, -, l₀, hl₀, heq⟩
  · exact absurd ht hne
  · rw [heq]
    exact indexed_clear l
  · exact absurd ht hne
  have hindexed : l₀.Indexed := by
    rcases hl₀ with ⟨rfl, -⟩ | ⟨st, rfl⟩
    · exact h
    · exact indexed_clear l
  obtain ⟨_, st, hsettle, hl' | ⟨hl', hor⟩⟩ := (l₀.place order).settleBatch_eq flags
  · rw [heq, hsettle, hl']
    exact place_retainBestOnly_indexed hindexed hpos
  -- outside a batch the ladder was cleared first
  rw [heq, hsettle, hl']
  rcases hl₀ with ⟨rfl, hbatch⟩ | ⟨st', rfl⟩
  · rcases hor with hne | hnot
    · exact absurd ht hne
    · rw [hbatch] at hnot
      nomatch hnot
  · have hok : LevelsOk { l.clear with batchState := st' } := levelsOk_of_levels_empty rfl
    exact (place_indexed_iff hindexed hok hpos hside).mpr nofun

section

variable (hok : l.LevelsOk) (hside : order.side.asSpecified = some l.side) (flags : UInt8)

include hok hside

/-- **An add outside L1 keeps the index exact iff the order is fresh.** -/
theorem add_indexed_iff (ht : l.bookType ≠ .l1Mbp) :
    (l.add order flags).Indexed ↔ (order.size.isPositive = true → l.Fresh order) := by
  rcases l.add_cases order flags with ⟨hpos, -, heq⟩ | ⟨-, ht', -⟩ | ⟨hpos, -, heq⟩ | ⟨-, ht', -⟩
  · rw [heq, hpos]
    exact ⟨fun _ => nofun, fun _ => h⟩
  · exact absurd ht' ht
  · rw [heq, place_indexed_iff h hok hpos hside]
    exact ⟨fun hf _ => hf, fun hf => hf hpos⟩
  · exact absurd ht' ht

theorem Indexed.add_of_not_cached (hc : l.cache.get? order.orderId = none) :
    (l.add order flags).Indexed := by
  by_cases ht : l.bookType = .l1Mbp
  · exact h.add_l1 hside flags ht
  · refine (add_indexed_iff h hok hside flags ht).mpr fun _ q hq => ?_
    rw [hc] at hq
    nomatch hq

/-- An update takes the old order out first, so it keeps the index exact. -/
theorem Indexed.update : (l.update order flags).Indexed := by
  rcases l.update_cases order flags with ⟨hnone, heq⟩ | ⟨p, level, hc, hget, -, heq⟩ |
    ⟨p, level, hc, hget, -, heq⟩
  · have hnc := h.not_cached_of_no_level hnone
    rw [heq]
    split
    · exact h.add_of_not_cached hok hside flags hnc
    · exact h
  · rw [heq]
    by_cases hzero : order.size.raw = 0
    · refine IndexExact.drop h hc ?_ ?_
      · intro p' id
        rw [updateInPlace_order? hget, if_pos hzero]
      · intro id
        rw [storeLevel_cache, if_pos hzero, IndexMap.get?_remove]
    · -- overwriting in place stores the id where it is cached already
      have horder : ∀ p' id, ({ l with
            cache := if order.size.raw = 0 then l.cache.remove order.orderId else l.cache
            }.storeLevel p (level.update order)).order? p' id =
          if id = order.orderId ∧ p.cmp p' = .eq then some order else l.order? p' id := by
        intro p' id
        rw [updateInPlace_order? hget, if_neg hzero]
      refine (IndexExact.put_iff h horder ?_).mpr ?_
      · intro id
        rw [storeLevel_cache, if_neg hzero]
        split_ifs with hid
        · rw [hid, hc]
        · rfl
      · intro q hq
        rw [hc] at hq
        cases hq
        exact Std.ReflCmp.compare_self
  · rw [heq]
    have hw := h.withdrawn hc hget
    split
    · refine hw.add_of_not_cached (hok.withdrawn hget order.orderId) hside flags ?_
      rw [withdrawn_cache, if_pos rfl]
    · exact hw

end

/-- The calls that cannot break the index: all but the adds outside L1. -/
theorem Indexed.call {l' : BookLadder} {c : LadderCall} (hok : l.LevelsOk)
    (hside : ∀ order, c.stores = some order → order.side.asSpecified = some l.side)
    (hadd : ∀ order flags, c = .add order flags → l.bookType = .l1Mbp) (hl : l.call c = some l') :
    l'.Indexed := by
  cases c with
  | clear => cases hl; exact indexed_clear l
  | add order flags => cases hl; exact h.add_l1 (hside order rfl) flags (hadd order flags rfl)
  | update order flags => cases hl; exact h.update hok (hside order rfl) flags
  | removeOrder orderId => exact h.removeOrder hl
  | removeLevel price => cases hl; exact h.removeLevel price

end

/-! ### A batch of adds -/

theorem exists_foldl_place_order? (hpos : ∀ o ∈ orders, o.size.isPositive = true) (l : BookLadder)
    (p : BookPrice) (id : OrderId) :
    (∃ o, (orders.foldl place l).order? p id = some o) ↔
      (∃ o, l.order? p id = some o) ∨
        ∃ o ∈ orders, o.orderId = id ∧ (toBookPrice o).cmp p = .eq := by
  induction orders generalizing l with
  | nil => simp
  | cons order orders ih =>
    rw [foldl_cons, ih (fun o ho => hpos o (mem_cons_of_mem _ ho)),
      place_order? (hpos order mem_cons_self)]
    by_cases h : id = order.orderId ∧ (toBookPrice order).cmp p = .eq
    · rw [if_pos h]
      have hhead : ∃ o ∈ order :: orders, o.orderId = id ∧
          (toBookPrice o).cmp p = .eq :=
        ⟨order, mem_cons_self, h.1.symm, h.2⟩
      exact ⟨fun _ => .inr hhead, fun _ => .inl ⟨order, rfl⟩⟩
    · rw [if_neg h]
      have hhead : ¬ (order.orderId = id ∧ (toBookPrice order).cmp p = .eq) :=
        fun hc => h ⟨hc.1.symm, hc.2⟩
      simp [hhead]

theorem exists_foldl_place_cache (orders : List BookOrder) (l : BookLadder) (id : OrderId) :
    (∃ q, (orders.foldl place l).cache.get? id = some q) ↔
      (∃ q, l.cache.get? id = some q) ∨ ∃ o ∈ orders, o.orderId = id := by
  induction orders generalizing l with
  | nil => simp
  | cons order orders ih =>
    rw [foldl_cons, ih, place_cache]
    by_cases h : id = order.orderId
    · simp [h]
    · have h' : ¬ order.orderId = id := fun hc => h hc.symm
      simp [if_neg h, exists_eq_or_imp, h']

section

variable (hpos : ∀ o ∈ orders, o.size.isPositive = true)

include hpos

theorem foldl_place_sound (h : IndexSound l.order? l.cache.get?) :
    IndexSound (orders.foldl place l).order? (orders.foldl place l).cache.get? := by
  induction orders generalizing l with
  | nil => exact h
  | cons order orders ih =>
    refine ih (fun o ho => hpos o (mem_cons_of_mem _ ho)) ?_
    exact h.put (place_order? (hpos order mem_cons_self)) (l.place_cache order)

/-- Adds on an empty ladder leave an exact index iff no id comes at two prices. -/
theorem foldl_place_indexed_iff
    (hside : ∀ o ∈ orders, o.side.asSpecified = some s) (l : BookLadder) :
    (orders.foldl place l.clear).Indexed ↔
      ∀ o ∈ orders, ∀ o' ∈ orders, o.orderId = o'.orderId → o.price.raw = o'.price.raw := by
  have hstored := fun p id => exists_foldl_place_order? hpos l.clear p id
  -- on one side, prices are compared by their raw values
  have hcmp : ∀ o ∈ orders, ∀ o' ∈ orders,
      ((toBookPrice o).cmp (toBookPrice o') = .eq ↔ o.price.raw = o'.price.raw) := by
    intro o ho o' ho'
    rw [toBookPrice_eq o s (hside o ho), toBookPrice_eq o' s (hside o' ho'), cmp_eq_iff]
    exact ⟨fun h => h.2, fun h => ⟨rfl, h⟩⟩
  constructor
  · -- both orders rest where they were placed, so an exact cache cannot tell them apart
    intro h o ho o' ho' hid
    obtain ⟨x, hx⟩ := (hstored (toBookPrice o) o.orderId).mpr
      (.inr ⟨o, ho, rfl, Std.ReflCmp.compare_self⟩)
    obtain ⟨_, hx'⟩ := (hstored (toBookPrice o') o.orderId).mpr
      (.inr ⟨o', ho', hid.symm, Std.ReflCmp.compare_self⟩)
    exact (hcmp o ho o' ho').mp (h.unique hx hx')
  · intro h
    refine IndexExact.of_unique (respects_order? _)
      (foldl_place_sound hpos (indexed_clear l).sound) ?_ ?_
    · intro p id o ho
      rcases (hstored p id).mp ⟨o, ho⟩ with ⟨x, hx⟩ | ⟨o', ho', hid, -⟩
      · nomatch hx
      · exact (exists_foldl_place_cache orders l.clear id).mpr (.inr ⟨o', ho', hid⟩)
    · intro p p' id o o' ho ho'
      -- two resting orders with one id come from two given ones, which share a price
      rcases (hstored p id).mp ⟨o, ho⟩ with ⟨x, hx⟩ | ⟨o₁, ho₁, hid₁, hp₁⟩
      · nomatch hx
      rcases (hstored p' id).mp ⟨o', ho'⟩ with ⟨x, hx⟩ | ⟨o₂, ho₂, hid₂, hp₂⟩
      · nomatch hx
      · have heq := (hcmp o₁ ho₁ o₂ ho₂).mpr (h o₁ ho₁ o₂ ho₂ (hid₁.trans hid₂.symm))
        exact Std.TransCmp.eq_trans (Std.OrientedCmp.eq_symm hp₁) (Std.TransCmp.eq_trans heq hp₂)

/-- Outside L1 a run of positive adds places the orders one after another. -/
theorem runs_adds (ht : l.bookType ≠ .l1Mbp) :
    runs call l (orders.map fun order => .add order flags) = some (orders.foldl place l) := by
  induction orders generalizing l with
  | nil => rfl
  | cons order orders ih =>
    have hadd : l.call (.add order flags) = some (l.place order) := by
      rcases l.add_cases order flags with ⟨hneg, -, -⟩ | ⟨-, ht', -⟩ | ⟨-, -, heq⟩ | ⟨-, ht', -⟩
      · rw [hpos order mem_cons_self] at hneg
        nomatch hneg
      · exact absurd ht' ht
      · exact congrArg some heq
      · exact absurd ht' ht
    rw [map_cons, runs_cons, hadd]
    exact ih (fun o ho => hpos o (mem_cons_of_mem _ ho)) ht

end

end

end BookLadder

/-! ## Steps of the book -/

namespace OrderBook

/-- Both caches are exact. -/
def Indexed (b : OrderBook) : Prop := ∀ s, (b.ladder s).Indexed

theorem indexed_new (instrumentId : InstrumentId) (bookType : BookType) :
    (new instrumentId bookType).Indexed := by
  intro s
  cases s <;> exact indexExact_empty (fun _ _ => rfl) (fun _ => rfl)

variable [Build] [BookCode]

/-- An add whose preprocessed id is not cached at another price of its side. Orders of non-positive
size are ignored by the ladder. -/
def FreshAdd (b : OrderBook) (order : BookOrder) (flags : UInt8) : Prop :=
  ∀ s, order.side.asSpecified = some s → order.size.isPositive = true →
    (b.ladder s).Fresh (preProcessOrder b.bookType order flags)

/-- The condition on a delta: only an `Add` can break the cache. -/
def FreshDelta (b : OrderBook) (delta : OrderBookDelta) : Prop :=
  delta.action = .add → ∀ order, b.resolvedOrder delta = some order → b.FreshAdd order delta.flags

/-- On neither side of a depth snapshot do two orders share a preprocessed id at different prices.
-/
def FreshDepth (b : OrderBook) (depth : OrderBookDepth10) : Prop :=
  ∀ s, ∀ o ∈ depthOrders depth s, ∀ o' ∈ depthOrders depth s,
    (preProcessOrder b.bookType o depth.flags).orderId =
      (preProcessOrder b.bookType o' depth.flags).orderId → o.price.raw = o'.price.raw

/-- The condition on an operation, read off the book before it. -/
def FreshOp (b : OrderBook) : BookOp → Prop
  | .add order flags _ _ => b.FreshAdd order flags
  | .applyDelta delta => delta.instrumentId = b.instrumentId → b.FreshDelta delta
  | .applyDeltaUnchecked delta => b.FreshDelta delta
  | .applyDepth depth => depth.instrumentId = b.instrumentId → b.FreshDepth depth
  | .applyDepthUnchecked depth => b.FreshDepth depth
  | _ => True

theorem Indexed.step_of_no_add (hidx : b.Indexed) (hb : b.WellFormed) (h : b.step op = some b')
    (hno : b.bookType = .l1Mbp ∨
      ∀ s, ∀ c ∈ b.calls op s, ∀ order flags, c ≠ .add order flags) : b'.Indexed := by
  intro s
  have hinv : (b'.ladder s).side = s ∧ (b'.ladder s).bookType = b.bookType ∧
      (b'.ladder s).LevelsOk ∧ (b'.ladder s).Indexed := by
    refine runs_inv_mem (fun l => l.side = s ∧ l.bookType = b.bookType ∧ l.LevelsOk ∧
      l.Indexed) ?_ ⟨hb.side s, hb.bookType s, hb.levelsOk s, hidx s⟩ (step_calls h s)
    rintro l c l' hc ⟨hs, ht, hok, hl⟩ hcall
    have hside : ∀ order, c.stores = some order → order.side.asSpecified = some l.side :=
      fun order ho => hs ▸ (arrives_of_calls hc ho).side
    obtain ⟨hs', ht'⟩ := call_fields hcall
    refine ⟨hs'.trans hs, ht'.trans ht, hok.call hside hcall, hl.call hok hside ?_ hcall⟩
    intro order flags heq
    rcases hno with hl1 | hno
    · exact ht.trans hl1
    · exact absurd heq (hno s c hc order flags)
  exact hinv.2.2.2

theorem add_step_indexed_iff (hidx : b.Indexed) (hb : b.WellFormed) (ht : b.bookType ≠ .l1Mbp)
    (h : b.step op = some b') (hcalls : ∀ s, b.calls op s = b.actionCalls .add order flags s) :
    b'.Indexed ↔ b.FreshAdd order flags := by
  refine forall_congr' fun s => ?_
  have hrun := step_calls h s
  rw [hcalls] at hrun
  unfold actionCalls at hrun
  -- pre-processing changes the id only
  have hspec : (preProcessOrder b.bookType order flags).side.asSpecified =
      order.side.asSpecified := by rw [preProcessOrder_side]
  by_cases hside : order.side.asSpecified = some s
  · simp only [hspec, if_pos hside] at hrun
    have hladder : b'.ladder s = (b.ladder s).add (preProcessOrder b.bookType order flags) flags :=
      (some.inj hrun).symm
    have hiff := add_indexed_iff (hidx s) (hb.levelsOk s)
      (by rw [hspec, hside, hb.side s]) flags (fun hl1 => ht ((hb.bookType s).symm.trans hl1))
    rw [hladder, hiff, preProcessOrder_size]
    exact ⟨fun hf _ hpos => hf hpos, fun hf hpos => hf hside hpos⟩
  · simp only [hspec, if_neg hside] at hrun
    have hladder : b'.ladder s = b.ladder s := (some.inj hrun).symm
    rw [hladder]
    exact ⟨fun _ hs => absurd hs hside, fun _ => hidx s⟩

theorem depth_step_indexed_iff {depth : OrderBookDepth10} (hb : b.WellFormed)
    (ht : b.bookType ≠ .l1Mbp) (h : b.step op = some b')
    (hcalls : ∀ s, b.calls op s = b.depthCalls depth s) : b'.Indexed ↔ b.FreshDepth depth := by
  refine forall_congr' fun s => ?_
  have hrun := step_calls h s
  rw [hcalls, depthCalls, runs_cons] at hrun
  -- the ladder is cleared and the orders of the snapshot are placed
  let orders := (depthOrders depth s).map fun o => preProcessOrder b.bookType o depth.flags
  have hpos : ∀ o ∈ orders, o.size.isPositive = true := by
    intro o ho
    obtain ⟨o₀, ho₀, rfl⟩ := mem_map.mp ho
    rw [preProcessOrder_size]
    exact (mem_depthOrders ho₀).2.2
  have hside : ∀ o ∈ orders, o.side.asSpecified = some s := by
    intro o ho
    obtain ⟨o₀, ho₀, rfl⟩ := mem_map.mp ho
    rw [preProcessOrder_side]
    exact (mem_depthOrders ho₀).2.1
  have hmap : ((depthOrders depth s).map fun o =>
      LadderCall.add (preProcessOrder b.bookType o depth.flags) depth.flags) =
      orders.map fun o => .add o depth.flags := by
    rw [List.map_map]
    rfl
  have hl1 : (b.ladder s).clear.bookType ≠ .l1Mbp := fun hl1 =>
    ht ((hb.bookType s).symm.trans hl1)
  rw [hmap] at hrun
  have hladder : b'.ladder s = orders.foldl place (b.ladder s).clear :=
    (some.inj ((runs_adds hpos hl1).symm.trans hrun)).symm
  rw [hladder, foldl_place_indexed_iff hpos hside]
  constructor
  · intro hf o ho o' ho' hid
    have hraw := hf _ (mem_map_of_mem ho) _ (mem_map_of_mem ho') hid
    rwa [preProcessOrder_price, preProcessOrder_price] at hraw
  · intro hf o ho o' ho' hid
    obtain ⟨o₀, ho₀, rfl⟩ := mem_map.mp ho
    obtain ⟨o₀', ho₀', rfl⟩ := mem_map.mp ho'
    rw [preProcessOrder_price, preProcessOrder_price]
    exact hf o₀ ho₀ o₀' ho₀' hid

omit [Build] in
theorem actionCalls_no_add (action : BookAction) {c : LadderCall} (hadd : action ≠ .add)
    (hc : c ∈ b.actionCalls action order flags s) (o : BookOrder) (f : UInt8) : c ≠ .add o f := by
  by_cases hside : (preProcessOrder b.bookType order flags).side.asSpecified = some s
  · simp only [actionCalls, if_pos hside] at hc
    cases action with
    | add => exact absurd rfl hadd
    | update | delete =>
      rw [mem_singleton.mp hc]
      rintro ⟨⟩
    | clear => cases hc
  · simp only [actionCalls, if_neg hside] at hc
    cases hc

theorem delta_step_indexed_iff {delta : OrderBookDelta} (hidx : b.Indexed) (hb : b.WellFormed)
    (ht : b.bookType ≠ .l1Mbp) (h : b.step op = some b')
    (hcalls : ∀ s, b.calls op s = b.deltaCalls delta s) : b'.Indexed ↔ b.FreshDelta delta := by
  by_cases hadd : delta.action = .add
  · have hclear : delta.action ≠ .clear := by rw [hadd]; decide
    -- a delta whose order cannot be resolved makes no call
    cases hr : b.resolvedOrder delta with
    | none =>
      have hno : ∀ s, ∀ c ∈ b.calls op s, ∀ order flags, c ≠ .add order flags := by
        intro s c hc
        rw [hcalls, deltaCalls, if_neg hclear, hr] at hc
        cases hc
      refine ⟨fun _ _ order ho => ?_, fun _ => hidx.step_of_no_add hb h (.inr hno)⟩
      rw [hr] at ho
      cases ho
    | some order =>
      have hcalls' : ∀ s, b.calls op s = b.actionCalls .add order delta.flags s := by
        intro s
        rw [hcalls, deltaCalls, if_neg hclear, hr, hadd]
      rw [add_step_indexed_iff hidx hb ht h hcalls']
      refine ⟨fun hf _ o ho => ?_, fun hf => hf hadd order hr⟩
      rw [hr] at ho
      cases ho
      exact hf
  · have hno : ∀ s, ∀ c ∈ b.calls op s, ∀ order flags, c ≠ .add order flags := by
      intro s c hc
      rw [hcalls, deltaCalls] at hc
      split at hc
      · rw [mem_singleton.mp hc]
        rintro _ _ ⟨⟩
      · split at hc
        · exact actionCalls_no_add delta.action hadd hc
        · cases hc
    exact ⟨fun _ ha => absurd ha hadd, fun _ => hidx.step_of_no_add hb h (.inr hno)⟩

/-- **A step outside L1 keeps the caches exact iff it is fresh.** -/
theorem step_indexed_iff (hidx : b.Indexed) (hb : b.WellFormed) (ht : b.bookType ≠ .l1Mbp)
    (h : b.step op = some b') : b'.Indexed ↔ b.FreshOp op := by
  have hquiet : (∀ s, ∀ c ∈ b.calls op s, ∀ order flags, c ≠ .add order flags) →
      b.FreshOp op → (b'.Indexed ↔ b.FreshOp op) := fun hno hf =>
    ⟨fun _ => hf, fun _ => hidx.step_of_no_add hb h (.inr hno)⟩
  -- a refused update reaches no ladder
  have hnone : (∀ s, b.calls op s = []) → b.FreshOp op → (b'.Indexed ↔ b.FreshOp op) := by
    intro hnil
    refine hquiet fun s c hc => ?_
    rw [hnil s] at hc
    nomatch hc
  have hclear : ∀ cond : Prop, ∀ [Decidable cond], ∀ c ∈ (if cond then [LadderCall.clear]
      else []), ∀ order flags, c ≠ .add order flags := by
    intro cond _ c hc
    split at hc
    · rw [mem_singleton.mp hc]
      nofun
    · nomatch hc
  cases op with
  | add order flags sequence tsEvent =>
    exact add_step_indexed_iff hidx hb ht h fun _ => rfl
  | update order flags sequence tsEvent =>
    exact hquiet (fun s c hc => actionCalls_no_add .update nofun hc) trivial
  | delete order flags sequence tsEvent =>
    exact hquiet (fun s c hc => actionCalls_no_add .delete nofun hc) trivial
  | clear sequence tsEvent | reset => exact hquiet (fun s c hc => hclear True c hc) trivial
  | clearBids sequence tsEvent => exact hquiet (fun s c hc => hclear (s = .buy) c hc) trivial
  | clearAsks sequence tsEvent => exact hquiet (fun s c hc => hclear (s = .sell) c hc) trivial
  | clearStaleLevels side =>
    refine hquiet (fun s c hc order flags heq => ?_) trivial
    have hstores := stores_of_staleCalls hc
    rw [heq] at hstores
    nomatch hstores
  | applyDelta delta =>
    by_cases hne : delta.instrumentId = b.instrumentId
    · rw [delta_step_indexed_iff hidx hb ht h fun s => if_neg (not_not.mpr hne)]
      exact ⟨fun hf _ => hf, fun hf => hf hne⟩
    · exact hnone (fun _ => if_pos hne) fun heq => absurd heq hne
  | applyDeltaUnchecked delta =>
    exact delta_step_indexed_iff hidx hb ht h fun _ => rfl
  | applyDepth depth =>
    by_cases hne : depth.instrumentId = b.instrumentId
    · rw [depth_step_indexed_iff hb ht h fun s => if_neg (not_not.mpr hne)]
      exact ⟨fun hf _ => hf, fun hf => hf hne⟩
    · exact hnone (fun _ => if_pos hne) fun heq => absurd heq hne
  | applyDepthUnchecked depth => exact depth_step_indexed_iff hb ht h fun _ => rfl
  | updateQuoteTick quote | updateTradeTick trade => exact hnone (fun _ => if_pos (.inl ht)) trivial

/-! ## L2 books: ids are prices -/

def PricedBy (used : Set Int) (b : OrderBook) : Prop :=
  b.Stored fun order => order.orderId = priceBasedOrderId order ∧ order.price.raw ∈ used

omit [Build] in
theorem pricedBy_new (used : Set Int) (instrumentId : InstrumentId) (bookType : BookType) :
    (new instrumentId bookType).PricedBy used :=
  stored_new _ instrumentId bookType

theorem PricedBy.step (hp : b.PricedBy used) (hb : b.WellFormed) (ht : b.bookType = .l2Mbp)
    (hused : ∀ order ∈ op.orders, order.price.raw ∈ used) (h : b.step op = some b') :
    b'.PricedBy used := by
  refine Stored.step hp hb ?_ h
  intro s order harr _
  obtain ⟨o, hmem, hprice, -⟩ := harr.given
  exact ⟨harr.idOk.l2 ht, hprice ▸ hused o hmem⟩

omit [Build] in
/-- A cached price of an L2 ladder is the price its id was made from. -/
theorem PricedBy.raw_eq (hp : b.PricedBy used) (hb : b.WellFormed) (hidx : b.Indexed)
    (hinj : Set.InjOn hashOne used) {q : BookPrice}
    (hid : order.orderId = priceBasedOrderId order) (hraw : order.price.raw ∈ used)
    (hq : (b.ladder s).cache.get? order.orderId = some q) : q.value.raw = order.price.raw := by
  obtain ⟨old, hold⟩ := (hidx s).sound _ q hq
  obtain ⟨hoid, horaw⟩ := hp s q _ old hold
  obtain ⟨-, hprice, -, hfiled⟩ := (hb.levelsOk s).order hold
  rw [← hprice]
  refine hinj horaw hraw ?_
  show priceBasedOrderId old = priceBasedOrderId order
  rw [← hoid, ← hid, hfiled]

/-- Where the hash tells the prices apart, every step of an L2 book is fresh. -/
theorem freshOp_l2 (hp : b.PricedBy used) (hb : b.WellFormed) (hidx : b.Indexed)
    (hinj : Set.InjOn hashOne used) (ht : b.bookType = .l2Mbp)
    (hused : ∀ order ∈ op.orders, order.price.raw ∈ used) : b.FreshOp op := by
  -- an id is the hash of a price, and the hash is injective on the prices in use
  have hadd : ∀ order flags, order.price.raw ∈ used → b.FreshAdd order flags := by
    intro order flags hraw s _ _ q hq
    refine hp.raw_eq hb hidx hinj ((idOk_preProcessOrder b.bookType order flags).l2 ht) ?_ hq
    rw [preProcessOrder_price]
    exact hraw
  have hdelta : ∀ delta : OrderBookDelta, delta.order.price.raw ∈ used →
      b.FreshDelta delta := by
    intro delta hraw _ order ho
    refine hadd order delta.flags ?_
    rw [resolvedOrder_eq ho]
    exact hraw
  have hdepth : ∀ depth : OrderBookDepth10,
      (∀ order ∈ depth.bids ++ depth.asks, order.price.raw ∈ used) →
      b.FreshDepth depth := by
    intro depth hall s o ho o' ho' hid
    refine hinj (hall o (mem_depthOrders ho).1) (hall o' (mem_depthOrders ho').1) ?_
    rw [ht] at hid
    exact hid
  cases op with
  | add order flags sequence tsEvent =>
    exact hadd order flags (hused order (by simp [BookOp.orders]))
  | applyDelta delta => exact fun _ => hdelta delta (hused _ (by simp [BookOp.orders]))
  | applyDeltaUnchecked delta => exact hdelta delta (hused _ (by simp [BookOp.orders]))
  | applyDepth depth => exact fun _ => hdepth depth hused
  | applyDepthUnchecked depth => exact hdepth depth hused
  | update | delete | clear | clearBids | clearAsks | clearStaleLevels | updateQuoteTick
  | updateTradeTick | reset => trivial

/-! ## Runs -/

/-- Both ladders are consistent. -/
def Consistent (b : OrderBook) : Prop := b.bids.Consistent ∧ b.asks.Consistent

omit [Build] [BookCode] in
theorem consistent_iff (hb : b.WellFormed) : b.Consistent ↔ b.Indexed := by
  have hbids := consistent_iff_indexed (hb.levelsOk .buy)
  have hasks := consistent_iff_indexed (hb.levelsOk .sell)
  constructor
  · rintro ⟨h, h'⟩ s
    cases s with
    | buy => exact hbids.mp h
    | sell => exact hasks.mp h'
  · intro h
    exact ⟨hbids.mpr (h .buy), hasks.mpr (h .sell)⟩

/-- What is known of a book along a run, given that its caches are exact. -/
structure Sound (used : Set Int) (bookType : BookType) (b : OrderBook) : Prop where
  wellFormed : b.WellFormed
  indexed : b.Indexed
  ofType : b.bookType = bookType
  priced : bookType = .l2Mbp → b.PricedBy used

theorem Sound.step {bookType : BookType} (hs : b.Sound used bookType)
    (hused : ∀ order ∈ op.orders, order.price.raw ∈ used) (h : b.step op = some b')
    (hidx : b'.Indexed) : b'.Sound used bookType where
  wellFormed := hs.wellFormed.step h
  indexed := hidx
  ofType := (sameBook_step h).2.trans hs.ofType
  priced hl2 := (hs.priced hl2).step hs.wellFormed (hs.ofType.trans hl2) hused h

/-- The raw prices the operations mention. -/
def usedPrices (ops : List BookOp) : Set Int :=
  {raw | ∃ op ∈ ops, ∃ order ∈ op.orders, order.price.raw = raw}

/-- **Consistency over runs.** The ladders are consistent in every state reached iff, on an L3 book,
every step is fresh: no `Add` re-uses a live id at another price of its side, and no depth snapshot
lists an id at two prices of a side. L1 and L2 books need no condition; for L2 the price hash is
injective on the prices used. -/
theorem consistent_iff_fresh (instrumentId : InstrumentId) (bookType : BookType) (ops : List BookOp)
    (hinj : bookType = .l2Mbp → Set.InjOn BookCode.hashOne (usedPrices ops)) :
    Throughout step Consistent (new instrumentId bookType) ops ↔
      (bookType = .l3Mbo →
        Along step (fun b op _ => b.FreshOp op) (new instrumentId bookType) ops) := by
  have hsound (prices) : (new instrumentId bookType).Sound prices bookType :=
    ⟨wellFormed_new _ _, indexed_new _ _, rfl, fun _ => pricedBy_new _ _ _⟩
  have hnew := (consistent_iff (wellFormed_new instrumentId bookType)).mpr (indexed_new _ _)
  rw [throughout_iff_along, and_iff_right hnew]
  by_cases hl3 : bookType = .l3Mbo
  · have hstep : ∀ (b : OrderBook) (op : BookOp) (b' : OrderBook),
        b.Sound Set.univ bookType → b.step op = some b' → (b'.Consistent ↔ b.FreshOp op) := by
      intro b op b' hs h
      rw [consistent_iff (hs.wellFormed.step h)]
      refine step_indexed_iff hs.indexed hs.wellFormed ?_ h
      rw [hs.ofType, hl3]
      nofun
    rw [imp_iff_right hl3]
    refine along_iff (Sound Set.univ bookType) ?_ hstep (hsound _)
    intro b op b' hs h hf
    refine hs.step (fun _ _ => Set.mem_univ _) h ?_
    exact (consistent_iff (hs.wellFormed.step h)).mp ((hstep b op b' hs h).mpr hf)
  · -- in every book type but L3 a step keeps the caches exact
    refine iff_of_true (along_of_inv (Sound (usedPrices ops) bookType) ?_ (hsound _)) (absurd · hl3)
    intro b op b' hop hs h
    have hused : ∀ order ∈ op.orders, order.price.raw ∈ usedPrices ops :=
      fun order ho => ⟨op, hop, order, ho, rfl⟩
    have hidx : b'.Indexed := by
      cases hbt : bookType with
      | l1Mbp =>
        exact hs.indexed.step_of_no_add hs.wellFormed h (.inl (hs.ofType.trans hbt))
      | l2Mbp =>
        have ht : b.bookType = .l2Mbp := hs.ofType.trans hbt
        refine (step_indexed_iff hs.indexed hs.wellFormed (by rw [ht]; nofun) h).mpr ?_
        exact freshOp_l2 (hs.priced hbt) hs.wellFormed hs.indexed (hinj hbt) ht hused
      | l3Mbo => exact absurd hbt hl3
    have hs' := hs.step hused h hidx
    exact ⟨hs', (consistent_iff hs'.wellFormed).mpr hidx⟩

end OrderBook

/-! ## The two kinds of run, on concrete books -/

namespace OrderBook

attribute [local instance] Build.standard BookCode.truncating

def unitBid (raw : Int) (id : OrderId) : BookOrder :=
  ⟨.buy, ⟨raw, 0⟩, ⟨1, 0⟩, id⟩

/-- The L2 case is not vacuous: two prices the hash tells apart. -/
theorem consistent_l2_two_prices :
    Set.InjOn BookCode.hashOne
      (usedPrices [.add (unitBid 100 0) 0 1 1, .update (unitBid 101 0) 0 2 2]) ∧
    Throughout step Consistent (new ⟨"ETHUSDT.BINANCE"⟩ .l2Mbp)
      [.add (unitBid 100 0) 0 1 1, .update (unitBid 101 0) 0 2 2] := by
  have hinj : Set.InjOn hashOne
      (usedPrices [.add (unitBid 100 0) 0 1 1, .update (unitBid 101 0) 0 2 2]) := by
    refine BookCode.truncating_injOn ?_
    rintro raw ⟨_, hop, _, ho, rfl⟩
    simp only [mem_cons, not_mem_nil, or_false] at hop
    rcases hop with rfl | rfl
    · cases mem_singleton.mp ho
      decide
    · cases mem_singleton.mp ho
      decide
  exact ⟨hinj, (consistent_iff_fresh _ .l2Mbp _ fun _ => hinj).mpr nofun⟩

/-- The live id 7 is added again at another price: it ends up in two levels, and the cache counts
one order of two. -/
theorem not_consistent_readded_id :
    ¬ Throughout step Consistent (new ⟨"ETHUSDT.BINANCE"⟩ .l3Mbo)
      [.add (unitBid 100 7) 0 1 1, .add (unitBid 101 7) 0 2 2] := by
  intro h
  obtain ⟨b, hrun, hcache, hlevels⟩ : ∃ b, runs step (new ⟨"ETHUSDT.BINANCE"⟩ .l3Mbo)
      [.add (unitBid 100 7) 0 1 1, .add (unitBid 101 7) 0 2 2] = some b ∧
      b.bids.cache.len = 1 ∧
      (b.bids.levels.values.map fun level => level.orders.len).sum = 2 :=
    ⟨_, rfl, by decide, by decide⟩
  have hlen := (h _ b prefix_rfl hrun).1.inStep.count
  rw [hcache, hlevels] at hlen
  nomatch hlen

end OrderBook

end Nautilus
