import Nautilus.Book.Calls

/-!
# Top-of-book ladders

An L1 book keeps one level a side: `OneLevel` is kept by every ladder call (`oneLevel_of_runs`).

Which level depends on `handle_l1_add`. Adds marked `F_SNAPSHOT` accumulate while the ladder is in
`SnapshotBatch`, and only an add with `F_LAST` *on the same side* takes it out. A batch carries
`F_LAST` once, so the other side is still in `SnapshotBatch` when the next batch begins.
-/

namespace Nautilus

open Lib List OrdMap BookLadder
open RecordFlag (fLast fSnapshot)

variable {l : BookLadder} {p : BookPrice} {order : BookOrder} {flags : UInt8}
  {delta : OrderBookDelta} {deltas : List OrderBookDelta} {s : OrderSideSpecified}

/-! ## At most one level -/

namespace BookLadder

/-- The ladder has at most one price. -/
def OneLevel (l : BookLadder) : Prop :=
  ∀ p p' level level', l.levels.get? p = some level → l.levels.get? p' = some level' →
    p.cmp p' = .eq

theorem oneLevel_of_levels_empty (h : l.levels = .empty) : l.OneLevel := by
  intro p p' level level' hget
  rw [h] at hget
  nomatch hget

theorem oneLevel_of_len (h : l.levels.len ≤ 1) : l.OneLevel := by
  intro p p' level level' hp hp'
  exact cmp_eq_of_len_le_one h hp hp'

theorem oneLevel_retainBestOnly (l : BookLadder) : l.retainBestOnly.OneLevel := by
  rcases l.retainBestOnly_cases with ⟨hlen, heq⟩ | ⟨_, _, -, hentries, -⟩
  · rw [heq]
    exact oneLevel_of_len hlen
  · refine oneLevel_of_len ?_
    rw [len, hentries]
    exact Nat.le_refl 1

theorem OneLevel.storeLevel (h : l.OneLevel) {level : BookLevel}
    (hget : l.levels.get? p = some level) (level' : BookLevel) :
    (l.storeLevel p level').OneLevel := by
  have hold : ∀ q v, (l.storeLevel p level').levels.get? q = some v → p.cmp q = .eq := by
    intro q v hq
    rw [get?_storeLevel] at hq
    split at hq
    · assumption
    · exact h p q level v hget hq
  intro q q' v v' hq hq'
  exact Std.TransCmp.eq_trans (Std.OrientedCmp.eq_symm (hold q v hq)) (hold q' v' hq')

theorem OneLevel.withdrawn (h : l.OneLevel) {level : BookLevel}
    (hget : l.levels.get? p = some level) (id : OrderId) : (l.withdrawn p level id).OneLevel :=
  OneLevel.storeLevel (l := { l with cache := l.cache.remove id }) h hget _

theorem retainBestOnly_entries {e : BookPrice × BookLevel} (h : l.levels.first = some e) :
    l.retainBestOnly.levels.entries = [e] := by
  rcases l.retainBestOnly_cases with ⟨hlen, heq⟩ | ⟨_, _, hfirst, hentries, -⟩
  · rw [heq]
    rw [len] at hlen
    rw [first] at h
    cases hes : l.levels.entries with
    | nil =>
      rw [hes] at h
      cases h
    | cons e' es =>
      rw [hes] at h hlen
      have hnil : es = [] := eq_nil_of_length_eq_zero (by
        rw [length_cons] at hlen
        omega)
      cases h
      rw [hnil]
  · rw [hentries, ← Option.some.inj (hfirst.symm.trans h)]

theorem settleBatch_snapshot (ht : l.bookType = .l1Mbp) (hsnap : fSnapshot.matches flags = true) :
    (l.settleBatch flags).levels = l.retainBestOnly.levels ∧
      (l.settleBatch flags).batchState =
        if fLast.matches flags then .none else l.batchState := by
  simp only [settleBatch]
  rw [if_pos ⟨ht, by rw [hsnap, Bool.or_true]⟩]
  split
  · exact ⟨rfl, rfl⟩
  · exact ⟨rfl, l.retainBestOnly_fields.2.2⟩

/-- The rank of the best price, `⊤` for an empty ladder. -/
def topRank (l : BookLadder) : WithTop Int :=
  match l.levels.first with
  | some (p, _) => (p.rank : WithTop Int)
  | none => ⊤

/-- What a ladder brings into a snapshot add: its best price if it is in a batch, else nothing. -/
def carried (l : BookLadder) : WithTop Int :=
  if l.batchState = .snapshotBatch then l.topRank else ⊤

/-- The ladder a snapshot add works on (`ladder.rs:230–243`). -/
def snapshotBase (l : BookLadder) (flags : UInt8) : BookLadder :=
  if l.batchState = .snapshotBatch then l
  else { l.clear with
    batchState := if fLast.matches flags then .none else .snapshotBatch }

theorem snapshotBase_topRank (l : BookLadder) (flags : UInt8) :
    (l.snapshotBase flags).topRank = l.carried := by
  unfold snapshotBase carried
  split
  · rfl
  · rfl

variable [Build] [BookCode]

theorem oneLevel_place_of_levels_empty (h : l.levels = .empty) (order : BookOrder) :
    (l.place order).OneLevel := by
  have hold : ∀ q v, (l.place order).levels.get? q = some v →
      (BookCode.toBookPrice order).cmp q = .eq := by
    intro q v hq
    rw [place_levels, h, get?_insert] at hq
    split at hq
    · assumption
    · nomatch hq
  intro q q' v v' hq hq'
  exact Std.TransCmp.eq_trans (Std.OrientedCmp.eq_symm (hold q v hq)) (hold q' v' hq')

/-- An L1 add starts from a cleared ladder or ends in `retain_best_only`. -/
theorem OneLevel.add (h : l.OneLevel) (ht : l.bookType = .l1Mbp) (order : BookOrder) (flags : UInt8) :
    (l.add order flags).OneLevel := by
  rcases l.add_cases order flags with ⟨-, hne, -⟩ | ⟨-, -, heq⟩ | ⟨-, hne, -⟩ | ⟨-, -, l₀, hl₀, heq⟩
  · exact absurd ht hne
  · rw [heq]
    exact oneLevel_of_levels_empty rfl
  · exact absurd ht hne
  rw [heq]
  obtain ⟨_, _, hsettle, hl₁ | ⟨hl₁, hbatch⟩⟩ := (l₀.place order).settleBatch_eq flags
  · rw [hsettle, hl₁]
    exact (l₀.place order).oneLevel_retainBestOnly
  rw [hsettle, hl₁]
  rcases hl₀ with ⟨rfl, hb⟩ | ⟨st₀, rfl⟩
  · -- inside a batch the add does end in `retain_best_only`
    rcases hbatch with hne | hno
    · exact absurd ht hne
    · rw [hb] at hno
      nomatch hno
  · exact oneLevel_place_of_levels_empty (l := { l.clear with batchState := st₀ }) rfl order

theorem OneLevel.update (h : l.OneLevel) (ht : l.bookType = .l1Mbp) (order : BookOrder)
    (flags : UInt8) : (l.update order flags).OneLevel := by
  rcases l.update_cases order flags with ⟨-, heq⟩ | ⟨p, level, -, hget, -, heq⟩ |
    ⟨p, level, -, hget, -, heq⟩
  · rw [heq]
    split
    · exact h.add ht order flags
    · exact h
  · rw [heq]
    exact OneLevel.storeLevel h hget _
  · rw [heq]
    have hw := h.withdrawn hget order.orderId
    split
    · exact hw.add ht order flags
    · exact hw

/-- **Step**: every call keeps an L1 ladder at one level. -/
theorem OneLevel.call {l' : BookLadder} {c : LadderCall} (h : l.OneLevel) (ht : l.bookType = .l1Mbp)
    (hl : l.call c = some l') : l'.OneLevel := by
  cases c with
  | clear => cases hl; exact oneLevel_of_levels_empty rfl
  | add order flags => cases hl; exact h.add ht order flags
  | update order flags => cases hl; exact h.update ht order flags
  | removeOrder id =>
    have hl : l.removeOrder id = some l' := hl
    rcases l.removeOrder_cases id with ⟨heq, -⟩ | ⟨p, level, -, hget, heq⟩
    · rw [heq] at hl
      cases hl
      exact h
    · rw [heq] at hl
      cases hl
      exact h.withdrawn hget id
  | removeLevel price =>
    cases hl
    unfold removeLevel
    split
    · intro p p' v v' hp hp'
      rw [get?_remove] at hp hp'
      split at hp
      · nomatch hp
      · split at hp'
        · nomatch hp'
        · exact h p p' v v' hp hp'
    · exact h

/-! ## Snapshot adds -/

theorem topRank_place (hok : l.LevelsOk) (hside : order.side.asSpecified = some l.side) :
    ∃ p level, (l.place order).levels.first = some (p, level) ∧
      (p.rank : WithTop Int) = min l.topRank (BookCode.toBookPrice order).rank := by
  have hbp : (BookCode.toBookPrice order).side = l.side := by
    rw [BookCode.toBookPrice_eq order l.side hside]
  rw [place_levels, first_insert]
  unfold topRank
  cases hfirst : l.levels.first with
  | none => exact ⟨_, _, rfl, (top_inf_eq _).symm⟩
  | some e =>
    obtain ⟨p, level⟩ := e
    have hp : p.side = l.side := (hok p level (get?_of_mem (mem_of_first hfirst))).1.side
    have hcmp : (BookCode.toBookPrice order).cmp p =
        compare (BookCode.toBookPrice order).rank p.rank :=
      BookPrice.cmp_of_side_eq (hbp.trans hp.symm)
    simp only [hcmp]
    -- the order opens a better level, joins the first one or falls in behind it
    cases hc : compare (BookCode.toBookPrice order).rank p.rank with
    | lt =>
      have hle := (Int.compare_eq_lt.mp hc).le
      exact ⟨_, _, rfl, (min_eq_right (WithTop.coe_le_coe.mpr hle)).symm⟩
    | eq =>
      have heq := Int.compare_eq_eq.mp hc
      exact ⟨_, _, rfl, (min_eq_left (WithTop.coe_le_coe.mpr heq.ge)).symm⟩
    | gt =>
      have hle := (Int.compare_eq_gt.mp hc).le
      exact ⟨_, _, rfl, (min_eq_left (WithTop.coe_le_coe.mpr hle)).symm⟩

omit [BookCode] in
theorem handleL1Add_snapshot (l : BookLadder) (hpos : order.size.isPositive = true)
    (hsnap : fSnapshot.matches flags = true) :
    l.handleL1Add order flags = (l.snapshotBase flags, true) := by
  unfold handleL1Add snapshotBase
  by_cases hstate : l.batchState = .snapshotBatch
  · cases fLast.matches flags <;> simp [hpos, hsnap, hstate]
  cases fLast.matches flags
  · simp [hpos, hsnap, hstate]
  · simp [hpos, hsnap, hstate]
    rfl

theorem add_snapshot (ht : l.bookType = .l1Mbp) (hpos : order.size.isPositive = true)
    (hsnap : fSnapshot.matches flags = true) :
    l.add order flags = ((l.snapshotBase flags).place order).settleBatch flags := by
  unfold add
  rw [if_pos ht, handleL1Add_snapshot l hpos hsnap]

/-- **One snapshot add** leaves one level: the better of the order's price and what was carried in.
Only `F_LAST` ends the batch. -/
theorem snapshotAdd_spec (hok : l.LevelsOk) (ht : l.bookType = .l1Mbp)
    (hside : order.side.asSpecified = some l.side) (hpos : order.size.isPositive = true)
    (hsnap : fSnapshot.matches flags = true) :
    (∃ p level, (l.add order flags).levels.entries = [(p, level)] ∧
      (p.rank : WithTop Int) = min l.carried (BookCode.toBookPrice order).rank) ∧
    (l.add order flags).batchState =
      if fLast.matches flags then .none else .snapshotBatch := by
  have hadd := add_snapshot ht hpos hsnap
  -- the base is the ladder inside a batch and an empty one where a batch begins
  have hbase : (l.snapshotBase flags).LevelsOk ∧ (l.snapshotBase flags).side = l.side ∧
      (l.snapshotBase flags).bookType = .l1Mbp := by
    unfold snapshotBase
    split
    · exact ⟨hok, rfl, ht⟩
    · exact ⟨levelsOk_of_levels_empty rfl, rfl, ht⟩
  obtain ⟨hbok, hbside, hbt⟩ := hbase
  obtain ⟨p, level, hfirst, hrank⟩ := topRank_place hbok (hbside ▸ hside)
  obtain ⟨hlevels, hstate⟩ :=
    settleBatch_snapshot (l := (l.snapshotBase flags).place order) hbt hsnap
  rw [snapshotBase_topRank] at hrank
  refine ⟨⟨p, level, ?_, hrank⟩, ?_⟩
  · rw [hadd, hlevels]
    exact retainBestOnly_entries hfirst
  rw [hadd, hstate]
  by_cases hlast : fLast.matches flags = true
  · rw [if_pos hlast, if_pos hlast]
  rw [if_neg hlast, if_neg hlast]
  show (l.snapshotBase flags).batchState = _
  unfold snapshotBase
  split
  · assumption
  · rfl

end BookLadder

namespace OrderBook

/-- **Run**: both ladders of a reachable L1 book have at most one level. -/
theorem oneLevel_of_runs [Build] [BookCode] {instrumentId : InstrumentId} {ops : List BookOp}
    {b : OrderBook} (h : runs step (new instrumentId .l1Mbp) ops = some b)
    (s : OrderSideSpecified) : (b.ladder s).OneLevel := by
  have hinv : b.WellFormed ∧ b.bookType = .l1Mbp ∧ ∀ s, (b.ladder s).OneLevel := by
    refine runs_inv_mem (fun b => b.WellFormed ∧ b.bookType = .l1Mbp ∧
      ∀ s, (b.ladder s).OneLevel) ?_ ⟨wellFormed_new instrumentId .l1Mbp, rfl, ?_⟩ h
    · rintro b op b' - ⟨hb, ht, hone⟩ hstep
      refine ⟨hb.step hstep, (sameBook_step hstep).2.trans ht, ?_⟩
      intro s
      refine (step_ladder_inv (hb.side s) (hb.bookType s) ?_ hstep (hone s)).2.2
      intro l c l' _ hlt _ hl hl1
      exact hl1.call (hlt.trans ht) hl
    · intro s
      cases s <;> exact oneLevel_of_levels_empty rfl
  exact hinv.2.2 s

/-! ## Snapshot batches -/

/-- The flags of a snapshot delta, with `F_LAST` or without. -/
def snapshotFlags (last : Bool) : UInt8 :=
  if last then fSnapshot.toUInt8 ||| fLast.toUInt8
  else fSnapshot.toUInt8

theorem snapshot_snapshotFlags : ∀ last, fSnapshot.matches (snapshotFlags last) = true := by
  decide

theorem last_snapshotFlags : ∀ last, fLast.matches (snapshotFlags last) = last := by
  decide

/-- `F_LAST` is on the last delta and on no other. -/
def LastOnly (deltas : List OrderBookDelta) : Prop :=
  ∃ init delta, deltas = init ++ [delta] ∧ fLast.matches delta.flags = true ∧
    ∀ d ∈ init, fLast.matches d.flags = false

theorem LastOnly.cons (hdelta : fLast.matches delta.flags = false) (h : LastOnly deltas) :
    LastOnly (delta :: deltas) := by
  obtain ⟨init, last, rfl, hlast, hinit⟩ := h
  refine ⟨delta :: init, last, rfl, hlast, ?_⟩
  intro d hd
  rcases mem_cons.mp hd with rfl | hd
  · exact hdelta
  · exact hinit d hd

theorem lastOnly_singleton (h : fLast.matches delta.flags = true) : LastOnly [delta] :=
  ⟨[], delta, rfl, h, nofun⟩

/-- Positive-size `Add`s with `F_SNAPSHOT`, with `F_LAST` on the last one and on no other. -/
structure SnapshotBatch [Build] (deltas : List OrderBookDelta) : Prop where
  adds : ∀ delta ∈ deltas, delta.action = .add ∧ delta.order.size.isPositive = true ∧
    fSnapshot.matches delta.flags = true ∧ delta.order.side ≠ .noOrderSide
  last : LastOnly deltas

def batchPrices (s : OrderSideSpecified) (deltas : List OrderBookDelta) : List Int :=
  (deltas.filter fun delta => delta.order.side.asSpecified = some s).map
    fun delta => delta.order.price.raw

/-- `raw` is at least as good a price as `raw'`: not lower for a bid, not higher for
an ask. -/
def AsGood (s : OrderSideSpecified) (raw raw' : Int) : Prop :=
  match s with
  | .buy => raw' ≤ raw
  | .sell => raw ≤ raw'

/-- Side `s` holds one level, at the best of the batch's own prices there. -/
def HoldsBest (b : OrderBook) (s : OrderSideSpecified) (deltas : List OrderBookDelta) : Prop :=
  ∃ p level, (b.ladder s).levels.entries = [(p, level)] ∧
    p.value.raw ∈ batchPrices s deltas ∧
    ∀ raw ∈ batchPrices s deltas, AsGood s p.value.raw raw

/-- Side `s` is not in a snapshot batch with a price better than all the prices `deltas` adds there.
-/
def NothingBetter (b : OrderBook) (s : OrderSideSpecified) (deltas : List OrderBookDelta) : Prop :=
  (b.ladder s).batchState = .snapshotBatch → ∀ p level,
    (b.ladder s).levels.first = some (p, level) →
      ∃ raw ∈ batchPrices s deltas, AsGood s raw p.value.raw

theorem rank_le_rank_iff (s : OrderSideSpecified) (price price' : Price) :
    (BookPrice.mk price s).rank ≤ (BookPrice.mk price' s).rank ↔ AsGood s price.raw price'.raw := by
  cases s with
  | buy =>
    show -price.raw ≤ -price'.raw ↔ price'.raw ≤ price.raw
    omega
  | sell => exact Iff.rfl

def deltaRank (s : OrderSideSpecified) (delta : OrderBookDelta) : Int :=
  (BookPrice.mk delta.order.price s).rank

theorem mem_batchPrices_iff (hp : p.side = s) :
    p.value.raw ∈ batchPrices s deltas ↔
      p.rank ∈ (deltas.filter fun delta => delta.order.side.asSpecified = some s).map
        (deltaRank s) := by
  obtain ⟨value, side⟩ := p
  subst hp
  unfold batchPrices
  rw [mem_map, mem_map]
  refine exists_congr fun delta => and_congr_right fun _ => ?_
  have hle := rank_le_rank_iff side delta.order.price value
  have hge := rank_le_rank_iff side value delta.order.price
  show delta.order.price.raw = value.raw ↔
    (BookPrice.mk delta.order.price side).rank = (BookPrice.mk value side).rank
  cases side with
  | buy =>
    simp only [AsGood] at hle hge
    omega
  | sell =>
    simp only [AsGood] at hle hge
    omega

theorem nothingBetter_iff {b : OrderBook} (hb : b.WellFormed) :
    b.NothingBetter s deltas ↔
      ((deltas.filter fun delta => delta.order.side.asSpecified = some s).map
        (deltaRank s)).minimum ≤ (b.ladder s).carried := by
  unfold NothingBetter carried
  by_cases hstate : (b.ladder s).batchState = .snapshotBatch
  · rw [if_pos hstate]
    unfold topRank
    cases hfirst : (b.ladder s).levels.first with
    | none => exact ⟨fun _ => le_top, nofun⟩
    | some e =>
      obtain ⟨⟨value, side⟩, level⟩ := e
      -- a carried level only matters inside an open batch
      have hside : side = s := ((hb.levelsOk s) _ level
        (get?_of_mem (mem_of_first hfirst))).1.side.trans (hb.side s)
      subst hside
      show _ ↔ _ ≤ (((BookPrice.mk value side).rank : Int) : WithTop Int)
      rw [minimum_le_coe_iff]
      constructor
      · intro h
        obtain ⟨raw, hmem, hgood⟩ := h hstate _ level rfl
        obtain ⟨delta, hdelta, rfl⟩ := mem_map.mp hmem
        exact ⟨deltaRank side delta, mem_map_of_mem hdelta,
          (rank_le_rank_iff side _ value).mpr hgood⟩
      · rintro ⟨rank, hmem, hle⟩ - p' level' ⟨⟩
        obtain ⟨delta, hdelta, rfl⟩ := mem_map.mp hmem
        exact ⟨delta.order.price.raw, mem_map_of_mem hdelta, (rank_le_rank_iff side _ value).mp hle⟩
  · rw [if_neg hstate]
    exact ⟨fun _ => le_top, fun _ h => absurd h hstate⟩

variable [Build]

/-- A snapshot add of one side, as the ladder receives it. -/
structure AddsTo (s : OrderSideSpecified) (delta : OrderBookDelta) : Prop where
  side : delta.order.side.asSpecified = some s
  pos : delta.order.size.isPositive = true
  snapshot : fSnapshot.matches delta.flags = true

/-- The adds of a batch on one side, `F_LAST` at most on the last of them. -/
theorem SnapshotBatch.side_adds (h : SnapshotBatch deltas) (s : OrderSideSpecified) :
    (∀ delta ∈ deltas.filter fun delta => delta.order.side.asSpecified = some s, AddsTo s delta) ∧
    ∀ delta ∈ (deltas.filter fun delta => delta.order.side.asSpecified = some s).dropLast,
      fLast.matches delta.flags = false := by
  constructor
  · intro delta hmem
    obtain ⟨hmem, hside⟩ := mem_filter.mp hmem
    obtain ⟨-, hpos, hsnap, -⟩ := h.adds delta hmem
    exact ⟨of_decide_eq_true hside, hpos, hsnap⟩
  · obtain ⟨_, last, rfl, -, hinit⟩ := h.last
    intro delta hmem
    refine hinit delta ?_
    rw [filter_append, filter_cons, filter_nil] at hmem
    split at hmem
    · rw [dropLast_concat] at hmem
      exact (mem_filter.mp hmem).1
    · rw [append_nil] at hmem
      exact (mem_filter.mp (dropLast_subset _ hmem)).1

theorem SnapshotBatch.side_specified (h : SnapshotBatch deltas) :
    ∀ delta ∈ deltas, delta.action = .add ∧
      ∃ s, delta.order.side.asSpecified = some s := by
  intro delta hmem
  obtain ⟨hact, -, -, hside⟩ := h.adds delta hmem
  refine ⟨hact, ?_⟩
  cases hd : delta.order.side with
  | noOrderSide => exact absurd hd hside
  | buy => exact ⟨.buy, rfl⟩
  | sell => exact ⟨.sell, rfl⟩

variable [BookCode]

theorem AddsTo.add_spec (hd : AddsTo s delta) (hok : l.LevelsOk) (hs : l.side = s)
    (ht : l.bookType = .l1Mbp) (bookType : BookType) :
    let l' := l.add (preProcessOrder bookType delta.order delta.flags) delta.flags
    (∃ p level, l'.levels.entries = [(p, level)] ∧
      (p.rank : WithTop Int) = min l.carried (deltaRank s delta)) ∧
    l'.batchState = (if fLast.matches delta.flags then .none else .snapshotBatch) ∧
    l'.LevelsOk ∧ l'.side = s ∧ l'.bookType = .l1Mbp := by
  have hside : (preProcessOrder bookType delta.order delta.flags).side.asSpecified =
      some l.side := by
    rw [preProcessOrder_side, hs]
    exact hd.side
  have hpos : (preProcessOrder bookType delta.order delta.flags).size.isPositive = true := by
    rw [preProcessOrder_size]
    exact hd.pos
  have hrank : (BookCode.toBookPrice
      (preProcessOrder bookType delta.order delta.flags)).rank = deltaRank s delta := by
    rw [BookCode.toBookPrice_eq _ l.side hside, preProcessOrder_price, hs]
    rfl
  obtain ⟨⟨p, level, hentries, hp⟩, hstate⟩ := snapshotAdd_spec hok ht hside hpos hd.snapshot
  obtain ⟨hs', ht'⟩ := l.add_fields (preProcessOrder bookType delta.order delta.flags) delta.flags
  rw [hrank] at hp
  exact ⟨⟨p, level, hentries, hp⟩, hstate, hok.add hside delta.flags, hs'.trans hs, ht'.trans ht⟩

/-- **The adds of a batch on one side** leave the best of their prices and of what the ladder
carried in. By induction on the adds; the ladder is in `SnapshotBatch` after each but the last, so
it carries the best so far. -/
theorem foldl_snapshotAdd (bookType : BookType) :
    ∀ {deltas : List OrderBookDelta} {l : BookLadder}, deltas ≠ [] →
      (∀ delta ∈ deltas, AddsTo s delta) →
      (∀ delta ∈ deltas.dropLast, fLast.matches delta.flags = false) →
      l.LevelsOk → l.side = s → l.bookType = .l1Mbp →
      ∃ p level, (deltas.foldl (fun l delta =>
          l.add (preProcessOrder bookType delta.order delta.flags) delta.flags) l).levels.entries =
            [(p, level)] ∧
        p.side = s ∧
        (p.rank : WithTop Int) = min l.carried (deltas.map (deltaRank s)).minimum
  | [], _, hne, _, _, _, _, _ => absurd rfl hne
  | [delta], l, _, hadds, _, hok, hs, ht => by
    obtain ⟨⟨p, level, hentries, hp⟩, -, hok', hs', -⟩ :=
      (hadds delta mem_cons_self).add_spec hok hs ht bookType
    have hside : p.side = s :=
      (hok' p level (get?_of_mem (hentries ▸ mem_singleton_self _))).1.side.trans hs'
    refine ⟨p, level, hentries, hside, ?_⟩
    exact hp
  | delta :: delta' :: deltas, l, _, hadds, hlast, hok, hs, ht => by
    obtain ⟨⟨p₁, level₁, hentries₁, hp₁⟩, hstate, hok', hs', ht'⟩ :=
      (hadds delta mem_cons_self).add_spec hok hs ht bookType
    have hnot : fLast.matches delta.flags = false := hlast delta mem_cons_self
    obtain ⟨p, level, hentries, hside, hp⟩ := foldl_snapshotAdd bookType
      (cons_ne_nil delta' deltas)
      (fun d hd => hadds d (mem_cons_of_mem _ hd))
      (fun d hd => hlast d (mem_cons_of_mem _ hd)) hok' hs' ht'
    refine ⟨p, level, hentries, hside, ?_⟩
    -- the batch is open, so the next delta is compared with the level kept so far
    have hcarried : (l.add (preProcessOrder bookType delta.order delta.flags)
        delta.flags).carried = (p₁.rank : WithTop Int) := by
      unfold carried topRank first
      rw [hstate, hnot, hentries₁]
      rfl
    rw [hp, hcarried, hp₁, min_assoc, ← minimum_cons]
    rfl

/-- **Snapshot batches.** A complete snapshot batch succeeds on every reachable L1 book, and a side
it adds to ends with one level at the best of its own prices exactly when that side was not left in
a snapshot batch with a better price. -/
theorem snapshot_holdsBest_iff {instrumentId : InstrumentId} {ops : List BookOp}
    {b : OrderBook} (h : runs step (new instrumentId .l1Mbp) ops = some b)
    {deltas : OrderBookDeltas} (hid : deltas.instrumentId = b.instrumentId)
    (hbatch : SnapshotBatch deltas.deltas) :
    ∃ b', b.applyDeltas deltas = some (b', .ok ()) ∧
      ∀ s, batchPrices s deltas.deltas ≠ [] →
        (b'.HoldsBest s deltas.deltas ↔ b.NothingBetter s deltas.deltas) := by
  have hb := wellFormed_of_runs h
  have ht : b.bookType = .l1Mbp := (sameBook_of_runs h).2
  obtain ⟨b', hrun, -, hladder, -⟩ := applyDeltasUnchecked_adds hbatch.side_specified
  refine ⟨b', ?_, ?_⟩
  · unfold applyDeltas
    rw [if_neg (not_not.mpr hid)]
    exact hrun
  intro s hne
  obtain ⟨hadds, hlast⟩ := hbatch.side_adds s
  have hne' : (deltas.deltas.filter fun delta =>
      delta.order.side.asSpecified = some s) ≠ [] := fun hnil =>
    hne (by rw [batchPrices, hnil, map_nil])
  obtain ⟨p, level, hentries, hside, hp⟩ := foldl_snapshotAdd b.bookType hne' hadds hlast
    (hb.levelsOk s) (hb.side s) ((hb.bookType s).trans ht)
  have hentries' : (b'.ladder s).levels.entries = [(p, level)] := by
    rw [hladder s]
    exact hentries
  rw [nothingBetter_iff hb]
  constructor
  · -- a price of the batch is on top, so nothing carried in beat the batch
    rintro ⟨p', level', hp', hmem, -⟩
    obtain ⟨rfl, rfl⟩ : p' = p ∧ level' = level := by
      have heq := cons.inj (hp'.symm.trans hentries')
      exact Prod.mk.inj heq.1
    have hle := minimum_le_of_mem' ((mem_batchPrices_iff hside).mp hmem)
    exact le_trans hle (hp ▸ min_le_left _ _)
  · intro hle
    rw [min_eq_right hle] at hp
    refine ⟨p, level, hentries', (mem_batchPrices_iff hside).mpr (minimum_mem hp.symm), ?_⟩
    intro raw hraw
    obtain ⟨delta, hdelta, rfl⟩ := mem_map.mp hraw
    have hmin : (p.rank : WithTop Int) ≤ deltaRank s delta :=
      hp ▸ minimum_le_of_mem' (mem_map_of_mem hdelta)
    obtain ⟨_, side⟩ := p
    subst hside
    exact (rank_le_rank_iff side _ _).mp (WithTop.coe_le_coe.mp hmin)

end OrderBook

namespace OrderBook

attribute [local instance] Build.standard BookCode.truncating

def unitSnapshotAdd (side : OrderSide) (raw : Int) (last : Bool) : OrderBookDelta :=
  ⟨⟨"ETHUSDT.BINANCE"⟩, .add, ⟨side, ⟨raw, 0⟩, ⟨1, 0⟩, 0⟩, snapshotFlags last, 0, 0, 0⟩

/-- A batch of bids and one ask, with `F_LAST` on the ask. -/
def twoSidedBatch (bids : List Int) (ask : Int) : OrderBookDeltas :=
  ⟨⟨"ETHUSDT.BINANCE"⟩,
    bids.map (unitSnapshotAdd .buy · false) ++ [unitSnapshotAdd .sell ask true]⟩

theorem snapshotBatch_twoSidedBatch (bids : List Int) (ask : Int) :
    SnapshotBatch (twoSidedBatch bids ask).deltas where
  adds := by
    intro delta hd
    rcases mem_append.mp hd with hd | hd
    · obtain ⟨raw, -, rfl⟩ := mem_map.mp hd
      exact ⟨rfl, rfl, snapshot_snapshotFlags false, nofun⟩
    · rw [mem_singleton.mp hd]
      exact ⟨rfl, rfl, snapshot_snapshotFlags true, nofun⟩
  last := by
    refine ⟨_, _, rfl, last_snapshotFlags true, ?_⟩
    intro delta hd
    obtain ⟨raw, -, rfl⟩ := mem_map.mp hd
    exact last_snapshotFlags false

/-- A second batch whose bids are above the one carried in. -/
theorem snapshot_holdsBest_raised :
    ∃ b b', runs step (new ⟨"ETHUSDT.BINANCE"⟩ .l1Mbp)
        ((twoSidedBatch [100] 101).deltas.map .applyDelta) = some b ∧
      b.applyDeltas (twoSidedBatch [101, 102] 103) = some (b', .ok ()) ∧
      b'.HoldsBest .buy (twoSidedBatch [101, 102] 103).deltas ∧
      b'.HoldsBest .sell (twoSidedBatch [101, 102] 103).deltas := by
  obtain ⟨b, hrun, hbuy, hsell⟩ : ∃ b, runs step (new ⟨"ETHUSDT.BINANCE"⟩ .l1Mbp)
      ((twoSidedBatch [100] 101).deltas.map .applyDelta) = some b ∧
      b.NothingBetter .buy (twoSidedBatch [101, 102] 103).deltas ∧
      b.NothingBetter .sell (twoSidedBatch [101, 102] 103).deltas := by
    refine ⟨_, rfl, ?_, nofun⟩
    rintro - p level ⟨⟩
    exact ⟨102, by decide, show (100 : Int) ≤ 102 by decide⟩
  obtain ⟨b', happly, hiff⟩ := snapshot_holdsBest_iff hrun
    (sameBook_of_runs hrun).1.symm (snapshotBatch_twoSidedBatch [101, 102] 103)
  exact ⟨b, b', hrun, happly, (hiff .buy (by decide)).mpr hbuy, (hiff .sell (by decide)).mpr hsell⟩

/-- Two complete batches. `F_LAST` came with the asks, so the bids of the second join the first's:
the bid stays at 100 where the batch says 99. -/
theorem not_holdsBest_second_batch :
    ∃ b b', runs step (new ⟨"ETHUSDT.BINANCE"⟩ .l1Mbp)
        ((twoSidedBatch [100] 101).deltas.map .applyDelta) = some b ∧
      b.applyDeltas (twoSidedBatch [99] 100) = some (b', .ok ()) ∧
      SnapshotBatch (twoSidedBatch [99] 100).deltas ∧
      batchPrices .buy (twoSidedBatch [99] 100).deltas ≠ [] ∧
      ¬ b'.HoldsBest .buy (twoSidedBatch [99] 100).deltas := by
  refine ⟨_, _, rfl, rfl, snapshotBatch_twoSidedBatch [99] 100, by decide, ?_⟩
  rintro ⟨p, _, hentries, hmem, -⟩
  have hraw : p.value.raw = 100 := by
    cases hentries
    rfl
  rw [hraw] at hmem
  exact absurd hmem (by decide)

end OrderBook

end Nautilus
