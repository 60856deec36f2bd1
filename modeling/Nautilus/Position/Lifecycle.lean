import Nautilus.Position.Effects

/-!
# The lifecycle of a position

A position is meant to be open, with a quantity and no closing time, or closed, flat with one. Only
a fill and the purge of the last fill set the closing time, and only a fill clears it. An adjustment
that takes the whole quantity out of an open position, or puts some into a closed one, leaves
neither.
-/

namespace Nautilus

open Lib List Option Position

variable {op : PositionOp}

namespace Position

/-- The closing time is set iff the position is flat. -/
def Stamped (p : Position) : Prop := p.tsClosed.isSome = true ↔ p.side = .flat

theorem xor_iff_stamped {p : Position} : (p.isOpen ^^ p.isClosed) = true ↔ Stamped p := by
  unfold isOpen isClosed Stamped
  by_cases hside : p.side = .flat <;> cases p.tsClosed <;> simp [hside]

section

variable [Build] {p p' p₀ : Position} {fill : OrderFilled} {adjustment : PositionAdjusted}

/-! ## What keeps a position stamped -/

/-- Neither the adjustment the operation makes, nor all those together that it replays after the
remaining fills, takes the position to or from zero. -/
def KeepsFlat (p : Position) : PositionOp → Prop
  | .apply _ => True
  | .applyAdjustment adjustment =>
    p.signedQty = 0 ↔ snap p.scale (p.signedQty + adjustment.change) = 0
  | .purgeEventsForOrder id =>
    p.remainingFills id ≠ [] →
      (snapSum p.scale 0 ((p.remainingFills id).map p.fillChange) = 0 ↔
        snapSum p.scale 0
          ((p.remainingFills id).map p.fillChange ++ p.preservedAdjustments.map (·.change)) = 0)

instance (p : Position) (op : PositionOp) : Decidable (p.KeepsFlat op) :=
  match op with
  | .apply _ => .isTrue trivial
  | .applyAdjustment _ => inferInstanceAs (Decidable (_ ↔ _))
  | .purgeEventsForOrder _ => inferInstanceAs (Decidable (_ → _))

/-- A fill stamps a position that was not stamped wrong; a flat position starts over. -/
theorem Filled.stamped (h : Filled p fill p') (hp : Stamped p ∨ p.side = .flat) : Stamped p' := by
  unfold Stamped
  rw [h.tsClosed]
  by_cases hside : p'.side = .flat
  · rw [if_pos hside]
    exact ⟨fun _ => hside, fun _ => rfl⟩
  rw [if_neg hside]
  -- a position that is left open must not have been closed before
  refine ⟨fun hsome => ?_, fun hflat => absurd hflat hside⟩
  by_cases hflat : p.side = .flat
  · rw [if_pos hflat] at hsome
    nomatch hsome
  · rw [if_neg hflat] at hsome
    exact absurd ((hp.resolve_right hflat).mp hsome) hflat

/-- Where the closing time stays, the stamp stays right iff the position stays flat or
stays not flat. -/
theorem stamped_iff_of_tsClosed (hp : Settled p) (hp' : Settled p')
    (hclosed : p'.tsClosed = p.tsClosed) (hst : Stamped p) :
    Stamped p' ↔ (p.signedQty = 0 ↔ p'.signedQty = 0) := by
  have hsome : p.tsClosed.isSome = true ↔ p.signedQty = 0 := hst.trans hp.flat_iff
  unfold Stamped
  rw [hclosed, hsome, hp'.flat_iff]

/-- **Step lemma**: from a settled and stamped position, an operation leads to a stamped one iff it
keeps it flat or not flat. -/
theorem stamped_iff_keepsFlat (hset : Settled p) (hst : Stamped p) (h : p.step op = some p') :
    Stamped p' ↔ p.KeepsFlat op := by
  cases op with
  | apply fill =>
    have hfilled := apply_filled h
    exact ⟨fun _ => trivial, fun _ => hfilled.stamped (.inl hst)⟩
  | applyAdjustment adjustment =>
    have hadj := applyAdjustment_adjusted h
    obtain ⟨hset', hsigned⟩ := hadj.settles (.inr hset)
    rw [stamped_iff_of_tsClosed hset hset' hadj.tsClosed hst, hsigned]
    rfl
  | purgeEventsForOrder id =>
    rcases purge_cases h with ⟨hnone, hblank, hclosed⟩ | ⟨hne, _, mid, hblank, hfills, hadjs⟩
    · refine ⟨fun _ hne => absurd hnone hne, fun _ => ?_⟩
      exact ⟨fun _ => hblank.flat, fun _ => by rw [hclosed]; rfl⟩
    have hmid := fills_net hblank.settled hfills
    have hend := adjustments_net hmid.settled hadjs
    have hstamped : Stamped mid := by
      -- the first remaining fill stamps the blank position, the others keep it stamped
      obtain ⟨first, _, hrest⟩ := exists_cons_of_ne_nil hne
      rw [hrest, runs_cons, bind_eq_some_iff] at hfills
      obtain ⟨one, hone, hfills⟩ := hfills
      exact runs_inv_mem Stamped (fun _ _ _ _ hs hs' => (apply_filled hs').stamped (.inl hs))
        ((apply_filled hone).stamped (.inr hblank.flat)) hfills
    rw [stamped_iff_of_tsClosed hmid.settled hend.settled (adjustments_tsClosed hadjs) hstamped,
      hend.signedQty, hmid.same.scale, hmid.signedQty, hblank.signedQty, hblank.same.scale,
      hblank.same.fillChange, ← snapSum_append]
    exact ⟨fun hiff _ => hiff, fun hiff => hiff hne⟩

/-- Every operation leaves a settled position settled. -/
theorem settled_step (hset : Settled p) (h : p.step op = some p') : Settled p' := by
  cases op with
  | apply fill => exact (apply_filled h).settled
  | applyAdjustment adjustment =>
    exact ((applyAdjustment_adjusted h).settles (.inr hset)).1
  | purgeEventsForOrder id =>
    rcases purge_cases h with ⟨-, hblank, -⟩ | ⟨-, _, _, hblank, hfills, hadjs⟩
    · exact hblank.settled
    · exact (adjustments_net (fills_net hblank.settled hfills).settled hadjs).settled

/-! ## Amounts on the grid -/

/-- The amount an operation brings in is a multiple of the smallest quantity. -/
def Aligned (p : Position) : PositionOp → Prop
  | .apply fill => OnGrid p.scale (p.fillChange fill)
  | .applyAdjustment adjustment => OnGrid p.scale adjustment.change
  | .purgeEventsForOrder _ => True

instance (p : Position) (op : PositionOp) : Decidable (p.Aligned op) :=
  match op with
  | .apply _ | .applyAdjustment _ => inferInstanceAs (Decidable (OnGrid _ _))
  | .purgeEventsForOrder _ => .isTrue trivial

/-- Every amount in the position is such a multiple: the net quantity, and what a purge
would replay. -/
structure Gridded (p : Position) : Prop where
  signedQty : OnGrid p.scale p.signedQty
  events : ∀ event ∈ p.events, OnGrid p.scale (p.fillChange event)
  adjustments : ∀ a ∈ p.adjustments, a.adjustmentType ≠ .commission → OnGrid p.scale a.change

theorem gridded_of_nil (hqty : p.signedQty = 0) (hevents : p.events = [])
    (hadjs : p.adjustments = []) : Gridded p where
  signedQty := by rw [hqty]; exact OnGrid.zero
  events := by rw [hevents]; nofun
  adjustments := by rw [hadjs]; nofun

theorem Filled.gridded (h : Filled p fill p') (hg : Gridded p)
    (hfill : OnGrid p.scale (p.fillChange fill)) : Gridded p' where
  signedQty := by
    rw [h.same.scale, h.signedQty]
    exact (hg.signedQty.add hfill).snap
  events := by
    rw [h.same.scale, h.same.fillChange, h.events]
    intro event hmem
    rcases mem_append.mp hmem with hold | hnew
    · split at hold
      · nomatch hold
      · exact hg.events event hold
    · rw [mem_singleton.mp hnew]
      exact hfill
  adjustments := by
    rw [h.same.scale]
    intro a ha hne
    exact hg.adjustments a ((h.adjustments a ha).resolve_right hne) hne

theorem Adjusted.gridded (h : Adjusted p adjustment p') (hset : Settled p) (hg : Gridded p)
    (hchange : OnGrid p.scale adjustment.change) : Gridded p' where
  signedQty := by
    rw [h.same.scale, (h.settles (.inr hset)).2]
    exact (hg.signedQty.add hchange).snap
  events := by
    rw [h.same.scale, h.same.fillChange, h.events]
    exact hg.events
  adjustments := by
    rw [h.same.scale, h.adjustments]
    intro a ha hne
    rcases mem_append.mp ha with hold | hnew
    · exact hg.adjustments a hold hne
    · rw [mem_singleton.mp hnew]
      exact hchange

/-- What a purge replays was in the position before. -/
theorem Gridded.purge {id : ClientOrderId} (hg : Gridded p)
    (h : p.purgeEventsForOrder id = some p') : Gridded p' := by
  rcases purge_cases h with ⟨-, hblank, -⟩ | ⟨-, _, _, hblank, hfills, hadjs⟩
  · exact gridded_of_nil hblank.signedQty hblank.events hblank.adjustments
  have hstart := gridded_of_nil hblank.signedQty hblank.events hblank.adjustments
  have hset := (fills_net hblank.settled hfills).settled
  obtain ⟨hsame, hmid⟩ : SameInstrument p _ ∧ Gridded _ := by
    refine runs_inv_mem (fun q => SameInstrument p q ∧ Gridded q) ?_ ⟨hblank.same, hstart⟩ hfills
    rintro q fill q' hmem ⟨hsame, hq⟩ hq'
    have hfilled := apply_filled hq'
    refine ⟨hsame.trans hfilled.same, hfilled.gridded hq ?_⟩
    rw [hsame.scale, hsame.fillChange]
    exact hg.events fill (mem_of_mem_filter hmem)
  -- commissions are not replayed, so nothing is asked of them
  refine (runs_inv_mem (fun q => SameInstrument p q ∧ Settled q ∧ Gridded q) ?_
    ⟨hsame, hset, hmid⟩ hadjs).2.2
  rintro q a q' hmem ⟨hsame, hset, hq⟩ hq'
  obtain ⟨hold, hne⟩ := mem_filter.mp hmem
  have hadjusted := applyAdjustment_adjusted hq'
  refine ⟨hsame.trans hadjusted.same, (hadjusted.settles (.inr hset)).1,
    hadjusted.gridded hset hq ?_⟩
  rw [hsame.scale]
  exact hg.adjustments a hold (of_decide_eq_true hne)

/-- **Step lemma**: amounts on the grid keep the position on the grid. -/
theorem gridded_step (hset : Settled p) (hg : Gridded p) (h : p.step op = some p')
    (hop : p.Aligned op) : Gridded p' := by
  cases op with
  | apply fill => exact (apply_filled h).gridded hg hop
  | applyAdjustment adjustment => exact (applyAdjustment_adjusted h).gridded hset hg hop
  | purgeEventsForOrder id => exact hg.purge h

/-! ## Any run -/

variable {instrument : Instrument} {ops : List PositionOp}

/-- A new position is a flat one that takes the fill. -/
theorem new_cases (h : new instrument fill = some p₀) :
    ∃ start : Position, start.side = .flat ∧ start.signedQty = 0 ∧ start.events = [] ∧
      start.adjustments = [] ∧ start.apply fill = some p₀ := by
  unfold new at h
  split at h
  · obtain ⟨_, -, h⟩ := bind_eq_some_iff.mp h
    obtain ⟨_, -, h⟩ := bind_eq_some_iff.mp h
    obtain ⟨_, -, h⟩ := bind_eq_some_iff.mp h
    obtain ⟨_, -, h⟩ := bind_eq_some_iff.mp h
    exact ⟨_, rfl, rfl, rfl, rfl, h⟩
  · nomatch h

section

variable (h₀ : new instrument fill = some p₀)

include h₀

/-- **Run lemma**: the side and the quantity follow the net quantity in every state. -/
theorem settled_of_runs (hrun : runs step p₀ ops = some p) : Settled p := by
  obtain ⟨_, -, -, -, -, hstart⟩ := new_cases h₀
  exact runs_inv (fun _ _ _ => settled_step) (apply_filled hstart).settled hrun

/-- **Run lemma**: a run whose amounts are on the grid stays on it. -/
theorem gridded_of_runs (hfill : OnGrid p₀.scale (p₀.fillChange fill))
    (hops : Along step (fun p op _ => p.Aligned op) p₀ ops)
    (hrun : runs step p₀ ops = some p) : Gridded p := by
  obtain ⟨_, -, hqty, hevents, hadjs, hstart⟩ := new_cases h₀
  have hfilled := apply_filled hstart
  rw [hfilled.same.scale, hfilled.same.fillChange] at hfill
  refine (runs_inv_of_along (fun q => Settled q ∧ Gridded q) (fun q op q' hq hq' hop => ?_)
    ⟨hfilled.settled, hfilled.gridded (gridded_of_nil hqty hevents hadjs) hfill⟩ hops hrun).2
  exact ⟨settled_step hq.1 hq', gridded_step hq.1 hq.2 hq' hop⟩

/-- A run keeps a new position stamped iff its adjustments keep it flat or not flat. -/
theorem stamped_throughout_iff :
    Throughout step Stamped p₀ ops ↔ Along step (fun p op _ => p.KeepsFlat op) p₀ ops := by
  obtain ⟨_, hflat, -, -, -, hstart⟩ := new_cases h₀
  have hfilled := apply_filled hstart
  have hstamped : Stamped p₀ := hfilled.stamped (.inr hflat)
  rw [throughout_iff_along, and_iff_right hstamped]
  refine along_iff (fun p => Settled p ∧ Stamped p) ?_ ?_ ⟨hfilled.settled, hstamped⟩
  · rintro p op p' ⟨hset, hst⟩ hstep hkeeps
    exact ⟨settled_step hset hstep, (stamped_iff_keepsFlat hset hst hstep).mpr hkeeps⟩
  · rintro p op p' ⟨hset, hst⟩ hstep
    exact stamped_iff_keepsFlat hset hst hstep

end

/-- **The lifecycle of a position.** In every state of every run from a new position, the side is
that of the signed quantity and the quantity is its magnitude, rounded to the size precision; they
are equal where the signed quantity is a multiple of the smallest quantity, so throughout a run that
brings in only such amounts. Where no adjustment takes the position to or from zero, exactly one of
`is_open` and `is_closed` holds throughout, with the closing time set in the flat states. -/
theorem lifecycle_of_runs (ops : List PositionOp) (h₀ : Position.new instrument fill = some p₀) :
    Throughout step
      (fun p =>
        p.side = sideOf p.signedQty ∧
        Quantity.new |p.signedQty| p.sizePrecision = some p.quantity ∧
        (p.quantity.asF64 = some |p.signedQty| ↔ OnGrid p.scale p.signedQty)) p₀ ops ∧
    (OnGrid p₀.scale (p₀.fillChange fill) →
      Along step (fun p op _ => p.Aligned op) p₀ ops →
      Throughout step (fun p => p.quantity.asF64 = some |p.signedQty|) p₀ ops) ∧
    (Along step (fun p op _ => p.KeepsFlat op) p₀ ops →
      Throughout step
        (fun p =>
          (p.isOpen ^^ p.isClosed) = true ∧ (p.tsClosed.isSome = true ↔ p.side = .flat))
        p₀ ops) := by
  have hexact : ∀ {pre p}, runs step p₀ pre = some p →
      (p.quantity.asF64 = some |p.signedQty| ↔ OnGrid p.scale p.signedQty) := by
    intro pre p hrun
    have hset := settled_of_runs h₀ hrun
    exact (Quantity.new_asF64_iff (abs_nonneg _) hset.quantity).trans OnGrid.abs_iff
  refine ⟨?_, ?_, ?_⟩
  · intro pre p _ hrun
    have hset := settled_of_runs h₀ hrun
    exact ⟨hset.side, hset.quantity, hexact hrun⟩
  · intro hfill hops pre p hpre hrun
    exact (hexact hrun).mpr (gridded_of_runs h₀ hfill (hops.initial hpre) hrun).signedQty
  · intro hkeeps pre p hpre hrun
    have hst := (stamped_throughout_iff h₀).mpr hkeeps pre p hpre hrun
    exact ⟨xor_iff_stamped.mpr hst, hst⟩

end

/-! ## A spot position -/

attribute [local instance] Build.standard

namespace Sample

def btc : Currency := ⟨"BTC", 8⟩

/-- A currency pair with quantities of six decimals, fewer than its base currency has. -/
def instrument : Instrument where
  id := ⟨"BTCUSDT.BINANCE"⟩
  sizePrecision := 6
  multiplier := ⟨1000000000, 0⟩
  isInverse := false
  isCurrencyPair := true
  baseCurrency := some btc
  quoteCurrency := ⟨"USDT", 8⟩

/-- A fill of `millis` thousandths at a price of 50000. -/
def fill (tradeId : String) (side : OrderSide) (millis : Nat) (commission : Option Money)
    (ts : UnixNanos) : OrderFilled where
  strategyId := ⟨"S-001"⟩
  clientOrderId := ⟨"O-" ++ tradeId⟩
  tsEvent := ts
  instrumentId := instrument.id
  venueOrderId := ⟨"V-001"⟩
  tradeId := ⟨tradeId⟩
  orderSide := side
  lastQty := ⟨millis * 1000000, 6⟩
  lastPx := ⟨50000000000000, 2⟩
  liquiditySide := .taker
  tsInit := ts
  positionId := some ⟨"P-001"⟩
  commission := commission

/-- An adjustment of the quantity outside of fills. -/
def adjustment (change : ℚ) (ts : UnixNanos) : PositionAdjusted where
  adjustmentType := .funding
  quantityChange := some change
  pnlChange := none
  reason := none
  tsEvent := ts
  tsInit := ts

/-- One coin is bought, a tenth taken out, the order of another fill purged, and the rest sold. -/
def ops : List PositionOp :=
  [.applyAdjustment (adjustment (-1 / 10) 2), .apply (fill "2" .buy 500 none 3),
    .purgeEventsForOrder ⟨"O-2"⟩, .apply (fill "3" .sell 900 none 4)]

end Sample

open Position.Sample

/-- The sample run meets both conditions: the quantity is exact, the position open or closed. -/
theorem lifecycle_of_runs_sold :
    ∃ p₀, Position.new Sample.instrument (Sample.fill "1" .buy 1000 none 1) = some p₀ ∧
      Throughout step (fun p => p.quantity.asF64 = some |p.signedQty|) p₀ Sample.ops ∧
      Throughout step
        (fun p => (p.isOpen ^^ p.isClosed) = true ∧ (p.tsClosed.isSome = true ↔ p.side = .flat))
        p₀ Sample.ops := by
  obtain ⟨p₀, h₀, hmet⟩ := map_eq_some_iff.mp
    (show (new Sample.instrument (Sample.fill "1" .buy 1000 none 1)).map (fun p₀ =>
        decide (OnGrid p₀.scale (p₀.fillChange (Sample.fill "1" .buy 1000 none 1)) ∧
          Along step (fun p op _ => p.Aligned op) p₀ Sample.ops ∧
          Along step (fun p op _ => p.KeepsFlat op) p₀ Sample.ops)) = some true by
      decide +kernel)
  obtain ⟨hfill, haligned, hkeeps⟩ := of_decide_eq_true hmet
  obtain ⟨-, hexact, hone⟩ := lifecycle_of_runs Sample.ops h₀
  exact ⟨p₀, h₀, hexact hfill haligned, hone hkeeps⟩

/-- An adjustment that takes out the whole coin leaves a flat position neither open nor closed. A
commission of eight decimals leaves a quantity that is not the signed one. -/
theorem not_lifecycle_adjusted :
    (∃ p₀ p, Position.new Sample.instrument (Sample.fill "1" .buy 1000 none 1) = some p₀ ∧
      runs step p₀ [.applyAdjustment (Sample.adjustment (-1) 2)] = some p ∧
      p.side = .flat ∧ p.tsClosed = none ∧ p.isOpen = false ∧ p.isClosed = false) ∧
    ∃ p₀, Position.new Sample.instrument
        (Sample.fill "1" .buy 1000 (some ⟨1000100, btc⟩) 1) = some p₀ ∧
      p₀.quantity.asF64 ≠ some |p₀.signedQty| := by
  constructor
  · obtain ⟨p₀, h₀, hrun⟩ := map_eq_some_iff.mp
      (show (new Sample.instrument (Sample.fill "1" .buy 1000 none 1)).map (fun p₀ =>
          (runs step p₀ [.applyAdjustment (Sample.adjustment (-1) 2)]).map fun p =>
            (p.side, p.tsClosed, p.isOpen, p.isClosed)) =
          some (some (.flat, none, false, false)) by
        decide +kernel)
    obtain ⟨p, hp, hfields⟩ := map_eq_some_iff.mp hrun
    simp only [Prod.mk.injEq] at hfields
    exact ⟨p₀, p, h₀, hp, hfields⟩
  · obtain ⟨p₀, h₀, hne⟩ := map_eq_some_iff.mp
      (show (new Sample.instrument
          (Sample.fill "1" .buy 1000 (some ⟨1000100, btc⟩) 1)).map (fun p₀ =>
            decide (p₀.quantity.asF64 ≠ some |p₀.signedQty|)) = some true by
        decide +kernel)
    exact ⟨p₀, h₀, of_decide_eq_true hne⟩

end Position

end Nautilus
