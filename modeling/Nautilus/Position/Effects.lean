import Nautilus.Position.Position

/-!
# What the operations of a position do

The abstract position is one number: the net quantity, to which every fill and every
adjustment adds its change and which is set to zero as soon as it rounds to zero at the
size precision. The three operations are described through it.
-/

namespace Nautilus

open Lib List Option Quantity

variable {adjustments : List PositionAdjusted}

variable {s : OrderSideSpecified}

/-- The side of a net quantity. -/
def sideOf (qty : ℚ) : PositionSide :=
  if 0 < qty then .long else if qty < 0 then .short else .flat

theorem sideOf_eq_flat_iff {qty : ℚ} : sideOf qty = .flat ↔ qty = 0 := by
  unfold sideOf
  constructor
  · intro h
    split at h
    · nomatch h
    split at h
    · nomatch h
    · rename_i hpos hneg
      exact le_antisymm (not_lt.mp hpos) (not_lt.mp hneg)
  · rintro rfl
    rw [if_neg (lt_irrefl _), if_neg (lt_irrefl _)]

theorem sideOf_of_ne {qty : ℚ} (h : qty ≠ 0) : sideOf qty = if 0 < qty then .long else .short := by
  unfold sideOf
  by_cases hpos : 0 < qty
  · rw [if_pos hpos, if_pos hpos]
  · have hneg : qty < 0 := lt_of_le_of_ne (not_lt.mp hpos) h
    rw [if_neg hpos, if_neg hpos, if_pos hneg]

def PositionAdjusted.change (adjustment : PositionAdjusted) : ℚ :=
  adjustment.quantityChange.getD 0

namespace Position

/-- One over the smallest quantity at the size precision. -/
def scale (p : Position) : ℚ := 10 ^ p.sizePrecision

section

variable [Build]

/-- The change of the net quantity a fill makes, with the commission it is charged in the
base currency. -/
def fillChange (p : Position) (fill : OrderFilled) : ℚ :=
  match fill.orderSide.asSpecified with
  | none => 0
  | some s =>
    s.signed (fill.lastQty.raw / 10 ^ fixedPrecision) -
      ((p.baseCommission fill).map Money.asDecimal).getD 0

/-- The side is that of the net quantity, the quantity its magnitude at the size precision, and the
net quantity is zero if that is. -/
structure Settled (p : Position) : Prop where
  side : p.side = sideOf p.signedQty
  quantity : Quantity.new |p.signedQty| p.sizePrecision = some p.quantity
  snapped : snap p.scale p.signedQty = p.signedQty

end

structure SameInstrument (p p' : Position) : Prop where
  sizePrecision : p'.sizePrecision = p.sizePrecision
  isCurrencyPair : p'.isCurrencyPair = p.isCurrencyPair
  baseCurrency : p'.baseCurrency = p.baseCurrency

variable {p p' q : Position} {fill : OrderFilled} {adjustment : PositionAdjusted}

namespace SameInstrument

theorem refl (p : Position) : SameInstrument p p := ⟨rfl, rfl, rfl⟩

theorem trans (h : SameInstrument p q) (h' : SameInstrument q p') : SameInstrument p p' :=
  ⟨h'.1.trans h.1, h'.2.trans h.2, h'.3.trans h.3⟩

theorem scale (h : SameInstrument p p') : p'.scale = p.scale := by
  unfold Position.scale
  rw [h.sizePrecision]

theorem baseCommission (h : SameInstrument p p') (fill : OrderFilled) :
    p'.baseCommission fill = p.baseCommission fill := by
  unfold Position.baseCommission
  rw [h.isCurrencyPair, h.baseCurrency]

theorem fillChange [Build] (h : SameInstrument p p') : p'.fillChange = p.fillChange := by
  funext fill
  unfold Position.fillChange
  rw [h.baseCommission]

end SameInstrument

theorem resided_cases (p : Position) :
    ∃ side signedQty entry, p.resided = { p with side, signedQty, entry } := by
  unfold resided
  split
  · exact ⟨_, _, _, rfl⟩
  · split <;> exact ⟨_, _, _, rfl⟩

theorem settled_cases (p : Position) (fill : OrderFilled) :
    ∃ side signedQty closingOrderId tsClosed durationNs tsLast entry,
      p.settled fill =
        { p with side, signedQty, closingOrderId, tsClosed, durationNs, tsLast, entry } := by
  unfold settled
  split
  · exact ⟨_, _, _, _, _, _, _, rfl⟩
  · split <;> exact ⟨_, _, _, _, _, _, _, rfl⟩

section

variable [Build]

theorem Settled.flat_iff (h : Settled p) : p.side = .flat ↔ p.signedQty = 0 := by
  rw [h.side, sideOf_eq_flat_iff]

/-! ## The quantity decides the side -/

/-- The quantity is up to date. -/
def Measured (p : Position) : Prop :=
  Quantity.new |p.signedQty| p.sizePrecision = some p.quantity

/-- `r` is `p` with the side its quantity calls for, and normalized, which settles it. Fills and
adjustments end this way. -/
theorem Measured.settles {r : Position} (h : Measured p) (hsame : SameInstrument p r)
    (hqty : r.quantity = p.quantity)
    (hzero : p.quantity.isZero = true → r.side = .flat ∧ r.signedQty = 0)
    (hne : p.quantity.isZero = false →
      r.side = (if 0 < p.signedQty then .long else .short) ∧ r.signedQty = p.signedQty) :
    Settled r ∧ r.signedQty = snap p.scale p.signedQty := by
  -- the quantity is zero iff the net quantity is below half of its last decimal
  have hiff := Quantity.new_isZero (abs_nonneg _) h
  cases hz : p.quantity.isZero with
  | true =>
    obtain ⟨hside, hs⟩ := hzero hz
    have hsnap : snap p.scale p.signedQty = 0 := snap_of_lt (hiff.mp hz)
    have hqty0 : Quantity.new |r.signedQty| r.sizePrecision = some r.quantity := by
      obtain ⟨hq, hfloat, hfixed⟩ := new_eq_some h
      have hraw : p.quantity.raw = 0 := beq_iff_eq.mp hz
      rw [hs, abs_zero, new_zero, hqty, hsame.sizePrecision, zero, hfloat, hfixed]
      rw [hq] at hraw ⊢
      exact congrArg some (congrArg (Quantity.mk · p.sizePrecision) hraw.symm)
    refine ⟨⟨?_, hqty0, ?_⟩, hs.trans hsnap.symm⟩
    · rw [hside, hs, sideOf_eq_flat_iff.mpr rfl]
    · rw [hs, snap_zero]
  | false =>
    obtain ⟨hside, hs⟩ := hne hz
    have hle : ¬ |p.signedQty| * p.scale < 1 / 2 := fun hlt => by
      rw [hiff.mpr hlt] at hz
      nomatch hz
    have hsnap : snap p.scale p.signedQty = p.signedQty := snap_of_le hle
    have hne0 : p.signedQty ≠ 0 := fun h0 => by
      rw [h0, abs_zero, zero_mul] at hle
      exact hle (by norm_num)
    refine ⟨⟨?_, ?_, ?_⟩, hs.trans hsnap.symm⟩
    · rw [hside, hs, sideOf_of_ne hne0]
    · rw [hs, hsame.sizePrecision, hqty]
      exact h
    · rw [hsame.scale, hs, hsnap]

theorem requantify_cases (h : p.requantify = some p') :
    Measured p' ∧ ∃ quantity peakQty, p' = { p with quantity, peakQty } := by
  obtain ⟨quantity, hq, rfl⟩ := map_eq_some_iff.mp h
  exact ⟨hq, quantity, _, rfl⟩

/-! ## Adjustments -/

/-- What an adjustment does. It leaves the closing time alone. -/
structure Adjusted (p : Position) (adjustment : PositionAdjusted) (p' : Position) : Prop where
  same : SameInstrument p p'
  tsClosed : p'.tsClosed = p.tsClosed
  events : p'.events = p.events
  adjustments : p'.adjustments = p.adjustments ++ [adjustment]
  settles : adjustment.quantityChange ≠ none ∨ Settled p →
    Settled p' ∧ p'.signedQty = snap p.scale (p.signedQty + adjustment.change)

theorem changeQty_cases (h : p.changeQty adjustment.quantityChange = some q) :
    (∃ quantity peakQty,
      q = { p with signedQty := p.signedQty + adjustment.change, quantity, peakQty }) ∧
    (adjustment.quantityChange ≠ none ∨ Settled p → Measured q) := by
  unfold PositionAdjusted.change
  cases hc : adjustment.quantityChange with
  | none =>
    rw [hc] at h
    cases h
    refine ⟨⟨p.quantity, p.peakQty, ?_⟩, ?_⟩
    · rw [getD_none, add_zero]
    · rintro (hne | hs)
      · exact absurd rfl hne
      · exact hs.quantity
  | some change =>
    rw [hc] at h
    obtain ⟨hm, quantity, peakQty, rfl⟩ := requantify_cases h
    exact ⟨⟨quantity, peakQty, rfl⟩, fun _ => hm⟩

theorem changePnl_cases {change : Option Money} (h : p.changePnl change = some q) :
    ∃ realizedPnl, q = { p with realizedPnl } := by
  unfold changePnl at h
  split at h
  · cases h
    exact ⟨p.realizedPnl, rfl⟩
  · split at h
    · cases h
      exact ⟨_, rfl⟩
    · obtain ⟨_, -, rfl⟩ := map_eq_some_iff.mp h
      exact ⟨_, rfl⟩

theorem Measured.resided (h : Measured p) :
    Settled p.resided ∧ p.resided.signedQty = snap p.scale p.signedQty := by
  obtain ⟨_, signedQty, _, hr⟩ := p.resided_cases
  refine h.settles ?_ ?_ ?_ ?_
  · rw [hr]
    exact ⟨rfl, rfl, rfl⟩
  · rw [hr]
  · intro hz
    unfold Position.resided
    rw [if_pos hz]
    exact ⟨rfl, rfl⟩
  · intro hz
    unfold Position.resided
    rw [hz, if_neg Bool.false_ne_true]
    split <;> exact ⟨rfl, rfl⟩

theorem applyAdjustment_adjusted (h : p.applyAdjustment adjustment = some p') :
    Adjusted p adjustment p' := by
  unfold applyAdjustment at h
  obtain ⟨_, h₁, h⟩ := bind_eq_some_iff.mp h
  obtain ⟨_, h₂, h⟩ := bind_eq_some_iff.mp h
  cases h
  obtain ⟨⟨quantity, peakQty, rfl⟩, hmeasured⟩ := changeQty_cases h₁
  obtain ⟨realizedPnl, rfl⟩ := changePnl_cases h₂
  obtain ⟨side, signedQty, _, hr⟩ := resided_cases
    { p with signedQty := p.signedQty + adjustment.change, quantity, peakQty, realizedPnl }
  refine ⟨?_, ?_, ?_, ?_, ?_⟩
  · rw [hr]
    exact ⟨rfl, rfl, rfl⟩
  · rw [hr]
  · rw [hr]
  · rw [hr]
  intro hset
  -- a change of the PnL does not touch what is measured
  have hm : Measured
      { p with signedQty := p.signedQty + adjustment.change, quantity, peakQty, realizedPnl } :=
    hmeasured hset
  obtain ⟨hs, hsigned⟩ := hm.resided
  exact ⟨⟨hs.side, hs.quantity, hs.snapped⟩, hsigned⟩

/-! ## Fills -/

/-- A flat position starts over; a position that ends flat is closed at the time of the fill. -/
structure Filled (p : Position) (fill : OrderFilled) (p' : Position) : Prop where
  same : SameInstrument p p'
  settled : Settled p'
  signedQty : p'.signedQty = snap p.scale (p.signedQty + p.fillChange fill)
  tsClosed : p'.tsClosed =
    if p'.side = .flat then some fill.tsEvent
    else if p.side = .flat then none else p.tsClosed
  events : p'.events = (if p.side = .flat then [] else p.events) ++ [fill]
  adjustments : ∀ a ∈ p'.adjustments, a ∈ p.adjustments ∨ a.adjustmentType = .commission

/-- The part of a position that is there before a fill is counted. -/
structure Opened (p : Position) (p' : Position) : Prop where
  same : SameInstrument p p'
  signedQty : p'.signedQty = p.signedQty
  tsClosed : p'.tsClosed = if p.side = .flat then none else p.tsClosed
  events : p'.events = if p.side = .flat then [] else p.events
  adjustments : ∀ a ∈ p'.adjustments, a ∈ p.adjustments

theorem reopen_opened (h : p.reopen fill = some p') : Opened p p' := by
  unfold reopen at h
  split_ifs at h with hflat
  · obtain ⟨_, -, h⟩ := bind_eq_some_iff.mp h
    obtain ⟨_, -, h⟩ := bind_eq_some_iff.mp h
    cases h
    exact ⟨⟨rfl, rfl, rfl⟩, rfl, (if_pos hflat).symm, (if_pos hflat).symm, nofun⟩
  · cases h
    exact ⟨.refl p, rfl, (if_neg hflat).symm, (if_neg hflat).symm, fun _ ha => ha⟩

theorem recordFill_cases (h : p.recordFill fill = some p') :
    ∃ tradeIds commissions,
      p' = { p with events := p.events ++ [fill], tradeIds, commissions } := by
  unfold recordFill at h
  dsimp only at h
  split at h
  · cases h
    exact ⟨_, _, rfl⟩
  · split at h
    · cases h
      exact ⟨_, _, rfl⟩
    · obtain ⟨_, -, rfl⟩ := map_eq_some_iff.mp h
      exact ⟨_, _, rfl⟩

theorem averaged_cases {lastPx lastQty pnl : ℚ} (h : p.averaged s lastPx lastQty = some (p', pnl)) :
    ∃ avgPxOpen avgPxClose realizedReturn,
      p' = { p with avgPxOpen, avgPxClose, realizedReturn } := by
  unfold averaged at h
  split at h
  · obtain ⟨_, -, h⟩ := map_eq_some_iff.mp h
    cases h
    exact ⟨_, _, _, rfl⟩
  split at h
  · obtain ⟨avgPxClose, -, h⟩ := bind_eq_some_iff.mp h
    obtain ⟨r, -, h⟩ := bind_eq_some_iff.mp h
    cases h
    exact ⟨_, _, _, rfl⟩
  · cases h
    exact ⟨_, _, _, rfl⟩

theorem realize_cases {pnl : ℚ} (h : p.realize pnl = some p') :
    ∃ realizedPnl, p' = { p with realizedPnl } := by
  unfold realize at h
  obtain ⟨_, -, h⟩ := bind_eq_some_iff.mp h
  obtain ⟨_, -, h⟩ := bind_eq_some_iff.mp h
  cases h
  exact ⟨_, rfl⟩

theorem addQty_cases {lastQty : Quantity} (h : p.addQty s lastQty = some p') :
    ∃ buyQty sellQty, p' = { p with buyQty, sellQty } := by
  cases s with
  | buy | sell =>
    obtain ⟨_, -, rfl⟩ := map_eq_some_iff.mp h
    exact ⟨_, _, rfl⟩

/-- Of all that a fill changes in the books of a position, the lifecycle sees the signed
quantity. -/
theorem handleOrderFill_cases (h : p.handleOrderFill s fill = some p') :
    ∃ avgPxOpen avgPxClose realizedReturn realizedPnl buyQty sellQty,
      p' =
        { p with
          signedQty := p.signedQty + s.signed (fill.lastQty.raw / 10 ^ fixedPrecision)
          avgPxOpen, avgPxClose, realizedReturn, realizedPnl, buyQty, sellQty } := by
  unfold handleOrderFill at h
  obtain ⟨_, -, h⟩ := bind_eq_some_iff.mp h
  obtain ⟨_, -, h⟩ := bind_eq_some_iff.mp h
  obtain ⟨lastQty, hqty, h⟩ := bind_eq_some_iff.mp h
  obtain ⟨⟨_, _⟩, h₁, h⟩ := bind_eq_some_iff.mp h
  obtain ⟨_, h₂, h⟩ := bind_eq_some_iff.mp h
  have hval : lastQty = fill.lastQty.raw / 10 ^ fixedPrecision := by
    unfold asF64 at hqty
    split at hqty
    · exact (some.inj hqty).symm
    · nomatch hqty
  subst hval
  obtain ⟨avgPxOpen, avgPxClose, realizedReturn, rfl⟩ := averaged_cases h₁
  obtain ⟨realizedPnl, rfl⟩ := realize_cases h₂
  obtain ⟨buyQty, sellQty, rfl⟩ := addQty_cases h
  exact ⟨_, _, _, _, _, _, rfl⟩

theorem handleFill_cases (h : p.handleFill fill = some p') :
    ∃ s, fill.orderSide.asSpecified = some s ∧ p.handleOrderFill s fill = some p' := by
  unfold handleFill at h
  split at h
  · nomatch h
  · exact ⟨.buy, ‹_›, h⟩
  · exact ⟨.sell, ‹_›, h⟩

/-- A charged commission leaves the quantity to be measured: settling twice is settling once. -/
theorem chargeCommission_cases (h : p.chargeCommission fill = some p') :
    SameInstrument p p' ∧ p'.tsClosed = p.tsClosed ∧ p'.events = p.events ∧
      (∀ a ∈ p'.adjustments, a ∈ p.adjustments ∨ a.adjustmentType = .commission) ∧
      snap p.scale p'.signedQty =
        snap p.scale (p.signedQty - ((p.baseCommission fill).map Money.asDecimal).getD 0) := by
  unfold chargeCommission at h
  split at h
  · rename_i hnone
    cases h
    refine ⟨.refl p, rfl, rfl, fun _ ha => .inl ha, ?_⟩
    rw [hnone, map_none, getD_none, sub_zero]
  · rename_i commission hsome
    have hadj := applyAdjustment_adjusted h
    obtain ⟨-, hsigned⟩ := hadj.settles (.inl nofun)
    refine ⟨hadj.same, hadj.tsClosed, hadj.events, ?_, ?_⟩
    · intro a ha
      rw [hadj.adjustments, mem_append, mem_singleton] at ha
      rcases ha with ha | rfl
      · exact .inl ha
      · exact .inr rfl
    · rw [hsigned, snap_snap, hsome, map_some, getD_some, sub_eq_add_neg]
      rfl

theorem Measured.settled (h : Measured p) (fill : OrderFilled) :
    Settled (p.settled fill) ∧ (p.settled fill).signedQty = snap p.scale p.signedQty ∧
      (p.settled fill).tsClosed =
        if (p.settled fill).side = .flat then some fill.tsEvent else p.tsClosed := by
  obtain ⟨side, signedQty, _, tsClosed, _, _, _, hr⟩ := p.settled_cases fill
  rw [← and_assoc]
  constructor
  · refine h.settles ?_ ?_ ?_ ?_
    · rw [hr]
      exact ⟨rfl, rfl, rfl⟩
    · rw [hr]
    · intro hz
      unfold Position.settled
      rw [if_pos hz]
      exact ⟨rfl, rfl⟩
    · intro hz
      unfold Position.settled
      rw [hz, if_neg Bool.false_ne_true]
      split <;> exact ⟨rfl, rfl⟩
  · unfold Position.settled
    split
    · exact (if_pos rfl).symm
    · split <;> exact (if_neg nofun).symm

theorem apply_filled (h : p.apply fill = some p') : Filled p fill p' := by
  unfold apply at h
  split at h
  · nomatch h
  obtain ⟨p₁, h₁, h⟩ := bind_eq_some_iff.mp h
  obtain ⟨_, h₂, h⟩ := bind_eq_some_iff.mp h
  obtain ⟨_, h₃, h⟩ := bind_eq_some_iff.mp h
  obtain ⟨p₄, h₄, h⟩ := bind_eq_some_iff.mp h
  obtain ⟨_, h₅, h⟩ := bind_eq_some_iff.mp h
  cases h
  -- each stage changes a few fields; what it leaves is read off the record
  have hopen := reopen_opened h₁
  obtain ⟨_, _, rfl⟩ := recordFill_cases h₂
  obtain ⟨s, hs, h₃⟩ := handleFill_cases h₃
  obtain ⟨_, _, _, _, _, _, rfl⟩ := handleOrderFill_cases h₃
  obtain ⟨hsame, hclosed, hevents, hadjs, hsigned⟩ := chargeCommission_cases h₄
  obtain ⟨hmeasured, quantity, peakQty, rfl⟩ := requantify_cases h₅
  obtain ⟨hsettled, hqty, hts⟩ := hmeasured.settled fill
  obtain ⟨_, signedQty, _, tsClosed, _, _, _, hr⟩ :=
    settled_cases { p₄ with quantity, peakQty } fill
  have hsame₁ : SameInstrument p p₄ :=
    hopen.same.trans ⟨hsame.sizePrecision, hsame.isCurrencyPair, hsame.baseCurrency⟩
  refine ⟨?_, hsettled, ?_, ?_, ?_, ?_⟩
  · rw [hr]
    exact ⟨hsame₁.1, hsame₁.2, hsame₁.3⟩
  · -- the change of the fill is its quantity less the commission charged
    have hbase := hopen.same.baseCommission fill
    have hscale : p₁.scale = p.scale := hopen.same.scale
    rw [hqty]
    show snap p₄.scale p₄.signedQty = _
    rw [hsame₁.scale, ← hscale]
    refine hsigned.trans ?_
    unfold fillChange
    rw [hs]
    show snap p₁.scale (p₁.signedQty + _ - ((p₁.baseCommission fill).map _).getD 0) = _
    rw [hbase, hopen.signedQty, add_sub_assoc, hscale]
  · rw [hts]
    refine if_congr Iff.rfl rfl ?_
    exact hclosed.trans hopen.tsClosed
  · rw [hr]
    exact hevents.trans (congrArg (· ++ [fill]) hopen.events)
  · rw [hr]
    intro a ha
    exact (hadjs a ha).imp_left (hopen.adjustments a)

/-! ## Replays -/

structure SettledAt (p q : Position) (net : ℚ) : Prop where
  same : SameInstrument p q
  settled : Settled q
  signedQty : q.signedQty = net

/-- **Run lemma**: changes that settle the position add up. -/
theorem runs_net {ι : Type} {step : Position → ι → Option Position} {change : ι → ℚ}
    {inputs : List ι} (hstep : ∀ q a q', SameInstrument p q → Settled q → step q a = some q' →
      SettledAt q q' (snap p.scale (q.signedQty + change a)))
    (hset : Settled p) (hrun : runs step p inputs = some p') :
    SettledAt p p' (snapSum p.scale p.signedQty (inputs.map change)) := by
  unfold snapSum
  rw [foldl_map]
  refine runs_refines (SettledAt p) _ ?_ ⟨.refl p, hset, rfl⟩ hrun
  rintro q net a q' ⟨hsame, hq, rfl⟩ hq'
  obtain ⟨hsame', hset', hsigned⟩ := hstep q a q' hsame hq hq'
  exact ⟨hsame.trans hsame', hset', hsigned⟩

theorem fills_net {fills : List OrderFilled} (hset : Settled p)
    (hrun : runs apply p fills = some p') :
    SettledAt p p' (snapSum p.scale p.signedQty (fills.map p.fillChange)) := by
  refine runs_net (fun q fill q' hsame _ hq' => ?_) hset hrun
  have hfilled := apply_filled hq'
  refine ⟨hfilled.same, hfilled.settled, ?_⟩
  rw [hfilled.signedQty, hsame.scale, hsame.fillChange]

theorem adjustments_net (hset : Settled p) (hrun : runs applyAdjustment p adjustments = some p') :
    SettledAt p p' (snapSum p.scale p.signedQty (adjustments.map (·.change))) := by
  refine runs_net (fun q adjustment q' hsame hq hq' => ?_) hset hrun
  have hadj := applyAdjustment_adjusted hq'
  obtain ⟨hset', hsigned⟩ := hadj.settles (.inr hq)
  exact ⟨hadj.same, hset', hsigned.trans (by rw [hsame.scale])⟩

theorem adjustments_tsClosed
    (hrun : runs applyAdjustment p adjustments = some p') : p'.tsClosed = p.tsClosed := by
  refine runs_inv_mem (fun q => q.tsClosed = p.tsClosed) ?_ rfl hrun
  intro q adjustment q' _ hq hq'
  exact (applyAdjustment_adjusted hq').tsClosed.trans hq

theorem settled_of_zero (hside : p.side = .flat) (hqty : p.signedQty = 0)
    (hzero : Quantity.zero p.sizePrecision = some p.quantity) : Settled p where
  side := by rw [hside, hqty, sideOf_eq_flat_iff.mpr rfl]
  quantity := by rw [hqty, abs_zero, new_zero, hzero]
  snapped := by rw [hqty, snap_zero]

/-- A position in the instrument of `p` with nothing in it. -/
structure Blank (p q : Position) : Prop where
  same : SameInstrument p q
  settled : Settled q
  flat : q.side = .flat
  signedQty : q.signedQty = 0
  events : q.events = []
  adjustments : q.adjustments = []

theorem resetTo_blank (h : p.resetTo fill = some q) : Blank p q := by
  obtain ⟨_, hzero, rfl⟩ := map_eq_some_iff.mp h
  exact ⟨⟨rfl, rfl, rfl⟩, settled_of_zero rfl rfl hzero, rfl, rfl, rfl, rfl⟩

theorem cleared_blank (h : p.cleared = some q) : Blank p q ∧ q.tsClosed = some 0 := by
  obtain ⟨_, hzero, rfl⟩ := map_eq_some_iff.mp h
  exact ⟨⟨⟨rfl, rfl, rfl⟩, settled_of_zero rfl rfl hzero, rfl, rfl, rfl, rfl⟩, rfl⟩

/-- **Inversion of `purge_events_for_order`**: an empty shell closed at time zero, or the remaining
fills and then the preserved adjustments, replayed on a blank position. -/
theorem purge_cases {id : ClientOrderId} (h : p.purgeEventsForOrder id = some p') :
    (p.remainingFills id = [] ∧ Blank p p' ∧ p'.tsClosed = some 0) ∨
    (p.remainingFills id ≠ [] ∧ ∃ start mid,
      Blank p start ∧ runs apply start (p.remainingFills id) = some mid ∧
      runs applyAdjustment mid p.preservedAdjustments = some p') := by
  unfold purgeEventsForOrder at h
  split at h
  · rename_i hnone
    exact .inl ⟨hnone, cleared_blank h⟩
  rename_i hrest
  obtain ⟨start, hstart, h⟩ := bind_eq_some_iff.mp h
  obtain ⟨mid, hmid, h⟩ := bind_eq_some_iff.mp h
  refine .inr ⟨by rw [hrest]; nofun, start, mid, resetTo_blank hstart, ?_, h⟩
  rw [hrest]
  exact hmid

end

end Position

end Nautilus
