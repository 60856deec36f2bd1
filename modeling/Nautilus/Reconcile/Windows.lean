import Nautilus.Lib.StableSort
import Nautilus.Reconcile.Averages

/-!
# Windows that reconcile with the venue

The fills from `processMassStatusForReconciliation` should simulate to the position of the venue
(`Reconciles`). Three kinds of windows do: fills that match as they are, fills after the end of an
earlier lifecycle, and fills on one side that an opening on the side of the venue's position
completes (`Window`, `reconciles_of_window`).

The price of the opening takes the simulated position to the venue's **when it is filled last**, and
it is put first: that does not matter while every fill is on one side, and does as soon as one
reduces what the opening built.
-/

namespace Nautilus

open Lib List Option IndexMap

variable {d qty slack value : ℚ} {opening placed : FillSnapshot} {after before : List FillSnapshot}
  {venueOrderId : VenueOrderId} {result : ReconciliationResult}

def MatchesVenue (fills : List FillSnapshot) (venue : VenuePositionSnapshot) (tolerance : ℚ) :
    Prop :=
  ∃ qty value, simulatePosition fills = some (qty, value) ∧ qty = venue.signedQty ∧
    |value / |qty| - venue.avgPx| ≤ tolerance * venue.avgPx

/-- What a venue that reports a position reports. -/
structure VenuePositionSnapshot.Open (venue : VenuePositionSnapshot) : Prop where
  side : venue.side ≠ .flat
  qty : 0 < venue.qty
  avgPx : 0 < venue.avgPx

namespace VenuePositionSnapshot

variable {venue : VenuePositionSnapshot}

def direction (venue : VenuePositionSnapshot) : ℚ :=
  match venue.side with
  | .long => 1
  | .short => -1
  | .flat => 0

theorem signedQty_eq : venue.signedQty = venue.direction * venue.qty := by
  unfold signedQty direction
  cases venue.side <;> simp

theorem Open.direction (h : venue.Open) : venue.direction = 1 ∨ venue.direction = -1 := by
  have hside := h.side
  unfold VenuePositionSnapshot.direction
  cases hs : venue.side with
  | flat => exact absurd hs hside
  | long => exact .inl rfl
  | short => exact .inr rfl

theorem Open.abs_signedQty (h : venue.Open) : |venue.signedQty| = venue.qty := by
  rw [signedQty_eq, abs_mul, abs_of_pos h.qty]
  rcases h.direction with hd | hd <;> simp [hd]

theorem Open.signedQty_ne (h : venue.Open) : venue.signedQty ≠ 0 := by
  rw [← abs_pos, h.abs_signedQty]
  exact h.qty

end VenuePositionSnapshot

section

variable {fills : List FillSnapshot} {fill : FillSnapshot} {venue : VenuePositionSnapshot}
  {tolerance : ℚ}

theorem checkPositionMatch_iff (hopen : venue.Open) :
    checkPositionMatch qty value venue.signedQty venue.avgPx tolerance = true ↔
      qty = venue.signedQty ∧ |value / |qty| - venue.avgPx| ≤ tolerance * venue.avgPx := by
  unfold checkPositionMatch
  by_cases hq : qty = venue.signedQty
  · have hne : qty ≠ 0 := hq ▸ hopen.signedQty_ne
    rw [if_neg (not_not.mpr hq), if_neg hne, if_neg hopen.avgPx.ne', decide_eq_true_iff,
      div_le_iff₀ hopen.avgPx]
    exact ⟨fun h => ⟨hq, h⟩, And.right⟩
  · rw [if_pos hq]
    exact iff_of_false nofun fun h => hq h.1

theorem matchesVenue_iff (hopen : venue.Open) (hsim : simulatePosition fills = some (qty, value)) :
    MatchesVenue fills venue tolerance ↔
      checkPositionMatch qty value venue.signedQty venue.avgPx tolerance = true := by
  rw [checkPositionMatch_iff hopen]
  constructor
  · rintro ⟨_, _, hsim', h⟩
    cases hsim.symm.trans hsim'
    exact h
  · intro h
    exact ⟨qty, value, hsim, h⟩

/-! ## Simulating one side -/

def total (fills : List FillSnapshot) : ℚ := (fills.map FillSnapshot.qty).sum

def cost (fills : List FillSnapshot) : ℚ := (fills.map fun fill => fill.qty * fill.px).sum

@[simp] theorem total_cons : total (fill :: fills) = fill.qty + total fills := rfl

@[simp] theorem cost_cons : cost (fill :: fills) = fill.qty * fill.px + cost fills := rfl

@[simp] theorem total_append (more : List FillSnapshot) :
    total (fills ++ more) = total fills + total more := by
  simp [total]

@[simp] theorem cost_append (more : List FillSnapshot) :
    cost (fills ++ more) = cost fills + cost more := by
  simp [cost]

/-- Every fill is in one direction, with a quantity that is not negative. -/
def OneSided (d : ℚ) (fills : List FillSnapshot) : Prop :=
  ∀ fill ∈ fills, fill.direction = d ∧ 0 ≤ fill.qty

theorem OneSided.tail (h : OneSided d (fill :: fills)) : OneSided d fills :=
  fun f hf => h f (mem_cons_of_mem _ hf)

theorem OneSided.total_nonneg (h : OneSided d fills) : 0 ≤ total fills := by
  induction fills with
  | nil => exact le_refl _
  | cons fill fills ih =>
    exact add_nonneg (h fill mem_cons_self).2 (ih h.tail)

theorem OneSided.cost_eq_zero (h : OneSided d fills) (hzero : total fills = 0) :
    cost fills = 0 := by
  induction fills with
  | nil => rfl
  | cons fill fills ih =>
    have hfill := (h fill mem_cons_self).2
    rw [total_cons] at hzero
    have hrest := h.tail.total_nonneg
    have hqty : fill.qty = 0 := by linarith
    rw [cost_cons, hqty, ih h.tail (by linarith)]
    ring

theorem abs_direction_mul {x : ℚ} (hd : d = 1 ∨ d = -1) (hx : 0 ≤ x) :
    |d * x| = x ∧ |-d * x| = x := by
  rcases hd with rfl | rfl <;> simp [abs_of_nonneg hx]

/-- Fills in the direction of the position add up. -/
theorem simulate_accumulates {s : ℚ} (hd : d = 1 ∨ d = -1) (h : OneSided d fills) (hs : 0 ≤ s) :
    fills.foldlM simulateFill (d * s, value) =
      some (d * (s + total fills), value + cost fills) := by
  induction fills generalizing s value with
  | nil => simp [total, cost]
  | cons fill fills ih =>
    obtain ⟨hdir, _⟩ := h fill mem_cons_self
    rw [foldlM_cons, simulateFill_adds value hd hdir hs, bind_eq_bind, bind_some,
      ih h.tail (by linarith), total_cons, cost_cons, add_assoc, add_assoc]

theorem simulate_oneSided (hd : d = 1 ∨ d = -1) (h : OneSided d fills) :
    simulatePosition fills = some (d * total fills, cost fills) := by
  have hrun : fills.foldlM simulateFill (d * 0, 0) = _ := simulate_accumulates hd h le_rfl
  simpa [simulatePosition] using hrun

/-- Fills against the position leave its average price, until it is closed. -/
theorem simulate_reduces {s px : ℚ} (hd : d = 1 ∨ d = -1) (h : OneSided d fills)
    (hs : s + total fills < 0) :
    fills.foldlM simulateFill (d * s, s * px) =
      some (d * (s + total fills), (s + total fills) * px) := by
  induction fills generalizing s with
  | nil => simp [total]
  | cons fill fills ih =>
    obtain ⟨hdir, _⟩ := h fill mem_cons_self
    have hrest := h.tail.total_nonneg
    rw [total_cons] at hs
    have hneg : s < 0 := by linarith
    have hne := hneg.ne
    have hkept : s * px * ((s + fill.qty) / s) = (s + fill.qty) * px := by
      field_simp
    rw [foldlM_cons, simulateFill_against _ hd hdir hneg, if_pos (by linarith), hkept, bind_eq_bind,
      bind_some, ih h.tail (by linarith), total_cons, add_assoc]

/-! ## The opening -/

/-- The price asked for takes the fills' value to the venue's, or is the venue's own where the
opening is on the other side. -/
theorem price_of_opening {e T V C P px : ℚ} (hd : d = 1 ∨ d = -1) (he : e = d ∨ e = -d) (hT : 0 ≤ T)
    (hV : 0 < V) (hC : T = 0 → C = 0)
    (h : calculateReconciliationPrice (d * T) (if d * T = 0 then none else some (C / |d * T|))
      (e * V) (some P) = some px) : (e = d → px * (V - T) = V * P - C) ∧ (e = -d → px = P) := by
  have hone : d * d = 1 := by rcases hd with rfl | rfl <;> norm_num
  have hd0 : d ≠ 0 := fun h0 => by simp [h0] at hone
  have hTV := mul_nonneg hT hV.le
  obtain ⟨-, h0 | ⟨-, hP, hwhy⟩ | ⟨_, _, ha, hb, hside, hw⟩⟩ := reconciliationPrice_cases h
  · rcases he with rfl | rfl <;> simp [hd0, hV.ne'] at h0
  · cases hP
    refine ⟨fun hsame => ?_, fun _ => rfl⟩
    have hT0 : T = 0 := by
      rcases hwhy with hnone | hzero | hneg
      · by_contra hT0
        simp [hd0, hT0] at hnone
      · exact (mul_eq_zero.mp hzero).resolve_left hd0
      · rw [hsame, mul_mul_mul_comm, hone, one_mul] at hneg
        exact absurd hTV hneg.not_ge
    rw [hC hT0, hT0, sub_zero, sub_zero, mul_comm]
  · have hT0 : T ≠ 0 := fun hT0 => by simp [hT0] at ha
    rw [if_neg (mul_ne_zero hd0 hT0), abs_sided hd, abs_of_nonneg hT] at ha
    cases ha
    cases hb
    refine ⟨fun hsame => ?_, fun hflip => ?_⟩
    · rw [hsame, mul_assoc d T, mul_div_cancel₀ C hT0] at hw
      exact mul_left_cancel₀ hd0 (by linarith)
    · rw [hflip, neg_mul, mul_neg, mul_mul_mul_comm, hone, one_mul] at hside
      linarith

theorem syntheticOpening_eq {first : FillSnapshot}
    (h : syntheticOpening first qty value venue = some opening) :
    opening.direction * opening.qty = venue.signedQty - qty ∧ 0 < opening.qty ∧
      calculateReconciliationPrice qty (if qty = 0 then none else some (value / |qty|))
        venue.signedQty (some venue.avgPx) = some opening.px := by
  obtain ⟨px, hpx, h⟩ := bind_eq_some_iff.mp h
  have hqty : (if qty = 0 then venue.signedQty else venue.signedQty - qty) =
      venue.signedQty - qty := by
    split
    · rename_i h0
      rw [h0, sub_zero]
    · rfl
  simp only [hqty] at h
  split at h
  · rename_i hpos
    by_cases hs : 0 < venue.signedQty - qty
    · rw [if_pos hs] at h
      cases h
      refine ⟨?_, hpos, hpx⟩
      show (1 : ℚ) * |venue.signedQty - qty| = _
      rw [abs_of_pos hs, one_mul]
    · rw [if_neg hs] at h
      cases h
      refine ⟨?_, hpos, hpx⟩
      show (-1 : ℚ) * |venue.signedQty - qty| = _
      rw [abs_of_nonpos (not_lt.mp hs)]
      ring
  · nomatch h

/-- Fills on one side with the opening anywhere among them add up to the venue's quantity and, but
for the rounding of the price, to its value. -/
theorem simulate_opening_same (hd : d = 1 ∨ d = -1) (hfills : OneSided d (before ++ after))
    (hdir : placed.direction = d) (hqty : 0 ≤ placed.qty) :
    simulatePosition (before ++ placed :: after) =
      some (d * (total (before ++ after) + placed.qty),
        cost (before ++ after) + placed.qty * placed.px) := by
  have hall : OneSided d (before ++ placed :: after) := by
    intro fill hfill
    rcases mem_append.mp hfill with h | h
    · exact hfills fill (mem_append_left _ h)
    · rcases mem_cons.mp h with rfl | h
      · exact ⟨hdir, hqty⟩
      · exact hfills fill (mem_append_right _ h)
  rw [simulate_oneSided hd hall]
  simp only [total_append, total_cons, cost_append, cost_cons]
  congr 2 <;> ring

/-- The opening on the other side, larger than the fills: wherever it comes, it ends what was built
before it, and what comes after only reduces. -/
theorem simulate_opening_other (hd : d = 1 ∨ d = -1) (hfills : OneSided d (before ++ after))
    (hdir : placed.direction = -d) (hqty : total (before ++ after) < placed.qty) :
    simulatePosition (before ++ placed :: after) =
      some (-d * (placed.qty - total (before ++ after)),
        (placed.qty - total (before ++ after)) * placed.px) := by
  have hbefore : OneSided d before := fun f hf => hfills f (mem_append_left _ hf)
  have hafter : OneSided d after := fun f hf => hfills f (mem_append_right _ hf)
  have hb := hbefore.total_nonneg
  have ha := hafter.total_nonneg
  rw [total_append] at hqty
  have he : -d = 1 ∨ -d = -1 := by rcases hd with rfl | rfl <;> simp
  have hstep : simulateFill (-d * -total before, cost before) placed =
      some (-d * (-total before + placed.qty), (-total before + placed.qty) * placed.px) := by
    obtain hzero | hpos := hb.eq_or_lt
    · -- nothing was built before it
      rw [simulateFill_adds _ he hdir (by rw [← hzero, neg_zero]), ← hzero,
        hbefore.cost_eq_zero hzero.symm, neg_zero, zero_add, zero_add]
    · rw [simulateFill_against _ he hdir (neg_lt_zero.mpr hpos), if_neg (by linarith)]
  have hrun : after.foldlM simulateFill (d * (total before - placed.qty),
      (total before - placed.qty) * -placed.px) = _ := simulate_reduces hd hafter (by linarith)
  rw [neg_mul_neg] at hstep
  rw [simulatePosition, foldlM_append,
    show before.foldlM simulateFill (0, 0) = _ from simulate_oneSided hd hbefore]
  simp only [bind_eq_bind, bind_some, foldlM_cons, hstep, total_append]
  convert hrun using 3 <;> ring

/-- **An opening on the side of the venue's position completes fills on one side**, if its price's
rounding is within the tolerance. -/
theorem matches_opening (hopen : venue.Open) (hd : d = 1 ∨ d = -1)
    (hfills : OneSided d (before ++ after))
    (hsim : simulatePosition (before ++ after) = some (qty, value)) {first : FillSnapshot}
    (hopening : syntheticOpening first qty value venue = some opening)
    (hside : opening.direction = venue.direction) (hdir : placed.direction = opening.direction)
    (hqty : placed.qty = opening.qty) (hpx : |placed.px - opening.px| ≤ tolerance * venue.avgPx) :
    MatchesVenue (before ++ placed :: after) venue tolerance := by
  have hT := hfills.total_nonneg
  have hV := hopen.qty
  rw [simulate_oneSided hd hfills, some.injEq, Prod.mk.injEq] at hsim
  obtain ⟨rfl, rfl⟩ := hsim
  obtain ⟨hsum, hpos, hprice⟩ := syntheticOpening_eq hopening
  rw [VenuePositionSnapshot.signedQty_eq, hside] at hsum
  rw [VenuePositionSnapshot.signedQty_eq] at hprice
  have he : venue.direction = d ∨ venue.direction = -d := by
    rcases hopen.direction with h | h <;> rcases hd with rfl | rfl <;> simp [h]
  obtain ⟨hsame, hother⟩ := price_of_opening hd he hT hV hfills.cost_eq_zero hprice
  rcases he with he | he
  · -- the opening is on the side of the fills
    have hplaced : placed.qty = venue.qty - total (before ++ after) := by
      rw [he] at hsum
      rcases hd with rfl | rfl <;> linarith
    have hnonneg : 0 ≤ placed.qty := hqty ▸ hpos.le
    have hfull : total (before ++ after) + placed.qty = venue.qty := by linarith
    refine ⟨_, _, simulate_opening_same hd hfills (hdir.trans (hside.trans he)) hnonneg, ?_, ?_⟩
    · rw [VenuePositionSnapshot.signedQty_eq, he, hfull]
    have hvalue : cost (before ++ after) + placed.qty * placed.px =
        venue.qty * venue.avgPx + placed.qty * (placed.px - opening.px) := by
      have := hsame he
      rw [← hplaced] at this
      linarith
    rw [hfull, (abs_direction_mul hd hV.le).1, hvalue, add_div, mul_div_cancel_left₀ _ hV.ne',
      add_sub_cancel_left, abs_div, abs_mul, abs_of_nonneg hnonneg, abs_of_pos hV, div_le_iff₀ hV]
    calc placed.qty * |placed.px - opening.px|
        ≤ venue.qty * |placed.px - opening.px| :=
          mul_le_mul_of_nonneg_right (by linarith) (abs_nonneg _)
      _ ≤ venue.qty * (tolerance * venue.avgPx) := mul_le_mul_of_nonneg_left hpx hV.le
      _ = tolerance * venue.avgPx * venue.qty := by ring
  · -- the opening is on the other side
    have hplaced : placed.qty = venue.qty + total (before ++ after) := by
      rw [he] at hsum
      rcases hd with rfl | rfl <;> linarith
    have hleft : placed.qty - total (before ++ after) = venue.qty := by linarith
    refine ⟨_, _, simulate_opening_other hd hfills (hdir.trans (hside.trans he)) (by linarith),
      ?_, ?_⟩
    · rw [VenuePositionSnapshot.signedQty_eq, he, hleft]
    · rw [hleft, (abs_direction_mul hd hV.le).2, mul_div_cancel_left₀ _ hV.ne']
      rwa [hother he] at hpx

/-! ## The adjustment -/

section

variable {first : FillSnapshot} {rest : List FillSnapshot}

theorem adjust_opening (hopen : venue.Open) (hsingle : lifecycleBoundary (first :: rest) = none)
    (hsim : simulatePosition (first :: rest) = some (qty, value))
    (hmatches : ¬ MatchesVenue (first :: rest) venue tolerance)
    (hopening : syntheticOpening first qty value venue = some opening) :
    adjustFillsForPartialWindow (first :: rest) venue tolerance =
      some (.addSyntheticOpening opening) := by
  have hcheck := mt (matchesVenue_iff hopen hsim).mpr hmatches
  unfold adjustFillsForPartialWindow
  simp only [if_neg hopen.qty.ne', hsingle, hsim, hopening, bind_eq_bind, bind_some, if_neg hcheck]
  rfl

/-- Fills after the boundary are kept if they match, else replaced by the venue's position. -/
theorem adjust_current {boundary : UnixNanos} (hopen : venue.Open)
    (hcrossed : lifecycleBoundary (first :: rest) = some boundary)
    (hlater : (first :: rest).filter (fun fill => boundary < fill.tsEvent) = fills)
    (hsome : fills ≠ []) (hsim : (simulatePosition fills).isSome = true) :
    (MatchesVenue fills venue tolerance →
      adjustFillsForPartialWindow (first :: rest) venue tolerance =
        some (.filterToCurrentLifecycle boundary)) ∧
    (¬ MatchesVenue fills venue tolerance → ∃ synthetic venueOrderId,
      adjustFillsForPartialWindow (first :: rest) venue tolerance =
        some (.replaceCurrentLifecycle synthetic venueOrderId) ∧
      synthetic.direction = venue.direction ∧ synthetic.qty = venue.qty ∧
      synthetic.px = venue.avgPx) := by
  obtain ⟨⟨qty, _⟩, hsim⟩ := isSome_iff_exists.mp hsim
  obtain ⟨current, later, rfl⟩ := exists_cons_of_ne_nil hsome
  have hiff : MatchesVenue (current :: later) venue tolerance ↔ _ := matchesVenue_iff hopen hsim
  unfold adjustFillsForPartialWindow
  simp only [if_neg hopen.qty.ne', hcrossed, hlater, hsim, bind_eq_bind, bind_some]
  constructor
  · intro hmatches
    rw [if_pos (hiff.mp hmatches)]
    rfl
  intro hmatches
  rw [if_neg (mt hiff.mpr hmatches)]
  cases hside : venue.side with
  | flat => exact absurd hside hopen.side
  | long | short =>
    refine ⟨_, _, rfl, ?_, rfl, rfl⟩
    rw [VenuePositionSnapshot.direction, hside]
    rfl

end

theorem matches_replaced (hopen : venue.Open) (hdir : placed.direction = venue.direction)
    (hqty : placed.qty = venue.qty) (hpx : |placed.px - venue.avgPx| ≤ tolerance * venue.avgPx) :
    MatchesVenue [placed] venue tolerance := by
  have hone : OneSided venue.direction [placed] := by
    intro fill hfill
    rw [mem_singleton.mp hfill]
    exact ⟨hdir, hqty ▸ hopen.qty.le⟩
  refine ⟨_, _, simulate_oneSided hopen.direction hone, ?_, ?_⟩
  · simp [VenuePositionSnapshot.signedQty_eq, total, hqty]
  have hV := hopen.qty
  have habs : |venue.direction * venue.qty| = venue.qty := by
    rw [← VenuePositionSnapshot.signedQty_eq]
    exact hopen.abs_signedQty
  simp only [total, cost, map_cons, map_nil, sum_cons, sum_nil,
    add_zero, hqty, habs, mul_div_cancel_left₀ _ hV.ne']
  exact hpx

/-! ## The returned reports -/

variable {ids : SyntheticIds} {massStatus : ExecutionMassStatus} {instrument : ReconcileInstrument}

theorem or_of_sub {α : Type} {x y : Option α} (h : ∀ a, y = some a → x = some a) : y.or x = x := by
  cases hy : y with
  | none => rfl
  | some a => exact (h a hy).symm

theorem order_of_extracted {instrumentId : InstrumentId} {order : OrderStatusReport}
    (h : (extractInstrumentReports massStatus instrumentId).orders.get? venueOrderId =
      some order) : massStatus.orderReports.get? venueOrderId = some order :=
  get?_of_retain h

variable [Build]

/-- The returned fills by time, each with the side of its order: the returned report's, else the
mass status's. -/
def ReconciliationResult.snapshots (result : ReconciliationResult)
    (massStatus : ExecutionMassStatus) : List FillSnapshot :=
  chronological (fillSnapshots
    (fun venueOrderId => (result.orders.get? venueOrderId).or
      (massStatus.orderReports.get? venueOrderId)) result.fills)

def instrumentFills (massStatus : ExecutionMassStatus) (instrumentId : InstrumentId) :
    List FillSnapshot :=
  chronological (fillSnapshots massStatus.orderReports.get?
    (extractInstrumentReports massStatus instrumentId).fills)

theorem fillSnapshots_congr {orders orders' : VenueOrderId → Option OrderStatusReport}
    {fills : IndexMap VenueOrderId (List FillReport)}
    (h : ∀ venueOrderId ∈ fills.keys, orders venueOrderId = orders' venueOrderId) :
    fillSnapshots orders fills = fillSnapshots orders' fills := by
  refine flatMap_congr fun e he => ?_
  have heq := h e.1 (mem_map_of_mem he)
  refine map_congr_left fun fill _ => ?_
  unfold fillSnapshot
  rw [heq]

theorem fillSnapshots_insert (orders : VenueOrderId → Option OrderStatusReport)
    {fills : IndexMap VenueOrderId (List FillReport)} (h : venueOrderId ∉ fills.keys)
    (report : FillReport) :
    fillSnapshots orders (fills.insert venueOrderId [report]) =
      fillSnapshots orders fills ++ [fillSnapshot orders venueOrderId report] := by
  unfold fillSnapshots
  rw [entries_insert_of_not_mem _ h, flatMap_append]
  rfl

/-- Orders that are those of the mass status change no side. -/
theorem snapshots_eq (h : ∀ venueOrderId order, result.orders.get? venueOrderId = some order →
      massStatus.orderReports.get? venueOrderId = some order) :
    result.snapshots massStatus =
      chronological (fillSnapshots massStatus.orderReports.get? result.fills) := by
  unfold ReconciliationResult.snapshots
  rw [fillSnapshots_congr fun venueOrderId _ => or_of_sub (h venueOrderId)]

theorem snapshots_unchanged :
    (extractInstrumentReports massStatus instrument.id).snapshots massStatus =
      instrumentFills massStatus instrument.id :=
  snapshots_eq fun _ _ => order_of_extracted

/-- Dropping fills from the reports drops them from the snapshots. -/
theorem fillSnapshots_filter (orders : VenueOrderId → Option OrderStatusReport)
    (fills : IndexMap VenueOrderId (List FillReport)) (ts : UnixNanos) :
    fillSnapshots orders (fills.filterMap fun _ fills =>
        nonEmpty (fills.filter fun fill => ts < fill.tsEvent)) =
      (fillSnapshots orders fills).filter fun fill => ts < fill.tsEvent := by
  unfold fillSnapshots IndexMap.filterMap
  simp only
  induction fills.entries with
  | nil => rfl
  | cons e es ih =>
    have hhead : (e.2.map (fillSnapshot orders e.1)).filter (fun fill => ts < fill.tsEvent) =
        (e.2.filter fun fill => ts < fill.tsEvent).map (fillSnapshot orders e.1) := by
      rw [List.filter_map]
      rfl
    rw [filterMap_cons, flatMap_cons, filter_append, hhead, ← ih]
    cases e.2.filter fun fill => ts < fill.tsEvent <;> rfl

theorem snapshots_filtered {boundary : UnixNanos} (h : applyAdjustment ids massStatus instrument
      (extractInstrumentReports massStatus instrument.id) (.filterToCurrentLifecycle boundary) =
        .ok result) :
    result.snapshots massStatus =
      (instrumentFills massStatus instrument.id).filter fun fill => boundary < fill.tsEvent := by
  cases h
  rw [snapshots_eq fun _ _ h => order_of_extracted (get?_of_retain h)]
  unfold instrumentFills chronological
  rw [fillSnapshots_filter, filter_insertionSort]

/-- A quantity and a price that the instrument can express, the price within a tolerance. -/
def Expresses (instrument : ReconcileInstrument) (qty px slack : ℚ) : Prop :=
  ∃ qty' px', Quantity.ofDecimal qty instrument.sizePrecision = some qty' ∧
    qty'.toDecimal = qty ∧ Price.ofDecimal px instrument.pricePrecision = some px' ∧
    |px'.toDecimal - px| ≤ slack

/-- A synthetic fill is reported and simulated as made, but for the rounding of its price. -/
theorem synthetic_reports (ids : SyntheticIds) {fill : FillSnapshot}
    (h : Expresses instrument fill.qty fill.px slack) (accountId : AccountId)
    (venueOrderId : VenueOrderId) :
    ∃ order report,
      createSyntheticOrderReport fill accountId instrument venueOrderId = .ok order ∧
      createSyntheticFillReport ids fill accountId instrument venueOrderId = .ok report ∧
      ∀ orders : VenueOrderId → Option OrderStatusReport, orders venueOrderId = some order →
        (fillSnapshot orders venueOrderId report).direction = fill.direction ∧
          (fillSnapshot orders venueOrderId report).qty = fill.qty ∧
          |(fillSnapshot orders venueOrderId report).px - fill.px| ≤ slack := by
  obtain ⟨qty, px, hqty, hexact, hpx, hslack⟩ := h
  refine ⟨_, _, by rw [createSyntheticOrderReport, hqty],
    by rw [createSyntheticFillReport, hqty]; simp only [hpx]; rfl, fun orders horder => ?_⟩
  refine ⟨?_, hexact, hslack⟩
  unfold fillSnapshot
  rw [horder]
  rfl

/-- A fill under a new id, with an order of its own, joins the instrument's fills and changes none.
-/
theorem snapshots_inserted (instrument : ReconcileInstrument) (order : OrderStatusReport)
    (report : FillReport) (hfresh : venueOrderId ∉ massStatus.fillReports.keys) :
    ∃ orders before after, orders venueOrderId = some order ∧
      instrumentFills massStatus instrument.id = before ++ after ∧
      ReconciliationResult.snapshots
          ⟨(extractInstrumentReports massStatus instrument.id).orders.insert venueOrderId order,
            (extractInstrumentReports massStatus instrument.id).fills.insert venueOrderId [report]⟩
          massStatus = before ++ fillSnapshot orders venueOrderId report :: after := by
  have hkey : venueOrderId ∉ (extractInstrumentReports massStatus instrument.id).fills.keys :=
    fun h => hfresh (mem_keys_of_filterMap h)
  unfold ReconciliationResult.snapshots chronological
  rw [fillSnapshots_insert _ hkey, fillSnapshots_congr fun id hid => ?_]
  · obtain ⟨before, after, hfills, hplacing⟩ := insertionSort_append_singleton
      (r := fun a b : FillSnapshot => a.tsEvent ≤ b.tsEvent) (fillSnapshot _ venueOrderId report)
      (fillSnapshots massStatus.orderReports.get?
        (extractInstrumentReports massStatus instrument.id).fills)
    exact ⟨_, before, after, by simp, hfills, hplacing⟩
  · -- the fills under the other ids keep their sides
    have hne : id ≠ venueOrderId := fun heq => hkey (heq ▸ hid)
    rw [get?_insert, if_neg hne]
    exact or_of_sub fun _ => order_of_extracted

/-- The reports with an opening under a new id. -/
theorem applyAdjustment_opening (hexpress : Expresses instrument opening.qty opening.px slack)
    (hfresh : ids.venueOrderId opening instrument.id ∉ massStatus.fillReports.keys) :
    ∃ result placed before after,
      applyAdjustment ids massStatus instrument
        (extractInstrumentReports massStatus instrument.id) (.addSyntheticOpening opening) =
          .ok result ∧
      instrumentFills massStatus instrument.id = before ++ after ∧
      result.snapshots massStatus = before ++ placed :: after ∧
      placed.direction = opening.direction ∧ placed.qty = opening.qty ∧
      |placed.px - opening.px| ≤ slack := by
  obtain ⟨order, report, horder, hreport, hplaced⟩ := synthetic_reports ids hexpress
    massStatus.accountId (ids.venueOrderId opening instrument.id)
  obtain ⟨orders, before, after, hown, hfills, hsnapshots⟩ :=
    snapshots_inserted instrument order report hfresh
  have hnone : (extractInstrumentReports massStatus instrument.id).fills.get?
      (ids.venueOrderId opening instrument.id) = none :=
    get?_eq_none_iff.mpr fun h => hfresh (mem_keys_of_filterMap h)
  refine ⟨_, _, before, after, ?_, hfills, hsnapshots, hplaced orders hown⟩
  rw [applyAdjustment, horder, hreport, hnone]
  rfl

theorem applyAdjustment_replaced {synthetic : FillSnapshot}
    (hexpress : Expresses instrument synthetic.qty synthetic.px slack) :
    ∃ result placed,
      applyAdjustment ids massStatus instrument
        (extractInstrumentReports massStatus instrument.id)
          (.replaceCurrentLifecycle synthetic venueOrderId) = .ok result ∧
      result.snapshots massStatus = [placed] ∧ placed.direction = synthetic.direction ∧
      placed.qty = synthetic.qty ∧ |placed.px - synthetic.px| ≤ slack := by
  obtain ⟨order, _, horder, hreport, hplaced⟩ := synthetic_reports ids hexpress massStatus.accountId
    venueOrderId
  refine ⟨_, _, by rw [applyAdjustment, horder, hreport]; rfl, ?_, hplaced
    (fun venueOrderId' => ((empty.insert venueOrderId order).get? venueOrderId').or
      (massStatus.orderReports.get? venueOrderId')) (by simp)⟩
  rfl

/-! ## Windows -/

theorem toDecimal_nonneg (q : Quantity) : 0 ≤ q.toDecimal := by
  unfold Quantity.toDecimal
  positivity

theorem instrumentFills_nonneg (h : fill ∈ instrumentFills massStatus instrument.id) :
    0 ≤ fill.qty := by
  obtain ⟨e, -, he⟩ := mem_flatMap.mp ((mem_insertionSort _).mp h)
  obtain ⟨_, -, rfl⟩ := mem_map.mp he
  exact toDecimal_nonneg _

/-- The windows that reconcile, by what the fills of the instrument are. -/
inductive Window (ids : SyntheticIds) (massStatus : ExecutionMassStatus)
    (instrument : ReconcileInstrument) (venue : VenuePositionSnapshot) (tolerance : ℚ) : Prop
  /-- The fills cross zero nowhere and match the venue. -/
  | complete (single : lifecycleBoundary (instrumentFills massStatus instrument.id) = none)
      (matching : MatchesVenue (instrumentFills massStatus instrument.id) venue tolerance)
  /-- There are fills after an earlier lifecycle. If they do not match the venue, the instrument can
  express its position. -/
  | current {boundary : UnixNanos} {fills : List FillSnapshot}
      (crossed : lifecycleBoundary (instrumentFills massStatus instrument.id) = some boundary)
      (later : (instrumentFills massStatus instrument.id).filter
        (fun fill => boundary < fill.tsEvent) = fills)
      (some_later : fills ≠ []) (simulates : (simulatePosition fills).isSome = true)
      (expressed : ¬ MatchesVenue fills venue tolerance →
        Expresses instrument venue.qty venue.avgPx (tolerance * venue.avgPx))
  /-- The fills are on one side and never cross zero; the opening for them is on the side of the
  venue's position, the instrument can express it, and its id is new. -/
  | opening {first opening : FillSnapshot} {rest : List FillSnapshot} {qty value : ℚ}
      (single : lifecycleBoundary (instrumentFills massStatus instrument.id) = none)
      (fills : instrumentFills massStatus instrument.id = first :: rest)
      (sided : first.side ≠ .noOrderSide) (oneSided : ∀ fill ∈ rest, fill.side = first.side)
      (simulates : simulatePosition (first :: rest) = some (qty, value))
      (opens : syntheticOpening first qty value venue = some opening)
      (side : opening.direction = venue.direction)
      (expressed : Expresses instrument opening.qty opening.px (tolerance * venue.avgPx))
      (fresh : ids.venueOrderId opening instrument.id ∉ massStatus.fillReports.keys)

/-- What is asked of the returned fills. -/
def Reconciles (ids : SyntheticIds) (massStatus : ExecutionMassStatus)
    (instrument : ReconcileInstrument) (tolerance : Option ℚ) (venue : VenuePositionSnapshot) :
    Prop :=
  ∃ result, processMassStatusForReconciliation ids massStatus instrument tolerance =
      some (.ok result) ∧
    MatchesVenue (result.snapshots massStatus) venue (tolerance.getD defaultTolerance)

section

variable {report : PositionStatusReport} {toleranceOption : Option ℚ} {first : FillSnapshot}
  {rest : List FillSnapshot}
  (hreport : (massStatus.positionReports.get? instrument.id).bind head? = some report)
  (hfills : instrumentFills massStatus instrument.id = first :: rest)

include hreport hfills

/-- What is adjusted as decided and then matches is reconciled. -/
theorem reconciles_of_adjustment {adjustment : FillAdjustmentResult}
    (hadjust : adjustFillsForPartialWindow (first :: rest) (positionReportToSnapshot report)
      (toleranceOption.getD defaultTolerance) = some adjustment)
    (happly : applyAdjustment ids massStatus instrument
      (extractInstrumentReports massStatus instrument.id) adjustment = .ok result)
    (hmatches : MatchesVenue (result.snapshots massStatus) (positionReportToSnapshot report)
      (toleranceOption.getD defaultTolerance)) :
    Reconciles ids massStatus instrument toleranceOption (positionReportToSnapshot report) := by
  refine ⟨result, ?_, hmatches⟩
  unfold processMassStatusForReconciliation
  simp only [hreport]
  unfold instrumentFills at hfills
  rw [hfills]
  show (adjustFillsForPartialWindow (first :: rest) _ _).map _ = _
  rw [hadjust, map_some, happly]

/-- Fills that cross zero nowhere and match are returned as they are. -/
theorem reconciles_of_matching (hopen : (positionReportToSnapshot report).Open)
    (hsingle : lifecycleBoundary (first :: rest) = none)
    (hmatches : MatchesVenue (first :: rest) (positionReportToSnapshot report)
      (toleranceOption.getD defaultTolerance)) :
    Reconciles ids massStatus instrument toleranceOption (positionReportToSnapshot report) := by
  obtain ⟨qty, _, hsim, -⟩ := id hmatches
  refine reconciles_of_adjustment hreport hfills (?_ : _ = some .noAdjustment) rfl ?_
  · unfold adjustFillsForPartialWindow
    simp only [if_neg hopen.qty.ne', hsingle, hsim, bind_eq_bind, bind_some,
      (matchesVenue_iff hopen hsim).mp hmatches, if_true]
    rfl
  · rw [snapshots_unchanged, hfills]
    exact hmatches

end

/-- **The returned fills simulate to the venue's position** in these windows; no fills, none
returned. -/
theorem reconciles_of_window {report : PositionStatusReport}
    (hreport : (massStatus.positionReports.get? instrument.id).bind List.head? = some report)
    (hopen : (positionReportToSnapshot report).Open) (tolerance : Option ℚ) :
    (Window ids massStatus instrument (positionReportToSnapshot report)
        (tolerance.getD defaultTolerance) →
      Reconciles ids massStatus instrument tolerance (positionReportToSnapshot report)) ∧
    (instrumentFills massStatus instrument.id = [] →
      ∃ result, processMassStatusForReconciliation ids massStatus instrument tolerance =
        some (.ok result) ∧ result.snapshots massStatus = []) := by
  constructor
  · intro hwindow
    cases hwindow with
    | complete single matching =>
      cases hfills : instrumentFills massStatus instrument.id with
      | nil =>
        rw [hfills] at matching
        obtain ⟨qty, value, hsim, hqty, -⟩ := matching
        cases hsim
        exact absurd hqty.symm hopen.signedQty_ne
      | cons first rest =>
        rw [hfills] at single matching
        exact reconciles_of_matching hreport hfills hopen single matching
    | @current boundary fills crossed later some_later simulates expressed =>
      cases hfills : instrumentFills massStatus instrument.id with
      | nil =>
        rw [hfills] at later
        exact absurd later.symm some_later
      | cons first rest =>
        have hlater := later
        rw [hfills] at crossed later
        obtain ⟨hkept, hreplaced⟩ := adjust_current hopen crossed later some_later simulates
        by_cases hmatches : MatchesVenue fills (positionReportToSnapshot report)
            (tolerance.getD defaultTolerance)
        · obtain ⟨result, happly⟩ : ∃ result, applyAdjustment ids massStatus instrument
              (extractInstrumentReports massStatus instrument.id)
              (.filterToCurrentLifecycle boundary) = .ok result := ⟨_, rfl⟩
          refine reconciles_of_adjustment hreport hfills (hkept hmatches) happly ?_
          rw [snapshots_filtered happly, hlater]
          exact hmatches
        · obtain ⟨_, _, hadjust, hdir, hqty, hpx⟩ := hreplaced hmatches
          have hexpress := expressed hmatches
          rw [← hqty, ← hpx] at hexpress
          obtain ⟨result, placed, happly, hsnapshots, hdir', hqty', hpx'⟩ :=
            applyAdjustment_replaced hexpress
          refine reconciles_of_adjustment hreport hfills hadjust happly ?_
          rw [hsnapshots]
          rw [hpx] at hpx'
          exact matches_replaced hopen (hdir'.trans hdir) (hqty'.trans hqty) hpx'
    | @opening first opening rest qty value single fills sided oneSided simulates opens side
        expressed fresh =>
      rw [fills] at single
      by_cases hmatches : MatchesVenue (first :: rest) (positionReportToSnapshot report)
          (tolerance.getD defaultTolerance)
      · exact reconciles_of_matching hreport fills hopen single hmatches
      obtain ⟨result, placed, before, after, happly, hfills, hsnapshots, hdir, hqty, hpx⟩ :=
        applyAdjustment_opening expressed fresh
      refine reconciles_of_adjustment hreport fills
        (adjust_opening hopen single simulates hmatches opens) happly ?_
      have hone : OneSided first.direction (before ++ after) := by
        intro fill hfill
        rw [← hfills] at hfill
        refine ⟨?_, instrumentFills_nonneg hfill⟩
        rw [fills] at hfill
        rcases mem_cons.mp hfill with rfl | hmem
        · rfl
        · rw [FillSnapshot.direction, oneSided fill hmem, FillSnapshot.direction]
      rw [← fills, hfills] at simulates
      rw [hsnapshots]
      exact matches_opening hopen (direction_of_side sided) hone simulates opens side hdir hqty hpx
  · intro hnil
    refine ⟨extractInstrumentReports massStatus instrument.id, ?_, ?_⟩
    · unfold processMassStatusForReconciliation
      simp only [hreport]
      unfold instrumentFills at hnil
      rw [hnil]
      rfl
    · rw [snapshots_unchanged, hnil]

end

/-! ## Samples -/

namespace Sample

def windowInstrument : ReconcileInstrument := ⟨⟨"ETHUSDT.BINANCE"⟩, 2, 0⟩

def syntheticIds : SyntheticIds where
  venueOrderId _ instrumentId := ⟨"S-" ++ instrumentId.value⟩
  tradeId _ := ⟨"S"⟩

/-- A fill of whole units at a whole price, in a build with nine decimals. -/
def fillReport (venueOrderId : String) (orderSide : OrderSide) (qty px : Nat) (ts : UnixNanos) :
    FillReport :=
  { accountId := ⟨"A-1"⟩
    instrumentId := ⟨"ETHUSDT.BINANCE"⟩
    venueOrderId := ⟨venueOrderId⟩
    tradeId := ⟨"T"⟩
    orderSide
    lastQty := units qty
    lastPx := ⟨px * 10 ^ 9, 2⟩
    liquiditySide := .taker
    tsEvent := ts }

/-- Fills of different orders, without order reports, and the reported position. -/
def massStatus (fills : List FillReport) (position : PositionStatusReport) :
    ExecutionMassStatus where
  accountId := ⟨"A-1"⟩
  orderReports := IndexMap.empty
  fillReports := fills.foldl (fun m fill => m.insert fill.venueOrderId [fill]) IndexMap.empty
  positionReports := IndexMap.empty.insert ⟨"ETHUSDT.BINANCE"⟩ [position]

def longFifteen : PositionStatusReport := ⟨.long, units 15, some 110⟩

def longTen : PositionStatusReport := ⟨.long, units 10, some 120⟩

/-- Ten units bought at 100 and five sold at 110. -/
def reducedStatus : ExecutionMassStatus :=
  massStatus [fillReport "V-1" .buy 10 100 5, fillReport "V-2" .sell 5 110 6] longTen

end Sample

attribute [local instance] Build.standard

open Sample

/-- Ten units bought at 100, of a long position of fifteen at 110: the opening is five at 130. -/
theorem reconciles_of_window_opening :
    Reconciles syntheticIds
      (Sample.massStatus [fillReport "V-1" .buy 10 100 5] longFifteen)
      windowInstrument none (positionReportToSnapshot longFifteen) := by
  have hopen : (positionReportToSnapshot longFifteen).Open :=
    ⟨nofun, by decide +kernel, by decide +kernel⟩
  have hfills : instrumentFills
      (Sample.massStatus [fillReport "V-1" .buy 10 100 5] longFifteen)
      windowInstrument.id = [⟨⟨"V-1"⟩, .buy, 10, 100, 5⟩] := by
    decide +kernel
  have hsim : simulatePosition [⟨⟨"V-1"⟩, .buy, 10, 100, 5⟩] = some (10, 1000) := by
    decide +kernel
  have hopens : syntheticOpening ⟨⟨"V-1"⟩, .buy, 10, 100, 5⟩ 10 1000
      (positionReportToSnapshot longFifteen) = some ⟨⟨"V-1"⟩, .buy, 5, 130, 4⟩ := by
    decide +kernel
  refine (reconciles_of_window rfl hopen none).1 (.opening ?_ hfills nofun nofun hsim hopens
    (by decide +kernel) ?_ (by decide +kernel))
  · rw [hfills]
    decide +kernel
  · exact ⟨units 5, ⟨130 * 10 ^ 9, 2⟩, by decide +kernel, by decide +kernel,
      by decide +kernel, by decide +kernel⟩

/-- A window without fills is returned empty. The opening for the reduced position is five at 140,
and with it in front the position comes to ten at 113.33. -/
theorem not_reconciles_empty_nor_reduced :
    (positionReportToSnapshot longTen).Open ∧
      ¬ Reconciles syntheticIds (Sample.massStatus [] longTen)
        windowInstrument none (positionReportToSnapshot longTen) ∧
      ¬ Reconciles syntheticIds reducedStatus windowInstrument none
        (positionReportToSnapshot longTen) := by
  refine ⟨⟨nofun, by decide +kernel, by decide +kernel⟩, ?_, ?_⟩
  · rintro ⟨result, hprocess, qty, value, hsim, hqty, -⟩
    have hcomputed : (processMassStatusForReconciliation syntheticIds
        (Sample.massStatus [] longTen) windowInstrument none).bind
        (fun out => out.toOption.bind fun result => simulatePosition
          (result.snapshots (Sample.massStatus [] longTen))) = some (0, 0) := by
      decide +kernel
    rw [hprocess] at hcomputed
    cases hsim.symm.trans hcomputed
    revert hqty
    decide +kernel
  · rintro ⟨result, hprocess, qty, value, hsim, hqty, hpx⟩
    have hcomputed : (processMassStatusForReconciliation syntheticIds reducedStatus
        windowInstrument none).bind (fun out => out.toOption.bind fun result =>
          simulatePosition (result.snapshots reducedStatus)) = some (10, 3400 / 3) := by
      decide +kernel
    rw [hprocess] at hcomputed
    cases hsim.symm.trans hcomputed
    revert hpx
    decide +kernel

end Nautilus
