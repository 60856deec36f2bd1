import Nautilus.Reconcile.Positions

/-!
# Average prices

`simulate_position` keeps a quantity and a value, whose quotient is the average price. Fills keep it
among the prices paid since the position was last flat; one priced by
`calculate_reconciliation_price` takes it to its target unless it reduces the position.
-/

namespace Nautilus

open Option

variable {prices : List ℚ}

/-- The signed quantity after a fill. -/
def FillSnapshot.next (fill : FillSnapshot) (qty : ℚ) : ℚ := qty + fill.direction * fill.qty

/-! ## One fill

Seen from the side `d` of the fill, the position is `d * s`: it is added to, or it is on the other
side and is taken from or crossed. -/

section

variable {fill : FillSnapshot} {d s : ℚ} (value : ℚ)

theorem direction_of_side (h : fill.side ≠ .noOrderSide) :
    fill.direction = 1 ∨ fill.direction = -1 := by
  unfold FillSnapshot.direction
  cases hs : fill.side <;> simp_all

theorem abs_sided (hd : d = 1 ∨ d = -1) (x : ℚ) : |d * x| = |x| := by
  rcases hd with rfl | rfl <;> simp

variable (hd : d = 1 ∨ d = -1) (hdir : fill.direction = d)
include hd hdir

theorem adds_iff : (0 ≤ d * s ∧ 0 < fill.direction) ∨ (d * s ≤ 0 ∧ fill.direction < 0) ↔ 0 ≤ s := by
  rcases hd with rfl | rfl <;> simp [hdir]

theorem simulateFill_adds (hs : 0 ≤ s) :
    simulateFill (d * s, value) fill = some (d * (s + fill.qty), value + fill.qty * fill.px) := by
  rw [mul_add, ← hdir]
  exact if_pos (hdir ▸ (adds_iff hd hdir).mpr hs)

theorem simulateFill_against (hs : s < 0) :
    simulateFill (d * s, value) fill = some (d * (s + fill.qty),
      if fill.qty ≤ -s then value * ((s + fill.qty) / s) else (s + fill.qty) * fill.px) := by
  have habs : |d * s| = -s := (abs_sided hd s).trans (abs_of_neg hs)
  have hne : d * s ≠ 0 := abs_pos.mp (habs ▸ neg_pos.mpr hs)
  have hrun : simulateFill (d * s, value) fill = if fill.qty ≤ |d * s| then _ else _ :=
    if_neg (mt (adds_iff hd hdir).mp hs.not_ge)
  rw [hrun, habs, if_neg hne, hdir]
  split
  · rw [mul_add, add_div, div_self hs.ne, div_neg, sub_neg_eq_add]
  · rw [sub_neg_eq_add, add_comm s]

end

/-- What a fill does, as the position has it. -/
theorem simulateFill_cases {fill : FillSnapshot} (hside : fill.side ≠ .noOrderSide)
    (hqty : 0 < fill.qty) (qty value : ℚ) :
    (|fill.next qty| = |qty| + fill.qty ∧ 0 ≤ qty * fill.next qty ∧
      simulateFill (qty, value) fill = some (fill.next qty, value + fill.qty * fill.px)) ∨
    (qty ≠ 0 ∧ |fill.next qty| = |qty| - fill.qty ∧ 0 ≤ qty * fill.next qty ∧
      simulateFill (qty, value) fill = some (fill.next qty, value * (|fill.next qty| / |qty|))) ∨
    (qty * fill.next qty < 0 ∧
      simulateFill (qty, value) fill = some (fill.next qty, |fill.next qty| * fill.px)) := by
  have hd := direction_of_side hside
  have hsq : fill.direction * fill.direction = 1 := by rcases hd with h | h <;> simp [h]
  obtain ⟨s, rfl⟩ : ∃ s, qty = fill.direction * s :=
    ⟨fill.direction * qty, by rw [← mul_assoc, hsq, one_mul]⟩
  have hsame : fill.direction * s * (fill.direction * (s + fill.qty)) = s * (s + fill.qty) := by
    rw [mul_mul_mul_comm, hsq, one_mul]
  rw [FillSnapshot.next, ← mul_add, hsame, abs_sided hd, abs_sided hd]
  by_cases hs : 0 ≤ s
  · refine .inl ⟨?_, mul_nonneg hs (by linarith), simulateFill_adds value hd rfl hs⟩
    rw [abs_of_nonneg hs, abs_of_nonneg (by linarith)]
  rw [not_le] at hs
  rw [abs_of_neg hs]
  by_cases hpart : fill.qty ≤ -s
  · refine .inr (.inl ⟨?_, ?_, mul_nonneg_of_nonpos_of_nonpos hs.le (by linarith), ?_⟩)
    · exact mul_ne_zero (fun h => by simp [h] at hsq) hs.ne
    · rw [abs_of_nonpos (by linarith), neg_add']
    · rw [abs_of_nonpos (by linarith), neg_div_neg_eq]
      rw [simulateFill_against value hd rfl hs, if_pos hpart]
  · rw [not_le] at hpart
    refine .inr (.inr ⟨mul_neg_of_neg_of_pos hs (by linarith), ?_⟩)
    rw [abs_of_pos (by linarith)]
    rw [simulateFill_against value hd rfl hs, if_neg hpart.not_ge]

/-! ## A history of fills -/

def pricesAfter (qty : ℚ) (prices : List ℚ) (fill : FillSnapshot) : List ℚ :=
  if fill.next qty = 0 then []
  else if qty * fill.next qty < 0 then [fill.px]
  else fill.px :: prices

/-- The prices since the position was last flat or crossed zero, the crossing fill included. -/
def pricesSinceFlat (qty : ℚ) (prices : List ℚ) : List FillSnapshot → List ℚ
  | [] => prices
  | fill :: fills => pricesSinceFlat (fill.next qty) (pricesAfter qty prices fill) fills

/-- The value of a position lies between the smallest and the largest of the prices. -/
structure Averaged (prices : List ℚ) (qty value : ℚ) : Prop where
  flat : qty = 0 → value = 0
  between : qty ≠ 0 → ∃ lo ∈ prices, ∃ hi ∈ prices, 0 < lo ∧ lo * |qty| ≤ value ∧ value ≤ hi * |qty|

/-- One price bounds on both sides. -/
theorem Averaged.single {qty px : ℚ} (hpx : 0 < px) (hmem : px ∈ prices) :
    Averaged prices qty (|qty| * px) where
  flat h := by rw [h, abs_zero, zero_mul]
  between _ := ⟨px, hmem, px, hmem, hpx, (mul_comm _ _).le, (mul_comm _ _).le⟩

theorem Averaged.fill {fill : FillSnapshot} (hside : fill.side ≠ .noOrderSide)
    (hqty : 0 < fill.qty) (hpx : 0 < fill.px) {qty value : ℚ} (h : Averaged prices qty value) :
    ∃ value', simulateFill (qty, value) fill = some (fill.next qty, value') ∧
      Averaged (pricesAfter qty prices fill) (fill.next qty) value' := by
  obtain ⟨hadd, hsame, hrun⟩ | ⟨hne, -, hsame, hrun⟩ | ⟨hcross, hrun⟩ :=
    simulateFill_cases hside hqty qty value
  · have hnext : fill.next qty ≠ 0 := abs_pos.mp (by rw [hadd]; positivity)
    refine ⟨_, hrun, ?_⟩
    rw [pricesAfter, if_neg hnext, if_neg hsame.not_gt]
    by_cases hflat : qty = 0
    · rw [h.flat hflat, zero_add, show fill.qty = |fill.next qty| by rw [hadd, hflat]; simp]
      exact .single hpx List.mem_cons_self
    obtain ⟨lo, hlo, hi, hhi, hpos, habove, hbelow⟩ := h.between hflat
    refine ⟨fun h => absurd h hnext, fun _ => ⟨min fill.px lo, ?_, max fill.px hi, ?_,
      lt_min hpx hpos, ?_, ?_⟩⟩
    · rcases min_choice fill.px lo with h | h <;> simp [h, hlo]
    · rcases max_choice fill.px hi with h | h <;> simp [h, hhi]
    · rw [hadd, mul_add]
      nlinarith [min_le_left fill.px lo, min_le_right fill.px lo, abs_nonneg qty]
    · rw [hadd, mul_add]
      nlinarith [le_max_left fill.px hi, le_max_right fill.px hi, abs_nonneg qty]
  · refine ⟨_, hrun, ?_⟩
    obtain ⟨lo, hlo, hi, hhi, hpos, habove, hbelow⟩ := h.between hne
    have hscale (x : ℚ) : x * |fill.next qty| = x * |qty| * (|fill.next qty| / |qty|) := by
      field_simp
    refine ⟨fun h => by rw [h]; simp, fun hnext => ?_⟩
    rw [pricesAfter, if_neg hnext, if_neg hsame.not_gt]
    refine ⟨lo, List.mem_cons_of_mem _ hlo, hi, List.mem_cons_of_mem _ hhi, hpos, ?_, ?_⟩ <;>
      rw [hscale] <;> gcongr
  · have hnext : fill.next qty ≠ 0 := fun h => by simp [h] at hcross
    refine ⟨_, hrun, ?_⟩
    rw [pricesAfter, if_neg hnext, if_pos hcross]
    exact .single hpx List.mem_cons_self

theorem Averaged.run {fills : List FillSnapshot} {qty value : ℚ}
    (hfills : ∀ fill ∈ fills, fill.side ≠ .noOrderSide ∧ 0 < fill.qty ∧ 0 < fill.px)
    (h : Averaged prices qty value) :
    ∃ value', fills.foldlM simulateFill (qty, value) =
        some (qty + (fills.map fun fill => fill.direction * fill.qty).sum, value') ∧
      Averaged (pricesSinceFlat qty prices fills)
        (qty + (fills.map fun fill => fill.direction * fill.qty).sum) value' := by
  induction fills generalizing prices qty value with
  | nil => exact ⟨value, by simp, by simpa [pricesSinceFlat] using h⟩
  | cons fill fills ih =>
    obtain ⟨⟨hside, hqty, hpx⟩, hrest⟩ := List.forall_mem_cons.mp hfills
    obtain ⟨_, hrun, hstep⟩ := h.fill hside hqty hpx
    obtain ⟨value', hruns, hlast⟩ := ih hrest hstep
    rw [List.map_cons, List.sum_cons, ← add_assoc]
    exact ⟨value', by rw [List.foldlM_cons, hrun]; exact hruns, hlast⟩

/-- **The quantity is the signed sum of the fills, and the average price is one paid since the
position was last flat**, or between two such prices. -/
theorem simulatePosition_averages (fills : List FillSnapshot)
    (hfills : ∀ fill ∈ fills, fill.side ≠ .noOrderSide ∧ 0 < fill.qty ∧ 0 < fill.px) :
    ∃ qty value, simulatePosition fills = some (qty, value) ∧
      qty = (fills.map fun fill => fill.direction * fill.qty).sum ∧ (value = 0 ↔ qty = 0) ∧
      0 ≤ value ∧ (qty ≠ 0 → ∃ lo ∈ pricesSinceFlat 0 [] fills,
        ∃ hi ∈ pricesSinceFlat 0 [] fills, lo ≤ value / |qty| ∧ value / |qty| ≤ hi) := by
  obtain ⟨value, hrun, h⟩ := Averaged.run hfills
    (⟨fun _ => rfl, fun h => absurd rfl h⟩ : Averaged [] 0 0)
  rw [zero_add] at hrun h
  refine ⟨_, value, hrun, rfl, ?_⟩
  by_cases hflat : (fills.map fun fill => fill.direction * fill.qty).sum = 0
  · have hzero := h.flat hflat
    exact ⟨iff_of_true hzero hflat, hzero.ge, fun hne => absurd hflat hne⟩
  obtain ⟨lo, hlo, hi, hhi, hpos, habove, hbelow⟩ := h.between hflat
  have hsize := abs_pos.mpr hflat
  have hvalue := (mul_pos hpos hsize).trans_le habove
  exact ⟨iff_of_false hvalue.ne' hflat, hvalue.le, fun _ =>
    ⟨lo, hlo, hi, hhi, (le_div_iff₀ hsize).mpr habove, (div_le_iff₀ hsize).mpr hbelow⟩⟩

/-- Bought at 100 and 110, sold in part at 90. -/
def Sample.reducedFills : List FillSnapshot :=
  [⟨⟨"V-1"⟩, .buy, 1, 100, 1⟩, ⟨⟨"V-2"⟩, .buy, 1, 110, 2⟩, ⟨⟨"V-3"⟩, .sell, 1, 90, 3⟩]

open Sample

theorem simulatePosition_averages_reduced :
    pricesSinceFlat 0 [] reducedFills = [90, 110, 100] ∧
      ∃ qty value, simulatePosition reducedFills = some (qty, value) ∧
        (value = 0 ↔ qty = 0) := by
  obtain ⟨qty, value, hrun, -, hzero, -⟩ := simulatePosition_averages reducedFills
    (by decide +kernel)
  exact ⟨by decide +kernel, qty, value, hrun, hzero⟩

/-! ## The reconciling fill -/

/-- One fill of the difference of the quantities. -/
def reconcilingFill (fill : FillSnapshot) (currentQty targetQty px : ℚ) : FillSnapshot :=
  { fill with
    side := if currentQty < targetQty then .buy else .sell
    qty := |targetQty - currentQty|
    px }

theorem next_reconcilingFill (fill : FillSnapshot) (currentQty targetQty px : ℚ) :
    (reconcilingFill fill currentQty targetQty px).next currentQty = targetQty := by
  unfold FillSnapshot.next FillSnapshot.direction reconcilingFill
  by_cases h : currentQty < targetQty
  · simp [h, abs_of_pos (sub_pos.mpr h)]
  · simp [h, abs_of_nonpos (sub_nonpos.mpr (not_lt.mp h))]

variable {currentQty targetQty px : ℚ} {currentAvgPx targetAvgPx : Option ℚ}

theorem sides_ne_iff (hq : currentQty ≠ 0) (ht : targetQty ≠ 0) :
    (0 < currentQty) ≠ (0 < targetQty) ↔ currentQty * targetQty < 0 := by
  rw [mul_neg_iff, ne_eq, eq_iff_iff]
  grind

/-- Where a price comes from: the close, the target, or the weighted average. -/
theorem reconciliationPrice_cases
    (h : calculateReconciliationPrice currentQty currentAvgPx targetQty targetAvgPx = some px) :
    targetQty - currentQty ≠ 0 ∧ (targetQty = 0 ∨
      (px ≠ 0 ∧ targetAvgPx = some px ∧
        (currentAvgPx = none ∨ currentQty = 0 ∨ currentQty * targetQty < 0)) ∨
      ∃ currentPx targetPx, currentAvgPx = some currentPx ∧ targetAvgPx = some targetPx ∧
        0 < currentQty * targetQty ∧
        px * (targetQty - currentQty) = targetQty * targetPx - currentQty * currentPx) := by
  unfold calculateReconciliationPrice at h
  simp only at h
  split at h
  · nomatch h
  rename_i hdiff
  refine ⟨hdiff, ?_⟩
  split at h
  · exact .inl ‹_›
  rename_i hopen
  split at h
  · nomatch h
  rename_i targetPx
  split at h
  · nomatch h
  rename_i hpx
  split at h
  · cases h
    exact .inr (.inl ⟨hpx, rfl, .inl rfl⟩)
  rename_i currentPx
  split at h
  · cases h
    exact .inr (.inl ⟨hpx, rfl, .inr (.inl ‹_›)⟩)
  rename_i hheld
  split at h
  · rename_i hflip
    cases h
    exact .inr (.inl ⟨hpx, rfl, .inr (.inr ((sides_ne_iff hheld hopen).mp hflip.1))⟩)
  rename_i hstay
  split at h
  · cases h
    have hsame : ¬ currentQty * targetQty < 0 := fun h =>
      hstay ⟨(sides_ne_iff hheld hopen).mpr h, hopen⟩
    exact .inr (.inr ⟨currentPx, targetPx, rfl, rfl,
      (not_lt.mp hsame).lt_of_ne' (mul_ne_zero hheld hopen), div_mul_cancel₀ _ hdiff⟩)
  · nomatch h

/-- **The reconciling fill reaches the target unless the position is reduced on its side to another
average**, or has no average to start from. -/
theorem reconciliationPrice_reaches_iff (fill : FillSnapshot)
    (h : calculateReconciliationPrice currentQty currentAvgPx targetQty targetAvgPx = some px) :
    (∃ value, simulateFill (currentQty, |currentQty| * currentAvgPx.getD 0)
        (reconcilingFill fill currentQty targetQty px) = some (targetQty, value) ∧
      (targetQty ≠ 0 → targetAvgPx = some (value / |targetQty|))) ↔
    (0 < currentQty * targetQty → currentAvgPx ≠ none ∧
      (|targetQty| < |currentQty| → currentAvgPx = targetAvgPx)) := by
  obtain ⟨hdiff, hpx⟩ := reconciliationPrice_cases h
  have hside : (reconcilingFill fill currentQty targetQty px).side ≠ .noOrderSide := by
    unfold reconcilingFill
    split <;> simp
  have hcases := simulateFill_cases hside (abs_pos.mpr hdiff) currentQty
    (|currentQty| * currentAvgPx.getD 0)
  rw [next_reconcilingFill] at hcases
  by_cases hflat : targetQty = 0
  · obtain ⟨value, hrun⟩ : ∃ value, simulateFill (currentQty, |currentQty| * currentAvgPx.getD 0)
        (reconcilingFill fill currentQty targetQty px) = some (targetQty, value) := by
      obtain ⟨-, -, h⟩ | ⟨-, -, -, h⟩ | ⟨-, h⟩ := hcases <;> exact ⟨_, h⟩
    exact iff_of_true ⟨value, hrun, fun h => absurd hflat h⟩ fun h => by simp [hflat] at h
  have hpos := abs_pos.mpr hflat
  obtain ⟨hadd, hsame, hrun⟩ | ⟨hne, htake, hsame, hrun⟩ | ⟨hcross, hrun⟩ := hcases
  all_goals
    rw [hrun]
    simp only [some.injEq, Prod.mk.injEq, true_and, exists_eq_left', hflat, ne_eq, not_false_eq_true,
      forall_const]
  · have hfill : (reconcilingFill fill currentQty targetQty px).qty = |targetQty| - |currentQty| :=
      eq_sub_of_add_eq' hadd.symm
    rcases hpx with h | ⟨hpx, rfl, hwhy⟩ | ⟨currentPx, targetPx, rfl, rfl, hside, _⟩
    · exact absurd h hflat
    · by_cases hzero : currentQty = 0
      · refine iff_of_true ?_ fun h => by simp [hzero] at h
        rw [hfill, hzero, abs_zero, zero_mul, zero_add, sub_zero, mul_div_cancel_left₀ _ hpos.ne']
        rfl
      have hside := hsame.lt_of_ne' (mul_ne_zero hzero hflat)
      obtain rfl : currentAvgPx = none := hwhy.resolve_right (not_or.mpr ⟨hzero, hside.not_gt⟩)
      refine iff_of_false (fun h => ?_) fun h => (h hside).1 rfl
      rw [hfill, some.injEq, eq_div_iff hpos.ne'] at h
      replace h : px * |targetQty| = |currentQty| * 0 + (|targetQty| - |currentQty|) * px := h
      exact mul_ne_zero (abs_ne_zero.mpr hzero) hpx (by linarith)
    · refine iff_of_true ?_ fun _ => ⟨some_ne_none _, fun h => ?_⟩
      · rw [some.injEq, eq_div_iff hpos.ne', hfill]
        show targetPx * |targetQty| =
          |currentQty| * currentPx + (|targetQty| - |currentQty|) * px
        rcases pos_and_pos_or_neg_and_neg_of_mul_pos hside with ⟨hq, ht⟩ | ⟨hq, ht⟩
        · rw [abs_of_pos hq, abs_of_pos ht]
          linarith
        · rw [abs_of_neg hq, abs_of_neg ht]
          linarith
      · exact absurd (hadd ▸ h) (lt_add_of_pos_right _ (abs_pos.mpr hdiff)).not_gt
  · have hside := hsame.lt_of_ne' (mul_ne_zero hne hflat)
    have hless : |targetQty| < |currentQty| := by
      rw [htake]
      exact sub_lt_self _ (abs_pos.mpr hdiff)
    have hkept : |currentQty| * currentAvgPx.getD 0 * (|targetQty| / |currentQty|) / |targetQty| =
        currentAvgPx.getD 0 := by
      field_simp
    rw [hkept]
    rcases hpx with h | ⟨hpx, rfl, hwhy⟩ | ⟨currentPx, targetPx, rfl, rfl, -, -⟩
    · exact absurd h hflat
    · obtain rfl : currentAvgPx = none := hwhy.resolve_right (not_or.mpr ⟨hne, hside.not_gt⟩)
      simpa [hside] using hpx
    · simp [hside, hless, eq_comm]
  · rcases hpx with h | ⟨-, rfl, -⟩ | ⟨_, _, -, -, hside, -⟩
    · exact absurd h hflat
    · refine iff_of_true ?_ fun h => absurd h hcross.not_gt
      rw [mul_div_cancel_left₀ _ hpos.ne']
      rfl
    · exact absurd hside hcross.not_gt

/-- Ten at 100 grow to fifteen at 110. -/
theorem reconciliationPrice_reaches_iff_grown :
    ∃ value, simulateFill (10, |10| * (some 100).getD 0)
        (reconcilingFill ⟨⟨"V-1"⟩, .buy, 0, 0, 1⟩ 10 15 130) = some (15, value) ∧
      ((15 : ℚ) ≠ 0 → some 110 = some (value / |15|)) :=
  (reconciliationPrice_reaches_iff _ (by decide +kernel)).mpr fun _ => by decide +kernel

/-- Ten at 100 that should become five at 90 are priced at 110, and stay at 100. -/
theorem reconciliationPrice_misses_reduced :
    calculateReconciliationPrice 10 (some 100) 5 (some 90) = some 110 ∧
      simulateFill (10, 1000) (reconcilingFill ⟨⟨"V-1"⟩, .buy, 0, 0, 1⟩ 10 5 110) =
        some (5, 5 * 100) := by
  decide +kernel

end Nautilus
