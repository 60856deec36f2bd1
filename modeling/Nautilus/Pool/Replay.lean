import Nautilus.Pool.Events
import Nautilus.Pool.Reaching

/-!
# Replaying a history

`process_swap` simulates the swap of an event up to the event's price, then takes the tick and the
active liquidity from the event wherever the simulation disagrees. **It never takes the price**:
where the amount runs out before, tick and price are left apart.

* `Handled.consistent`: the other events keep the price in its tick.
* `staysTrue_of_paysWay`: so does a swap whose amount pays for the way to the event's price.
* `replay_consistent`: a history of such events is replayed truthfully throughout.
-/

namespace Nautilus

open Lib Option PoolProfiler

variable {input : Nat × DexPoolData}

/-- `ratio(tick) ≤ price ≤ ratio(tick + 1)`. -/
def PriceInTick (tick : Int) (price : Nat) : Prop :=
  ∃ lower upper, getSqrtRatioAtTick tick = some lower ∧
    getSqrtRatioAtTick (tick + 1) = some upper ∧ lower ≤ price ∧ price ≤ upper

/-- A swap event whose tick and price are consistent and strictly inside the valid range. -/
structure PoolSwap.Consistent (swap : PoolSwap) : Prop where
  above : minSqrtRatio < swap.sqrtPriceX96
  below : swap.sqrtPriceX96 < maxSqrtRatio
  inTick : PriceInTick swap.tick swap.sqrtPriceX96

namespace PoolProfiler

variable {p p' q : PoolProfiler} {fuel : Nat} {r : Except PoolError Unit} {event : DexPoolData}

/-- The current tick and price are consistent. -/
def Consistent (p : PoolProfiler) : Prop :=
  PriceInTick p.state.currentTick p.state.priceSqrtRatioX96

/-- The profiler has the tick, the active liquidity and the price of the event. -/
structure Shows (p : PoolProfiler) (swap : PoolSwap) : Prop where
  tick : p.state.currentTick = swap.tick
  liquidity : p.tickMap.liquidity = swap.liquidity
  price : p.state.priceSqrtRatioX96 = swap.sqrtPriceX96

/-- One event given to `process`, with the rounds of its simulation. A refused event leaves what it
did before. -/
def replayStep (p : PoolProfiler) (input : Nat × DexPoolData) : Option PoolProfiler :=
  (p.process input.1 input.2).map Prod.fst

/-- What is asked of a processed event. -/
def StaysTrue (p : PoolProfiler) (input : Nat × DexPoolData) (p' : PoolProfiler) : Prop :=
  p.process input.1 input.2 = some (p', .ok ()) →
    p.checkIfAlreadyProcessed input.2.block = false →
    p'.Consistent ∧ ∀ swap, input.2 = .swap swap → p'.Shows swap

/-- A swap event that is not skipped brings a positive amount that pays, in the pool as it is before
the event, for every leg of the way to the event's price. -/
def paysWay (p : PoolProfiler) (input : Nat × DexPoolData) : Bool :=
  match input.2 with
  | .swap swap =>
    let amount := if 0 < swap.amount0 then swap.amount0 else swap.amount1
    p.checkIfAlreadyProcessed swap.block ||
      (0 < amount && amount < 2 ^ 255 && p.pool.fee.any fun fee =>
        fee < maxFee && (p.way (p.swapTerms amount (0 < swap.amount0) swap.sqrtPriceX96 fee) input.1
          ⟨p.state.priceSqrtRatioX96, p.state.currentTick, p.tickMap.liquidity⟩).any (pays amount))
  | _ => true

/-! ## One event -/

theorem of_applySwapQuote {quote : SwapQuote} (h : p.applySwapQuote quote = some p') :
    p'.state.currentTick = quote.tickAfter ∧
      p'.state.priceSqrtRatioX96 = quote.sqrtPriceAfterX96 ∧
      p'.pool = p.pool ∧ p'.positions = p.positions ∧ p'.isInitialized = p.isInitialized ∧
      quote.crossedTicks.foldlM applyCrossing p.tickMap = some p'.tickMap := by
  obtain ⟨tickMap, hfold, rfl⟩ := map_eq_some_iff.mp h
  refine ⟨?_, ?_, rfl, rfl, rfl, hfold⟩ <;> dsimp only <;> split <;> rfl

theorem state_updatePosition {owner : Address} {tickLower tickUpper : Int} {delta : Int}
    {amount0 amount1 : Nat}
    (h : p.updatePosition owner tickLower tickUpper delta amount0 amount1 = some (p', r)) :
    p'.state = p.state := by
  unfold updatePosition at h
  simp only at h
  split at h
  · cases h
    rfl
  obtain ⟨q, hq, heq⟩ := map_eq_some_iff.mp h
  cases heq
  simp only [changeLiquidity, bind_eq_bind, bind_eq_some_iff] at hq
  obtain ⟨_, -, _, -, _, -, hq⟩ := hq
  cases hq
  rfl

theorem state_collectPosition (key : PositionKey) (amount0 amount1 : Nat) :
    (p.collectPosition key amount0 amount1).state = p.state := by
  unfold collectPosition cleanupPositionIfEmpty
  split
  · split
    · split <;> rfl
    · rfl
  · rfl

/-- A swap takes the tick and the liquidity of its event and the price of its simulation. -/
theorem shows_correctFrom {swap : PoolSwap} {quote : SwapQuote} {applied : PoolProfiler}
    (happly : p.applySwapQuote quote = some applied) (hcore : SameCore (applied.correctFrom swap) p') :
    p'.state.currentTick = swap.tick ∧ p'.tickMap.liquidity = swap.liquidity ∧
      p'.state.priceSqrtRatioX96 = quote.sqrtPriceAfterX96 := by
  rw [hcore.state, hcore.tickMap]
  refine ⟨?_, ?_, (of_applySwapQuote happly).2.1⟩
  · show (if _ then _ else _) = _
    split
    · rfl
    · rename_i h
      exact (not_not.mp h).symm
  · show (if _ then _ else _) = _
    split
    · rfl
    · rename_i h
      exact (not_not.mp h).symm

/-- A handled event other than a swap that is applied keeps the price in its tick. -/
theorem Handled.consistent (h : Handled fuel p event q r) (hcore : SameCore q p')
    (hp : p.Consistent) (hnot : ∀ swap, event = .swap swap → r ≠ .ok ()) : p'.Consistent := by
  have hprice : q.state.currentTick = p.state.currentTick ∧
      q.state.priceSqrtRatioX96 = p.state.priceSqrtRatioX96 := by
    cases h with
    | swapFailed swap e hfailed => exact ⟨rfl, rfl⟩
    | swapped swap quote applied hsim happly => exact absurd rfl (hnot swap rfl)
    | updateInvalid update e => exact ⟨rfl, rfl⟩
    | updated update delta _ _ hvalid hfits hdelta hupdate =>
      rw [state_updatePosition hupdate]
      exact ⟨rfl, rfl⟩
    | collected collect =>
      rw [state_collectPosition]
      exact ⟨rfl, rfl⟩
    | flashed flash =>
      -- the flash writes fees and growths only
      unfold updateFlashState flash0 flash1
      grind
  unfold Consistent
  rw [hcore.state, hprice.1, hprice.2]
  exact hp

/-- The simulation of a swap that pays its way ends at the price of the event. -/
theorem sqrtPriceAfter_of_paysWay {swap : PoolSwap} {quote : SwapQuote}
    (hpays : p.paysWay (fuel, .swap swap) = true)
    (hnew : p.checkIfAlreadyProcessed swap.block = false)
    (hquote : (p.simulateSwapThroughTicks fuel
      (if 0 < swap.amount0 then swap.amount0 else swap.amount1) (decide (0 < swap.amount0))
      swap.sqrtPriceX96).run = some (.ok quote)) :
    quote.sqrtPriceAfterX96 = swap.sqrtPriceX96 := by
  obtain ⟨fee, hfee, hquote⟩ := PoolM.of_bind hquote
  obtain ⟨last, hloop, hquote⟩ := PoolM.of_bind hquote
  cases hquote
  simp only [paysWay, hnew, of_panics hfee, Bool.false_or, Bool.and_eq_true, any_some,
    decide_eq_true_eq, any_eq_true] at hpays
  obtain ⟨⟨hpositive, hlt⟩, hmax, costs, hway, hpays⟩ := hpays
  exact currentSqrtPrice_of_pays (decide_eq_true hpositive) hmax hway hpays hlt
    (join_eq_some_iff.mp hloop)

/-- **A swap that pays its way, and any other event, stays true.** -/
theorem staysTrue_of_paysWay
    (hevent : ∀ swap, input.2 = .swap swap → swap.Consistent) (hp : p.Consistent)
    (hprocess : p.process input.1 input.2 = some (p', r)) (hpays : p.paysWay input = true) :
    StaysTrue p input p' := by
  obtain ⟨fuel, event⟩ := input
  intro hok hnew
  cases hprocess.symm.trans hok
  obtain ⟨hold, -, -⟩ | ⟨-, -, q, hhandled, hcore, -⟩ := process_cases hprocess
  · exact absurd (hold.symm.trans hnew) nofun
  by_cases hswap : ∃ swap, event = .swap swap
  · obtain ⟨swap, rfl⟩ := hswap
    cases hhandled with
    | swapped _ quote applied hquote happly =>
      obtain ⟨htick, hliquidity, hprice⟩ := shows_correctFrom happly hcore
      rw [sqrtPriceAfter_of_paysWay hpays hnew hquote] at hprice
      refine ⟨?_, fun swap' hswap' => ?_⟩
      · unfold Consistent
        rw [htick, hprice]
        exact (hevent swap rfl).inTick
      · cases hswap'
        exact ⟨htick, hliquidity, hprice⟩
  · refine ⟨hhandled.consistent hcore hp fun swap h => absurd ⟨swap, h⟩ hswap, fun swap h => ?_⟩
    exact absurd ⟨swap, h⟩ hswap

/-- **Over a history whose swaps all pay their way, tick and price stay consistent, and every
processed swap leaves the tick, the liquidity and the price of its event.** -/
theorem replay_consistent {inputs : List (Nat × DexPoolData)} (hp : p.Consistent)
    (hevents : ∀ input ∈ inputs, ∀ swap, input.2 = .swap swap → swap.Consistent)
    (hpays : Along replayStep (fun p input _ => p.paysWay input = true) p inputs) :
    Along replayStep StaysTrue p inputs := by
  have hmem : Along replayStep (fun _ input _ => input ∈ inputs) p inputs :=
    along_of_inv (fun _ => True) (fun _ _ _ hmem _ _ => ⟨trivial, hmem⟩) trivial
  refine (along_and.mpr ⟨hmem, hpays⟩).of_inv Consistent (fun s input s' hs hstep hinput => ?_) hp
  obtain ⟨⟨_, r⟩, hprocess, rfl⟩ := map_eq_some_iff.mp hstep
  have hstays := staysTrue_of_paysWay (hevents input hinput.1) hs hprocess hinput.2
  refine ⟨?_, hstays⟩
  obtain ⟨-, rfl, -⟩ | ⟨hnew, -, q, hhandled, hcore, -⟩ := process_cases hprocess
  · exact hs
  · cases r with
    | error e => exact hhandled.consistent hcore hs fun _ _ => nofun
    | ok u => exact (hstays hprocess hnew).1

end PoolProfiler

namespace Sample

/-- A pool of the 0.3% tier. -/
def pool : Pool := ⟨some 3000, 60, none, by decide, by decide⟩

def blockAt (number : Nat) : BlockPosition := ⟨number, "0x01", 0, 0⟩

/-- Liquidity of 10 ^ 18 between the ticks -120 and 120. -/
def mintEvent : DexPoolData :=
  .liquidityUpdate ⟨.mint, blockAt 1, ⟨"0x0a"⟩, 10 ^ 18, 0, 0, -120, 120⟩

/-- A swap of 10 ^ 15 of token 0 that ends at the price given. -/
def swapEvent (sqrtPriceX96 : Nat) (tick : Int) : DexPoolData :=
  .swap ⟨blockAt 2, 10 ^ 15, -(10 ^ 15), sqrtPriceX96, 10 ^ 18, tick⟩

/-- The mint and the swap. -/
def swapHistory (sqrtPriceX96 : Nat) (tick : Int) : List (Nat × DexPoolData) :=
  [(9, mintEvent), (9, swapEvent sqrtPriceX96 tick)]

def poolAtOne : Option PoolProfiler := (PoolProfiler.new pool).initializePool (2 ^ 96)

/-- What a run leaves, seen through `f`. -/
theorem poolRun_cases {α ι : Type} {f : PoolProfiler → α} {a : α}
    (step : PoolProfiler → ι → Option PoolProfiler) (inputs : List ι)
    (h : (poolAtOne.bind fun p => (runs step p inputs).map f) = some a) :
    ∃ p p', poolAtOne = some p ∧ runs step p inputs = some p' ∧ f p' = a := by
  obtain ⟨p, hp, h⟩ := bind_eq_some_iff.mp h
  obtain ⟨p', hp', rfl⟩ := map_eq_some_iff.mp h
  exact ⟨p, p', hp, hp', rfl⟩

end Sample

open Sample

/-- A swap whose amount pays for the way to its price. -/
theorem replay_consistent_reached :
    ∃ p, poolAtOne = some p ∧
      (runs PoolProfiler.replayStep p (swapHistory 79149250711305166342700278159 (-20))).isSome ∧
      Along PoolProfiler.replayStep PoolProfiler.StaysTrue p
        (swapHistory 79149250711305166342700278159 (-20)) := by
  obtain ⟨p, hp, h⟩ := map_eq_some_iff.mp
    (show (poolAtOne.map fun p => (decide (Along replayStep
        (fun p input _ => p.paysWay input = true) p
        (swapHistory 79149250711305166342700278159 (-20))),
      (runs replayStep p (swapHistory 79149250711305166342700278159 (-20))).isSome,
      p.state.currentTick, p.state.priceSqrtRatioX96)) = some (true, true, 0, 2 ^ 96) by
        decide +kernel)
  simp only [Prod.mk.injEq, decide_eq_true_eq] at h
  obtain ⟨halong, hruns, htick, hprice⟩ := h
  refine ⟨p, hp, hruns, replay_consistent ?_ ?_ halong⟩
  · unfold Consistent
    rw [htick, hprice]
    exact ⟨79228162514264337593543950336, 79232123823359799118286999568, by decide +kernel,
      by decide +kernel, by decide, by decide⟩
  · intro input hmem swap hswap
    simp only [swapHistory, List.mem_cons, List.not_mem_nil, or_false] at hmem
    obtain rfl | rfl := hmem
    · nomatch hswap
    · cases hswap
      exact ⟨by decide, by decide, 79148977909814923576066331265, 79152935259779138436941789260,
        by decide +kernel, by decide +kernel, by decide, by decide⟩

/-- A swap that ends further down than its amount carries the simulation: the tick is -58, the price
belongs to the tick -20. -/
theorem not_replay_consistent_short :
    ∃ p p', poolAtOne = some p ∧
      runs PoolProfiler.replayStep p (swapHistory (79 * 10 ^ 27) (-58)) = some p' ∧
      PriceInTick (-58) (79 * 10 ^ 27) ∧
      p'.state.currentTick = -58 ∧ p'.tickMap.liquidity = 10 ^ 18 ∧
      p'.state.priceSqrtRatioX96 = 79149250711305166342700278159 ∧ ¬ p'.Consistent := by
  obtain ⟨p, p', hp, hruns, h⟩ := poolRun_cases replayStep
    (swapHistory (79 * 10 ^ 27) (-58))
    (f := fun p' => (p'.state.currentTick, p'.tickMap.liquidity, p'.state.priceSqrtRatioX96))
    (a := (-58, 10 ^ 18, 79149250711305166342700278159)) (by decide +kernel)
  simp only [Prod.mk.injEq] at h
  obtain ⟨htick, hliquidity, hprice⟩ := h
  refine ⟨p, p', hp, hruns, ⟨78998745129634034104723536524, 79002694968147021507389583634,
    by decide +kernel, by decide +kernel, by decide, by decide⟩, htick, hliquidity, hprice, ?_⟩
  rintro ⟨_, _, -, hupper, -, _⟩
  rw [htick] at hupper
  have hratio : getSqrtRatioAtTick (-58 + 1) = some 79002694968147021507389583634 := by
    decide +kernel
  cases hupper.symm.trans hratio
  omega

end Nautilus
