import Nautilus.Pool.Profiler

/-!
# Swaps that reach their price

A swap goes from tick to tick until it is at its limit price or its amount is used up. Where it
passes and what each leg costs is fixed by the pool and the limit alone.

* `way`: the costs of the legs from a place to the limit price.
* `of_computeSwapStep`: a step that is paid for reaches its target and takes its cost.
* `currentSqrtPrice_of_pays`: a simulation whose amount pays for the whole way ends at the limit.
-/

namespace Nautilus

open Lib Option FullMath PoolM

/-- Where a swap stands. -/
structure Place where
  sqrtPrice : Nat
  tick : Int
  liquidity : Nat

def SwapLoop.place (s : SwapLoop) : Place :=
  ⟨s.currentSqrtPrice, s.currentTick, s.currentActiveLiquidity⟩

/-- What a leg takes off the amount: the input, rounded up, and the fee on it, rounded up. -/
def Place.legCost (place : Place) (target feeTier : Nat) : Option Nat := do
  let amountIn ← amountInDelta place.sqrtPrice target place.liquidity (target ≤ place.sqrtPrice)
  let fee ← (mulDivRoundingUp amountIn feeTier (U256.sub maxFee feeTier)).toOption
  some (amountIn + fee)

/-- The amount pays for every leg, and is not used up before the last one. -/
def pays (amount : Int) : List Nat → Bool
  | [] => true
  | cost :: costs => 0 < amount && cost ≤ amount && pays (amount - cost) costs

namespace PoolProfiler

variable (self : PoolProfiler)

/-- The active liquidity beyond a tick. -/
def liquidityBeyond (zeroForOne : Bool) (ahead : Int × Bool) (liquidity : Nat) : Option Nat :=
  if ahead.2 then
    match self.tickMap.getTick ahead.1 with
    | some tick =>
      liquidityMathAdd liquidity (if zeroForOne then -tick.liquidityNet else tick.liquidityNet)
    | none => some liquidity
  else some liquidity

/-- The costs of the at most `n` legs to the limit price. -/
def way (terms : SwapTerms) : Nat → Place → Option (List Nat)
  | 0, _ => none
  | n + 1, place =>
    if terms.sqrtPriceLimitX96 = place.sqrtPrice then some []
    else do
      let ahead := self.tickAhead terms place.tick
      let next ← getSqrtRatioAtTick ahead.1
      let cost ← place.legCost (targetPrice terms next) terms.feeTier
      let liquidity ← self.liquidityBeyond terms.zeroForOne ahead place.liquidity
      let tick := if terms.zeroForOne then ahead.1 - 1 else ahead.1
      (way terms n ⟨targetPrice terms next, tick, liquidity⟩).map (cost :: ·)

end PoolProfiler

/-! ## One step -/

/-- An amount that pays an input and the fee on it still has the input after the fee. -/
theorem le_div_of_add_le {amount input fee feeTier : Nat} (hfee : feeTier < maxFee)
    (hceil : input * feeTier ≤ fee * (maxFee - feeTier)) (hle : input + fee ≤ amount) :
    input ≤ amount * (maxFee - feeTier) / maxFee := by
  rw [Nat.le_div_iff_mul_le (by decide)]
  calc input * maxFee = input * (maxFee - feeTier) + input * feeTier := by
        rw [← Nat.mul_add, Nat.sub_add_cancel hfee.le]
    _ ≤ input * (maxFee - feeTier) + fee * (maxFee - feeTier) := by omega
    _ = (input + fee) * (maxFee - feeTier) := (Nat.add_mul ..).symm
    _ ≤ amount * (maxFee - feeTier) := Nat.mul_le_mul_right _ hle

theorem of_panics {α : Type} {x : Option α} {a : α} (h : (panics x).run = some (.ok a)) :
    x = some a := by
  cases x with
  | none => cases h
  | some => cases h; rfl

theorem of_fails {α : Type} {x : Except PoolError α} {a : α} (h : (fails x).run = some (.ok a)) :
    x = .ok a := some.inj h

/-- **A step that is paid for reaches its target and takes its cost.** -/
theorem of_computeSwapStep {place : Place} {target feeTier cost : Nat} {amount : Int}
    {step : SwapStepResult} (hfee : feeTier < maxFee)
    (hcost : place.legCost target feeTier = some cost) (hle : cost ≤ amount)
    (hlt : amount < 2 ^ 255)
    (h : (computeSwapStep place.sqrtPrice target place.liquidity amount feeTier).run =
      some (.ok step)) :
    step.sqrtRatioNextX96 = target ∧ step.amountIn + step.feeAmount = cost := by
  simp only [Place.legCost, bind_eq_bind, bind_eq_some_iff, some.injEq] at hcost
  obtain ⟨input, hinput, fee, hfeeAmount, rfl⟩ := hcost
  have hsub : U256.sub maxFee feeTier = maxFee - feeTier := Word.sub_of_le (by decide) hfee.le
  have hpos : 0 ≤ amount := by omega
  have hmax : maxFee = 1000000 := rfl
  have hround : mulDivRoundingUp input feeTier (U256.sub maxFee feeTier) = .ok fee := by
    cases hround : mulDivRoundingUp input feeTier (U256.sub maxFee feeTier) <;>
      rw [hround] at hfeeAmount <;> cases hfeeAmount
    rfl
  have hceil : input * feeTier ≤ fee * (maxFee - feeTier) := by
    rw [hsub] at hround
    exact ((mulDiv_exact (by omega) (by omega) (by omega) fee).2.mp hround).1.2.1
  obtain ⟨⟨reachedIn, next⟩, hreach, h⟩ := of_bind h
  -- what is left of the amount after the fee covers the input
  have hreached : reachedIn = input ∧ next = target := by
    unfold reach at hreach
    rw [if_pos hpos] at hreach
    obtain ⟨lessFee, hless, hreach⟩ := of_bind hreach
    obtain ⟨_, hamountIn, hreach⟩ := of_bind hreach
    obtain ⟨_, hnext, hreach⟩ := of_bind hreach
    cases hreach
    cases (of_panics hamountIn).symm.trans hinput
    rw [hsub] at hless
    obtain ⟨-, rfl, -⟩ :=
      (mulDiv_exact (by omega) (by omega) (by decide) lessFee).1.mp (of_fails hless)
    rw [if_pos (le_div_of_add_le hfee hceil (by omega))] at hnext
    cases of_panics hnext
    exact ⟨rfl, rfl⟩
  obtain ⟨rfl, rfl⟩ := hreached
  obtain ⟨amountIn, hamountIn, h⟩ := of_bind h
  obtain ⟨_, -, h⟩ := of_bind h
  obtain ⟨feeAmount, hfeeAmount, h⟩ := of_bind h
  cases h
  simp only [hpos, decide_true, Bool.and_self, Bool.not_true, Bool.and_false, Bool.false_eq_true,
    if_true, if_false] at hamountIn hfeeAmount
  cases of_panics hamountIn
  cases (of_fails hfeeAmount).symm.trans hround
  exact ⟨rfl, rfl⟩

variable {p : PoolProfiler} {terms : SwapTerms} {s s' : SwapLoop} {cost next : Nat}

/-- The fees of a step change neither the place nor what is left of the amount. -/
theorem SwapLoop.place_accrue {feeAmount : Nat}
    (h : (s.accrue terms feeAmount).run = some (.ok s')) :
    s'.place = s.place ∧ s'.amountSpecifiedRemaining = s.amountSpecifiedRemaining := by
  unfold SwapLoop.accrue at h
  dsimp only at h
  split at h
  · obtain ⟨_, -, h⟩ := of_bind h
    cases h
    exact ⟨rfl, rfl⟩
  · cases h
    exact ⟨rfl, rfl⟩

/-- A step changes the price no more once it is made; at the price of the tick ahead it is beyond
that tick. -/
theorem PoolProfiler.place_shift {start : Nat} {ahead : Int × Bool}
    (h : p.shift terms.zeroForOne start next ahead.1 ahead.2 s = some s') :
    s'.currentSqrtPrice = s.currentSqrtPrice ∧
      s'.amountSpecifiedRemaining = s.amountSpecifiedRemaining ∧
      (s.currentSqrtPrice = next → ∃ liquidity,
        p.liquidityBeyond terms.zeroForOne ahead s.currentActiveLiquidity = some liquidity ∧
        s'.place = ⟨next, if terms.zeroForOne then ahead.1 - 1 else ahead.1, liquidity⟩) := by
  unfold shift at h
  split at h
  · rename_i hprice
    obtain ⟨crossed, hcross, rfl⟩ := map_eq_some_iff.mp h
    unfold liquidityBeyond
    split at hcross
    · rename_i hinitialized
      rw [if_pos hinitialized]
      unfold cross at hcross
      cases hget : p.tickMap.getTick ahead.1 with
      | some tick =>
        rw [hget] at hcross
        obtain ⟨liquidity, hadd, rfl⟩ := map_eq_some_iff.mp hcross
        exact ⟨rfl, rfl, fun _ => ⟨liquidity, hadd, by rw [← hprice]; rfl⟩⟩
      | none =>
        rw [hget] at hcross
        cases hcross
        exact ⟨rfl, rfl, fun _ => ⟨_, rfl, by rw [← hprice]; rfl⟩⟩
    · rename_i hinitialized
      cases hcross
      rw [if_neg hinitialized]
      exact ⟨rfl, rfl, fun _ => ⟨_, rfl, by rw [← hprice]; rfl⟩⟩
  · rename_i hprice
    split at h
    · obtain ⟨_, -, rfl⟩ := map_eq_some_iff.mp h
      exact ⟨rfl, rfl, fun heq => absurd heq hprice⟩
    · cases h
      exact ⟨rfl, rfl, fun heq => absurd heq hprice⟩

/-- Taking a cost off an amount that covers it does not wrap. -/
theorem I256.sub_of_le {amount : Int} (hle : cost ≤ amount) (hlt : amount < 2 ^ 255) :
    I256.sub amount (truncateToI256 cost) = amount - cost := by
  have hbmod : ∀ n : Int, 0 ≤ n → n < 2 ^ 255 → n.bmod (2 ^ 256) = n := by
    intro n hn hlt
    rw [Int.bmod_def, Int.emod_eq_of_lt hn (by norm_num at hlt ⊢; omega), if_pos (by omega)]
  unfold I256.sub truncateToI256
  rw [hbmod cost (by omega) (by omega), hbmod _ (by omega) (by omega)]

namespace PoolProfiler

/-- A leg that is paid for ends at its target and takes its cost; at the tick ahead it goes on
beyond. -/
theorem of_swapStep (hexact : terms.exactInput = true) (hfee : terms.feeTier < maxFee)
    (hnext : getSqrtRatioAtTick (p.tickAhead terms s.currentTick).1 = some next)
    (hcost : s.place.legCost (targetPrice terms next) terms.feeTier = some cost)
    (hle : cost ≤ s.amountSpecifiedRemaining) (hlt : s.amountSpecifiedRemaining < 2 ^ 255)
    (h : (p.swapStep terms s).run = some (.ok s')) :
    s'.currentSqrtPrice = targetPrice terms next ∧
      s'.amountSpecifiedRemaining = s.amountSpecifiedRemaining - cost ∧
      (targetPrice terms next = next → ∃ liquidity,
        p.liquidityBeyond terms.zeroForOne (p.tickAhead terms s.currentTick)
          s.currentActiveLiquidity = some liquidity ∧
        s'.place = ⟨next, if terms.zeroForOne then (p.tickAhead terms s.currentTick).1 - 1
          else (p.tickAhead terms s.currentTick).1, liquidity⟩) := by
  obtain ⟨_, hnext', h⟩ := of_bind h
  cases (of_panics hnext').symm.trans hnext
  obtain ⟨step, hstep, h⟩ := of_bind h
  obtain ⟨accrued, haccrue, h⟩ := of_bind h
  obtain ⟨hprice, rfl⟩ := of_computeSwapStep hfee hcost hle hlt hstep
  obtain ⟨hplace, hremaining⟩ := SwapLoop.place_accrue haccrue
  obtain ⟨hprice', hremaining', hbeyond⟩ := place_shift (of_panics h)
  have haccrued : accrued.currentSqrtPrice = targetPrice terms next :=
    (congrArg Place.sqrtPrice hplace).trans hprice
  refine ⟨hprice'.trans haccrued, ?_, fun htarget => ?_⟩
  · have hadd : U256.add step.amountIn step.feeAmount = step.amountIn + step.feeAmount :=
      Word.add_of_lt (by omega)
    rw [hremaining', hremaining, SwapLoop.exchange]
    dsimp only
    rw [if_pos hexact, hadd, I256.sub_of_le hle hlt]
  · have hbeyond := hbeyond (haccrued.trans htarget)
    rwa [show accrued.currentActiveLiquidity = s.currentActiveLiquidity from
      congrArg Place.liquidity hplace] at hbeyond

/-! ## The whole way -/

/-- A leg ends at the limit or at the tick ahead. -/
theorem targetPrice_cases (terms : SwapTerms) (next : Nat) :
    targetPrice terms next = terms.sqrtPriceLimitX96 ∨ targetPrice terms next = next := by
  unfold targetPrice
  split
  · exact .inl rfl
  · exact .inr rfl

/-- **A simulation whose amount pays for the way to the limit price ends there.** -/
theorem currentSqrtPrice_of_pays {n m : Nat} {costs : List Nat} {last : SwapLoop}
    (hexact : terms.exactInput = true) (hfee : terms.feeTier < maxFee)
    (hway : p.way terms m s.place = some costs)
    (hpays : pays s.amountSpecifiedRemaining costs = true)
    (hlt : s.amountSpecifiedRemaining < 2 ^ 255)
    (hloop : loop (p.swapRound terms) n s = some (some (.ok last))) :
    last.currentSqrtPrice = terms.sqrtPriceLimitX96 := by
  -- by the rounds: each takes a leg of the way off the amount
  induction n generalizing s m costs with
  | zero => cases hloop
  | succ n ih =>
    by_cases hlimit : s.currentSqrtPrice = terms.sqrtPriceLimitX96
    · have hround : p.swapRound terms s = .inr (some (.ok s)) :=
        if_pos (decide_eq_true (.inr hlimit.symm))
      rw [loop_of_inr hround] at hloop
      cases hloop
      exact hlimit
    obtain _ | m := m
    · cases hway
    have hnext : ¬ terms.sqrtPriceLimitX96 = s.place.sqrtPrice := Ne.symm hlimit
    rw [way, if_neg hnext] at hway
    simp only [bind_eq_bind, bind_eq_some_iff, map_eq_some_iff] at hway
    obtain ⟨next, hnext, cost, hcost, liquidity, hliquidity, rest, hway, rfl⟩ := hway
    simp only [pays, Bool.and_eq_true, decide_eq_true_eq] at hpays
    obtain ⟨⟨hpositive, hle⟩, hpays⟩ := hpays
    have hnot : ¬ s.done terms = true := fun hdone =>
      (of_decide_eq_true hdone).elim hpositive.ne' (hlimit ∘ Eq.symm)
    obtain ⟨s', hstep⟩ : ∃ s', (p.swapStep terms s).run = some (.ok s') := by
      by_contra hstep
      have hround : p.swapRound terms s = .inr (p.swapStep terms s).run := by
        rw [swapRound, if_neg hnot]
        split
        · exact absurd ⟨_, ‹_›⟩ hstep
        · rfl
      rw [loop_of_inr hround] at hloop
      exact hstep ⟨last, some.inj hloop⟩
    have hround : p.swapRound terms s = .inl s' := by
      rw [swapRound, if_neg hnot, hstep]
    rw [loop_of_inl hround] at hloop
    obtain ⟨hprice, hremaining, hbeyond⟩ := of_swapStep hexact hfee hnext hcost hle hlt hstep
    have hlt' : s'.amountSpecifiedRemaining < 2 ^ 255 := by omega
    rcases targetPrice_cases terms next with htarget | htarget
    · have hend : p.way terms 1 s'.place = some [] := if_pos (hprice.trans htarget).symm
      exact ih hend rfl hlt' hloop
    · obtain ⟨_, hliquidity', hplace⟩ := hbeyond htarget
      cases hliquidity.symm.trans hliquidity'
      rw [← hremaining] at hpays
      rw [htarget] at hway
      exact ih (hplace ▸ hway) hpays hlt' hloop

end PoolProfiler

end Nautilus
