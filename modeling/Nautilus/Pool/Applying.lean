import Nautilus.Pool.Bitmap
import Nautilus.Pool.Operations
import Nautilus.Pool.Replay

/-!
# Applying the quote of a swap

A quote does not say which way its swap went: `apply_swap_quote` reads it off the sign of `amount0`.
Without liquidity both amounts are zero, and a swap of token 0 writes its fee growth over that of
token 1.
-/

namespace Nautilus

open Lib Option

namespace PoolProfiler

open PoolM

variable {p : PoolProfiler} {s s' : SwapLoop} {m : TickMap} {terms : SwapTerms} {fuel : Nat}

/-- The crossings of a simulation, applied one after another, leave its liquidity. -/
structure Crossed (p : PoolProfiler) (s : SwapLoop) (m : TickMap) : Prop where
  applied : s.crossedTicks.foldlM applyCrossing p.tickMap = some m
  liquidity : m.liquidity = s.currentActiveLiquidity
  net : ∀ t, (m.tickOrInit t).liquidityNet = (p.tickMap.tickOrInit t).liquidityNet
  fits : m.liquidity < 2 ^ 128

theorem Crossed.append (h : Crossed p s m) {crossed : CrossedTick} {liquidity : Nat}
    (hadd : liquidityMathAdd s.currentActiveLiquidity (if crossed.zeroForOne then
      -(p.tickMap.tickOrInit crossed.tick).liquidityNet
      else (p.tickMap.tickOrInit crossed.tick).liquidityNet) = some liquidity)
    (hcrossed : s'.crossedTicks = s.crossedTicks ++ [crossed])
    (hactive : s'.currentActiveLiquidity = liquidity) : ∃ m', Crossed p s' m' := by
  refine ⟨{ (m.crossTick crossed.tick crossed.feeGrowth0 crossed.feeGrowth1).1 with liquidity },
    ?_, hactive.symm, fun t => ?_, liquidityMathAdd_lt hadd⟩
  · rw [hcrossed, List.foldlM_append, h.applied]
    show (applyCrossing m crossed).bind some = _
    rw [bind_fun_some]
    show (liquidityMathAdd m.liquidity (if crossed.zeroForOne then
      -(m.tickOrInit crossed.tick).liquidityNet
      else (m.tickOrInit crossed.tick).liquidityNet)).map _ = _
    rw [h.liquidity, h.net, hadd]
    rfl
  · show ((m.putTick crossed.tick _).tickOrInit t).liquidityNet = _
    rw [TickMap.tickOrInit_putTick]
    split
    · rename_i heq
      rw [← heq]
      exact h.net crossed.tick
    · exact h.net t

theorem Crossed.cross (h : Crossed p s m) {zeroForOne : Bool} {tick : Int}
    (hcross : p.cross zeroForOne tick s = some s') : ∃ m', Crossed p s' m' := by
  unfold PoolProfiler.cross at hcross
  dsimp only at hcross
  split at hcross
  · rename_i hget
    obtain ⟨liquidity, hadd, rfl⟩ := map_eq_some_iff.mp hcross
    exact h.append (TickMap.tickOrInit_of_getTick hget ▸ hadd) rfl rfl
  rename_i hget
  cases hcross
  refine h.append ?_ rfl rfl
  -- a tick that is not there carries no liquidity
  have hnone : p.tickMap.tickOrInit tick = .fromTick tick :=
    congrArg (fun o : Option PoolTick => o.getD (.fromTick tick)) hget
  have hlt : s.currentActiveLiquidity < 2 ^ 128 := h.liquidity ▸ h.fits
  show liquidityMathAdd _ (if zeroForOne then -(p.tickMap.tickOrInit tick).liquidityNet
    else (p.tickMap.tickOrInit tick).liquidityNet) = _
  rw [hnone, show (PoolTick.fromTick tick).liquidityNet = 0 from rfl, neg_zero, ite_self,
    liquidityMathAdd_eq hlt (by decide), if_pos (by omega)]
  simp

theorem Crossed.congr (h : Crossed p s m) (hticks : s'.crossedTicks = s.crossedTicks)
    (hliquidity : s'.currentActiveLiquidity = s.currentActiveLiquidity) : Crossed p s' m :=
  ⟨hticks ▸ h.applied, hliquidity ▸ h.liquidity, h.net, h.fits⟩

theorem Crossed.shift (h : Crossed p s m) {zeroForOne initialized : Bool} {start next : Nat}
    {tick : Int} (hshift : p.shift zeroForOne start next tick initialized s = some s') :
    ∃ m', Crossed p s' m' := by
  unfold PoolProfiler.shift at hshift
  split at hshift
  · obtain ⟨_, hcross, rfl⟩ := map_eq_some_iff.mp hshift
    split at hcross
    · obtain ⟨m', h'⟩ := h.cross hcross
      exact ⟨m', h'.congr rfl rfl⟩
    · cases hcross
      exact ⟨m, h.congr rfl rfl⟩
  split at hshift
  · obtain ⟨_, -, rfl⟩ := map_eq_some_iff.mp hshift
    exact ⟨m, h.congr rfl rfl⟩
  · cases hshift
    exact ⟨m, h⟩

theorem Crossed.accrue (h : Crossed p s m) {feeAmount : Nat}
    (haccrue : (s.accrue terms feeAmount).run = some (.ok s')) : Crossed p s' m := by
  unfold SwapLoop.accrue at haccrue
  dsimp only at haccrue
  split at haccrue
  · obtain ⟨_, -, heq⟩ := of_bind haccrue
    cases heq
    exact h.congr rfl rfl
  · cases haccrue
    exact h.congr rfl rfl

theorem Crossed.step (h : Crossed p s m) (hstep : (p.swapStep terms s).run = some (.ok s')) :
    ∃ m', Crossed p s' m' := by
  obtain ⟨_, -, hstep⟩ := of_bind hstep
  obtain ⟨step, -, hstep⟩ := of_bind hstep
  obtain ⟨accrued, haccrue, hshift⟩ := of_bind hstep
  have haccrued : Crossed p accrued m :=
    Crossed.accrue (h.congr rfl rfl : Crossed p (s.exchange terms step) m) haccrue
  obtain ⟨_, hshift, heq⟩ := map_eq_some_iff.mp hshift
  cases heq
  exact haccrued.shift hshift

theorem Crossed.loop {last : SwapLoop} (h : Crossed p s m)
    (hloop : loop (p.swapRound terms) fuel s = some (some (.ok last))) :
    ∃ m', Crossed p last m' := by
  refine loop_inv (I := fun s => ∃ m, Crossed p s m)
    (Q := fun r => ∀ last, r = some (.ok last) → ∃ m, Crossed p last m) ?_ ⟨m, h⟩ hloop last rfl
  rintro s ⟨m, h⟩
  unfold swapRound
  split
  · rintro _ ⟨⟩
    exact ⟨m, h⟩
  split
  · exact h.step ‹_›
  · rename_i hnot
    exact fun last hlast => absurd hlast (hnot last)

/-- The fee growth and the protocol fees of the token paid out. -/
def outputFees (p : PoolProfiler) (zeroForOne : Bool) : Nat × Nat :=
  if zeroForOne then (p.state.feeGrowthGlobal1, p.state.protocolFeesToken1)
  else (p.state.feeGrowthGlobal0, p.state.protocolFeesToken0)

/-- **Applying the quote of a swap leaves the liquidity of the simulation, and the fees of the token
paid out iff the quote shows the direction of the swap** or brings the same fees. -/
theorem outputFees_kept_iff {amountSpecified : Int} {zeroForOne : Bool} {limit : Nat}
    {quote : SwapQuote} (hfits : p.tickMap.liquidity < 2 ^ 128)
    (h : (p.simulateSwapThroughTicks fuel amountSpecified zeroForOne limit).run =
      some (.ok quote)) :
    ∃ p', p.applySwapQuote quote = some p' ∧ p'.tickMap.liquidity = quote.liquidityAfter ∧
      (p'.outputFees zeroForOne = p.outputFees zeroForOne ↔ quote.zeroForOne = zeroForOne ∨
        (quote.feeGrowthGlobalAfter, U256.add (p.outputFees zeroForOne).2 quote.protocolFee) =
          p.outputFees zeroForOne) := by
  obtain ⟨_, -, h⟩ := of_bind h
  obtain ⟨last, hloop, h⟩ := of_bind h
  cases h
  have hloop := join_eq_some_iff.mp hloop
  obtain ⟨m, hm⟩ := Crossed.loop ⟨rfl, rfl, fun _ => rfl, hfits⟩ hloop
  unfold applySwapQuote
  dsimp only
  rw [show (p.swapQuote amountSpecified zeroForOne last).crossedTicks.foldlM _ _ = some m from
    hm.applied]
  refine ⟨_, rfl, hm.liquidity, ?_⟩
  generalize p.swapQuote amountSpecified zeroForOne last = quote
  cases zeroForOne <;> cases quote.zeroForOne <;> simp [outputFees]

end PoolProfiler

open PoolProfiler

open Sample

/-- A swap through liquidity shows its direction. -/
theorem outputFees_kept_iff_minted :
    ∃ (p p' : PoolProfiler) (quote : SwapQuote),
      (p.simulateSwapThroughTicks 9 1000 true (785 * 10 ^ 26)).run = some (.ok quote) ∧
      p.applySwapQuote quote = some p' ∧ p'.outputFees true = p.outputFees true := by
  obtain ⟨_, p, -, -, h⟩ := poolRun_cases performStep
    [.executeMint ⟨"0x0a"⟩ (-120) 120 (10 ^ 18)]
    (f := fun p => (decide (p.tickMap.liquidity < 2 ^ 128),
      (p.simulateSwapThroughTicks 9 1000 true (785 * 10 ^ 26)).run.map (·.map (·.zeroForOne))))
    (a := (true, some (.ok true))) (by decide +kernel)
  simp only [Prod.mk.injEq, decide_eq_true_eq] at h
  obtain ⟨_ | quote, hquote, heq⟩ := map_eq_some_iff.mp h.2
  · nomatch heq
  · obtain ⟨p', hp', -, hiff⟩ := outputFees_kept_iff h.1 hquote
    exact ⟨p, p', quote, hquote, hp', hiff.mpr (.inl (Except.ok.inj heq))⟩

/-- A swap of token 0 where there is no liquidity left brings its fee growth to token 1. -/
theorem outputFees_overwritten :
    ∃ p₀ p p' quote, poolAtOne = some p₀ ∧
      runs performStep p₀ [.executeMint ⟨"0x0a"⟩ (-120) 120 (10 ^ 18),
        .executeSwap 9 true (10 ^ 18) (785 * 10 ^ 26)] = some p ∧
      (p.simulateSwapThroughTicks 9 1 true (784 * 10 ^ 26)).run = some (.ok quote) ∧
      p.applySwapQuote quote = some p' ∧ p.outputFees true = (0, 0) ∧
      p'.outputFees true = (6161671596273120681676461224913443, 0) := by
  obtain ⟨p₀, p, hp₀, hp, h⟩ := poolRun_cases performStep
    [.executeMint ⟨"0x0a"⟩ (-120) 120 (10 ^ 18), .executeSwap 9 true (10 ^ 18) (785 * 10 ^ 26)]
    (f := fun p => (p.outputFees true,
      (p.simulateSwapThroughTicks 9 1 true (784 * 10 ^ 26)).run.bind fun r =>
        r.toOption.bind fun quote => (p.applySwapQuote quote).map (·.outputFees true)))
    (a := ((0, 0), some (6161671596273120681676461224913443, 0))) (by decide +kernel)
  simp only [Prod.mk.injEq] at h
  obtain ⟨_ | quote, hquote, h'⟩ := bind_eq_some_iff.mp h.2
  · nomatch h'
  · obtain ⟨p', hp', hfees⟩ := map_eq_some_iff.mp h'
    exact ⟨p₀, p, p', quote, hp₀, hp, hquote, hp', h.1, hfees⟩

end Nautilus
