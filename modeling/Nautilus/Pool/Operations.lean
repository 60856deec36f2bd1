import Nautilus.Pool.Events

/-!
# Operations

A profiler is moved by the events of its pool and by simulated operations. `PoolOp` is either, and
`perform` runs it.
-/

namespace Nautilus

open Lib Option

/-- An operation on a profiler, with the rounds a simulated swap may take. -/
inductive PoolOp where
  | process (fuel : Nat) (event : DexPoolData)
  | executeMint (recipient : Address) (tickLower tickUpper : Int) (liquidity : Nat)
  | executeBurn (recipient : Address) (tickLower tickUpper : Int) (liquidity : Nat)
  | executeSwap (fuel : Nat) (zeroForOne : Bool) (amountSpecified : Int) (sqrtPriceLimitX96 : Nat)
  | executeFlash (amount0 amount1 : Nat)

structure PositionUpdate where
  owner : Address
  tickLower : Int
  tickUpper : Int
  liquidityDelta : Int
  amount0 : Nat
  amount1 : Nat
deriving DecidableEq

def PositionUpdate.key (update : PositionUpdate) : PositionKey :=
  ⟨update.owner, update.tickLower, update.tickUpper⟩

namespace PoolProfiler

variable {p p' q : PoolProfiler} {fuel : Nat} {r : Except PoolError Unit} {op : PoolOp}

def perform (p : PoolProfiler) : PoolOp → Outcome PoolError PoolProfiler
  | .process fuel event => p.process fuel event
  | .executeMint recipient tickLower tickUpper liquidity =>
    p.executeMint recipient tickLower tickUpper liquidity
  | .executeBurn recipient tickLower tickUpper liquidity =>
    p.executeBurn recipient tickLower tickUpper liquidity
  | .executeSwap fuel zeroForOne amountSpecified sqrtPriceLimitX96 =>
    p.executeSwap fuel zeroForOne amountSpecified sqrtPriceLimitX96
  | .executeFlash amount0 amount1 => p.executeFlash amount0 amount1

/-- An operation as a step; one that is refused leaves what it did before. -/
def performStep (p : PoolProfiler) (op : PoolOp) : Option PoolProfiler := (p.perform op).map Prod.fst

/-- The position update of an operation: a mint or a burn, unless the event is skipped. The amounts
of a simulated one come from the price. -/
def positionUpdate (p : PoolProfiler) : PoolOp → Option PositionUpdate
  | .process _ (.liquidityUpdate update) =>
    if p.checkIfAlreadyProcessed update.block then none
    else some ⟨update.owner, update.tickLower, update.tickUpper, match update.kind with
      | .mint => (update.positionLiquidity : Int)
      | .burn => -(update.positionLiquidity : Int), update.amount0, update.amount1⟩
  | .executeMint recipient tickLower tickUpper liquidity =>
    (getAmountsForLiquidity p.state.priceSqrtRatioX96 tickLower tickUpper liquidity true).map
      fun (amount0, amount1) => ⟨recipient, tickLower, tickUpper, liquidity, amount0, amount1⟩
  | .executeBurn recipient tickLower tickUpper liquidity =>
    (getAmountsForLiquidity p.state.priceSqrtRatioX96 tickLower tickUpper liquidity false).map
      fun (amount0, amount1) => ⟨recipient, tickLower, tickUpper, -liquidity, amount0, amount1⟩
  | _ => none

/-- What an operation did to the positions, the ticks and the state. -/
inductive Performed (p : PoolProfiler) : PoolOp → PoolProfiler → Except PoolError Unit → Prop
  | skipped (fuel : Nat) (event : DexPoolData)
      (old : p.checkIfAlreadyProcessed event.block = true) :
      Performed p (.process fuel event) p (.ok ())
  | refused (op : PoolOp) (e : PoolError) : Performed p op p (.error e)
  | corrected (fuel : Nat) (swap : PoolSwap) (quote : SwapQuote) (applied : PoolProfiler)
      (applies : p.applySwapQuote quote = some applied) :
      Performed p (.process fuel (.swap swap)) (applied.correctFrom swap) (.ok ())
  | swapped (fuel : Nat) (zeroForOne : Bool) (amountSpecified : Int) (limit : Nat)
      (quote : SwapQuote) (applied : PoolProfiler)
      (simulated : (p.simulateSwapThroughTicks fuel amountSpecified zeroForOne limit).run =
        some (.ok quote))
      (applies : p.applySwapQuote quote = some applied) :
      Performed p (.executeSwap fuel zeroForOne amountSpecified limit) applied (.ok ())
  | updated (op : PoolOp) (update : PositionUpdate) (q : PoolProfiler)
      (result : Except PoolError Unit) (asked : p.positionUpdate op = some update)
      (valid : p.validateTicks update.tickLower update.tickUpper = .ok ())
      (fits : update.liquidityDelta.natAbs < 2 ^ 127)
      (updates : p.updatePosition update.owner update.tickLower update.tickUpper
        update.liquidityDelta update.amount0 update.amount1 = some (q, result)) :
      Performed p op q result
  | collected (fuel : Nat) (collect : PoolFeeCollect) :
      Performed p (.process fuel (.feeCollect collect))
        (p.collectPosition ⟨collect.owner, collect.tickLower, collect.tickUpper⟩ collect.amount0
          collect.amount1) (.ok ())
  | flashed (op : PoolOp) (paid0 paid1 : Nat) (q : PoolProfiler) (result : Except PoolError Unit)
      (other : p.positionUpdate op = none) (flashes : p.updateFlashState paid0 paid1 = (q, result)) :
      Performed p op q result

theorem performed_of_handled {event : DexPoolData} (h : Handled fuel p event q r)
    (hnew : p.checkIfAlreadyProcessed event.block = false) :
    Performed p (.process fuel event) q r := by
  cases h with
  | swapFailed swap e hfailed => exact .refused _ e
  | swapped swap quote applied hsim happly => exact .corrected fuel swap quote applied happly
  | updateInvalid update e => exact .refused _ e
  | updated update delta _ _ hvalid hfits hdelta hupdate =>
    refine .updated _ ⟨update.owner, update.tickLower, update.tickUpper, delta, update.amount0,
      update.amount1⟩ _ _ ?_ hvalid ?_ hupdate
    · show (if p.checkIfAlreadyProcessed update.block then none else some _) = _
      rw [show p.checkIfAlreadyProcessed update.block = false from hnew, hdelta]
      rfl
    · rw [hdelta]
      cases update.kind <;> simpa using hfits
  | collected collect => exact .collected fuel collect
  | flashed flash => exact .flashed _ flash.paid0 flash.paid1 _ _ rfl rfl

section

variable {recipient : Address} {tickLower tickUpper : Int} {amounts : Option (Nat × Nat)}
  {change : Nat → Nat → Outcome PoolError PoolProfiler} {count : PoolProfiler → PoolProfiler}

/-- The steps of a simulated mint and burn. -/
abbrev executed (p : PoolProfiler) (tickLower tickUpper : Int) (amounts : Option (Nat × Nat))
    (change : Nat → Nat → Outcome PoolError PoolProfiler) (count : PoolProfiler → PoolProfiler) :
    Outcome PoolError PoolProfiler :=
  if !p.isInitialized then none
  else
    match p.validateTicks tickLower tickUpper with
    | .error e => some (p, .error e)
    | .ok () => amounts.bind fun (amount0, amount1) => (change amount0 amount1).map fun
      | (q, .error e) => (q, .error e)
      | (q, .ok ()) => (count q, .ok ())

/-- The ticks are refused, or it is the change of the liquidity, counted unless that is refused. -/
theorem of_executed (h : p.executed tickLower tickUpper amounts change count = some (p', r)) :
    (p.validateTicks tickLower tickUpper ≠ .ok () ∧ p' = p ∧ ∃ e, r = .error e) ∨
      (p.validateTicks tickLower tickUpper = .ok () ∧ ∃ amount0 amount1 q,
        amounts = some (amount0, amount1) ∧ change amount0 amount1 = some (q, r) ∧
          ((∃ e, r = .error e ∧ p' = q) ∨ (r = .ok () ∧ p' = count q))) := by
  unfold executed at h
  split at h
  · nomatch h
  split at h
  · rename_i hinvalid
    cases h
    exact .inl ⟨by rw [hinvalid]; nofun, Eq.refl _, _, Eq.refl _⟩
  · obtain ⟨⟨amount0, amount1⟩, hamounts, h⟩ := bind_eq_some_iff.mp h
    obtain ⟨⟨q, _ | _⟩, hchange, heq⟩ := map_eq_some_iff.mp h <;> cases heq
    · exact .inr ⟨‹_›, amount0, amount1, _, hamounts, hchange, .inl ⟨_, Eq.refl _, Eq.refl _⟩⟩
    · exact .inr ⟨‹_›, amount0, amount1, q, hamounts, hchange, .inr ⟨Eq.refl _, Eq.refl _⟩⟩

/-- A simulated mint and a simulated burn differ in the `delta` of their update. -/
theorem performed_of_executed {delta : Int} {liquidity : Nat} (hdelta : delta.natAbs = liquidity)
    (hasked : p.positionUpdate op = amounts.map fun (amount0, amount1) =>
      ⟨recipient, tickLower, tickUpper, delta, amount0, amount1⟩)
    (hchange : ∀ {amount0 amount1 p' r}, change amount0 amount1 = some (p', r) →
      (∃ e, r = .error e ∧ p' = p) ∨ (liquidity < 2 ^ 127 ∧ ∃ q,
        p.updatePosition recipient tickLower tickUpper delta amount0 amount1 = some (q, r) ∧
          SameCore q p'))
    (hcount : ∀ q, SameCore q (count q))
    (h : p.executed tickLower tickUpper amounts change count = some (p', r)) :
    ∃ q, Performed p op q r ∧ SameCore q p' := by
  obtain ⟨-, rfl, e, rfl⟩ | ⟨hvalid, amount0, amount1, changed, rfl, hx, hlast⟩ := of_executed h
  · exact ⟨_, .refused _ e, SameCore.rfl⟩
  have hcore : SameCore changed p' := by
    obtain ⟨_, -, rfl⟩ | ⟨-, rfl⟩ := hlast
    · exact SameCore.rfl
    · exact hcount changed
  obtain ⟨e, rfl, rfl⟩ | ⟨hfits, q, hq, hsame⟩ := hchange hx
  · exact ⟨_, .refused _ e, hcore⟩
  · exact ⟨q, .updated _ _ q _ hasked hvalid (hdelta ▸ hfits) hq, hsame.trans hcore⟩

end

theorem performed_of_executeSwap {zeroForOne : Bool} {amountSpecified : Int} {limit : Nat}
    (h : p.executeSwap fuel zeroForOne amountSpecified limit = some (p', r)) :
    Performed p (.executeSwap fuel zeroForOne amountSpecified limit) p' r := by
  unfold executeSwap at h
  split at h
  · nomatch h
  split at h
  · nomatch h
  · cases h
    exact .refused _ _
  · rename_i quote hquote
    obtain ⟨_, happly, heq⟩ := map_eq_some_iff.mp h
    cases heq
    exact .swapped fuel zeroForOne amountSpecified limit quote p' hquote happly

theorem performed_of_executeFlash {amount0 amount1 : Nat}
    (h : p.executeFlash amount0 amount1 = some (p', r)) :
    ∃ q, Performed p (.executeFlash amount0 amount1) q r ∧ SameCore q p' := by
  unfold executeFlash at h
  split at h
  · nomatch h
  obtain ⟨_, -, h⟩ := bind_eq_some_iff.mp h
  split at h
  · cases h
    exact ⟨p, .refused _ _, SameCore.rfl⟩
  · cases h
    exact ⟨p, .refused _ _, SameCore.rfl⟩
  split at h
  · rename_i q e heq
    cases h
    exact ⟨_, .flashed _ _ _ _ _ (Eq.refl _) heq, SameCore.rfl⟩
  · rename_i q heq
    cases h
    exact ⟨_, .flashed _ _ _ _ _ (Eq.refl _) heq, .counting _⟩

/-- What an operation did, up to the analytics and the position of the last event. -/
theorem perform_cases (h : p.perform op = some (p', r)) :
    ∃ q, Performed p op q r ∧ SameCore q p' := by
  cases op with
  | process fuel event =>
    obtain ⟨hold, rfl, rfl⟩ | ⟨hnew, -, q, hhandled, hcore, -⟩ := process_cases h
    · exact ⟨_, .skipped fuel event hold, SameCore.rfl⟩
    · exact ⟨q, performed_of_handled hhandled hnew, hcore⟩
  | executeMint recipient tickLower tickUpper liquidity =>
    exact performed_of_executed (Int.natAbs_natCast liquidity) (Eq.refl _) addLiquidity_cases
      (fun _ => .counting _) h
  | executeBurn recipient tickLower tickUpper liquidity =>
    exact performed_of_executed (Int.natAbs_neg liquidity) (Eq.refl _) removeLiquidity_cases
      (fun _ => .counting _) h
  | executeSwap fuel zeroForOne amountSpecified limit =>
    exact ⟨p', performed_of_executeSwap h, SameCore.rfl⟩
  | executeFlash amount0 amount1 => exact performed_of_executeFlash h

/-- An operation that asks for an update of a position and is not refused has made it. -/
theorem of_update_performed {update : PositionUpdate} (h : p.perform op = some (p', .ok ()))
    (hasked : p.positionUpdate op = some update) :
    p.validateTicks update.tickLower update.tickUpper = .ok () ∧
      ∃ q, p.updatePosition update.owner update.tickLower update.tickUpper update.liquidityDelta
        update.amount0 update.amount1 = some (q, .ok ()) ∧ SameCore q p' := by
  obtain ⟨q, hperformed, hcore⟩ := perform_cases h
  cases hperformed with
  | skipped fuel event hold =>
    cases event with
    | liquidityUpdate event =>
      replace hold : p.checkIfAlreadyProcessed event.block = true := hold
      simp only [positionUpdate, if_pos hold] at hasked
      nomatch hasked
    | _ => nomatch hasked
  | corrected fuel swap quote applied happly => nomatch hasked
  | swapped fuel zeroForOne amount limit quote applied hsim happly => nomatch hasked
  | updated _ update' _ _ hasked' hvalid hfits hupdates =>
    cases hasked.symm.trans hasked'
    exact ⟨hvalid, q, hupdates, hcore⟩
  | collected fuel collect => nomatch hasked
  | flashed _ paid0 paid1 _ _ hother hflash => nomatch hasked.symm.trans hother

end PoolProfiler

end Nautilus
