import Nautilus.Lib.Run
import Nautilus.Pool.Profiler

/-!
# What an event does

`process` and the simulated operations, case by case. Everything later is derived from
`process_cases` and the lemmas on the parts it names. What the handlers add around a part (the
counters, the rate and the position of the last event) is left out of them by `SameCore`.
-/

namespace Nautilus

open Lib Option

variable {block : BlockPosition} {x : Outcome PoolError PoolProfiler}
  {count : PoolProfiler → PoolProfiler}

variable {owner : Address} {delta tickLower tickUpper : Int} {amount0 amount1 : Nat}
  {update : PoolLiquidityUpdate}

namespace PoolProfiler

variable {p p' q : PoolProfiler} {fuel : Nat} {r : Except PoolError Unit}

/-- Equal apart from the analytics and the position of the last event. -/
structure SameCore (p p' : PoolProfiler) : Prop where
  pool : p'.pool = p.pool
  positions : p'.positions = p.positions
  tickMap : p'.tickMap = p.tickMap
  state : p'.state = p.state
  isInitialized : p'.isInitialized = p.isInitialized

theorem SameCore.counting (analytics : PoolAnalytics) : SameCore p { p with analytics } :=
  ⟨Eq.refl _, Eq.refl _, Eq.refl _, Eq.refl _, Eq.refl _⟩

theorem SameCore.rfl : SameCore p p := .counting p.analytics

theorem SameCore.trans (h : SameCore p q) (h' : SameCore q p') : SameCore p p' where
  pool := h'.pool.trans h.pool
  positions := h'.positions.trans h.positions
  tickMap := h'.tickMap.trans h.tickMap
  state := h'.state.trans h.state
  isInitialized := h'.isInitialized.trans h.isInitialized

theorem of_finishEvent (h : p.finishEvent block = some (p', r)) :
    r = .ok () ∧ SameCore p p' ∧ p'.lastProcessedEvent = some block := by
  obtain ⟨q, hq, heq⟩ := map_eq_some_iff.mp h
  cases heq
  simp only [updateLiquidityAnalytics, ite_none_right_eq_some, some.injEq] at hq
  obtain ⟨-, rfl⟩ := hq
  exact ⟨Eq.refl _, ⟨Eq.refl _, Eq.refl _, Eq.refl _, Eq.refl _, Eq.refl _⟩, Eq.refl _⟩

/-- What an event that was not skipped did, up to the analytics. -/
inductive Handled (fuel : Nat) (p : PoolProfiler) :
    DexPoolData → PoolProfiler → Except PoolError Unit → Prop
  /-- The simulation failed. -/
  | swapFailed (swap : PoolSwap) (e : PoolError)
      (simulated : (p.simulateSwapThroughTicks fuel
        (if 0 < swap.amount0 then swap.amount0 else swap.amount1) (decide (0 < swap.amount0))
        swap.sqrtPriceX96).run = some (.error e)) :
      Handled fuel p (.swap swap) p (.error e)
  | swapped (swap : PoolSwap) (quote : SwapQuote) (applied : PoolProfiler)
      (simulated : (p.simulateSwapThroughTicks fuel
        (if 0 < swap.amount0 then swap.amount0 else swap.amount1) (decide (0 < swap.amount0))
        swap.sqrtPriceX96).run = some (.ok quote))
      (applies : p.applySwapQuote quote = some applied) :
      Handled fuel p (.swap swap) (applied.correctFrom swap) (.ok ())
  /-- The ticks or the amount are refused. -/
  | updateInvalid (update : PoolLiquidityUpdate) (e : PoolError) :
      Handled fuel p (.liquidityUpdate update) p (.error e)
  | updated (update : PoolLiquidityUpdate) (liquidityDelta : Int) (q : PoolProfiler)
      (result : Except PoolError Unit)
      (valid : p.validateTicks update.tickLower update.tickUpper = .ok ())
      (fits : update.positionLiquidity < 2 ^ 127)
      (delta : liquidityDelta = match update.kind with
        | .mint => (update.positionLiquidity : Int)
        | .burn => -(update.positionLiquidity : Int))
      (updates : p.updatePosition update.owner update.tickLower update.tickUpper liquidityDelta
        update.amount0 update.amount1 = some (q, result)) :
      Handled fuel p (.liquidityUpdate update) q result
  | collected (collect : PoolFeeCollect) :
      Handled fuel p (.feeCollect collect)
        (p.collectPosition ⟨collect.owner, collect.tickLower, collect.tickUpper⟩ collect.amount0
          collect.amount1) (.ok ())
  | flashed (flash : PoolFlash) :
      Handled fuel p (.flash flash) (p.updateFlashState flash.paid0 flash.paid1).1
        (p.updateFlashState flash.paid0 flash.paid1).2

/-- Liquidity that does not fit is refused; otherwise the position is updated. -/
theorem addLiquidity_cases {liquidity : Nat}
    (h : p.addLiquidity owner tickLower tickUpper liquidity amount0 amount1 = some (p', r)) :
    (∃ e, r = .error e ∧ p' = p) ∨ (liquidity < 2 ^ 127 ∧
      ∃ q, p.updatePosition owner tickLower tickUpper liquidity amount0 amount1 = some (q, r) ∧
        SameCore q p') := by
  unfold addLiquidity toLiquidityDelta at h
  by_cases hfits : liquidity < 2 ^ 127
  · rw [if_pos hfits] at h
    obtain ⟨⟨q, e | u⟩, hq, heq⟩ := map_eq_some_iff.mp h
    · cases heq
      exact .inr ⟨hfits, _, hq, SameCore.rfl⟩
    · cases heq
      exact .inr ⟨hfits, q, hq, .counting _⟩
  · rw [if_neg hfits] at h
    cases h
    exact .inl ⟨_, Eq.refl _, Eq.refl _⟩

theorem removeLiquidity_cases {liquidity : Nat}
    (h : p.removeLiquidity owner tickLower tickUpper liquidity amount0 amount1 = some (p', r)) :
    (∃ e, r = .error e ∧ p' = p) ∨ (liquidity < 2 ^ 127 ∧
      ∃ q, p.updatePosition owner tickLower tickUpper (-liquidity) amount0 amount1 = some (q, r) ∧
        SameCore q p') := by
  unfold removeLiquidity toLiquidityDelta at h
  by_cases hfits : liquidity < 2 ^ 127
  · rw [if_pos hfits] at h
    exact .inr ⟨hfits, p', h, SameCore.rfl⟩
  · rw [if_neg hfits] at h
    cases h
    exact .inl ⟨_, Eq.refl _, Eq.refl _⟩

/-- The event was handled, and counted at the end of its handler unless it was refused. -/
def Counted (fuel : Nat) (p : PoolProfiler) (event : DexPoolData) (p' : PoolProfiler)
    (r : Except PoolError Unit) : Prop :=
  ∃ q, Handled fuel p event q r ∧ SameCore q p' ∧
    (r = .ok () → ∃ q' : PoolProfiler, q'.finishEvent event.block = some (p', .ok ()))

theorem of_guards {y : Outcome PoolError PoolProfiler}
    (h : (if !p.isInitialized then none
      else if p.checkIfAlreadyProcessed block then y else x) = some (p', r))
    (hnew : p.checkIfAlreadyProcessed block = false) :
    p.isInitialized = true ∧ x = some (p', r) := by
  rw [hnew] at h
  cases hinit : p.isInitialized with
  | false => simp [hinit] at h
  | true => simpa [hinit] using h

theorem counted_of_finishEvent {event : DexPoolData} (hhandled : Handled fuel p event q (.ok ()))
    {last : PoolProfiler} (h : last.finishEvent event.block = some (p', r))
    (hsame : SameCore q last) : Counted fuel p event p' r := by
  obtain ⟨rfl, hcore, -⟩ := of_finishEvent h
  exact ⟨q, hhandled, hsame.trans hcore, fun _ => ⟨last, h⟩⟩

theorem counted_of_processSwap {swap : PoolSwap} (h : p.processSwap fuel swap = some (p', r))
    (hnew : p.checkIfAlreadyProcessed swap.block = false) :
    p.isInitialized = true ∧ Counted fuel p (.swap swap) p' r := by
  obtain ⟨hinit, h⟩ := of_guards h hnew
  refine ⟨hinit, ?_⟩
  simp only [decide_eq_true_eq] at h
  split at h
  · nomatch h
  · rename_i e hfailed
    cases h
    exact ⟨p, .swapFailed swap e hfailed, SameCore.rfl, nofun⟩
  · rename_i quote hquote
    obtain ⟨applied, happly, hfinish⟩ := bind_eq_some_iff.mp h
    exact counted_of_finishEvent (.swapped swap quote applied hquote happly) hfinish SameCore.rfl

/-- A mint or a burn that is not skipped: the ticks, the change `x` of the liquidity and the
counter. -/
abbrev liquidityEvent (p : PoolProfiler) (tickLower tickUpper : Int) (block : BlockPosition)
    (x : Outcome PoolError PoolProfiler) (count : PoolProfiler → PoolProfiler) :
    Outcome PoolError PoolProfiler :=
  match p.validateTicks tickLower tickUpper with
  | .error e => some (p, .error e)
  | .ok () => x.bind fun
    | (q, .error e) => some (q, .error e)
    | (q, .ok ()) => (count q).finishEvent block

theorem of_liquidityEvent (h : p.liquidityEvent tickLower tickUpper block x count = some (p', r)) :
    (p.validateTicks tickLower tickUpper ≠ .ok () ∧ p' = p ∧ ∃ e, r = .error e) ∨
      (p.validateTicks tickLower tickUpper = .ok () ∧
        ((∃ e, r = .error e ∧ x = some (p', .error e)) ∨
          ∃ q, x = some (q, .ok ()) ∧ (count q).finishEvent block = some (p', r))) := by
  unfold liquidityEvent at h
  split at h
  · rename_i hinvalid
    cases h
    exact .inl ⟨by rw [hinvalid]; nofun, Eq.refl _, _, Eq.refl _⟩
  · obtain ⟨⟨q, e | _⟩, hx, hrest⟩ := bind_eq_some_iff.mp h
    · cases hrest
      exact .inr ⟨‹_›, .inl ⟨_, Eq.refl _, hx⟩⟩
    · exact .inr ⟨‹_›, .inr ⟨q, hx, hrest⟩⟩

/-- A mint and a burn differ in the change `x` of the liquidity, with its `delta`, and in the
counter. -/
theorem counted_of_update (hdelta : delta = match update.kind with
      | .mint => (update.positionLiquidity : Int)
      | .burn => -(update.positionLiquidity : Int)) (hx : ∀ {p' r}, x = some (p', r) →
      (∃ e, r = .error e ∧ p' = p) ∨ (update.positionLiquidity < 2 ^ 127 ∧
        ∃ q, p.updatePosition update.owner update.tickLower update.tickUpper delta update.amount0
          update.amount1 = some (q, r) ∧ SameCore q p'))
    (h : p.liquidityEvent update.tickLower update.tickUpper update.block x count = some (p', r))
    (hcount : ∀ q, SameCore q (count q)) : Counted fuel p (.liquidityUpdate update) p' r := by
  obtain ⟨-, rfl, e, rfl⟩ | ⟨hvalid, ⟨e, rfl, hchange⟩ | ⟨changed, hchange, hfinish⟩⟩ :=
    of_liquidityEvent h
  · exact ⟨p', .updateInvalid update e, SameCore.rfl, nofun⟩
  · obtain ⟨_, -, rfl⟩ | ⟨hfits, q, hq, hsame⟩ := hx hchange
    · exact ⟨p', .updateInvalid update e, SameCore.rfl, nofun⟩
    · exact ⟨q, .updated update _ q _ hvalid hfits hdelta hq, hsame, nofun⟩
  · obtain ⟨_, he, -⟩ | ⟨hfits, q, hq, hsame⟩ := hx hchange
    · nomatch he
    · exact counted_of_finishEvent (.updated update _ q _ hvalid hfits hdelta hq)
        hfinish (hsame.trans (hcount changed))

theorem counted_of_processFlash {flash : PoolFlash} (h : p.processFlash flash = some (p', r))
    (hnew : p.checkIfAlreadyProcessed flash.block = false) :
    p.isInitialized = true ∧ Counted fuel p (.flash flash) p' r := by
  obtain ⟨hinit, h⟩ := of_guards h hnew
  refine ⟨hinit, ?_⟩
  have hflash : Handled fuel p (.flash flash) _ _ := .flashed flash
  split at h
  · rename_i q e heq
    cases h
    rw [heq] at hflash
    exact ⟨_, hflash, SameCore.rfl, nofun⟩
  · rename_i q heq
    rw [heq] at hflash
    exact counted_of_finishEvent hflash h (.counting _)

/-- An event is skipped, or handled and then counted. -/
theorem process_cases {event : DexPoolData} (h : p.process fuel event = some (p', r)) :
    (p.checkIfAlreadyProcessed event.block = true ∧ p' = p ∧ r = .ok ()) ∨
      (p.checkIfAlreadyProcessed event.block = false ∧ p.isInitialized = true ∧
        Counted fuel p event p' r) := by
  unfold process at h
  cases hnew : p.checkIfAlreadyProcessed event.block with
  | true =>
    rw [if_pos hnew] at h
    cases h
    exact .inl ⟨Eq.refl _, Eq.refl _, Eq.refl _⟩
  | false =>
    rw [hnew, if_neg Bool.false_ne_true] at h
    refine .inr ⟨Eq.refl _, ?_⟩
    cases event with
    | swap swap => exact counted_of_processSwap h hnew
    | liquidityUpdate update =>
      cases hkind : update.kind with
      | mint =>
        simp only [hkind] at h
        obtain ⟨hinit, h⟩ := of_guards h hnew
        exact ⟨hinit, counted_of_update (by rw [hkind]) addLiquidity_cases h fun _ => .counting _⟩
      | burn =>
        simp only [hkind] at h
        obtain ⟨hinit, h⟩ := of_guards h hnew
        exact ⟨hinit, counted_of_update (by rw [hkind]) removeLiquidity_cases h fun _ => .counting _⟩
    | feeCollect collect =>
      obtain ⟨hinit, h⟩ := of_guards h hnew
      exact ⟨hinit, counted_of_finishEvent (.collected collect) h (.counting _)⟩
    | flash flash => exact counted_of_processFlash h hnew

/-- A change of liquidity: the two ticks, the growth inside the range, the active liquidity, the
position. -/
structure LiquidityChange (p : PoolProfiler) (position : PoolPosition) (delta : Int)
    (amount0 amount1 : Nat) (p' : PoolProfiler) (lower upper : TickMap × Bool)
    (inside : TickMap × Nat × Nat) (liquidity : Nat) : Prop where
  lowerUpdate : p.tickMap.update position.tickLower p.state.currentTick delta false
    p.state.feeGrowthGlobal0 p.state.feeGrowthGlobal1 = some lower
  upperUpdate : lower.1.update position.tickUpper p.state.currentTick delta true
    p.state.feeGrowthGlobal0 p.state.feeGrowthGlobal1 = some upper
  growth : inside = upper.1.getFeeGrowthInside position.tickLower position.tickUpper
    p.state.currentTick p.state.feeGrowthGlobal0 p.state.feeGrowthGlobal1
  active : (if position.tickLower ≤ p.state.currentTick ∧ p.state.currentTick < position.tickUpper
    then liquidityMathAdd inside.1.liquidity delta else some inside.1.liquidity) = some liquidity
  tickMap : p'.tickMap =
    let changed := { inside.1 with liquidity }
    let changed := if delta < 0 ∧ lower.2 then changed.clear position.tickLower else changed
    if delta < 0 ∧ upper.2 then changed.clear position.tickUpper else changed
  rest : p' = { p with
    tickMap := p'.tickMap
    positions := p.positions.insert position.key
      (((position.updateLiquidity delta).updateFees inside.2.1 inside.2.2).updateAmounts delta
        amount0 amount1) }

theorem of_changeLiquidity {position : PoolPosition}
    (h : p.changeLiquidity position delta amount0 amount1 = some p') :
    ∃ lower upper inside liquidity,
      LiquidityChange p position delta amount0 amount1 p' lower upper inside liquidity := by
  simp only [changeLiquidity, bind_eq_bind, bind_eq_some_iff] at h
  obtain ⟨lower, hlower, upper, hupper, liquidity, hactive, h⟩ := h
  cases h
  exact ⟨lower, upper, _, liquidity, hlower, hupper, Eq.refl _, hactive, Eq.refl _, Eq.refl _⟩

/-- The profiler with the position that `update_position` looks up entered. -/
def enterPosition (p : PoolProfiler) (owner : Address) (tickLower tickUpper : Int) : PoolProfiler :=
  let positions := p.positions.insert ⟨owner, tickLower, tickUpper⟩
    (p.positionOrInsert owner tickLower tickUpper)
  { p with positions }

/-- `update_position` refuses the burn or changes the liquidity of the position it looked up. -/
theorem updatePosition_cases
    (h : p.updatePosition owner tickLower tickUpper delta amount0 amount1 = some (p', r)) :
    (∃ e, r = .error e ∧ p' = p.enterPosition owner tickLower tickUpper) ∨
      (r = .ok () ∧ (p.enterPosition owner tickLower tickUpper).changeLiquidity
        (p.positionOrInsert owner tickLower tickUpper) delta amount0 amount1 = some p') := by
  unfold updatePosition at h
  simp only at h
  split at h
  · cases h
    exact .inl ⟨_, Eq.refl _, Eq.refl _⟩
  · obtain ⟨q, hq, heq⟩ := map_eq_some_iff.mp h
    cases heq
    exact .inr ⟨Eq.refl _, hq⟩

end PoolProfiler

end Nautilus
