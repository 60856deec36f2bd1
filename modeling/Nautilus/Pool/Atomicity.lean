import Nautilus.Pool.Operations
import Nautilus.Pool.Replay

/-!
# Refused changes of liquidity

A mint that is refused has changed nothing. A burn enters the position it looks up before it checks
the amount, so a refused burn of a position that is not there leaves an empty one.
-/

namespace Nautilus

open Lib Option

namespace PoolProfiler

variable {p p' : PoolProfiler} {owner : Address} {tickLower tickUpper : Int} {e : PoolError}
  {liquidity amount0 amount1 : Nat} {x : Outcome PoolError PoolProfiler}
  {count : PoolProfiler → PoolProfiler}

theorem enterPosition_eq_self_iff : p.enterPosition owner tickLower tickUpper = p ↔
    p.positions.get? ⟨owner, tickLower, tickUpper⟩ ≠ none := by
  unfold enterPosition positionOrInsert
  constructor
  · intro h hnone
    have hget := congrArg (·.positions.get? ⟨owner, tickLower, tickUpper⟩) h
    simp [hnone] at hget
  · intro h
    obtain ⟨_, hposition⟩ := ne_none_iff_exists'.mp h
    rw [hposition, getD_some, OrdMap.insert_of_get? hposition]

theorem of_addLiquidity_refused
    (h : p.addLiquidity owner tickLower tickUpper liquidity amount0 amount1 =
      some (p', .error e)) : p' = p := by
  unfold addLiquidity toLiquidityDelta at h
  by_cases hfits : liquidity < 2 ^ 127
  · rw [if_pos hfits] at h
    obtain ⟨⟨q, _ | _⟩, hq, heq⟩ := map_eq_some_iff.mp h
    · -- only a burn is refused by `update_position`
      unfold updatePosition at hq
      simp only at hq
      rw [if_neg fun hneg => absurd hneg.1 (by omega)] at hq
      obtain ⟨_, -, heq⟩ := map_eq_some_iff.mp hq
      cases heq
    · cases heq
  · rw [if_neg hfits] at h
    cases h
    rfl

/-- A burn that its position does not cover, of a position that is not there. -/
def EntersPosition (p : PoolProfiler) (owner : Address) (tickLower tickUpper : Int)
    (liquidity : Nat) : Prop :=
  p.validateTicks tickLower tickUpper = .ok () ∧ liquidity < 2 ^ 127 ∧
    p.positions.get? ⟨owner, tickLower, tickUpper⟩ = none

theorem of_removeLiquidity_refused (hvalid : p.validateTicks tickLower tickUpper = .ok ())
    (h : p.removeLiquidity owner tickLower tickUpper liquidity amount0 amount1 =
      some (p', .error e)) :
    p' = p ↔ ¬ p.EntersPosition owner tickLower tickUpper liquidity := by
  unfold removeLiquidity toLiquidityDelta at h
  by_cases hfits : liquidity < 2 ^ 127
  · rw [if_pos hfits] at h
    obtain ⟨_, -, rfl⟩ | ⟨hok, -⟩ := updatePosition_cases h
    · rw [enterPosition_eq_self_iff]
      exact ⟨fun h henters => h henters.2.2, fun h hnone => h ⟨hvalid, hfits, hnone⟩⟩
    · nomatch hok
  · rw [if_neg hfits] at h
    cases h
    exact iff_of_true rfl fun h => hfits h.2.1

/-- A processed mint or burn is refused by its ticks, or by the change `x` of the liquidity. -/
theorem of_processed_refused {block : BlockPosition}
    (h : (if !p.isInitialized then none
      else if p.checkIfAlreadyProcessed block then some (p, .ok ())
      else p.liquidityEvent tickLower tickUpper block x count) = some (p', .error e)) :
    (p.validateTicks tickLower tickUpper ≠ .ok () ∧ p' = p) ∨
      (p.validateTicks tickLower tickUpper = .ok () ∧ x = some (p', .error e)) := by
  split at h
  · nomatch h
  split at h
  · nomatch h
  obtain ⟨hinvalid, hp, -⟩ | ⟨hvalid, ⟨_, heq, hx⟩ | ⟨q, -, hfinish⟩⟩ := of_liquidityEvent h
  · exact .inl ⟨hinvalid, hp⟩
  · cases heq
    exact .inr ⟨hvalid, hx⟩
  · nomatch (of_finishEvent hfinish).1

/-- The same of a simulated one. -/
theorem of_executed_refused {amounts : Option (Nat × Nat)}
    {change : Nat → Nat → Outcome PoolError PoolProfiler}
    (h : p.executed tickLower tickUpper amounts change count = some (p', .error e)) :
    (p.validateTicks tickLower tickUpper ≠ .ok () ∧ p' = p) ∨
      (p.validateTicks tickLower tickUpper = .ok () ∧
        ∃ amount0 amount1, change amount0 amount1 = some (p', .error e)) := by
  obtain ⟨hinvalid, hp, -⟩ | ⟨hvalid, amount0, amount1, q, -, hq, ⟨_, -, rfl⟩ | ⟨hok, -⟩⟩ :=
    of_executed h
  · exact .inl ⟨hinvalid, hp⟩
  · exact .inr ⟨hvalid, amount0, amount1, hq⟩
  · nomatch hok

/-- **A refused mint or burn leaves the profiler as it was unless it is a burn that enters a
position.** -/
theorem refused_unchanged_iff (p : PoolProfiler) (update : PoolLiquidityUpdate) (p' : PoolProfiler)
    (e : PoolError) : (p.processMint update = some (p', .error e) → p' = p) ∧
    (p.executeMint update.owner update.tickLower update.tickUpper update.positionLiquidity =
      some (p', .error e) → p' = p) ∧
    (p.processBurn update = some (p', .error e) → (p' = p ↔ ¬ p.EntersPosition update.owner
      update.tickLower update.tickUpper update.positionLiquidity)) ∧
    (p.executeBurn update.owner update.tickLower update.tickUpper update.positionLiquidity =
      some (p', .error e) → (p' = p ↔ ¬ p.EntersPosition update.owner update.tickLower
        update.tickUpper update.positionLiquidity)) := by
  refine ⟨fun h => ?_, fun h => ?_, fun h => ?_, fun h => ?_⟩
  · obtain ⟨-, rfl⟩ | ⟨-, hadd⟩ := of_processed_refused h
    · rfl
    · exact of_addLiquidity_refused hadd
  · obtain ⟨-, rfl⟩ | ⟨-, _, _, hadd⟩ := of_executed_refused h
    · rfl
    · exact of_addLiquidity_refused hadd
  · obtain ⟨hinvalid, rfl⟩ | ⟨hvalid, hremove⟩ := of_processed_refused h
    · exact iff_of_true rfl fun henters => hinvalid henters.1
    · exact of_removeLiquidity_refused hvalid hremove
  · obtain ⟨hinvalid, rfl⟩ | ⟨hvalid, _, _, hremove⟩ := of_executed_refused h
    · exact iff_of_true rfl fun henters => hinvalid henters.1
    · exact of_removeLiquidity_refused hvalid hremove

end PoolProfiler

open PoolProfiler

open Sample

/-- A burn of more than the position has is refused, and leaves it. -/
theorem refused_unchanged_iff_covered :
    ∃ (p p' : PoolProfiler) (e : PoolError),
      p.executeBurn ⟨"0x0a"⟩ (-120) 120 2 = some (p', .error e) ∧ p' = p := by
  obtain ⟨p, -, h⟩ := bind_eq_some_iff.mp
    (show (poolAtOne.bind fun p => (p.executeMint ⟨"0x0a"⟩ (-120) 120 1).bind fun x =>
      (x.1.executeBurn ⟨"0x0a"⟩ (-120) 120 2).map fun y =>
        (y.2.toBool, (x.1.positions.get? ⟨⟨"0x0a"⟩, -120, 120⟩).isSome)) = some (false, true) by
      decide +kernel)
  obtain ⟨⟨minted, _⟩, -, h⟩ := bind_eq_some_iff.mp h
  obtain ⟨⟨p', e | _⟩, hburn, h⟩ := map_eq_some_iff.mp h
  · refine ⟨minted, p', e, hburn, ((refused_unchanged_iff minted
      ⟨.burn, blockAt 1, ⟨"0x0a"⟩, 2, 0, 0, -120, 120⟩ p' e).2.2.2 hburn).mpr ?_⟩
    intro henters
    have hsome := congrArg Prod.snd h
    rw [henters.2.2] at hsome
    nomatch hsome
  · nomatch h

/-- A burn of a pool without positions is refused, and leaves one. -/
theorem refused_burn_enters_position :
    ∃ p p' e, poolAtOne = some p ∧
      p.executeBurn ⟨"0x0a"⟩ (-120) 120 1 = some (p', .error e) ∧
      p.positions.values = [] ∧ p'.positions.values = [.new ⟨"0x0a"⟩ (-120) 120] := by
  obtain ⟨p, hp, h⟩ := bind_eq_some_iff.mp
    (show (poolAtOne.bind fun p => (p.executeBurn ⟨"0x0a"⟩ (-120) 120 1).map fun x =>
      (x.2.toBool, p.positions.values, x.1.positions.values)) =
        some (false, [], [.new ⟨"0x0a"⟩ (-120) 120]) by
      decide +kernel)
  obtain ⟨⟨p', e | _⟩, hburn, h⟩ := map_eq_some_iff.mp h
  · simp only [Prod.mk.injEq] at h
    exact ⟨p, p', e, hp, hburn, h.2⟩
  · nomatch h

end Nautilus
