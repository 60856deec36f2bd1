import Nautilus.Pool.Operations
import Nautilus.Pool.Snapshot

/-!
# Fees of a position

A position earns, between two of its updates, its liquidity times the growth of the fee accumulator
inside its range, which is taken modulo `2 ^ 256`. `update_position` changes the liquidity first and
computes the fees from **the new liquidity**, and its difference of the accumulators stops at zero
instead of wrapping.

* `tokensOwed_after`: what an update makes of the tokens owed.
* `credits_of_steady`: a steady update credits what was earned.
* `fees_credited`: so does every update of a run of steady ones.
-/

namespace Nautilus

open Lib Option OrdMap U256 TickMap PoolProfiler

variable {position : PoolPosition}

/-- What a liquidity earned while the accumulator went from `insideLast` to `inside`. -/
def feesEarned (liquidity inside insideLast : Nat) : Nat :=
  liquidity * U256.sub inside insideLast / 2 ^ 128 % 2 ^ 128

/-- The same of the liquidity after the update and the difference that stops at zero. -/
def feesComputed (liquidityAfter inside insideLast : Nat) : Nat :=
  liquidityAfter * (inside - insideLast) / 2 ^ 128 % 2 ^ 128

/-- The part of a burn that is not fees. -/
def principal (liquidityDelta : Int) (amount : Nat) : Nat := if 0 < liquidityDelta then 0 else amount

/-- The growth outside a tick that an update sees: a tick without liquidity is taken into use, and
by convention all growth so far was below it. -/
def PoolTick.outsideAtUpdate (tick : PoolTick) (current : Int) (growth outside : Nat) : Nat :=
  if tick.liquidityGross = 0 ∧ tick.value ≤ current then growth else outside

theorem TickMap.outside_touched (current : Int) (growth0 growth1 : Nat) {before after : PoolTick}
    {delta : Int} {upper : Bool} (h : before.updateLiquidity delta upper = some after) :
    (touched before after current growth0 growth1).value = before.value ∧
      (touched before after current growth0 growth1).feeGrowthOutside0 =
        before.outsideAtUpdate current growth0 before.feeGrowthOutside0 ∧
      (touched before after current growth0 growth1).feeGrowthOutside1 =
        before.outsideAtUpdate current growth1 before.feeGrowthOutside1 := by
  obtain ⟨_, -, rfl⟩ := map_eq_some_iff.mp h
  unfold touched PoolTick.outsideAtUpdate
  by_cases hgross : before.liquidityGross = 0
  · rw [if_pos hgross]
    by_cases hbelow : before.value ≤ current
    · simp [hgross, hbelow]
    · simp [hgross, hbelow]
  · simp [hgross]

theorem TickMap.snd_getFeeGrowthInside {m : TickMap} {lower upper current : Int}
    {growth0 growth1 : Nat} :
    (m.getFeeGrowthInside lower upper current growth0 growth1).2 =
      (sub (sub growth0 (growthBelow current (m.tickOrInit lower) growth0
          (m.tickOrInit lower).feeGrowthOutside0))
        (growthAbove current (m.tickOrInit upper) growth0 (m.tickOrInit upper).feeGrowthOutside0),
      sub (sub growth1 (growthBelow current (m.tickOrInit lower) growth1
          (m.tickOrInit lower).feeGrowthOutside1))
        (growthAbove current (m.tickOrInit upper) growth1 (m.tickOrInit upper).feeGrowthOutside1)) := by
  have hsame : ∀ t, (m.getFeeGrowthInside lower upper current growth0 growth1).1.tickOrInit t =
      m.tickOrInit t := fun _ => tickOrInit_getFeeGrowthInside
  rw [← hsame lower, ← hsame upper]
  rfl

namespace PoolProfiler

variable {p p' q : PoolProfiler} {op : PoolOp} {update : PositionUpdate}

/-- The growth inside a range in the state before an update, for one token. -/
def growthInside (p : PoolProfiler) (tickLower tickUpper : Int) (growth : Nat)
    (outside : PoolTick → Nat) : Nat :=
  let lower := p.tickMap.tickOrInit tickLower
  let upper := p.tickMap.tickOrInit tickUpper
  let current := p.state.currentTick
  U256.sub (U256.sub growth
    (TickMap.growthBelow current lower growth (lower.outsideAtUpdate current growth (outside lower))))
    (TickMap.growthAbove current upper growth (upper.outsideAtUpdate current growth (outside upper)))

def growthInside0 (p : PoolProfiler) (tickLower tickUpper : Int) : Nat :=
  p.growthInside tickLower tickUpper p.state.feeGrowthGlobal0 (·.feeGrowthOutside0)

def growthInside1 (p : PoolProfiler) (tickLower tickUpper : Int) : Nat :=
  p.growthInside tickLower tickUpper p.state.feeGrowthGlobal1 (·.feeGrowthOutside1)

/-- The growth that an update uses is the growth in the state before it. -/
theorem LiquidityChange.growthInside_eq {delta : Int} {amount0 amount1 : Nat}
    {lower upper : TickMap × Bool} {inside : TickMap × Nat × Nat} {liquidity : Nat}
    (h : LiquidityChange p position delta amount0 amount1 p' lower upper inside liquidity)
    (horder : position.tickLower < position.tickUpper) :
    inside.2 = (p.growthInside0 position.tickLower position.tickUpper,
      p.growthInside1 position.tickLower position.tickUpper) := by
  obtain ⟨afterLower, hlower⟩ := of_update h.lowerUpdate
  obtain ⟨afterUpper, hupper⟩ := of_update h.upperUpdate
  have hatLower : upper.1.tickOrInit position.tickLower = touched
      (p.tickMap.tickOrInit position.tickLower) afterLower p.state.currentTick
      p.state.feeGrowthGlobal0 p.state.feeGrowthGlobal1 := by
    rw [hupper.tickOrInit_eq, if_neg (by omega), hlower.tickOrInit_eq, if_pos rfl]
  have hbefore : lower.1.tickOrInit position.tickUpper = p.tickMap.tickOrInit position.tickUpper := by
    rw [hlower.tickOrInit_eq, if_neg (by omega)]
  have hatUpper : upper.1.tickOrInit position.tickUpper = touched
      (p.tickMap.tickOrInit position.tickUpper) afterUpper p.state.currentTick
      p.state.feeGrowthGlobal0 p.state.feeGrowthGlobal1 := by
    rw [hupper.tickOrInit_eq, if_pos rfl, hbefore]
  have hupdatesUpper := hupper.updates
  rw [hbefore] at hupdatesUpper
  obtain ⟨hvalueL, houtside0L, houtside1L⟩ := outside_touched p.state.currentTick
    p.state.feeGrowthGlobal0 p.state.feeGrowthGlobal1 hlower.updates
  obtain ⟨hvalueU, houtside0U, houtside1U⟩ := outside_touched p.state.currentTick
    p.state.feeGrowthGlobal0 p.state.feeGrowthGlobal1 hupdatesUpper
  rw [h.growth, snd_getFeeGrowthInside, hatLower, hatUpper]
  simp only [growthBelow, growthAbove, hvalueL, hvalueU, houtside0L, houtside1L,
    houtside0U, houtside1U, growthInside0, growthInside1, growthInside]

/-! ## One update -/

/-- Positions are stored under their own keys, and their liquidity is a `u128`. -/
structure PositionsFit (positions : OrdMap PositionKey.cmp PoolPosition) : Prop where
  keyed : Keyed positions
  bounded : ∀ key position, positions.get? key = some position → position.liquidity < 2 ^ 128

def positionBefore (p : PoolProfiler) (update : PositionUpdate) : PoolPosition :=
  p.positionOrInsert update.owner update.tickLower update.tickUpper

/-- The update credits the fees earned and the principal of a burn. -/
def Credits (p : PoolProfiler) (update : PositionUpdate) (p' : PoolProfiler) : Prop :=
  let before := p.positionBefore update
  ∃ after, p'.positions.get? update.key = some after ∧
    after.tokensOwed0 % 2 ^ 128 = (before.tokensOwed0 +
      feesEarned before.liquidity (p.growthInside0 update.tickLower update.tickUpper)
        before.feeGrowthInside0Last + principal update.liquidityDelta update.amount0) % 2 ^ 128 ∧
    after.tokensOwed1 % 2 ^ 128 = (before.tokensOwed1 +
      feesEarned before.liquidity (p.growthInside1 update.tickLower update.tickUpper)
        before.feeGrowthInside1Last + principal update.liquidityDelta update.amount1) % 2 ^ 128

/-- For either token nothing has grown inside the range since the last update, or the liquidity
stays as it is and the growth has not wrapped. -/
def Steady (p : PoolProfiler) (update : PositionUpdate) : Prop :=
  let before := p.positionBefore update
  let inside0 := p.growthInside0 update.tickLower update.tickUpper
  let inside1 := p.growthInside1 update.tickLower update.tickUpper
  (inside0 = before.feeGrowthInside0Last ∨
      update.liquidityDelta = 0 ∧ before.feeGrowthInside0Last ≤ inside0) ∧
    (inside1 = before.feeGrowthInside1Last ∨
      update.liquidityDelta = 0 ∧ before.feeGrowthInside1Last ≤ inside1)

instance (p : PoolProfiler) (update : PositionUpdate) : Decidable (p.Steady update) :=
  inferInstanceAs (Decidable (_ ∧ _))

theorem feesOwed_eq {liquidity inside insideLast : Nat} (hliquidity : liquidity < 2 ^ 128)
    (hinside : inside < 2 ^ 256) :
    PoolPosition.feesOwed liquidity inside insideLast = feesComputed liquidity inside insideLast := by
  have hproduct : (inside - insideLast) * liquidity < 2 ^ 128 * 2 ^ 256 := by
    calc (inside - insideLast) * liquidity
        ≤ (2 ^ 256) * liquidity := Nat.mul_le_mul_right _ (by omega)
      _ < 2 ^ 256 * 2 ^ 128 := (Nat.mul_lt_mul_left (by decide)).mpr hliquidity
      _ = 2 ^ 128 * 2 ^ 256 := by decide
  have hdiv := FullMath.mulDiv_of_lt (by omega) (by omega) (by decide) hproduct
  unfold PoolPosition.feesOwed feesComputed FullMath.truncateToU128
  rw [hdiv, Nat.mul_comm liquidity]
  rfl

/-- What the two updates of a position make of a token it owes. -/
theorem tokensOwed_after (position : PoolPosition) {inside0 inside1 : Nat} (delta : Int)
    (amount0 amount1 : Nat) (hliquidity : position.liquidity < 2 ^ 128) (h0 : inside0 < 2 ^ 256)
    (h1 : inside1 < 2 ^ 256) :
    let after := (position.updateFees inside0 inside1).updateAmounts delta amount0 amount1
    after.tokensOwed0 % 2 ^ 128 = (position.tokensOwed0 +
        feesComputed position.liquidity inside0 position.feeGrowthInside0Last +
        principal delta amount0) % 2 ^ 128 ∧
      after.tokensOwed1 % 2 ^ 128 = (position.tokensOwed1 +
        feesComputed position.liquidity inside1 position.feeGrowthInside1Last +
        principal delta amount1) % 2 ^ 128 := by
  intro after
  by_cases hpos : 0 < position.liquidity
  · simp only [after, PoolPosition.updateFees, PoolPosition.updateAmounts, if_pos hpos,
      feesOwed_eq hliquidity h0, feesOwed_eq hliquidity h1, principal]
    split
    · simp [Word.add]
    · simp [Word.add, FullMath.truncateToU128, Nat.mod_add_mod, Nat.add_mod_mod]
  · have hnone : ∀ inside insideLast, feesComputed position.liquidity inside insideLast = 0 := by
      intro inside insideLast
      rw [show position.liquidity = 0 by omega, feesComputed, Nat.zero_mul]
      rfl
    simp only [after, PoolPosition.updateFees, PoolPosition.updateAmounts, if_neg hpos, principal,
      hnone, Nat.add_zero]
    split
    · exact ⟨rfl, rfl⟩
    · simp [Word.add, FullMath.truncateToU128, Nat.add_mod_mod]

theorem liquidity_updateLiquidity_lt (delta : Int) (h : position.liquidity < 2 ^ 128) :
    (position.updateLiquidity delta).liquidity < 2 ^ 128 := by
  unfold PoolPosition.updateLiquidity
  dsimp only
  split
  · omega
  · exact lt_of_le_of_lt (min_le_right _ _) (by decide)

/-- What the code computes was earned when nothing has grown, or when the liquidity stays as it is
and the growth has not wrapped. -/
theorem feesComputed_of_steady {delta : Int} {inside insideLast : Nat}
    (hliquidity : position.liquidity < 2 ^ 128) (hinside : inside < 2 ^ 256)
    (h : inside = insideLast ∨ delta = 0 ∧ insideLast ≤ inside) :
    feesComputed (position.updateLiquidity delta).liquidity inside insideLast =
      feesEarned position.liquidity inside insideLast := by
  have hsub : insideLast ≤ inside := by omega
  unfold feesComputed feesEarned U256.sub
  rw [Word.sub_of_le hinside hsub]
  rcases h with rfl | ⟨rfl, -⟩
  · rw [Nat.sub_self, Nat.mul_zero, Nat.mul_zero]
  · have hsame : (position.updateLiquidity 0).liquidity = position.liquidity := by
      show min (position.liquidity + (0 : Int).toNat) (2 ^ 128 - 1) = _
      omega
    rw [hsame]

theorem liquidity_positionBefore_lt (hp : PositionsFit p.positions) (update : PositionUpdate) :
    (p.positionBefore update).liquidity < 2 ^ 128 := by
  unfold positionBefore positionOrInsert
  cases hget : p.positions.get? ⟨update.owner, update.tickLower, update.tickUpper⟩ with
  | none => exact Nat.two_pow_pos 128
  | some position => exact hp.bounded _ position hget

def positionAfter (p : PoolProfiler) (update : PositionUpdate) : PoolPosition :=
  (((p.positionBefore update).updateLiquidity update.liquidityDelta).updateFees
    (p.growthInside0 update.tickLower update.tickUpper)
    (p.growthInside1 update.tickLower update.tickUpper)).updateAmounts update.liquidityDelta
      update.amount0 update.amount1

section

variable (hp : PositionsFit p.positions)
    (hvalid : p.validateTicks update.tickLower update.tickUpper = .ok ())
    (h : p.updatePosition update.owner update.tickLower update.tickUpper update.liquidityDelta
      update.amount0 update.amount1 = some (q, .ok ()))

include hp hvalid h

theorem positions_of_updatePosition :
    q.positions = (p.enterPosition update.owner update.tickLower update.tickUpper).positions.insert
      update.key (p.positionAfter update) := by
  obtain ⟨e, herror, -⟩ | ⟨-, hchange⟩ := updatePosition_cases h
  · nomatch herror
  have hkey : (p.positionBefore update).key = update.key := key_positionOrInsert hp.keyed ..
  have hlower : (p.positionBefore update).tickLower = update.tickLower :=
    congrArg PositionKey.tickLower hkey
  have hupper : (p.positionBefore update).tickUpper = update.tickUpper :=
    congrArg PositionKey.tickUpper hkey
  obtain ⟨_, _, inside, _, hchange⟩ := of_changeLiquidity hchange
  have horder := (validTicks_of_validateTicks hvalid).1
  have hinside := hchange.growthInside_eq (by
    show (p.positionBefore update).tickLower < (p.positionBefore update).tickUpper
    rw [hlower, hupper]
    exact horder)
  have hgrowth : inside.2 = (p.growthInside0 update.tickLower update.tickUpper,
      p.growthInside1 update.tickLower update.tickUpper) := by
    rw [← hlower, ← hupper]
    exact hinside
  rw [hchange.rest, hgrowth, ← hkey]
  rfl

/-- **A steady update credits what was earned.** -/
theorem credits_of_steady (hcore : SameCore q p') (hsteady : p.Steady update) :
    p.Credits update p' := by
  have hliquidity := liquidity_positionBefore_lt hp update
  have hinside0 : p.growthInside0 update.tickLower update.tickUpper < 2 ^ 256 :=
    Nat.mod_lt _ (by decide)
  have hinside1 : p.growthInside1 update.tickLower update.tickUpper < 2 ^ 256 :=
    Nat.mod_lt _ (by decide)
  have hget : p'.positions.get? update.key = some (p.positionAfter update) := by
    rw [hcore.positions, positions_of_updatePosition hp hvalid h, get?_insert_eq, if_pos rfl]
  obtain ⟨howed0, howed1⟩ := tokensOwed_after
    ((p.positionBefore update).updateLiquidity update.liquidityDelta) update.liquidityDelta
    update.amount0 update.amount1 (liquidity_updateLiquidity_lt _ hliquidity) hinside0 hinside1
  refine ⟨_, hget, howed0.trans ?_, howed1.trans ?_⟩
  · exact congrArg (fun fees => (_ + fees + _) % 2 ^ 128)
      (feesComputed_of_steady hliquidity hinside0 hsteady.1)
  · exact congrArg (fun fees => (_ + fees + _) % 2 ^ 128)
      (feesComputed_of_steady hliquidity hinside1 hsteady.2)

end

/-! ## Whole runs -/

variable {positions : OrdMap PositionKey.cmp PoolPosition} {key : PositionKey}

theorem PositionsFit.insert (h : PositionsFit positions) (hkey : position.key = key)
    (hliquidity : position.liquidity < 2 ^ 128) : PositionsFit (positions.insert key position) := by
  refine ⟨h.keyed.insert hkey, fun key' position' hget => ?_⟩
  rw [get?_insert_eq] at hget
  split at hget
  · cases hget
    exact hliquidity
  · exact h.bounded key' position' hget

theorem PositionsFit.remove (h : PositionsFit positions) : PositionsFit (positions.remove key) := by
  refine ⟨h.keyed.remove, fun key' position' hget => ?_⟩
  rw [get?_remove_eq] at hget
  split at hget
  · nomatch hget
  · exact h.bounded key' position' hget

theorem PositionsFit.enterPosition (h : PositionsFit p.positions) (update : PositionUpdate) :
    PositionsFit (p.enterPosition update.owner update.tickLower update.tickUpper).positions :=
  h.insert (key_positionOrInsert h.keyed ..) (liquidity_positionBefore_lt h update)

theorem positionAfter_fits (hp : PositionsFit p.positions) (update : PositionUpdate) :
    (p.positionAfter update).key = update.key ∧ (p.positionAfter update).liquidity < 2 ^ 128 := by
  have hliquidity := liquidity_updateLiquidity_lt update.liquidityDelta
    (liquidity_positionBefore_lt hp update)
  constructor
  · rw [positionAfter, PoolPosition.key_updateAmounts, PoolPosition.key_updateFees]
    exact key_positionOrInsert hp.keyed ..
  · unfold positionAfter PoolPosition.updateAmounts PoolPosition.updateFees
    split <;> split <;> exact hliquidity

theorem Performed.positionsFit {r : Except PoolError Unit} (h : Performed p op q r)
    (hp : PositionsFit p.positions) : PositionsFit q.positions := by
  cases h with
  | skipped fuel event hold => exact hp
  | refused _ e => exact hp
  | corrected fuel swap quote applied happly =>
    show PositionsFit applied.positions
    rw [(of_applySwapQuote happly).2.2.2.1]
    exact hp
  | swapped fuel zeroForOne amount limit quote _ hsim happly =>
    rw [(of_applySwapQuote happly).2.2.2.1]
    exact hp
  | updated _ update _ _ hasked hvalid hfits hupdates =>
    cases r with
    | error e =>
      obtain ⟨_, -, rfl⟩ | ⟨herror, -⟩ := updatePosition_cases hupdates
      · exact hp.enterPosition update
      · nomatch herror
    | ok u =>
      rw [positions_of_updatePosition hp hvalid hupdates]
      obtain ⟨hkey, hliquidity⟩ := positionAfter_fits hp update
      exact (hp.enterPosition update).insert hkey hliquidity
  | collected fuel collect =>
    unfold collectPosition
    split
    · rename_i position hget
      have hcollected : PositionsFit (p.positions.insert _
          (position.collectFees collect.amount0 collect.amount1)) :=
        hp.insert (hp.keyed _ position hget) (hp.bounded _ position hget)
      unfold cleanupPositionIfEmpty
      split
      · split
        · exact hcollected.remove
        · exact hcollected
      · exact hcollected
    · exact hp
  | flashed _ paid0 paid1 _ _ hother hflash =>
    have hpositions := (core_updateFlashState (p := p) paid0 paid1).2.1
    rw [hflash] at hpositions
    rw [show q.positions = p.positions from hpositions]
    exact hp

/-- What is asked of an operation that updates a position. -/
def CreditsFees (p : PoolProfiler) (op : PoolOp) (p' : PoolProfiler) : Prop :=
  p.perform op = some (p', .ok ()) → ∀ update, p.positionUpdate op = some update →
    p.Credits update p'

/-- The condition, on the state before the operation. -/
def SteadyAt (p : PoolProfiler) (op : PoolOp) (_ : PoolProfiler) : Prop :=
  ∀ update, p.positionUpdate op = some update → p.Steady update

end PoolProfiler

namespace Sample

/-- Liquidity of one owner, and a swap through it that pays fees. -/
def feeOps : List PoolOp :=
  [.executeMint ⟨"0x0a"⟩ (-120) 120 (10 ^ 18), .executeSwap 9 true (10 ^ 15) (minSqrtRatio + 1)]

/-- The same, and a burn of nothing. -/
def pokeOps : List PoolOp := feeOps ++ [.executeBurn ⟨"0x0a"⟩ (-120) 120 0]

/-- Another owner over the same range. -/
def mintOther : PoolOp := .executeMint ⟨"0x0b"⟩ (-120) 120 (10 ^ 18)

def burnAll : PoolOp := .executeBurn ⟨"0x0a"⟩ (-120) 120 (10 ^ 18)

end Sample

open Sample

end Nautilus
