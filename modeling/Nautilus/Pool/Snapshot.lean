import Nautilus.Pool.Bitmap
import Nautilus.Pool.Replay

/-!
# Snapshots

`extract_snapshot` writes down the ticks but not the bitmap; `restore_from_snapshot` flips a bit for
every tick whose `initialized` flag is set. While events are processed a bit is flipped when the
liquidity of its tick becomes or stops being zero, and the flag is set whenever a tick without
liquidity is touched, **also by a mint or a burn of zero**.
-/

namespace Nautilus

open Lib List OrdMap U256 TickMap PoolProfiler

variable {positions : OrdMap PositionKey.cmp PoolPosition}
open Option (map_eq_some_iff bind_eq_some_iff)

variable {spacing : Nat} {m : TickMap}

structure PoolSnapshot where
  state : PoolState
  positions : List PoolPosition
  ticks : List PoolTick
  analytics : PoolAnalytics
  blockPosition : BlockPosition

/-- The same snapshot with its lists, which come out of hash maps, in another order. -/
structure PoolSnapshot.Reorders (s s' : PoolSnapshot) : Prop where
  state : s'.state = s.state
  positions : s'.positions.Perm s.positions
  ticks : s'.ticks.Perm s.ticks
  analytics : s'.analytics = s.analytics
  blockPosition : s'.blockPosition = s.blockPosition

namespace PoolProfiler

/-- `profiler.rs:1610`, which expects a processed event. -/
def extractSnapshot (self : PoolProfiler) : Option PoolSnapshot :=
  self.lastProcessedEvent.map fun blockPosition =>
    { state := { self.state with liquidity := self.tickMap.liquidity }
      positions := self.positions.values
      ticks := self.tickMap.ticks.values
      analytics := self.analytics
      blockPosition }

def restoreFromSnapshot (self : PoolProfiler) (snapshot : PoolSnapshot) : Option PoolProfiler := do
  let tickMap ← snapshot.ticks.foldlM TickMap.restoreTick (.new self.pool.tickSpacing)
  updateLiquidityAnalytics
    { self with
      state := snapshot.state
      analytics := { snapshot.analytics with
        liquidityUtilizationRate := self.analytics.liquidityUtilizationRate }
      positions := snapshot.positions.foldl
        (fun positions position => positions.insert position.key position) .empty
      tickMap := { tickMap with liquidity := snapshot.state.liquidity }
      lastProcessedEvent := some snapshot.blockPosition
      isInitialized := true }

variable {p p' q q' : PoolProfiler} {fuel : Nat} {r : Except PoolError Unit} {event : DexPoolData}

/-! ## What a profiler keeps -/

/-- The check of `update_liquidity_analytics`, which depends on the positions and the active
liquidity. -/
def RateFits (p : PoolProfiler) : Prop := p.updateLiquidityAnalytics.isSome

theorem rateFits_iff : p.RateFits ↔ (if p.getTotalLiquidity = 0 then 0 else
    orZero (FullMath.mulDiv p.tickMap.liquidity 1000000 p.getTotalLiquidity)) < 2 ^ 64 := by
  unfold RateFits updateLiquidityAnalytics
  dsimp only
  generalize (if p.getTotalLiquidity = 0 then 0 else
    orZero (FullMath.mulDiv p.tickMap.liquidity 1000000 p.getTotalLiquidity)) = ratio
  by_cases h : ratio < 2 ^ 64
  · rw [if_pos h]
    exact ⟨fun _ => h, fun _ => rfl⟩
  · rw [if_neg h]
    exact ⟨nofun, fun h' => absurd h' h⟩

theorem RateFits.congr (h : p.RateFits) (htotal : p'.getTotalLiquidity = p.getTotalLiquidity)
    (hliquidity : p'.tickMap.liquidity = p.tickMap.liquidity) : p'.RateFits := by
  rw [rateFits_iff, htotal, hliquidity]
  exact rateFits_iff.mp h

/-- Positions are stored under their own keys. -/
def Keyed (positions : OrdMap PositionKey.cmp PoolPosition) : Prop :=
  ∀ key position, positions.get? key = some position → position.key = key

theorem Keyed.insert {key : PositionKey}
    {position : PoolPosition} (h : Keyed positions) (hkey : position.key = key) :
    Keyed (positions.insert key position) := by
  intro key' position' hget
  rw [get?_insert_eq] at hget
  split at hget
  · rename_i heq
    cases hget
    exact hkey.trans heq
  · exact h key' position' hget

theorem Keyed.remove {key : PositionKey} (h : Keyed positions) : Keyed (positions.remove key) := by
  intro key' position' hget
  rw [get?_remove_eq] at hget
  split at hget
  · nomatch hget
  · exact h key' position' hget

/-- What holds of a profiler between events. -/
structure Kept (p : PoolProfiler) : Prop where
  charted : p.tickMap.Charted p.pool.tickSpacing
  keyed : Keyed p.positions
  rate : p.RateFits

theorem key_positionOrInsert (h : Keyed p.positions) (owner : Address) (tickLower tickUpper : Int) :
    (p.positionOrInsert owner tickLower tickUpper).key = ⟨owner, tickLower, tickUpper⟩ := by
  unfold positionOrInsert
  cases hget : p.positions.get? ⟨owner, tickLower, tickUpper⟩ with
  | none => rfl
  | some position => exact h _ position hget

theorem Keyed.enterPosition (h : Keyed p.positions) (owner : Address) (tickLower tickUpper : Int) :
    Keyed (p.enterPosition owner tickLower tickUpper).positions :=
  h.insert (key_positionOrInsert h owner tickLower tickUpper)

variable (position : PoolPosition)

theorem PoolPosition.key_updateFees (inside0 inside1 : Nat) :
    (position.updateFees inside0 inside1).key = position.key := by
  unfold PoolPosition.updateFees
  split <;> rfl

theorem PoolPosition.key_updateAmounts (delta : Int) (amount0 amount1 : Nat) :
    (position.updateAmounts delta amount0 amount1).key = position.key := by
  unfold PoolPosition.updateAmounts
  split <;> rfl

theorem validTicks_of_validateTicks {tickLower tickUpper : Int}
    (h : p.validateTicks tickLower tickUpper = .ok ()) :
    tickLower < tickUpper ∧ ValidTick p.pool.tickSpacing tickLower ∧
      ValidTick p.pool.tickSpacing tickUpper := by
  unfold validateTicks at h
  split at h
  · nomatch h
  split at h
  · nomatch h
  split at h
  · nomatch h
  · rename_i hspaced hbounds
    push Not at hspaced hbounds
    exact ⟨by omega, ⟨hspaced.1, hbounds.1, by omega⟩, ⟨hspaced.2, by omega, hbounds.2⟩⟩

theorem charted_foldlM_applyCrossing {crossed : List CrossedTick} {m' : TickMap}
    (hm : m.Charted spacing) (h : crossed.foldlM applyCrossing m = some m') :
    m'.Charted spacing := by
  induction crossed generalizing m with
  | nil =>
    cases h
    exact hm
  | cons crossing crossed ih =>
    rw [foldlM_cons, Option.bind_eq_bind, bind_eq_some_iff] at h
    obtain ⟨_, hcross, hrest⟩ := h
    obtain ⟨liquidity, -, rfl⟩ := map_eq_some_iff.mp hcross
    exact ih ((hm.crossTick _ _ _).setLiquidity liquidity) hrest

theorem LiquidityChange.charted {position : PoolPosition} {delta : Int} {amount0 amount1 : Nat}
    {lower upper : TickMap × Bool} {inside : TickMap × Nat × Nat} {liquidity : Nat}
    (h : LiquidityChange p position delta amount0 amount1 p' lower upper inside liquidity)
    (hp : p.tickMap.Charted spacing) (horder : position.tickLower < position.tickUpper)
    (hlower : ValidTick spacing position.tickLower) (hupper : ValidTick spacing position.tickUpper) :
    p'.tickMap.Charted spacing := by
  obtain ⟨_, hatLower⟩ := of_update h.lowerUpdate
  obtain ⟨_, hatUpper⟩ := of_update h.upperUpdate
  have hcharted : ({ inside.1 with liquidity } : TickMap).Charted spacing := by
    rw [h.growth]
    exact (((hp.update hlower hatLower).update hupper hatUpper).getFeeGrowthInside ..).setLiquidity _
  have htick : ∀ t, ({ inside.1 with liquidity } : TickMap).tickOrInit t = upper.1.tickOrInit t := by
    intro t
    show inside.1.tickOrInit t = _
    rw [h.growth, tickOrInit_getFeeGrowthInside]
  rw [h.tickMap]
  dsimp only
  -- a bound is dropped only when its last liquidity went
  have hfirst : (if delta < 0 ∧ lower.2 then
      ({ inside.1 with liquidity } : TickMap).clear position.tickLower
      else { inside.1 with liquidity }).Charted spacing ∧
      (delta < 0 ∧ upper.2 → ((if delta < 0 ∧ lower.2 then
        ({ inside.1 with liquidity } : TickMap).clear position.tickLower
        else { inside.1 with liquidity }).tickOrInit position.tickUpper).liquidityGross = 0) := by
    have hgone : delta < 0 ∧ upper.2 → (upper.1.tickOrInit position.tickUpper).liquidityGross = 0 :=
      fun hcleared => by
        rw [hcleared.2] at hatUpper
        exact hatUpper.gross_of_removal hcleared.1
    split
    · rename_i hcleared
      rw [hcleared.2] at hatLower
      refine ⟨hcharted.clear ?_, fun hup => ?_⟩
      · rw [htick, hatUpper.tickOrInit_eq, if_neg (by omega)]
        exact hatLower.gross_of_removal hcleared.1
      · rw [tickOrInit_clear, if_neg (by omega), htick]
        exact hgone hup
    · exact ⟨hcharted, fun hup => by rw [htick]; exact hgone hup⟩
  split
  · rename_i hcleared
    exact hfirst.1.clear (hfirst.2 hcleared)
  · exact hfirst.1

variable (owner : Address)

/-- An entered position that is new has no liquidity. -/
theorem total_enterPosition (tickLower tickUpper : Int) :
    (p.enterPosition owner tickLower tickUpper).getTotalLiquidity = p.getTotalLiquidity := by
  unfold getTotalLiquidity enterPosition positionOrInsert
  cases hget : p.positions.get? ⟨owner, tickLower, tickUpper⟩ with
  | some position =>
    dsimp only [Option.getD_some]
    rw [insert_of_get? hget]
  | none =>
    have hperm := p.positions.perm_entries_insert ⟨owner, tickLower, tickUpper⟩
      (.new owner tickLower tickUpper)
    rw [remove_of_get?_none hget] at hperm
    have hcomm : RightCommutative add := ⟨fun a b c => by
      simp only [add, Word.add, Nat.mod_add_mod]
      congr 1
      omega⟩
    exact Perm.foldl_eq (f := add) ((hperm.map Prod.snd).map (·.liquidity)) 0

theorem kept_updatePosition {owner : Address} {tickLower tickUpper delta : Int}
    {amount0 amount1 : Nat} (hp : p.Kept) (hvalid : p.validateTicks tickLower tickUpper = .ok ())
    (h : p.updatePosition owner tickLower tickUpper delta amount0 amount1 = some (p', r)) :
    p'.tickMap.Charted p'.pool.tickSpacing ∧ Keyed p'.positions ∧ (r ≠ .ok () → p'.RateFits) := by
  have hentered := hp.keyed.enterPosition owner tickLower tickUpper
  obtain ⟨e, rfl, rfl⟩ | ⟨rfl, hchange⟩ := updatePosition_cases h
  · exact ⟨hp.charted, hentered, fun _ => hp.rate.congr (total_enterPosition ..) rfl⟩
  obtain ⟨_, _, _, _, hchange⟩ := of_changeLiquidity hchange
  obtain ⟨horder, hlower, hupper⟩ := validTicks_of_validateTicks hvalid
  have hkey := key_positionOrInsert hp.keyed owner tickLower tickUpper
  generalize p.positionOrInsert owner tickLower tickUpper = position at hkey hchange
  cases hkey
  have hcharted : p'.tickMap.Charted p.pool.tickSpacing :=
    hchange.charted hp.charted horder hlower hupper
  rw [hchange.rest]
  refine ⟨hcharted, hentered.insert ?_, fun hnot => absurd rfl hnot⟩
  rw [PoolPosition.key_updateAmounts, PoolPosition.key_updateFees]
  rfl

theorem keyed_collectPosition (hp : Keyed p.positions) (key : PositionKey) (amount0 amount1 : Nat) :
    Keyed (p.collectPosition key amount0 amount1).positions := by
  unfold collectPosition
  split
  · rename_i position hget
    have hcollected : Keyed (p.positions.insert key (position.collectFees amount0 amount1)) :=
      hp.insert (hp key position hget)
    unfold cleanupPositionIfEmpty
    split
    · split
      · exact hcollected.remove
      · exact hcollected
    · exact hcollected
  · exact hp

theorem core_collectPosition (key : PositionKey) (amount0 amount1 : Nat) :
    (p.collectPosition key amount0 amount1).tickMap = p.tickMap ∧
      (p.collectPosition key amount0 amount1).pool = p.pool := by
  unfold collectPosition cleanupPositionIfEmpty
  split
  · split
    · split <;> exact ⟨rfl, rfl⟩
    · exact ⟨rfl, rfl⟩
  · exact ⟨rfl, rfl⟩

theorem core_updateFlashState (paid0 paid1 : Nat) :
    (p.updateFlashState paid0 paid1).1.tickMap = p.tickMap ∧
      (p.updateFlashState paid0 paid1).1.positions = p.positions ∧
      (p.updateFlashState paid0 paid1).1.pool = p.pool := by
  unfold updateFlashState
  split
  · exact ⟨rfl, rfl, rfl⟩
  · split <;> exact ⟨rfl, rfl, rfl⟩

/-- What a handled event keeps; where it ended well its last act was to check the rate. -/
theorem Handled.kept (h : Handled fuel p event q r) (hp : p.Kept) :
    q.tickMap.Charted q.pool.tickSpacing ∧ Keyed q.positions ∧ (r ≠ .ok () → q.RateFits) := by
  cases h with
  | swapFailed swap e hfailed | updateInvalid update e =>
    exact ⟨hp.charted, hp.keyed, fun _ => hp.rate⟩
  | swapped swap quote applied hsim happly =>
    obtain ⟨-, -, hpool, hpositions, -, hfold⟩ := of_applySwapQuote happly
    refine ⟨?_, ?_, fun hnot => absurd rfl hnot⟩
    · have hcharted := charted_foldlM_applyCrossing hp.charted hfold
      rw [← hpool] at hcharted
      exact hcharted.setLiquidity _
    · show Keyed applied.positions
      rw [hpositions]
      exact hp.keyed
  | updated update delta _ _ hvalid hfits hdelta hupdate => exact kept_updatePosition hp hvalid hupdate
  | collected collect =>
    obtain ⟨hmap, hpool⟩ := core_collectPosition
      ⟨collect.owner, collect.tickLower, collect.tickUpper⟩ collect.amount0 collect.amount1
    refine ⟨?_, keyed_collectPosition hp.keyed _ _ _, fun hnot => absurd rfl hnot⟩
    rw [hmap, hpool]
    exact hp.charted
  | flashed flash =>
    obtain ⟨hmap, hpositions, hpool⟩ := core_updateFlashState flash.paid0 flash.paid1
    refine ⟨?_, ?_, fun _ => hp.rate.congr ?_ ?_⟩
    · rw [hmap, hpool]
      exact hp.charted
    · rw [hpositions]
      exact hp.keyed
    · rw [getTotalLiquidity, hpositions]
      rfl
    · rw [hmap]

/-- No event changes the pool or the mark that it is initialized. -/
theorem Handled.fixed (h : Handled fuel p event q r) :
    q.pool = p.pool ∧ q.isInitialized = p.isInitialized := by
  cases h with
  | swapFailed swap e hfailed => exact ⟨rfl, rfl⟩
  | swapped swap quote applied hsim happly =>
    obtain ⟨-, -, hpool, -, hinit, -⟩ := of_applySwapQuote happly
    exact ⟨hpool, hinit⟩
  | updateInvalid update e => exact ⟨rfl, rfl⟩
  | updated update delta _ _ hvalid hfits hdelta hupdate =>
    obtain ⟨e, -, rfl⟩ | ⟨-, hchange⟩ := updatePosition_cases hupdate
    · exact ⟨rfl, rfl⟩
    · obtain ⟨_, _, _, _, hchange⟩ := of_changeLiquidity hchange
      rw [hchange.rest]
      exact ⟨rfl, rfl⟩
  | collected collect =>
    unfold collectPosition cleanupPositionIfEmpty
    split
    · split
      · split <;> exact ⟨rfl, rfl⟩
      · exact ⟨rfl, rfl⟩
    · exact ⟨rfl, rfl⟩
  | flashed flash =>
    unfold updateFlashState
    split
    · exact ⟨rfl, rfl⟩
    · split <;> exact ⟨rfl, rfl⟩

theorem rateFits_of_finishEvent {block : BlockPosition} (h : p.finishEvent block = some (p', r)) :
    p'.RateFits := by
  obtain ⟨q, hq, heq⟩ := map_eq_some_iff.mp h
  cases heq
  have hfits : RateFits { p with lastProcessedEvent := some block } := by
    rw [RateFits, hq]
    rfl
  simp only [updateLiquidityAnalytics, Option.ite_none_right_eq_some, Option.some.injEq] at hq
  obtain ⟨-, rfl⟩ := hq
  exact hfits.congr rfl rfl

theorem kept_replayStep (input : Nat × DexPoolData) (hp : p.Kept)
    (h : p.replayStep input = some p') : p'.Kept := by
  obtain ⟨⟨_, r⟩, hprocess, rfl⟩ := map_eq_some_iff.mp h
  obtain ⟨-, rfl, -⟩ | ⟨-, -, q, hhandled, hcore, hfinished⟩ := process_cases hprocess
  · exact hp
  obtain ⟨hcharted, hkeyed, hrate⟩ := hhandled.kept hp
  refine ⟨?_, ?_, ?_⟩
  · rw [hcore.tickMap, hcore.pool]
    exact hcharted
  · rw [hcore.positions]
    exact hkeyed
  cases r with
  | error e =>
    refine (hrate nofun).congr ?_ ?_
    · rw [getTotalLiquidity, hcore.positions]
      rfl
    · rw [hcore.tickMap]
  | ok u =>
    obtain ⟨_, hfinish⟩ := hfinished rfl
    exact rateFits_of_finishEvent hfinish

theorem fixed_replayStep (input : Nat × DexPoolData) (h : p.replayStep input = some p') :
    p'.pool = p.pool ∧ p'.isInitialized = p.isInitialized := by
  obtain ⟨⟨_, r⟩, hprocess, rfl⟩ := map_eq_some_iff.mp h
  obtain ⟨-, rfl, -⟩ | ⟨-, -, q, hhandled, hcore, -⟩ := process_cases hprocess
  · exact ⟨rfl, rfl⟩
  · exact ⟨hcore.pool.trans hhandled.fixed.1, hcore.isInitialized.trans hhandled.fixed.2⟩

variable {pool : Pool} {price : Nat}

theorem kept_initializePool
    (h : (new pool).initializePool price = some p) :
    p.Kept ∧ p.pool = pool ∧ p.isInitialized = true := by
  obtain ⟨_, -, h⟩ := bind_eq_some_iff.mp h
  obtain ⟨-, h⟩ := Option.ite_none_right_eq_some.mp h
  cases h
  exact ⟨⟨.new, nofun, rfl⟩, rfl, rfl⟩

/-- Every profiler reached over a history is kept. -/
theorem kept_of_runs {inputs : List (Nat × DexPoolData)}
    (hinit : (new pool).initializePool price = some p) (h : runs replayStep p inputs = some p') :
    p'.Kept ∧ p'.pool = pool ∧ p'.isInitialized = true := by
  refine runs_inv_mem (fun p => p.Kept ∧ p.pool = pool ∧ p.isInitialized = true)
    (fun s input s' _ hs hstep => ?_) (kept_initializePool hinit) h
  obtain ⟨hkept, hpool, hinitialized⟩ := hs
  obtain ⟨hpool', hinitialized'⟩ := fixed_replayStep input hstep
  exact ⟨kept_replayStep input hkept hstep, hpool'.trans hpool, hinitialized'.trans hinitialized⟩

/-! ## Profilers that agree -/

/-- The same positions, ticks, bitmap, active liquidity, state and last event. No operation reads
the rest: the analytics, and the copy of the active liquidity in the state, which only a snapshot
sets. -/
structure Agree (p q : PoolProfiler) : Prop where
  pool : q.pool = p.pool
  positions : q.positions = p.positions
  tickMap : q.tickMap = p.tickMap
  state : { q.state with liquidity := p.state.liquidity } = p.state
  lastProcessedEvent : q.lastProcessedEvent = p.lastProcessedEvent
  isInitialized : q.isInitialized = p.isInitialized

/-- The profiler with other analytics and another copy of the active liquidity. -/
def relabel (p : PoolProfiler) (analytics : PoolAnalytics) (liquidity : Nat) : PoolProfiler :=
  { p with analytics, state := { p.state with liquidity } }

theorem agree_iff : Agree p q ↔ ∃ analytics liquidity, q = p.relabel analytics liquidity := by
  constructor
  · intro h
    refine ⟨q.analytics, q.state.liquidity, ?_⟩
    rw [relabel, ← h.pool, ← h.positions, ← h.tickMap, ← h.lastProcessedEvent, ← h.isInitialized,
      ← h.state]
  · rintro ⟨analytics, liquidity, rfl⟩
    exact ⟨rfl, rfl, rfl, rfl, rfl, rfl⟩

/-- Both operations complete, with the same result and profilers that agree, or neither does. -/
def SameOutcome {ρ : Type} : Option (PoolProfiler × ρ) → Option (PoolProfiler × ρ) → Prop
  | some (p, r), some (q, r') => Agree p q ∧ r = r'
  | none, none => True
  | _, _ => False

theorem sameOutcome_finishEvent (h : Agree p q) (block : BlockPosition) :
    SameOutcome (p.finishEvent block) (q.finishEvent block) := by
  obtain ⟨analytics, liquidity, rfl⟩ := agree_iff.mp h
  unfold finishEvent updateLiquidityAnalytics
  dsimp only
  have htotal : ∀ q : PoolProfiler, q.positions = p.positions →
      q.getTotalLiquidity = p.getTotalLiquidity := fun q hq => by
    rw [getTotalLiquidity, hq]
    rfl
  rw [htotal { p.relabel analytics liquidity with lastProcessedEvent := some block } rfl,
    htotal { p with lastProcessedEvent := some block } rfl]
  have hliquidity : (p.relabel analytics liquidity).tickMap = p.tickMap := rfl
  rw [hliquidity]
  generalize (if p.getTotalLiquidity = 0 then 0 else
    orZero (FullMath.mulDiv p.tickMap.liquidity 1000000 p.getTotalLiquidity)) = ratio
  split
  · exact ⟨⟨rfl, rfl, rfl, rfl, rfl, rfl⟩, rfl⟩
  · trivial

theorem relabel_changeLiquidity (delta : Int) (amount0 amount1 : Nat)
    (analytics : PoolAnalytics) (liquidity : Nat) :
    (p.relabel analytics liquidity).changeLiquidity position delta amount0 amount1 =
      (p.changeLiquidity position delta amount0 amount1).map (·.relabel analytics liquidity) := by
  simp only [changeLiquidity, relabel, Option.bind_eq_bind, Option.map_bind, Function.comp_def,
    Option.pure_def, Option.map_some]
  rfl

theorem relabel_updatePosition (tickLower tickUpper delta : Int)
    (amount0 amount1 : Nat) (analytics : PoolAnalytics) (liquidity : Nat) :
    (p.relabel analytics liquidity).updatePosition owner tickLower tickUpper delta amount0 amount1 =
      (p.updatePosition owner tickLower tickUpper delta amount0 amount1).map
        (Prod.map (·.relabel analytics liquidity) id) := by
  unfold updatePosition
  dsimp only
  have hposition : (p.relabel analytics liquidity).positionOrInsert owner tickLower tickUpper =
      p.positionOrInsert owner tickLower tickUpper := rfl
  rw [hposition]
  split
  · rfl
  rw [Option.map_map]
  have hchange := relabel_changeLiquidity (p := p.enterPosition owner tickLower tickUpper)
    (p.positionOrInsert owner tickLower tickUpper) delta amount0 amount1 analytics liquidity
  exact (congrArg (Option.map (·, Except.ok ())) hchange).trans (Option.map_map ..)

theorem SameOutcome.bind {ρ ρ' : Type} {x y : Option (PoolProfiler × ρ)}
    {f g : PoolProfiler × ρ → Option (PoolProfiler × ρ')} (h : SameOutcome x y)
    (hf : ∀ p q r, Agree p q → SameOutcome (f (p, r)) (g (q, r))) :
    SameOutcome (x.bind f) (y.bind g) := by
  match x, y, h with
  | none, none, _ => trivial
  | some (p, r), some (q, _), ⟨hagree, rfl⟩ => exact hf p q r hagree

theorem sameOutcome_updatePosition (tickLower tickUpper delta : Int)
    (amount0 amount1 : Nat) (h : Agree p q) :
    SameOutcome (p.updatePosition owner tickLower tickUpper delta amount0 amount1)
      (q.updatePosition owner tickLower tickUpper delta amount0 amount1) := by
  obtain ⟨_, _, rfl⟩ := agree_iff.mp h
  rw [relabel_updatePosition]
  cases p.updatePosition owner tickLower tickUpper delta amount0 amount1 with
  | none => trivial
  | some result => exact ⟨agree_iff.mpr ⟨_, _, rfl⟩, rfl⟩

section

variable (tickLower tickUpper : Int) (liquidity amount0 amount1 : Nat) (h : Agree p q)

include h

theorem sameOutcome_removeLiquidity :
    SameOutcome (p.removeLiquidity owner tickLower tickUpper liquidity amount0 amount1)
      (q.removeLiquidity owner tickLower tickUpper liquidity amount0 amount1) := by
  unfold removeLiquidity
  split
  · exact ⟨h, rfl⟩
  · exact sameOutcome_updatePosition _ _ _ _ _ _ h

theorem sameOutcome_addLiquidity :
    SameOutcome (p.addLiquidity owner tickLower tickUpper liquidity amount0 amount1)
      (q.addLiquidity owner tickLower tickUpper liquidity amount0 amount1) := by
  unfold addLiquidity
  split
  · exact ⟨h, rfl⟩
  rw [Option.map_eq_bind, Option.map_eq_bind]
  refine (sameOutcome_updatePosition _ _ _ _ _ _ h).bind fun p q r hagree => ?_
  cases r with
  | error e => exact ⟨hagree, rfl⟩
  | ok u => exact ⟨⟨hagree.1, hagree.2, hagree.3, hagree.4, hagree.5, hagree.6⟩, rfl⟩

end

theorem checkIfAlreadyProcessed_agree (h : Agree p q) (block : BlockPosition) :
    q.checkIfAlreadyProcessed block = p.checkIfAlreadyProcessed block := by
  rw [checkIfAlreadyProcessed, h.lastProcessedEvent]
  rfl

/-- The checks that every handler begins with. -/
theorem sameOutcome_guard {x y : Outcome PoolError PoolProfiler} (h : Agree p q)
    (block : BlockPosition) (hbody : SameOutcome x y) :
    SameOutcome
      (if !p.isInitialized then none
        else if p.checkIfAlreadyProcessed block then some (p, .ok ()) else x)
      (if !q.isInitialized then none
        else if q.checkIfAlreadyProcessed block then some (q, .ok ()) else y) := by
  rw [h.isInitialized, checkIfAlreadyProcessed_agree h]
  split
  · trivial
  split
  · exact ⟨h, rfl⟩
  · exact hbody

theorem validateTicks_agree (h : Agree p q) : q.validateTicks = p.validateTicks := by
  unfold validateTicks
  rw [h.pool]

theorem sameOutcome_processMint (update : PoolLiquidityUpdate) (h : Agree p q) :
    SameOutcome (p.processMint update) (q.processMint update) := by
  refine sameOutcome_guard h update.block ?_
  rw [validateTicks_agree h]
  split
  · exact ⟨h, rfl⟩
  refine (sameOutcome_addLiquidity _ _ _ _ _ _ h).bind fun p q r hagree => ?_
  cases r with
  | error e => exact ⟨hagree, rfl⟩
  | ok u =>
    refine sameOutcome_finishEvent ?_ update.block
    exact ⟨hagree.1, hagree.2, hagree.3, hagree.4, hagree.5, hagree.6⟩

theorem sameOutcome_processBurn (update : PoolLiquidityUpdate) (h : Agree p q) :
    SameOutcome (p.processBurn update) (q.processBurn update) := by
  refine sameOutcome_guard h update.block ?_
  rw [validateTicks_agree h]
  split
  · exact ⟨h, rfl⟩
  refine (sameOutcome_removeLiquidity _ _ _ _ _ _ h).bind fun p q r hagree => ?_
  cases r with
  | error e => exact ⟨hagree, rfl⟩
  | ok u =>
    refine sameOutcome_finishEvent ?_ update.block
    exact ⟨hagree.1, hagree.2, hagree.3, hagree.4, hagree.5, hagree.6⟩

theorem relabel_applySwapQuote (quote : SwapQuote) (analytics : PoolAnalytics) (liquidity : Nat) :
    (p.relabel analytics liquidity).applySwapQuote quote =
      (p.applySwapQuote quote).map (·.relabel
        { analytics with totalSwaps := analytics.totalSwaps + 1 } liquidity) := by
  unfold applySwapQuote
  rw [Option.map_map]
  cases quote.zeroForOne <;> rfl

theorem sameOutcome_processSwap (fuel : Nat) (swap : PoolSwap) (h : Agree p q) :
    SameOutcome (p.processSwap fuel swap) (q.processSwap fuel swap) := by
  refine sameOutcome_guard h swap.block ?_
  obtain ⟨analytics, liquidity, rfl⟩ := agree_iff.mp h
  have hsimulate : (p.relabel analytics liquidity).simulateSwapThroughTicks =
      p.simulateSwapThroughTicks := rfl
  rw [hsimulate]
  dsimp only
  split
  · trivial
  · exact ⟨h, rfl⟩
  rename_i quote _
  rw [relabel_applySwapQuote]
  cases p.applySwapQuote quote with
  | none => trivial
  | some applied =>
    refine sameOutcome_finishEvent ?_ swap.block
    exact ⟨rfl, rfl, rfl, rfl, rfl, rfl⟩

theorem relabel_collectPosition (key : PositionKey) (amount0 amount1 : Nat)
    (analytics : PoolAnalytics) (liquidity : Nat) :
    (p.relabel analytics liquidity).collectPosition key amount0 amount1 =
      (p.collectPosition key amount0 amount1).relabel analytics liquidity := by
  unfold collectPosition cleanupPositionIfEmpty
  rw [show (p.relabel analytics liquidity).positions = p.positions from rfl]
  split
  · dsimp only
    split
    · split <;> rfl
    · rfl
  · rfl

theorem sameOutcome_processCollect (collect : PoolFeeCollect) (h : Agree p q) :
    SameOutcome (p.processCollect collect) (q.processCollect collect) := by
  refine sameOutcome_guard h collect.block ?_
  obtain ⟨_, _, rfl⟩ := agree_iff.mp h
  rw [relabel_collectPosition]
  refine sameOutcome_finishEvent ?_ collect.block
  exact ⟨rfl, rfl, rfl, rfl, rfl, rfl⟩

theorem agree_updateFlashState (paid0 paid1 : Nat) (h : Agree p q) :
    Agree (p.updateFlashState paid0 paid1).1 (q.updateFlashState paid0 paid1).1 ∧
      (q.updateFlashState paid0 paid1).2 = (p.updateFlashState paid0 paid1).2 := by
  obtain ⟨analytics, liquidity, rfl⟩ := agree_iff.mp h
  -- the copy of the liquidity goes through both halves unread
  have hflash0 : flash0 { p.state with liquidity } p.tickMap.liquidity paid0 =
      Prod.map (fun state => { state with liquidity }) id
        (flash0 p.state p.tickMap.liquidity paid0) := by
    unfold flash0
    dsimp only
    split
    · split <;> rfl
    · rfl
  have hflash1 : ∀ state : PoolState, flash1 { state with liquidity } p.tickMap.liquidity paid1 =
      Prod.map (fun state => { state with liquidity }) id
        (flash1 state p.tickMap.liquidity paid1) := by
    intro state
    unfold flash1
    dsimp only
    split
    · split <;> rfl
    · rfl
  unfold updateFlashState
  rw [show (p.relabel analytics liquidity).tickMap = p.tickMap from rfl,
    show (p.relabel analytics liquidity).state = { p.state with liquidity } from rfl, hflash0]
  split
  · exact ⟨h, rfl⟩
  cases flash0 p.state p.tickMap.liquidity paid0 with
  | mk state result =>
    cases result with
    | error e => exact ⟨⟨rfl, rfl, rfl, rfl, rfl, rfl⟩, rfl⟩
    | ok u =>
      dsimp only [Prod.map, id]
      rw [hflash1]
      exact ⟨⟨rfl, rfl, rfl, rfl, rfl, rfl⟩, rfl⟩

theorem sameOutcome_processFlash (flash : PoolFlash) (h : Agree p q) :
    SameOutcome (p.processFlash flash) (q.processFlash flash) := by
  refine sameOutcome_guard h flash.block ?_
  obtain ⟨hagree, hresult⟩ := agree_updateFlashState flash.paid0 flash.paid1 h
  generalize p.updateFlashState flash.paid0 flash.paid1 = x at hagree hresult
  generalize q.updateFlashState flash.paid0 flash.paid1 = y at hagree hresult
  obtain ⟨_, r⟩ := x
  obtain ⟨_, _⟩ := y
  cases hresult
  cases r with
  | error e => exact ⟨hagree, rfl⟩
  | ok u =>
    refine sameOutcome_finishEvent ?_ flash.block
    exact ⟨hagree.1, hagree.2, hagree.3, hagree.4, hagree.5, hagree.6⟩

/-- Profilers that agree do the same with an event. -/
theorem sameOutcome_process (fuel : Nat) (event : DexPoolData) (h : Agree p q) :
    SameOutcome (p.process fuel event) (q.process fuel event) := by
  unfold process
  rw [checkIfAlreadyProcessed_agree h]
  split
  · exact ⟨h, rfl⟩
  cases event with
  | swap swap => exact sameOutcome_processSwap fuel swap h
  | liquidityUpdate update =>
    dsimp only
    split
    · exact sameOutcome_processMint update h
    · exact sameOutcome_processBurn update h
  | feeCollect collect => exact sameOutcome_processCollect collect h
  | flash flash => exact sameOutcome_processFlash flash h

/-- What a sequence of events leaves, with the result of each. -/
def replayAll : PoolProfiler → List (Nat × DexPoolData) →
    Option (PoolProfiler × List (Except PoolError Unit))
  | p, [] => some (p, [])
  | p, input :: inputs =>
    (p.process input.1 input.2).bind fun (p, result) =>
      (p.replayAll inputs).bind fun (p, results) => some (p, result :: results)

theorem sameOutcome_replayAll (inputs : List (Nat × DexPoolData)) (h : Agree p q) :
    SameOutcome (p.replayAll inputs) (q.replayAll inputs) := by
  induction inputs generalizing p q with
  | nil => exact ⟨h, rfl⟩
  | cons input inputs ih =>
    refine (sameOutcome_process input.1 input.2 h).bind fun p q r hagree => ?_
    refine (ih hagree).bind fun p q rs hagree => ?_
    exact ⟨hagree, rfl⟩

/-! ## Restoring -/

/-- Restoring ticks one by one flips the bit of every flagged one. -/
theorem restoreTick_foldlM {ticks : List PoolTick} (hnodup : (ticks.map (·.value)).Nodup)
    (hfresh : ∀ tick ∈ ticks, (m.tickOrInit tick.value).initialized = false)
    (hvalid : ∀ tick ∈ ticks, tick.initialized = true → ValidTick spacing tick.value)
    (hm : m.tickBitmap.Marks spacing fun t => (m.tickOrInit t).initialized = true) :
    ∃ m', ticks.foldlM restoreTick m = some m' ∧
      m'.ticks = ticks.foldl (fun stored tick => stored.insert tick.value tick) m.ticks ∧
      m'.maxLiquidityPerTick = m.maxLiquidityPerTick ∧
      m'.tickBitmap.Marks spacing fun t => (m'.tickOrInit t).initialized = true := by
  induction ticks generalizing m with
  | nil => exact ⟨m, rfl, rfl, rfl, hm⟩
  | cons tick ticks ih =>
    have hput : ∀ t, (m.setTick tick).tickOrInit t =
        if tick.value = t then tick else m.tickOrInit t := fun t => tickOrInit_putTick
    have hnew := hfresh tick mem_cons_self
    have hstep : ∃ m₁, m.restoreTick tick = some m₁ ∧ m₁.ticks = (m.setTick tick).ticks ∧
        m₁.maxLiquidityPerTick = m.maxLiquidityPerTick ∧
        m₁.tickBitmap.Marks spacing fun t => ((m.setTick tick).tickOrInit t).initialized = true := by
      unfold restoreTick
      cases hflag : tick.initialized with
      | true =>
        obtain ⟨b, hflip, hmarks⟩ := hm.flip (hvalid tick mem_cons_self hflag)
          (fun t => ((m.setTick tick).tickOrInit t).initialized = true) fun t _ => by
            rw [hput]
            by_cases heq : t = tick.value
            · subst heq
              simp [hflag, hnew]
            · simp [heq, Ne.symm heq]
        refine ⟨{ m.setTick tick with tickBitmap := b }, ?_, rfl, rfl, hmarks⟩
        show Option.map _ (m.tickBitmap.flipTick tick.value) = _
        rw [hflip]
        rfl
      | false =>
        refine ⟨m.setTick tick, rfl, rfl, rfl, hm.congr fun t _ => ?_⟩
        rw [hput]
        split_ifs with heq
        · rw [← heq, hnew, hflag]
        · rfl
    obtain ⟨m₁, hrestore, hticks, hlimit, hmarks⟩ := hstep
    have hlook : ∀ t, m₁.tickOrInit t = (m.setTick tick).tickOrInit t := fun t => by
      unfold tickOrInit
      rw [hticks]
    rw [map_cons, nodup_cons] at hnodup
    obtain ⟨m', hfold, hticks', hlimit', hmarks'⟩ := ih hnodup.2
      (fun other hother => by
        rw [hlook, hput, if_neg]
        · exact hfresh other (mem_cons_of_mem tick hother)
        · exact fun heq => hnodup.1 (mem_map.mpr ⟨other, hother, heq.symm⟩))
      (fun other hother => hvalid other (mem_cons_of_mem tick hother))
      (by simpa only [hlook] using hmarks)
    refine ⟨m', ?_, ?_, hlimit'.trans hlimit, hmarks'⟩
    · rw [foldlM_cons, hrestore]
      exact hfold
    · rw [hticks', hticks]
      rfl

/-- Every stored tick that is flagged `initialized` has liquidity. -/
def FlagsLive (p : PoolProfiler) : Prop :=
  ∀ tick ∈ p.tickMap.ticks.values, tick.initialized = true → tick.liquidityGross ≠ 0

instance (p : PoolProfiler) : Decidable p.FlagsLive := List.decidableBAll _ _

theorem mem_ticks_values_iff {tick : PoolTick} (hm : m.Charted spacing) :
    tick ∈ m.ticks.values ↔ m.getTick tick.value = some tick := by
  simp only [values, mem_map, Prod.exists, exists_eq_right, mem_entries_iff]
  constructor
  · rintro ⟨t, ht⟩
    have hvalue := hm.value t
    rw [tickOrInit_of_getTick ht] at hvalue
    rw [hvalue]
    exact ht
  · exact fun h => ⟨tick.value, h⟩

/-- With the flags live, the flagged ticks are those with liquidity, and only then. -/
theorem flagsLive_iff (hp : p.tickMap.Charted spacing) :
    p.FlagsLive ↔ ∀ t, ValidTick spacing t → ((p.tickMap.tickOrInit t).initialized = true ↔
      (p.tickMap.tickOrInit t).liquidityGross ≠ 0) := by
  constructor
  · refine fun hlive t _ => ⟨fun hflag => ?_, hp.flagged t⟩
    cases hget : p.tickMap.getTick t with
    | none =>
      rw [tickOrInit, show p.tickMap.ticks.get? t = none from hget] at hflag
      cases hflag
    | some tick =>
      have htick := tickOrInit_of_getTick hget
      have hvalue := hp.value t
      rw [htick] at hflag hvalue ⊢
      exact hlive tick ((mem_ticks_values_iff hp).mpr (hvalue ▸ hget)) hflag
  · intro h tick hmem hflag
    have htick := tickOrInit_of_getTick ((mem_ticks_values_iff hp).mp hmem)
    have hvalid := hp.valid tick.value (by rw [htick]; exact hflag)
    have hlive := (h tick.value hvalid).mp
    rw [htick] at hlive
    exact hlive hflag

/-- What is restored: everything but the bitmap as it was, and a bit for every flagged tick. -/
theorem restored_of_kept {s s' : PoolSnapshot} (hp : p.Kept) (hinit : p.isInitialized = true)
    (hs : p.extractSnapshot = some s) (hs' : s.Reorders s') :
    ∃ q bitmap, (new p.pool).restoreFromSnapshot s' = some q ∧
      Agree { p with tickMap := { p.tickMap with tickBitmap := bitmap } } q ∧
      bitmap.Marks p.pool.tickSpacing fun t => (p.tickMap.tickOrInit t).initialized = true := by
  obtain ⟨_, hblock, rfl⟩ := map_eq_some_iff.mp hs
  obtain ⟨state, positions, ticks, analytics, blockPosition⟩ := s'
  obtain ⟨hstate, hpositions, hticks, hanalytics, hposition⟩ := hs'
  dsimp only at hstate hpositions hticks hanalytics hposition
  have hvalue : ∀ t tick, p.tickMap.ticks.get? t = some tick → tick.value = t := fun t tick h => by
    have := hp.charted.value t
    rwa [tickOrInit_of_getTick h] at this
  have hflagged : ∀ tick ∈ ticks, tick.initialized = true →
      ValidTick p.pool.tickSpacing tick.value := by
    intro tick hmem hflag
    have hget := (mem_ticks_values_iff hp.charted).mp (hticks.mem_iff.mp hmem)
    exact hp.charted.valid tick.value (by rw [tickOrInit_of_getTick hget]; exact hflag)
  obtain ⟨m, hfold, hstored, hlimit, hmarks⟩ :=
    restoreTick_foldlM (m := .new p.pool.tickSpacing)
      ((hticks.map _).nodup_iff.mpr (nodup_map_values hvalue)) (fun _ _ => rfl) hflagged
      (.new fun _ h => nomatch h)
  have hsame : m.ticks = p.tickMap.ticks := hstored.trans (foldl_insert_values hvalue hticks)
  have hkeys : positions.foldl (fun positions position => positions.insert position.key position)
      .empty = p.positions := foldl_insert_values hp.keyed hpositions
  have hmap : ({ m with liquidity := state.liquidity } : TickMap) =
      { p.tickMap with tickBitmap := m.tickBitmap } := by
    dsimp only
    rw [hsame, hlimit, hstate, hp.charted.limit]
    rfl
  -- the profiler before the rate is computed anew
  let restored : PoolProfiler :=
    { pool := p.pool
      positions := positions.foldl
        (fun positions position => positions.insert position.key position) .empty
      tickMap := { m with liquidity := state.liquidity }
      state
      analytics := { analytics with
        liquidityUtilizationRate := (new p.pool).analytics.liquidityUtilizationRate }
      lastProcessedEvent := some blockPosition
      isInitialized := true }
  have hrestore : (new p.pool).restoreFromSnapshot ⟨state, positions, ticks, analytics,
      blockPosition⟩ = restored.updateLiquidityAnalytics := by
    show ((ticks.foldlM restoreTick (.new p.pool.tickSpacing)).bind _) = _
    rw [hfold]
    rfl
  have hrate : restored.RateFits := by
    have hentered : restored.positions = p.positions := hkeys
    refine hp.rate.congr ?_ ?_
    · rw [getTotalLiquidity, hentered]
      rfl
    · show state.liquidity = _
      rw [hstate]
  obtain ⟨q, hq⟩ := Option.isSome_iff_exists.mp hrate
  refine ⟨q, m.tickBitmap, hrestore.trans hq, ?_, ?_⟩
  · simp only [updateLiquidityAnalytics, Option.ite_none_right_eq_some, Option.some.injEq] at hq
    obtain ⟨-, rfl⟩ := hq
    refine ⟨rfl, hkeys, hmap, ?_, ?_, hinit.symm⟩
    · show { state with liquidity := p.state.liquidity } = p.state
      rw [hstate]
    · show some blockPosition = p.lastProcessedEvent
      rw [hposition, hblock]
  · have hlook : ∀ t, m.tickOrInit t = p.tickMap.tickOrInit t := fun t => by
      unfold tickOrInit
      rw [hsame]
    simpa only [hlook] using hmarks

/-- **A profiler restored from a snapshot of a reached one agrees with it and does the same with all
later events iff every tick that is flagged has liquidity.** -/
theorem restored_same_iff {p₀ : PoolProfiler}
    {inputs : List (Nat × DexPoolData)} {s s' : PoolSnapshot}
    (hinit : (new pool).initializePool price = some p₀)
    (hrun : runs replayStep p₀ inputs = some p) (hs : p.extractSnapshot = some s)
    (hs' : s.Reorders s') :
    (∃ q, (new pool).restoreFromSnapshot s' = some q ∧ Agree p q ∧
      (∀ tick lte, q.tickMap.nextInitializedTick tick lte = p.tickMap.nextInitializedTick tick lte) ∧
      ∀ later, SameOutcome (p.replayAll later) (q.replayAll later)) ↔ p.FlagsLive := by
  obtain ⟨hkept, rfl, hinitialized⟩ := kept_of_runs hinit hrun
  obtain ⟨q, bitmap, hrestore, hagree, hmarks⟩ := restored_of_kept hkept hinitialized hs hs'
  rw [flagsLive_iff hkept.charted]
  constructor
  · -- the bit of a flagged tick is set in the restored bitmap, and in the other iff it has liquidity
    rintro ⟨_, hrestore', hagree', -, -⟩ t ht
    cases hrestore.symm.trans hrestore'
    have hbitmap : bitmap = p.tickMap.tickBitmap :=
      congrArg tickBitmap (hagree.tickMap.symm.trans hagree'.tickMap)
    rw [← hmarks.bit t ht, ← hkept.charted.marks.bit t ht, hbitmap]
  · intro hlive
    have hbitmap : bitmap = p.tickMap.tickBitmap := (hmarks.congr hlive).ext hkept.charted.marks
    rw [hbitmap] at hagree
    have hsame : Agree p q := hagree
    refine ⟨q, hrestore, hsame, fun tick lte => ?_, fun later => sameOutcome_replayAll later hsame⟩
    rw [hsame.tickMap]

end PoolProfiler

/-- A mint of nothing between the ticks -120 and 120. -/
def Sample.emptyMintEvent : DexPoolData :=
  .liquidityUpdate ⟨.mint, blockAt 1, ⟨"0x0a"⟩, 0, 0, 0, -120, 120⟩

open Sample

/-- After a mint the restored profiler goes on like the original. -/
theorem restored_same_iff_minted :
    ∃ p₀ p s q, poolAtOne = some p₀ ∧
      runs PoolProfiler.replayStep p₀ [(9, mintEvent)] = some p ∧
      p.extractSnapshot = some s ∧ (PoolProfiler.new pool).restoreFromSnapshot s = some q ∧
      ∀ later, PoolProfiler.SameOutcome (p.replayAll later) (q.replayAll later) := by
  obtain ⟨p₀, p, hp₀, hp, h⟩ := poolRun_cases replayStep
    [(9, mintEvent)] (f := fun p => (decide p.FlagsLive, p.lastProcessedEvent.isSome))
    (a := (true, true)) (by decide +kernel)
  simp only [Prod.mk.injEq, decide_eq_true_eq] at h
  obtain ⟨hlive, hblock⟩ := h
  obtain ⟨block, hblock⟩ := Option.isSome_iff_exists.mp hblock
  have hs : p.extractSnapshot = some _ := map_eq_some_iff.mpr ⟨block, hblock, rfl⟩
  obtain ⟨q, hq, -, -, hlater⟩ := (restored_same_iff hp₀ hp hs
    ⟨rfl, .refl _, .refl _, rfl, rfl⟩).mpr hlive
  exact ⟨p₀, p, _, q, hp₀, hp, hs, hq, hlater⟩

/-- After a mint of nothing the ticks -120 and 120 are flagged and have no bit; restored, they have
one, so that the next tick below 200 is another. -/
theorem not_restored_same_empty :
    ∃ p₀ p s q, poolAtOne = some p₀ ∧
      runs PoolProfiler.replayStep p₀ [(9, emptyMintEvent)] = some p ∧
      p.extractSnapshot = some s ∧ (PoolProfiler.new pool).restoreFromSnapshot s = some q ∧
      p.tickMap.nextInitializedTick 200 true = (0, false) ∧
      q.tickMap.nextInitializedTick 200 true = (120, true) := by
  obtain ⟨p₀, p, hp₀, hp, h⟩ := poolRun_cases replayStep [(9, emptyMintEvent)]
    (f := fun p => (p.tickMap.nextInitializedTick 200 true, (p.extractSnapshot.bind fun s =>
      (new pool).restoreFromSnapshot s).map fun q => q.tickMap.nextInitializedTick 200 true))
    (a := ((0, false), some (120, true))) (by decide +kernel)
  obtain ⟨hbefore, hafter⟩ := Prod.mk.inj h
  obtain ⟨q, hq, hafter⟩ := map_eq_some_iff.mp hafter
  obtain ⟨s, hs, hq⟩ := bind_eq_some_iff.mp hq
  exact ⟨p₀, p, s, q, hp₀, hp, hs, hq, hbefore, hafter⟩

end Nautilus
