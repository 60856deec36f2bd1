import Nautilus.Pool.TickMap

/-!
# The bits of the tick map

Compressed ticks within an `i16` of words have a bit of their own (`tickPosition_inj`), and flipping
a tick changes no other bit (`word_flipTick`). `TickMap.Charted` holds over any history: the bitmap
marks exactly the ticks with liquidity. **Of the flag `initialized` it says only that such ticks
carry it.**
-/

namespace Nautilus

open Lib Option Bool OrdMap

variable {current delta : Int} {flipped upper : Bool} {growth0 growth1 : Nat} {after : PoolTick}

/-- The compressed ticks whose word position is an `i16`. -/
def FitsWord (c : Int) : Prop := -(2 ^ 23) ≤ c ∧ c < 2 ^ 23

theorem tickPosition_of_fits {c : Int} (h : FitsWord c) :
    tickPosition c = (c / 256, (c % 256).toNat) := by
  have hword : Int.bmod (c / 256) (2 ^ 16) = c / 256 := by
    apply Int.bmod_eq_of_le <;> (unfold FitsWord at h; omega)
  rw [tickPosition, hword]

theorem tickPosition_inj {c c' : Int} (h : FitsWord c) (h' : FitsWord c')
    (heq : tickPosition c = tickPosition c') : c = c' := by
  rw [tickPosition_of_fits h, tickPosition_of_fits h'] at heq
  obtain ⟨_, _⟩ := Prod.mk.inj heq
  omega

/-- A tick that `validate_ticks` accepts as a bound. -/
structure ValidTick (spacing : Nat) (t : Int) : Prop where
  spaced : t.tmod spacing = 0
  above : PoolTick.minTick ≤ t
  below : t ≤ PoolTick.maxTick

theorem ValidTick.fitsWord {t : Int} {spacing : Nat} (h : ValidTick spacing t) :
    FitsWord (t.tdiv spacing) := by
  have habs : (t.tdiv spacing).natAbs ≤ t.natAbs := by
    rw [Int.natAbs_tdiv]
    exact Nat.div_le_self ..
  have hlo := h.above
  have hhi := h.below
  unfold PoolTick.minTick at hlo
  unfold PoolTick.maxTick at hhi
  unfold FitsWord
  omega

theorem tdiv_inj {t t' : Int} {spacing : Nat} (h : t.tmod spacing = 0) (h' : t'.tmod spacing = 0)
    (heq : t.tdiv spacing = t'.tdiv spacing) : t = t' := by
  have ht := Int.tdiv_mul_add_tmod t spacing
  have ht' := Int.tdiv_mul_add_tmod t' spacing
  rw [h', ← heq] at ht'
  omega

namespace TickBitmap

variable {b b' : TickBitmap} {tick : Int}

/-- No empty word is stored. -/
def Compact (b : TickBitmap) : Prop := ∀ w v, b.words.get? w = some v → v ≠ 0

theorem Compact.get?_eq (h : b.Compact) (w : Int) :
    b.words.get? w = if b.word w = 0 then none else some (b.word w) := by
  unfold word
  cases hw : b.words.get? w with
  | none => rfl
  | some v => simp [h w v hw]

theorem Compact.ext (h : b.Compact) (h' : b'.Compact) (hspacing : b.tickSpacing = b'.tickSpacing)
    (hword : ∀ w, b.word w = b'.word w) : b = b' := by
  have hwords : b.words = b'.words := ext_get? fun w => by
    rw [h.get?_eq, h'.get?_eq, hword]
  cases b
  cases b'
  simp only at hwords hspacing
  rw [hwords, hspacing]

theorem of_flipTick (h : b.flipTick tick = some b') :
    tick.tmod b.tickSpacing = 0 ∧ b'.tickSpacing = b.tickSpacing ∧ (b.Compact → b'.Compact) ∧
      ∀ w, b'.word w = if (tickPosition (b.compressTick tick)).1 = w
        then b.word w ^^^ 1 <<< (tickPosition (b.compressTick tick)).2 else b.word w := by
  unfold flipTick at h
  simp only [ite_none_right_eq_some, some.injEq] at h
  obtain ⟨hspaced, rfl⟩ := h
  obtain ⟨_, _⟩ := tickPosition (b.compressTick tick)
  refine ⟨hspaced, rfl, fun hcompact w v hv => ?_, fun w => ?_⟩
  · dsimp only at hv
    split at hv
    · rw [get?_remove_eq] at hv
      split at hv
      · cases hv
      · exact hcompact w v hv
    · rename_i hword
      rw [get?_insert_eq] at hv
      split at hv
      · cases hv
        exact hword
      · exact hcompact w v hv
  · unfold word
    split
    · rename_i hword
      rw [get?_remove_eq]
      split_ifs with hw
      · subst hw
        exact hword.symm
      · rfl
    · rw [get?_insert_eq]
      split_ifs with hw
      · subst hw
        rfl
      · rfl

theorem testBit_flipTick (h : b.flipTick tick = some b') (w : Int) (i : Nat) :
    (b'.word w).testBit i =
      ((b.word w).testBit i ^^ decide (tickPosition (b.compressTick tick) = (w, i))) := by
  obtain ⟨-, -, -, hword⟩ := of_flipTick h
  rw [hword]
  obtain ⟨wordPosition, _⟩ := tickPosition (b.compressTick tick)
  by_cases hw : wordPosition = w
  · subst hw
    simp [Nat.testBit_xor, Nat.one_shiftLeft, Nat.testBit_two_pow]
  · simp [hw]

/-- The bitmap marks exactly the valid ticks in `S`. -/
structure Marks (b : TickBitmap) (spacing : Nat) (S : Int → Prop) : Prop where
  tickSpacing : b.tickSpacing = spacing
  compact : b.Compact
  bit : ∀ t, ValidTick spacing t → (b.isInitialized t = true ↔ S t)
  used : ∀ w i, (b.word w).testBit i = true →
    ∃ t, ValidTick spacing t ∧ tickPosition (t.tdiv spacing) = (w, i)

namespace Marks

variable {spacing : Nat} {S S' : Int → Prop}

theorem new (hS : ∀ t, ¬ S t) : (TickBitmap.new spacing).Marks spacing S where
  tickSpacing := rfl
  compact w v h := nomatch h
  bit t _ := by
    have hbit : (TickBitmap.new spacing).isInitialized t = false := Nat.zero_testBit _
    simp [hbit, hS t]
  used w i h := by
    have hbit : ((TickBitmap.new spacing).word w).testBit i = false := Nat.zero_testBit _
    rw [hbit] at h
    nomatch h

theorem congr (h : b.Marks spacing S) (hS : ∀ t, ValidTick spacing t → (S t ↔ S' t)) :
    b.Marks spacing S' :=
  { h with bit := fun t ht => (h.bit t ht).trans (hS t ht) }

/-- A valid tick can be flipped, and then it is the one whose mark changes. -/
theorem flip (h : b.Marks spacing S) (ht : ValidTick spacing tick) (S' : Int → Prop)
    (hS : ∀ t, ValidTick spacing t → (S' t ↔ if t = tick then ¬ S t else S t)) :
    ∃ b', b.flipTick tick = some b' ∧ b'.Marks spacing S' := by
  obtain ⟨b', hb'⟩ : ∃ b', b.flipTick tick = some b' := by
    unfold flipTick
    rw [h.tickSpacing, if_pos ht.spaced]
    exact ⟨_, rfl⟩
  obtain ⟨-, hspacing, hcompact, -⟩ := of_flipTick hb'
  have hposition : b.compressTick tick = tick.tdiv spacing := by
    rw [compressTick, h.tickSpacing]
  refine ⟨b', hb', hspacing.trans h.tickSpacing, hcompact h.compact, fun t hvalid => ?_,
    fun w i hbit => ?_⟩
  · have hsame : b'.isInitialized t =
        (b.isInitialized t ^^ decide (tickPosition (tick.tdiv spacing) =
          tickPosition (t.tdiv spacing))) := by
      show (b'.word _).testBit _ = _
      rw [testBit_flipTick hb', hposition, compressTick, hspacing, h.tickSpacing]
      rw [isInitialized, compressTick, h.tickSpacing]
      rfl
    have hold := h.bit t hvalid
    rw [hS t hvalid, hsame]
    split
    · rename_i heq
      subst heq
      simp [← hold]
    · rename_i hne
      have hother : tickPosition (tick.tdiv spacing) ≠ tickPosition (t.tdiv spacing) :=
        fun heq => hne (tdiv_inj ht.spaced hvalid.spaced
          (tickPosition_inj ht.fitsWord hvalid.fitsWord heq)).symm
      simp [hother, hold]
  · rw [testBit_flipTick hb', hposition] at hbit
    by_cases hat : tickPosition (tick.tdiv spacing) = (w, i)
    · exact ⟨tick, ht, hat⟩
    · simp only [hat, decide_false, bne_false] at hbit
      exact h.used w i hbit

theorem ext (h : b.Marks spacing S) (h' : b'.Marks spacing S) : b = b' := by
  refine h.compact.ext h'.compact (h.tickSpacing.trans h'.tickSpacing.symm) fun w => ?_
  -- a bit that is set in one of them belongs to a valid tick, which is marked in both
  have hone : ∀ {c c' : TickBitmap}, c.Marks spacing S → c'.Marks spacing S → ∀ i,
      (c.word w).testBit i = true → (c'.word w).testBit i = true := by
    intro c c' hc hc' i hbit
    obtain ⟨t, ht, hat⟩ := hc.used w i hbit
    have hinit : ∀ {d : TickBitmap}, d.Marks spacing S →
        d.isInitialized t = (d.word w).testBit i := fun hd => by
      rw [isInitialized, compressTick, hd.tickSpacing, hat]
    rw [← hinit hc']
    rw [← hinit hc] at hbit
    exact (hc'.bit t ht).mpr ((hc.bit t ht).mp hbit)
  refine Nat.eq_of_testBit_eq fun i => eq_iff_iff.mpr ⟨hone h h' i, hone h' h i⟩

end Marks

end TickBitmap

namespace TickMap

variable {m m' : TickMap} {spacing : Nat} {t t' : Int} {tick : PoolTick}

@[simp] theorem tickOrInit_putTick :
    (m.putTick t tick).tickOrInit t' = if t = t' then tick else m.tickOrInit t' := by
  unfold tickOrInit putTick
  rw [get?_insert_eq]
  split <;> rfl

@[simp] theorem tickOrInit_clear :
    (m.clear t).tickOrInit t' = if t = t' then .fromTick t' else m.tickOrInit t' := by
  unfold tickOrInit clear
  rw [get?_remove_eq]
  split <;> rfl

theorem tickOrInit_of_getTick (h : m.getTick t = some tick) : m.tickOrInit t = tick := by
  rw [tickOrInit, show m.ticks.get? t = some tick from h]
  rfl

/-- What a change of liquidity at a tick does. -/
structure Updated (m : TickMap) (t current delta : Int) (upper : Bool) (growth0 growth1 : Nat)
    (m' : TickMap) (flipped : Bool) (after : PoolTick) : Prop where
  updates : (m.tickOrInit t).updateLiquidity delta upper = some after
  within : after.liquidityGross ≤ m.maxLiquidityPerTick
  ticks : m'.ticks = m.ticks.insert t (touched (m.tickOrInit t) after current growth0 growth1)
  flips : flipped = ((after.liquidityGross == 0) != ((m.tickOrInit t).liquidityGross == 0))
  bitmap : if flipped then m.tickBitmap.flipTick t = some m'.tickBitmap
    else m'.tickBitmap = m.tickBitmap
  liquidity : m'.liquidity = m.liquidity
  limit : m'.maxLiquidityPerTick = m.maxLiquidityPerTick

theorem of_update (h : m.update t current delta upper growth0 growth1 = some (m', flipped)) :
    ∃ after, m.Updated t current delta upper growth0 growth1 m' flipped after := by
  simp only [update, updateTickData, bind_eq_bind, bind_eq_some_iff,
    ite_none_right_eq_some, some.injEq] at h
  obtain ⟨_, ⟨after, hafter, hwithin, rfl⟩, h⟩ := h
  split_ifs at h with hflipped
  · obtain ⟨_, hflip, heq⟩ := map_eq_some_iff.mp h
    cases heq
    exact ⟨after, hafter, hwithin, rfl, hflipped.symm, hflip, rfl, rfl⟩
  · cases h
    exact ⟨after, hafter, hwithin, rfl, (not_eq_true _ ▸ hflipped).symm, rfl, rfl, rfl⟩

theorem Updated.tickOrInit_eq (h : m.Updated t current delta upper growth0 growth1 m' flipped after)
    (t' : Int) : m'.tickOrInit t' =
      if t = t' then touched (m.tickOrInit t) after current growth0 growth1
      else m.tickOrInit t' := by
  unfold tickOrInit
  rw [h.ticks, get?_insert_eq]
  split <;> rfl

/-- The flip is reported when the liquidity of the tick becomes zero or stops being zero. -/
theorem Updated.flipped_iff (h : m.Updated t current delta upper growth0 growth1 m' flipped after) :
    flipped = true ↔ (after.liquidityGross = 0 ↔ (m.tickOrInit t).liquidityGross ≠ 0) := by
  rw [h.flips]
  by_cases hafter : after.liquidityGross = 0 <;>
    by_cases hbefore : (m.tickOrInit t).liquidityGross = 0 <;> simp [hafter, hbefore]

/-- A flip by a removal of liquidity leaves none. -/
theorem Updated.gross_of_removal (h : m.Updated t current delta upper growth0 growth1 m' true after)
    (hdelta : delta < 0) : (m'.tickOrInit t).liquidityGross = 0 := by
  obtain ⟨gross, hgross, _⟩ := map_eq_some_iff.mp h.updates
  have hless : gross < (m.tickOrInit t).liquidityGross := by
    simp only [liquidityMathAdd, if_pos hdelta, ite_none_right_eq_some, some.injEq] at hgross
    obtain ⟨hlt, rfl⟩ := hgross
    exact hlt
  have hzero := (h.flipped_iff.mp rfl).mpr (by omega)
  rw [h.tickOrInit_eq, if_pos rfl, touched]
  split
  · split <;> exact hzero
  · exact hzero

theorem tickOrInit_getFeeGrowthInside {lower upper : Int} :
    (m.getFeeGrowthInside lower upper current growth0 growth1).1.tickOrInit t = m.tickOrInit t := by
  show ((m.putTick lower _).putTick upper _).tickOrInit t = _
  simp only [tickOrInit_putTick]
  split
  · rename_i heq
    subst heq
    split
    · rename_i heq
      rw [heq]
    · rfl
  · split
    · rename_i heq
      rw [heq]
    · rfl

/-- Ticks are stored under their value, those with liquidity are flagged and valid, and the bitmap
marks exactly those. -/
structure Charted (m : TickMap) (spacing : Nat) : Prop where
  limit : m.maxLiquidityPerTick = tickSpacingToMaxLiquidityPerTick spacing
  value : ∀ t, (m.tickOrInit t).value = t
  valid : ∀ t, (m.tickOrInit t).initialized = true → ValidTick spacing t
  flagged : ∀ t, (m.tickOrInit t).liquidityGross ≠ 0 → (m.tickOrInit t).initialized = true
  marks : m.tickBitmap.Marks spacing fun t => (m.tickOrInit t).liquidityGross ≠ 0

namespace Charted

theorem new : (TickMap.new spacing).Charted spacing where
  limit := rfl
  value _ := rfl
  valid _ h := nomatch h
  flagged _ h := absurd rfl h
  marks := .new fun _ h => h rfl

section

variable (h : m.Charted spacing)

include h

theorem setLiquidity (liquidity : Nat) :
    { m with liquidity }.Charted spacing := ⟨h.limit, h.value, h.valid, h.flagged, h.marks⟩

/-- Writing back a tick with its liquidity and its flag as they were. -/
theorem putTick (hvalue : tick.value = t)
    (hgross : tick.liquidityGross = (m.tickOrInit t).liquidityGross)
    (hflag : tick.initialized = (m.tickOrInit t).initialized) :
    (m.putTick t tick).Charted spacing where
  limit := h.limit
  value t' := by
    rw [tickOrInit_putTick]
    split
    · rename_i heq
      exact hvalue.trans heq
    · exact h.value t'
  valid t' hinit := by
    rw [tickOrInit_putTick] at hinit
    split at hinit
    · rename_i heq
      exact heq ▸ h.valid t (hflag ▸ hinit)
    · exact h.valid t' hinit
  flagged t' hne := by
    rw [tickOrInit_putTick] at hne ⊢
    split_ifs at hne with heq
    · rw [if_pos heq, hflag]
      exact h.flagged t (hgross ▸ hne)
    · rw [if_neg heq]
      exact h.flagged t' hne
  marks := h.marks.congr fun t' _ => by
    rw [tickOrInit_putTick]
    split
    · rename_i heq
      rw [hgross, heq]
    · rfl

theorem clear (hgross : (m.tickOrInit t).liquidityGross = 0) : (m.clear t).Charted spacing where
  limit := h.limit
  value t' := by
    rw [tickOrInit_clear]
    split
    · rfl
    · exact h.value t'
  valid t' hinit := by
    rw [tickOrInit_clear] at hinit
    split at hinit
    · nomatch hinit
    · exact h.valid t' hinit
  flagged t' hne := by
    rw [tickOrInit_clear] at hne ⊢
    split at hne
    · exact absurd rfl hne
    · rename_i heq
      rw [if_neg heq]
      exact h.flagged t' hne
  marks := h.marks.congr fun t' _ => by
    rw [tickOrInit_clear]
    split
    · rename_i heq
      rw [← heq, hgross]
      rfl
    · rfl

theorem crossTick (t : Int) (growth0 growth1 : Nat) :
    (m.crossTick t growth0 growth1).1.Charted spacing := h.putTick (h.value t) rfl rfl

theorem getFeeGrowthInside (lower upper current : Int) (growth0 growth1 : Nat) :
    (m.getFeeGrowthInside lower upper current growth0 growth1).1.Charted spacing := by
  have hlower := h.putTick (h.value lower) rfl rfl
  exact hlower.putTick (hlower.value upper) rfl rfl

theorem update (ht : ValidTick spacing t)
    (hupdate : m.Updated t current delta upper growth0 growth1 m' flipped after) :
    m'.Charted spacing := by
  have heach := hupdate.tickOrInit_eq
  obtain ⟨_, -, hafter⟩ := map_eq_some_iff.mp hupdate.updates
  have hvalue : (touched (m.tickOrInit t) after current growth0 growth1).value = t := by
    have : after.value = t := by
      rw [← hafter]
      exact h.value t
    rw [touched]
    split
    · split <;> exact this
    · exact this
  have hgross : (touched (m.tickOrInit t) after current growth0 growth1).liquidityGross =
      after.liquidityGross := by
    rw [touched]
    split
    · split <;> rfl
    · rfl
  -- a tick that is touched is flagged from then on
  have hflag : (touched (m.tickOrInit t) after current growth0 growth1).initialized = true := by
    rw [touched]
    split
    · split <;> rfl
    · rename_i hne
      rw [← hafter]
      exact h.flagged t hne
  refine ⟨hupdate.limit.trans h.limit, fun t' => ?_, fun t' hinit => ?_, fun t' hne => ?_, ?_⟩
  · rw [heach]
    split
    · rename_i heq
      rw [hvalue, heq]
    · exact h.value t'
  · rw [heach] at hinit
    split at hinit
    · rename_i heq
      exact heq ▸ ht
    · exact h.valid t' hinit
  · rw [heach] at hne ⊢
    split_ifs at hne with heq
    · rw [if_pos heq, hflag]
    · rw [if_neg heq]
      exact h.flagged t' hne
  · have hflips := hupdate.flipped_iff
    have hbitmap := hupdate.bitmap
    cases flipped with
    | true =>
      rw [if_pos rfl] at hbitmap
      obtain ⟨bitmap, hflip, hmarks⟩ := h.marks.flip ht
        (fun t' => (m'.tickOrInit t').liquidityGross ≠ 0) fun t' _ => by
          rw [heach]
          by_cases heq : t' = t
          · subst heq
            rw [if_pos rfl, if_pos rfl, hgross]
            exact not_congr (hflips.mp rfl)
          · rw [if_neg heq, if_neg (Ne.symm heq)]
      rw [hbitmap] at hflip
      cases hflip
      exact hmarks
    | false =>
      rw [if_neg Bool.false_ne_true] at hbitmap
      rw [hbitmap]
      refine h.marks.congr fun t' _ => ?_
      rw [heach]
      split_ifs with heq
      · subst heq
        rw [hgross]
        have hkept := mt hflips.mpr false_ne_true
        tauto
      · rfl

end

end Charted

end TickMap

end Nautilus
