import Nautilus.Position.Lifecycle

/-!
# How long a position was held

The fill that closes a position sets its duration to the difference of two unsigned times
(`position.rs:373`). A fill before the opening is admitted with a warning, so the difference can
wrap: `duration_exact_iff` says on which runs it does not.
-/

namespace Nautilus.Position

open Lib Option

section

variable [Build] {p p' : Position} {fill : OrderFilled}

/-- A closed position was held from its opening to its closing. -/
def Timed (p : Position) : Prop :=
  p.isClosed = true → ∃ ts, p.tsClosed = some ts ∧ p.tsOpened ≤ ts ∧ p.durationNs = ts - p.tsOpened

/-- The fill does not close a position that was opened after it. -/
def InOrder (p : Position) (fill : OrderFilled) : Prop :=
  p.side ≠ .flat → snap p.scale (p.signedQty + p.fillChange fill) = 0 → p.tsOpened ≤ fill.tsEvent

instance : Decidable (p.InOrder fill) := inferInstanceAs (Decidable (_ → _ → _))

theorem chargeCommission_tsOpened (h : p.chargeCommission fill = some p') :
    p'.tsOpened = p.tsOpened := by
  unfold chargeCommission at h
  split at h
  · cases h
    rfl
  obtain ⟨_, h₁, h⟩ := bind_eq_some_iff.mp h
  obtain ⟨_, h₂, h⟩ := bind_eq_some_iff.mp h
  cases h
  obtain ⟨⟨_, _, rfl⟩, -⟩ := changeQty_cases h₁
  obtain ⟨_, rfl⟩ := changePnl_cases h₂
  obtain ⟨_, _, _, hr⟩ := resided_cases _
  rw [hr]

theorem apply_times (h : p.apply fill = some p') :
    p'.tsOpened = (if p.side = .flat then fill.tsEvent else p.tsOpened) ∧
      (p'.side = .flat → p'.durationNs = (fill.tsEvent + 2 ^ 64 - p'.tsOpened) % 2 ^ 64) := by
  unfold apply at h
  split at h
  · nomatch h
  obtain ⟨p₁, h₁, h⟩ := bind_eq_some_iff.mp h
  obtain ⟨_, h₂, h⟩ := bind_eq_some_iff.mp h
  obtain ⟨_, h₃, h⟩ := bind_eq_some_iff.mp h
  obtain ⟨_, h₄, h⟩ := bind_eq_some_iff.mp h
  obtain ⟨_, h₅, h⟩ := bind_eq_some_iff.mp h
  cases h
  have hopened : p₁.tsOpened = if p.side = .flat then fill.tsEvent else p.tsOpened := by
    unfold reopen at h₁
    split at h₁
    · obtain ⟨_, -, h₁⟩ := bind_eq_some_iff.mp h₁
      obtain ⟨_, -, h₁⟩ := bind_eq_some_iff.mp h₁
      cases h₁
      exact (if_pos ‹_›).symm
    · cases h₁
      exact (if_neg ‹_›).symm
  obtain ⟨_, _, rfl⟩ := recordFill_cases h₂
  obtain ⟨s, -, h₃⟩ := handleFill_cases h₃
  obtain ⟨_, _, _, _, _, _, rfl⟩ := handleOrderFill_cases h₃
  have hcharged := chargeCommission_tsOpened h₄
  obtain ⟨-, _, _, rfl⟩ := requantify_cases h₅
  unfold settled
  split
  · exact ⟨hcharged.trans hopened, fun _ => rfl⟩
  · split <;> exact ⟨hcharged.trans hopened, nofun⟩

/-- A fill leaves the duration exact iff it is in order. -/
theorem timed_iff_inOrder (h : p.apply fill = some p') (hts : fill.tsEvent < 2 ^ 64) :
    p'.Timed ↔ p.InOrder fill := by
  obtain ⟨hopened, hduration⟩ := apply_times h
  have hfilled := apply_filled h
  have hflat : p'.side = .flat ↔ snap p.scale (p.signedQty + p.fillChange fill) = 0 := by
    rw [hfilled.settled.flat_iff, hfilled.signedQty]
  unfold Timed InOrder
  rw [← hflat]
  by_cases hside : p'.side = .flat
  · have hclosed : p'.tsClosed = some fill.tsEvent := hfilled.tsClosed.trans (if_pos hside)
    have hexact : ∀ opened ts : Nat, ts < 2 ^ 64 → opened ≤ ts →
        (ts + 2 ^ 64 - opened) % 2 ^ 64 = ts - opened := by omega
    constructor
    · intro htimed hp _
      obtain ⟨ts, heq, hle, -⟩ := htimed (by simp [isClosed, hside, hclosed])
      rw [hopened, if_neg hp, ← some.inj (hclosed.symm.trans heq)] at hle
      exact hle
    · intro horder _
      have hle : p'.tsOpened ≤ fill.tsEvent := by
        rw [hopened]
        split
        · exact le_rfl
        · exact horder ‹_› hside
      exact ⟨_, hclosed, hle, (hduration hside).trans (hexact _ _ hts hle)⟩
  · simp [isClosed, hside]

/-- **The duration of a closed position is the time from its opening to its closing, throughout a
run of fills, iff** no fill closes a position opened after it. -/
theorem duration_exact_iff (p : Position) (fills : List OrderFilled)
    (hts : ∀ fill ∈ fills, fill.tsEvent < 2 ^ 64) :
    Along apply (fun _ _ p => p.Timed) p fills ↔
      Along apply (fun p fill _ => p.InOrder fill) p fills :=
  along_iff_of_mem (fun _ => True) (fun _ _ _ _ _ _ _ => trivial)
    (fun fill hmem _ _ _ h => timed_iff_inOrder h (hts fill hmem)) trivial

end

section

attribute [local instance] Build.standard

open Position.Sample

/-- A coin that is sold after it was bought, and bought back later, meets the condition. -/
theorem duration_exact_iff_sold :
    ∃ p₀, Position.new instrument (Sample.fill "1" .buy 1000 none 1) = some p₀ ∧
      Along apply (fun _ _ p => p.Timed) p₀
        [Sample.fill "2" .sell 1000 none 5, Sample.fill "3" .buy 1000 none 7] := by
  obtain ⟨p₀, h₀, hmet⟩ := map_eq_some_iff.mp
    (show (new instrument (Sample.fill "1" .buy 1000 none 1)).map (fun p₀ =>
        decide (Along apply (fun p fill _ => p.InOrder fill) p₀
          [Sample.fill "2" .sell 1000 none 5, Sample.fill "3" .buy 1000 none 7])) = some true by
      decide +kernel)
  exact ⟨p₀, h₀, (duration_exact_iff p₀ _ (by decide)).mpr (of_decide_eq_true hmet)⟩

/-- A coin bought at 2 and sold by a fill at 1 was held for almost all of the clock's range. -/
theorem not_timed_backdated :
    ∃ p₀ p, Position.new instrument (Sample.fill "1" .buy 1000 none 2) = some p₀ ∧
      p₀.apply (Sample.fill "2" .sell 1000 none 1) = some p ∧ p.isClosed = true ∧
      p.tsOpened = 2 ∧ p.tsClosed = some 1 ∧ p.durationNs = 2 ^ 64 - 1 := by
  obtain ⟨p₀, h₀, hp⟩ := map_eq_some_iff.mp
    (show (new instrument (Sample.fill "1" .buy 1000 none 2)).map (fun p₀ =>
        (p₀.apply (Sample.fill "2" .sell 1000 none 1)).map fun p =>
          (p.isClosed, p.tsOpened, p.tsClosed, p.durationNs)) =
        some (some (true, 2, some 1, 2 ^ 64 - 1)) by
      decide +kernel)
  obtain ⟨p, h, hvals⟩ := map_eq_some_iff.mp hp
  simp only [Prod.mk.injEq] at hvals
  exact ⟨p₀, p, h₀, h, hvals⟩

end

end Nautilus.Position
