import Mathlib

/-!
# Rounding to a grid

The multiples of `1 / scale` in an ordered field; a value is represented by the nearest integer to
`x * scale`.

- `roundAway x`: the nearest integer, ties away from zero (`f64::round`).
- `OnGrid scale x`: `x` is a multiple of `1 / scale`, so that rounding loses nothing.
- `snap scale x`: `x`, unless it is represented by zero. A sum that is snapped after every term
  (`snapSum`) stays on the grid if its terms are on it.
-/

namespace Nautilus.Lib

/-! ## The nearest integer -/

section Round

variable {K : Type*} [Field K] [LinearOrder K] [FloorRing K]

/-- The nearest integer; of two, the one further from zero. -/
def roundAway (x : K) : ℤ := if 0 ≤ x then ⌊x + 1 / 2⌋ else -⌊-x + 1 / 2⌋

theorem roundAway_of_nonneg {x : K} (h : 0 ≤ x) : roundAway x = ⌊x + 1 / 2⌋ := if_pos h

variable [IsStrictOrderedRing K]

theorem roundAway_nonneg {x : K} (h : 0 ≤ x) : 0 ≤ roundAway x := by
  rw [roundAway_of_nonneg h]
  exact Int.floor_nonneg.mpr (by positivity)

@[simp] theorem roundAway_zero : roundAway (0 : K) = 0 := by
  rw [roundAway_of_nonneg le_rfl, zero_add, Int.floor_eq_zero_iff]
  constructor <;> norm_num

/-- What is below one half, and nothing else, is rounded to zero. -/
theorem roundAway_eq_zero_iff {x : K} (h : 0 ≤ x) : roundAway x = 0 ↔ x < 1 / 2 := by
  rw [roundAway_of_nonneg h, Int.floor_eq_zero_iff, Set.mem_Ico]
  constructor
  · rintro ⟨-, hlt⟩
    linarith
  · intro hlt
    constructor <;> linarith

theorem roundAway_cast_eq_iff {x : K} (h : 0 ≤ x) : (roundAway x : K) = x ↔ ∃ n : ℤ, x = n := by
  constructor
  · intro hx
    exact ⟨roundAway x, hx.symm⟩
  · rintro ⟨n, rfl⟩
    have hhalf : ⌊(1 / 2 : K)⌋ = 0 := Int.floor_eq_zero_iff.mpr (by constructor <;> norm_num)
    rw [roundAway_of_nonneg h, Int.floor_intCast_add, hhalf, add_zero]

end Round

variable {K : Type*} [Field K]

/-! ## The grid -/

/-- `x` is a multiple of `1 / scale`. -/
def OnGrid (scale x : K) : Prop := ∃ n : ℤ, x * scale = n

instance (scale x : ℚ) : Decidable (OnGrid scale x) :=
  decidable_of_iff ((x * scale).den = 1) <| by
    constructor
    · intro h
      exact ⟨(x * scale).num, (Rat.den_eq_one_iff _).mp h |>.symm⟩
    · rintro ⟨n, hn⟩
      rw [hn]
      exact Rat.den_intCast n

namespace OnGrid

variable {scale x y : K}

theorem zero : OnGrid scale 0 := ⟨0, by simp⟩

theorem add (hx : OnGrid scale x) (hy : OnGrid scale y) : OnGrid scale (x + y) := by
  obtain ⟨m, hm⟩ := hx
  obtain ⟨n, hn⟩ := hy
  exact ⟨m + n, by rw [add_mul, hm, hn, Int.cast_add]⟩

theorem abs_iff [LinearOrder K] : OnGrid scale |x| ↔ OnGrid scale x := by
  rcases abs_choice x with h | h
  · rw [h]
  rw [h]
  constructor
  · rintro ⟨n, hn⟩
    exact ⟨-n, by rw [Int.cast_neg, ← hn, neg_mul, neg_neg]⟩
  · rintro ⟨n, hn⟩
    exact ⟨-n, by rw [Int.cast_neg, ← hn, neg_mul]⟩

end OnGrid

/-! ## Snapping to zero -/

variable [LinearOrder K]

/-- Zero where the grid represents `x` by zero, `x` elsewhere. -/
def snap (scale x : K) : K := if |x| * scale < 1 / 2 then 0 else x

theorem snap_of_lt {scale x : K} (h : |x| * scale < 1 / 2) : snap scale x = 0 := if_pos h

theorem snap_of_le {scale x : K} (h : ¬ |x| * scale < 1 / 2) : snap scale x = x := if_neg h

theorem snap_zero (scale : K) : snap scale 0 = 0 := by
  unfold snap
  split <;> rfl

theorem snap_snap (scale x : K) : snap scale (snap scale x) = snap scale x := by
  by_cases h : |x| * scale < 1 / 2
  · rw [snap_of_lt h, snap_zero]
  · rw [snap_of_le h, snap_of_le h]

theorem OnGrid.snap {scale x : K} (h : OnGrid scale x) : OnGrid scale (snap scale x) := by
  by_cases hlt : |x| * scale < 1 / 2
  · rw [snap_of_lt hlt]
    exact OnGrid.zero
  · rw [snap_of_le hlt]
    exact h

/-- The sum of `terms` on top of `x`, snapped after each. -/
def snapSum (scale x : K) (terms : List K) : K :=
  terms.foldl (fun x d => snap scale (x + d)) x

theorem snapSum_append (scale x : K) (as bs : List K) :
    snapSum scale x (as ++ bs) = snapSum scale (snapSum scale x as) bs :=
  List.foldl_append

end Nautilus.Lib
