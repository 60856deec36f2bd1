import Mathlib

/-!
# Spaced times

Times in a list, latest first, of which each comes at least `interval` after the one `n` places
before it. Then no half-open window of that length holds more than `n` of them.
-/

namespace Nautilus.Lib

open List

/-- Non-increasing, and each time at least `interval` after the `n`-th one before it. -/
def Spaced (n interval : Nat) : List Nat → Prop
  | [] => True
  | t :: ts => (∀ u ∈ ts, u ≤ t) ∧ (∀ u, ts[n - 1]? = some u → u + interval ≤ t) ∧
    Spaced n interval ts

namespace Spaced

variable {n interval : Nat} {ts : List Nat}

theorem sorted (h : Spaced n interval ts) : ts.Pairwise (· ≥ ·) := by
  induction ts with
  | nil => exact .nil
  | cons t ts ih => exact pairwise_cons.mpr ⟨h.1, ih h.2.2⟩

/-- **The window bound.** -/
theorem length_window_le (hn : 0 < n) (h : Spaced n interval ts) (w : Nat) :
    (ts.filter fun t => w ≤ t ∧ t < w + interval).length ≤ n := by
  induction ts with
  | nil => exact Nat.zero_le n
  | cons t ts ih =>
    obtain ⟨-, hspace, hrest⟩ := h
    rw [filter_cons]
    split
    · rename_i hin
      have hin : w ≤ t ∧ t < w + interval := of_decide_eq_true hin
      -- only the `n - 1` times just before `t` can be in its window
      have htake : ts.filter (fun t => w ≤ t ∧ t < w + interval) =
          (ts.take (n - 1)).filter fun t => w ≤ t ∧ t < w + interval := by
        have hdrop : (ts.drop (n - 1)).filter (fun t => w ≤ t ∧ t < w + interval) = [] := by
          refine filter_eq_nil_iff.mpr fun u hu hu' => ?_
          have hu' : w ≤ u ∧ u < w + interval := of_decide_eq_true hu'
          have hle : ∀ v, ts[n - 1]? = some v → u ≤ v := by
            intro v hv
            obtain ⟨hlt, rfl⟩ := List.getElem?_eq_some_iff.mp hv
            rw [drop_eq_getElem_cons hlt] at hu
            rcases mem_cons.mp hu with rfl | hu
            · exact Nat.le_refl _
            · have hsorted := hrest.sorted.sublist (drop_sublist (n - 1) ts)
              rw [drop_eq_getElem_cons hlt] at hsorted
              exact rel_of_pairwise_cons hsorted hu
          cases hget : ts[n - 1]? with
          | none =>
            rw [drop_eq_nil_of_le (getElem?_eq_none_iff.mp hget)] at hu
            nomatch hu
          | some v =>
            have := hspace v hget
            have := hle v hget
            omega
        conv_lhs => rw [← take_append_drop (n - 1) ts, filter_append, hdrop]
        rw [append_nil]
      have hlen := Nat.le_trans
        (length_filter_le (fun t => decide (w ≤ t ∧ t < w + interval)) (ts.take (n - 1)))
        (length_take_le (n - 1) ts)
      rw [length_cons, htake]
      omega
    · exact ih hrest

end Spaced

end Nautilus.Lib
