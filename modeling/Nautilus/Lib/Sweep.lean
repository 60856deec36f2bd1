import Mathlib

/-!
# Sweeping a line of numbers

A sweep visits `1, 2, 3, …` and keeps a summary: the **maximal runs** of the numbers with a
property, found with a cursor that marks where the open run began (`Swept`), or the least or
greatest value met (`LeastOf`, `GreatestOf`).
-/

namespace Nautilus.Lib

open List Option

variable {s : Set Nat}

/-! ## Maximal runs -/

/-- The numbers from `r.1` to `r.2` have the property, and neither neighbour has. -/
structure MaximalRun (p : Nat → Prop) (r : Nat × Nat) : Prop where
  le : r.1 ≤ r.2
  all : ∀ k, r.1 ≤ k → k ≤ r.2 → p k
  before : ∀ k, k + 1 = r.1 → ¬ p k
  after : ¬ p (r.2 + 1)

/-- A sweep up to `n`: the runs that ended below `n`, and the start of the run that `n` is in. -/
structure Swept (p : Nat → Prop) (n : Nat) (runs : List (Nat × Nat)) (cursor : Option Nat) :
    Prop where
  mem : ∀ r, r ∈ runs ↔ MaximalRun p r ∧ r.2 < n
  outside : cursor = none → ¬ p n
  inside : ∀ lo, cursor = some lo → lo ≤ n ∧ (∀ k, lo ≤ k → k ≤ n → p k) ∧ ∀ k, k + 1 = lo → ¬ p k
  sorted : runs.Pairwise fun r r' => r.2 < r'.1
  clear : runs = [] → cursor = none → ∀ k ≤ n, ¬ p k

namespace Swept

variable {p : Nat → Prop} {n : Nat} {runs : List (Nat × Nat)} {cursor : Option Nat}

theorem start (h : ¬ p 0) : Swept p 0 [] none where
  mem _ := ⟨nofun, fun hr => absurd hr.2 (Nat.not_lt_zero _)⟩
  outside _ := h
  inside := nofun
  sorted := .nil
  clear _ _ _ hk := Nat.le_zero.mp hk ▸ h

/-- The next number has the property: the open run goes on, or one begins. -/
theorem extend (h : Swept p n runs cursor) (hp : p (n + 1)) :
    Swept p (n + 1) runs (some (cursor.getD (n + 1))) where
  mem r := by
    rw [h.mem]
    refine ⟨fun hr => ⟨hr.1, Nat.lt_succ_of_lt hr.2⟩, fun hr => ⟨hr.1, ?_⟩⟩
    rcases Nat.lt_succ_iff_lt_or_eq.mp hr.2 with hlt | heq
    · exact hlt
    · exact absurd hp (heq ▸ hr.1.after)
  outside := nofun
  inside lo hlo := by
    cases cursor with
    | none =>
      obtain rfl : n + 1 = lo := some.inj hlo
      refine ⟨Nat.le_refl _, fun k hk hk' => Nat.le_antisymm hk' hk ▸ hp, fun k hk => ?_⟩
      obtain rfl : k = n := Nat.succ.inj hk
      exact h.outside rfl
    | some start =>
      obtain rfl : start = lo := some.inj hlo
      obtain ⟨hle, hall, hbefore⟩ := h.inside start rfl
      refine ⟨Nat.le_succ_of_le hle, fun k hk hk' => ?_, hbefore⟩
      rcases Nat.le_or_eq_of_le_succ hk' with hle | rfl
      · exact hall k hk hle
      · exact hp
  sorted := h.sorted
  clear := nofun

theorem eq_of_inside {lo : Nat} {r : Nat × Nat} (hr : MaximalRun p r) (hend : r.2 = n)
    (hle : lo ≤ n) (hall : ∀ k, lo ≤ k → k ≤ n → p k) (hbefore : ∀ k, k + 1 = lo → ¬ p k) :
    r = (lo, n) := by
  obtain ⟨first, last⟩ := r
  obtain rfl : last = n := hend
  rcases Nat.lt_trichotomy first lo with hlt | rfl | hlt
  · exact absurd (hr.all (lo - 1) (by show first ≤ _; omega) (by show _ ≤ last; omega))
      (hbefore (lo - 1) (by omega))
  · rfl
  · exact absurd (hall (first - 1) (by omega) (by have := hr.le; simp only at this; omega))
      (hr.before (first - 1) (by show _ = first; omega))

/-- The next number has not the property: the open run ends. -/
theorem close (h : Swept p n runs cursor) (hnot : ¬ p (n + 1)) :
    Swept p (n + 1) (runs ++ cursor.toList.map fun lo => (lo, n)) none where
  mem r := by
    rw [mem_append, h.mem, List.mem_map]
    constructor
    · rintro (⟨hrun, hlt⟩ | ⟨lo, hlo, rfl⟩)
      · exact ⟨hrun, Nat.lt_succ_of_lt hlt⟩
      · obtain ⟨hle, hall, hbefore⟩ := h.inside lo (mem_toList.mp hlo)
        exact ⟨⟨hle, hall, hbefore, hnot⟩, Nat.lt_succ_self n⟩
    · rintro ⟨hrun, hlt⟩
      rcases Nat.lt_succ_iff_lt_or_eq.mp hlt with hlt | hend
      · exact .inl ⟨hrun, hlt⟩
      right
      cases cursor with
      | none => exact absurd (hrun.all n (hend ▸ hrun.le) hend.ge) (h.outside rfl)
      | some lo =>
        obtain ⟨hle, hall, hbefore⟩ := h.inside lo rfl
        exact ⟨lo, mem_singleton.mpr rfl, (eq_of_inside hrun hend hle hall hbefore).symm⟩
  outside _ := hnot
  inside := nofun
  sorted := by
    refine pairwise_append.mpr ⟨h.sorted, ?_, ?_⟩
    · cases cursor with
      | none => exact .nil
      | some lo => exact pairwise_singleton _ _
    intro r hr r' hr'
    obtain ⟨lo, hlo, rfl⟩ := mem_map.mp hr'
    obtain ⟨hle, hall, -⟩ := h.inside lo (mem_toList.mp hlo)
    obtain ⟨hrun, hlt⟩ := (h.mem r).mp hr
    -- the number after `r` is not in the open run
    by_contra hover
    exact hrun.after (hall (r.2 + 1) (Nat.le_succ_of_le (Nat.le_of_not_lt hover)) hlt)
  clear hnil _ k hk := by
    obtain ⟨hruns, hopen⟩ := append_eq_nil_iff.mp hnil
    have hcursor : cursor = none := by
      cases cursor with
      | none => rfl
      | some lo => nomatch hopen
    rcases Nat.le_or_eq_of_le_succ hk with hle | rfl
    · exact h.clear hruns hcursor k hle
    · exact hnot

end Swept

/-! ## Extremes -/

def LeastOf (least : Option Nat) (s : Set Nat) : Prop :=
  match least with
  | none => s = ∅
  | some m => IsLeast s m

def GreatestOf (greatest : Option Nat) (s : Set Nat) : Prop :=
  match greatest with
  | none => s = ∅
  | some m => IsGreatest s m

theorem LeastOf.insert {least : Option Nat} (h : LeastOf least s) (a : Nat) :
    LeastOf (some (least.elim a fun m => min m a)) (insert a s) := by
  cases least with
  | none =>
    obtain rfl : s = ∅ := h
    rw [insert_empty_eq]
    exact isLeast_singleton
  | some m =>
    show IsLeast _ (min m a)
    rw [min_comm]
    exact IsLeast.insert a h

theorem GreatestOf.insert {greatest : Option Nat} (h : GreatestOf greatest s) (a : Nat) :
    GreatestOf (some (greatest.elim a fun m => max m a)) (insert a s) := by
  cases greatest with
  | none =>
    obtain rfl : s = ∅ := h
    rw [insert_empty_eq]
    exact isGreatest_singleton
  | some m =>
    show IsGreatest _ (max m a)
    rw [max_comm]
    exact IsGreatest.insert a h

/-- A bound of the least element is a bound of all. -/
theorem LeastOf.forall_le_iff {least : Option Nat} (h : LeastOf least s) (b : Nat) :
    (∀ m, least = some m → b ≤ m) ↔ ∀ a ∈ s, b ≤ a := by
  cases least with
  | none =>
    obtain rfl : s = ∅ := h
    exact ⟨fun _ a ha => absurd ha (Set.notMem_empty a), fun _ m hm => nomatch hm⟩
  | some m =>
    obtain ⟨hmem, hlower⟩ : IsLeast s m := h
    refine ⟨fun hb a ha => (hb m rfl).trans (hlower ha), fun hb m' hm' => ?_⟩
    exact some.inj hm' ▸ hb m hmem

/-- A value is the greatest element exactly if it was recorded as such. -/
theorem GreatestOf.eq_some_iff {greatest : Option Nat} (h : GreatestOf greatest s) (m : Nat) :
    greatest = some m ↔ IsGreatest s m := by
  cases greatest with
  | none =>
    obtain rfl : s = ∅ := h
    exact ⟨nofun, fun hm => absurd hm.1 (Set.notMem_empty m)⟩
  | some m' =>
    have h : IsGreatest s m' := h
    refine ⟨fun heq => some.inj heq ▸ h, fun hm => congrArg some (h.unique hm)⟩

end Nautilus.Lib
