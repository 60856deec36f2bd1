import Mathlib

/-!
# Positions in a list

Collecting the positions of the elements that satisfy a predicate, and looking those positions up
again; and erasing by position the one element that satisfies one.
-/

namespace Nautilus.Lib

open List

/-- Looking up the positions of the elements with `p` gives those elements. The induction is on the
rest of the list, behind what was passed. -/
theorem mapM_getElem_filterMap {α β : Type} (p : α → Bool) (f : α → β) (pre l : List α) :
    ((l.zipIdx pre.length).filterMap fun e => if p e.1 then some e.2 else none).mapM
        (fun i => (pre ++ l)[i]?.map f) = some ((l.filter p).map f) := by
  induction l generalizing pre with
  | nil => rfl
  | cons a l ih =>
    have hrest := ih (pre ++ [a])
    rw [append_assoc, singleton_append, length_append, length_singleton] at hrest
    rw [zipIdx_cons, filterMap_cons, filter_cons]
    cases hp : p a with
    | false => simpa [hp] using hrest
    | true => simp [hrest]

theorem length_filterMap_zipIdx {α : Type} (p : α → Bool) (l : List α) (n : Nat) :
    ((l.zipIdx n).filterMap fun e => if p e.1 then some e.2 else none).length =
      (l.filter p).length := by
  induction l generalizing n with
  | nil => rfl
  | cons a l ih =>
    rw [zipIdx_cons, filterMap_cons, filter_cons]
    cases hp : p a with
    | false => simpa [hp] using ih (n + 1)
    | true => simpa [hp] using ih (n + 1)

theorem lt_of_mem_filterMap_zipIdx {α : Type} {p : α → Bool} {l : List α} {i : Nat}
    (h : i ∈ l.zipIdx.filterMap fun e => if p e.1 then some e.2 else none) : i < l.length := by
  obtain ⟨⟨a, j⟩, hmem, hj⟩ := mem_filterMap.mp h
  have hlt := snd_lt_of_mem_zipIdx hmem
  dsimp only at hj
  split at hj
  · cases hj
    simpa using hlt
  · nomatch hj

theorem eraseIdx_findIdx?_eq_filter {α : Type} {p : α → Bool} {l : List α} {i : Nat}
    (hone : l.Pairwise fun a b => ¬ (p a = true ∧ p b = true)) (h : l.findIdx? p = some i) :
    l.eraseIdx i = l.filter fun a => !p a := by
  induction l generalizing i with
  | nil => nomatch h
  | cons a l ih =>
    obtain ⟨ha, hl⟩ := pairwise_cons.mp hone
    rw [findIdx?_cons] at h
    split_ifs at h with hp
    · cases h
      have hrest : ∀ b ∈ l, (!p b) = true := fun b hb => by
        simpa [hp] using ha b hb
      rw [eraseIdx_cons_zero, filter_cons_of_neg (by simp [hp]), filter_eq_self.mpr hrest]
    · obtain ⟨j, hj, rfl⟩ := Option.map_eq_some_iff.mp h
      rw [eraseIdx_cons_succ, ih hl hj, filter_cons_of_pos (by simp [hp])]

end Nautilus.Lib
