import Nautilus.Lib.OrdMap

/-!
# Lists grouped by a key

A map of buckets, ordered by a key, represents one list: `Groups key m xs` says that the bucket of
each key holds the items of that key **in the order of the list** and that no bucket is empty. Two
writes keep it: `Groups.push` (an item at the end of its bucket) and `Groups.drop` (items of one
bucket taken out, and the bucket when it becomes empty).

The buckets one after another are a stable sort of the list: nothing is lost or added
(`Groups.mem_flatten`), and items come by key, ascending (`Groups.pairwise_flatten`) or descending,
and at one key in list order.
-/

namespace Nautilus.Lib

open OrdMap

universe u v

variable {κ : Type u} {α : Type v} {cmp : κ → κ → Ordering} {key : α → κ} {b : List α}
  {k : κ} {x : α}

def atKey (cmp : κ → κ → Ordering) (key : α → κ) (k : κ) (xs : List α) : List α :=
  xs.filter fun x => cmp (key x) k = .eq

def Before (xs : List α) (a b : α) : Prop := List.Sublist [a, b] xs

theorem mem_atKey {xs : List α} : x ∈ atKey cmp key k xs ↔ x ∈ xs ∧ cmp (key x) k = .eq := by
  rw [atKey, List.mem_filter, decide_eq_true_iff]

theorem atKey_append (k : κ) (xs ys : List α) :
    atKey cmp key k (xs ++ ys) = atKey cmp key k xs ++ atKey cmp key k ys :=
  List.filter_append ..

theorem atKey_singleton (k : κ) (x : α) :
    atKey cmp key k [x] = if cmp (key x) k = .eq then [x] else [] := by
  simp [atKey, List.filter_cons, List.filter_nil]

theorem atKey_filter (k : κ) (p : α → Bool) (xs : List α) :
    atKey cmp key k (xs.filter p) = (atKey cmp key k xs).filter p := by
  simp [atKey, List.filter_filter, Bool.and_comm]

/-- The buckets of `m` are the items of `xs` by key. -/
def Groups (key : α → κ) (m : OrdMap cmp (List α)) (xs : List α) : Prop :=
  ∀ k, m.get? k = if atKey cmp key k xs = [] then none else some (atKey cmp key k xs)

namespace Groups

variable {m : OrdMap cmp (List α)} {xs : List α}

theorem empty : Groups key (empty : OrdMap cmp (List α)) [] := fun _ => rfl

theorem getD (h : Groups key m xs) (k : κ) : (m.get? k).getD [] = atKey cmp key k xs := by
  rw [h k]
  split
  · rename_i hnil
    exact hnil.symm
  · rfl

theorem get?_of_mem (h : Groups key m xs) (hx : x ∈ xs)
    (hk : cmp (key x) k = .eq) : m.get? k = some (atKey cmp key k xs) := by
  rw [h k, if_neg (List.ne_nil_of_mem (mem_atKey.mpr ⟨hx, hk⟩))]

variable [Std.TransCmp cmp]

section

variable (h : Groups key m xs)

include h

theorem push (hk : key x = k) :
    Groups key (m.insert k ((m.get? k).getD [] ++ [x])) (xs ++ [x]) := by
  intro k'
  rw [get?_insert, h.getD, atKey_append, atKey_singleton, hk]
  by_cases hkk : cmp k k' = .eq
  · -- the bucket that was written, under a key that may only compare equal
    have hsame : atKey cmp key k xs = atKey cmp key k' xs := by
      simp [atKey, Std.TransCmp.congr_right hkk]
    rw [if_pos hkk, if_pos hkk, hsame, 
      if_neg (List.append_ne_nil_of_right_ne_nil _ (List.cons_ne_nil x []))]
  · rw [if_neg hkk, if_neg hkk, List.append_nil]
    exact h k'

/-- A bucket filtered in place, and dropped when empty, by a predicate that all other items satisfy.
-/
theorem drop (hb : m.get? k = some b)
    {p : α → Bool} (hp : ∀ x ∈ xs, cmp (key x) k ≠ .eq → p x = true) :
    Groups key (m.store List.isEmpty k (b.filter p)) (xs.filter p) := by
  intro k'
  rw [get?_store, atKey_filter]
  by_cases hkk : cmp k k' = .eq
  · have hbucket : b = atKey cmp key k' xs := by
      have := h k'
      rw [← get?_congr m hkk, hb] at this
      split at this
      · nomatch this
      · exact Option.some.inj this
    rw [if_pos hkk, hbucket]
    simp
  · rw [if_neg hkk, h k']
    have hsame : (atKey cmp key k' xs).filter p = atKey cmp key k' xs := by
      refine List.filter_eq_self.mpr fun x hx => ?_
      obtain ⟨hmem, hkey⟩ := mem_atKey.mp hx
      refine hp x hmem fun hxk => hkk ?_
      exact Std.TransCmp.eq_trans (Std.OrientedCmp.eq_symm hxk) hkey
    rw [hsame]

theorem bucket_eq (hb : (k, b) ∈ m.entries) : b = atKey cmp key k xs := by
  have := h k
  rw [OrdMap.get?_of_mem hb] at this
  split at this
  · nomatch this
  · exact Option.some.inj this

theorem key_of_mem (hb : (k, b) ∈ m.entries) (hx : x ∈ b) : cmp (key x) k = .eq := by
  rw [h.bucket_eq hb] at hx
  exact (mem_atKey.mp hx).2

/-- The buckets hold the items of the list and no others. -/
theorem mem_flatten : x ∈ m.values.flatten ↔ x ∈ xs := by
  rw [List.mem_flatten]
  constructor
  · rintro ⟨b, hb, hx⟩
    obtain ⟨⟨k, _⟩, he, rfl⟩ := List.mem_map.mp hb
    rw [h.bucket_eq he] at hx
    exact (mem_atKey.mp hx).1
  · intro hx
    have hself : cmp (key x) (key x) = .eq := Std.ReflCmp.compare_self
    have hget := h.get?_of_mem hx hself
    obtain ⟨k, -, hmem⟩ := get?_eq_some_iff.mp hget
    exact ⟨_, List.mem_map.mpr ⟨_, hmem, rfl⟩, mem_atKey.mpr ⟨hx, hself⟩⟩

theorem before_of_bucket (hb : (k, b) ∈ m.entries) :
    b.Pairwise fun x y => cmp (key x) (key y) = .eq ∧ Before xs x y := by
  refine List.pairwise_iff_forall_sublist.mpr fun {x y} hxy => ?_
  have hx : x ∈ b := hxy.subset List.mem_cons_self
  have hy : y ∈ b := hxy.subset (List.mem_cons_of_mem _ List.mem_cons_self)
  refine ⟨Std.TransCmp.eq_trans (h.key_of_mem hb hx)
    (Std.OrientedCmp.eq_symm (h.key_of_mem hb hy)), ?_⟩
  rw [h.bucket_eq hb] at hxy
  exact hxy.trans List.filter_sublist

/-- Items of two buckets compare as the buckets do. -/
theorem lt_of_buckets :
    m.entries.Pairwise fun e e' => ∀ x ∈ e.2, ∀ y ∈ e'.2, cmp (key x) (key y) = .lt := by
  refine List.Pairwise.imp_of_mem ?_ m.sorted
  intro e e' he he' hlt x hx y hy
  have hxk : cmp (key x) e.1 = .eq := h.key_of_mem he hx
  have hyk : cmp (key y) e'.1 = .eq := h.key_of_mem he' hy
  rw [Std.TransCmp.congr_left hxk, Std.TransCmp.congr_right hyk]
  exact hlt

/-- **Read in ascending order the buckets are the list sorted by key, items of one key in
list order.** -/
theorem pairwise_flatten :
    m.values.flatten.Pairwise fun x y =>
      cmp (key x) (key y) = .lt ∨ (cmp (key x) (key y) = .eq ∧ Before xs x y) := by
  rw [List.pairwise_flatten]
  constructor
  · intro b hb
    obtain ⟨⟨k, _⟩, he, rfl⟩ := List.mem_map.mp hb
    exact (h.before_of_bucket he).imp .inr
  · rw [values, List.pairwise_map]
    exact h.lt_of_buckets.imp fun hlt x hx y hy => .inl (hlt x hx y hy)

theorem pairwise_reverse_flatten :
    m.values.reverse.flatten.Pairwise fun x y =>
      cmp (key x) (key y) = .gt ∨ (cmp (key x) (key y) = .eq ∧ Before xs x y) := by
  rw [List.pairwise_flatten]
  constructor
  · intro b hb
    obtain ⟨⟨k, _⟩, he, rfl⟩ := List.mem_map.mp (List.mem_reverse.mp hb)
    exact (h.before_of_bucket he).imp .inr
  · rw [List.pairwise_reverse, values, List.pairwise_map]
    exact h.lt_of_buckets.imp fun hlt x hx y hy =>
      .inl (Std.OrientedCmp.gt_of_lt (hlt y hy x hx))

theorem perm_flatten (hnodup : xs.Nodup) : m.values.flatten.Perm xs := by
  refine (List.perm_ext_iff_of_nodup ?_ hnodup).mpr fun _ => h.mem_flatten
  refine h.pairwise_flatten.imp ?_
  rintro x y (hlt | ⟨-, hbefore⟩) rfl
  · have hself : cmp (key x) (key x) = .eq := Std.ReflCmp.compare_self
    rw [hself] at hlt
    nomatch hlt
  · exact List.nodup_iff_sublist.mp hnodup x hbefore

theorem perm_reverse_flatten (hnodup : xs.Nodup) : m.values.reverse.flatten.Perm xs :=
  ((List.reverse_perm _).flatten).trans (h.perm_flatten hnodup)

end

end Groups

end Nautilus.Lib
