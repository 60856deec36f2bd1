import Mathlib

/-!
# Insertion-ordered maps

The `indexmap::IndexMap` of the source iterates in insertion order. `insert` on a present key
overwrites the value **in place**, on an absent key it appends; `remove` (`shift_remove`) closes the
gap. A `HashMap` whose iteration order nobody observes is the same structure.

`IndexMap κ ν` carries the fact that its keys are distinct. Clients use `get?` (`get?_insert`,
`get?_remove`) and, where the order matters, `entries`.
-/

namespace Nautilus.Lib

open List Option

universe u v w

/-! ## Association lists -/

namespace Assoc

variable {κ : Type u} {ν : Type v} [DecidableEq κ]

/-- Overwrite in place, or append. -/
def put (k : κ) (v : ν) : List (κ × ν) → List (κ × ν)
  | [] => [(k, v)]
  | (k', v') :: es => if k' = k then (k', v) :: es else (k', v') :: put k v es

theorem lookup_cons_ite (k k' : κ) (v : ν) (es : List (κ × ν)) :
    ((k', v) :: es).lookup k = if k' = k then some v else es.lookup k := by
  by_cases h : k' = k
  · simp [h]
  · rw [lookup_cons, beq_eq_false_iff_ne.mpr (Ne.symm h), if_neg h]

theorem lookup_put (k k' : κ) (v : ν) (es : List (κ × ν)) :
    (put k v es).lookup k' = if k' = k then some v else es.lookup k' := by
  induction es with
  | nil =>
    rw [put, lookup_cons_ite]
    exact if_congr eq_comm rfl rfl
  | cons e es ih =>
    obtain ⟨k₀, _⟩ := e
    by_cases hk : k₀ = k
    · subst hk
      rw [put, if_pos rfl, lookup_cons_ite, lookup_cons_ite]
      by_cases h : k₀ = k'
      · rw [if_pos h, if_pos h.symm]
      · rw [if_neg h, if_neg (Ne.symm h), if_neg h]
    · rw [put, if_neg hk, lookup_cons_ite, lookup_cons_ite, ih]
      by_cases h0 : k₀ = k'
      · rw [if_pos h0, if_pos h0, if_neg (h0 ▸ hk)]
      · rw [if_neg h0, if_neg h0]

theorem map_fst_put (k : κ) (v : ν) (es : List (κ × ν)) :
    (put k v es).map Prod.fst =
      if k ∈ es.map Prod.fst then es.map Prod.fst else es.map Prod.fst ++ [k] := by
  induction es with
  | nil => simp [put]
  | cons e es ih =>
    obtain ⟨k₀, _⟩ := e
    by_cases hk : k₀ = k
    · simp [put, hk]
    · have hk' : ¬ k = k₀ := fun h => hk h.symm
      simp only [put, if_neg hk, map_cons, mem_cons, ih, hk', false_or]
      split <;> simp

theorem put_of_not_mem {k : κ} {es : List (κ × ν)} (v : ν)
    (h : k ∉ es.map Prod.fst) : put k v es = es ++ [(k, v)] := by
  induction es with
  | nil => rfl
  | cons e es ih =>
    rw [map_cons, mem_cons, not_or] at h
    rw [put, if_neg (Ne.symm h.1), ih h.2, cons_append]

theorem lookup_filter_ne (k k' : κ) (es : List (κ × ν)) :
    (es.filter fun e => e.1 ≠ k).lookup k' = if k' = k then none else es.lookup k' := by
  induction es with
  | nil => simp
  | cons e es ih =>
    obtain ⟨k₀, _⟩ := e
    by_cases hk : k₀ = k
    · subst hk
      rw [filter_cons_of_neg (by simp), ih, lookup_cons_ite]
      by_cases h : k' = k₀
      · rw [if_pos h, if_pos h]
      · rw [if_neg h, if_neg h, if_neg (Ne.symm h)]
    · rw [filter_cons_of_pos (by simpa using hk), lookup_cons_ite, lookup_cons_ite, ih]
      by_cases h0 : k₀ = k'
      · rw [if_pos h0, if_pos h0, if_neg (h0 ▸ hk)]
      · rw [if_neg h0, if_neg h0]

theorem lookup_eq_some_iff_mem {k : κ} {v : ν} {es : List (κ × ν)}
    (hnd : (es.map Prod.fst).Nodup) : es.lookup k = some v ↔ (k, v) ∈ es := by
  induction es with
  | nil => simp
  | cons e es ih =>
    obtain ⟨k₀, _⟩ := e
    rw [map_cons, nodup_cons] at hnd
    rw [lookup_cons_ite, mem_cons, Prod.mk.injEq]
    by_cases hk : k₀ = k
    · subst hk
      -- the key of the head occurs nowhere else
      have hnot : (k₀, v) ∉ es := fun h => hnd.1 (mem_map.mpr ⟨_, h, rfl⟩)
      simp [hnot, eq_comm]
    · simp [if_neg hk, Ne.symm hk, false_and, ih hnd.2]

theorem lookup_eq_none_iff_keys {k : κ} {es : List (κ × ν)} :
    es.lookup k = none ↔ k ∉ es.map Prod.fst := by
  rw [lookup_eq_none_iff]
  constructor
  · rintro h hmem
    obtain ⟨e, he, rfl⟩ := mem_map.mp hmem
    exact absurd rfl (bne_iff_ne.mp (h e he))
  · intro h e he
    exact bne_iff_ne.mpr fun heq => h (heq ▸ mem_map_of_mem he)

end Assoc

/-! ## The map -/

/-- An insertion-ordered map with distinct keys. -/
structure IndexMap (κ : Type u) (ν : Type v) where
  entries : List (κ × ν)
  nodup : (entries.map Prod.fst).Nodup
deriving DecidableEq

namespace IndexMap

variable {κ : Type u} {ν : Type v}

/-- The map with no entry. -/
def empty : IndexMap κ ν := ⟨[], List.nodup_nil⟩

variable (m : IndexMap κ ν)

def keys : List κ := m.entries.map Prod.fst

def values : List ν := m.entries.map Prod.snd

def len : Nat := m.entries.length

def isEmpty : Bool := m.entries.isEmpty

@[simp] theorem length_keys : m.keys.length = m.len := length_map _

theorem isEmpty_iff {m : IndexMap κ ν} : m.isEmpty = true ↔ m.keys = [] := by
  rw [isEmpty, List.isEmpty_iff, keys, List.map_eq_nil_iff]

theorem length_eq_of_mem_keys_iff {m : IndexMap κ ν} {l : List κ} (hl : l.Nodup)
    (h : ∀ k, k ∈ m.keys ↔ k ∈ l) : m.len = l.length := by
  have hperm : m.keys.Perm l := (perm_ext_iff_of_nodup m.nodup hl).mpr h
  rw [← hperm.length_eq, length_keys]

/-- The entries that `f` keeps, each with the value it gives; the order stays. -/
def filterMap {μ : Type w} (f : κ → ν → Option μ) (m : IndexMap κ ν) : IndexMap κ μ :=
  ⟨m.entries.filterMap fun e => (f e.1 e.2).map (e.1, ·), by
    refine List.Nodup.sublist ?_ m.nodup
    induction m.entries with
    | nil => exact List.Sublist.refl _
    | cons e es ih =>
      rw [List.filterMap_cons]
      cases f e.1 e.2 with
      | none => exact ih.cons _
      | some v => exact ih.cons_cons _⟩

def retain (p : κ → ν → Bool) (m : IndexMap κ ν) : IndexMap κ ν :=
  m.filterMap fun k v => if p k v then some v else none

variable [DecidableEq κ] (k : κ)

def get? : Option ν := m.entries.lookup k

def containsKey : Bool := (m.get? k).isSome

/-- Overwrites in place when the key is present, appends otherwise. -/
def insert (v : ν) : IndexMap κ ν :=
  ⟨Assoc.put k v m.entries, by
    rw [Assoc.map_fst_put]
    split
    · exact m.nodup
    · rename_i h
      exact List.nodup_append.mpr ⟨m.nodup, List.nodup_singleton k, by
        rintro a ha b hb rfl
        exact h (List.mem_singleton.mp hb ▸ ha)⟩⟩

/-- `shift_remove`: the remaining entries keep their order. -/
def remove : IndexMap κ ν :=
  ⟨m.entries.filter fun e => e.1 ≠ k, (List.filter_sublist.map _).nodup m.nodup⟩

@[simp] theorem get?_empty : (empty : IndexMap κ ν).get? k = none := rfl

theorem get?_insert (k k' : κ) (v : ν) :
    (m.insert k v).get? k' = if k' = k then some v else m.get? k' :=
  Assoc.lookup_put k k' v m.entries

@[simp] theorem get?_insert_self (v : ν) : (m.insert k v).get? k = some v := by
  rw [get?_insert, if_pos rfl]

theorem get?_remove (k k' : κ) : (m.remove k).get? k' = if k' = k then none else m.get? k' :=
  Assoc.lookup_filter_ne k k' m.entries

variable {m k} {v : ν}

theorem get?_eq_some_iff : m.get? k = some v ↔ (k, v) ∈ m.entries :=
  Assoc.lookup_eq_some_iff_mem m.nodup

theorem get?_eq_none_iff : m.get? k = none ↔ k ∉ m.keys :=
  Assoc.lookup_eq_none_iff_keys

theorem mem_keys_iff : k ∈ m.keys ↔ ∃ v, m.get? k = some v := by
  rw [← isSome_iff_exists, ← ne_none_iff_isSome, Ne, get?_eq_none_iff, not_not]

theorem mem_values_iff : v ∈ m.values ↔ ∃ k, m.get? k = some v := by
  simp [values, List.mem_map, get?_eq_some_iff, Prod.exists]

theorem containsKey_iff : m.containsKey k = true ↔ ∃ v, m.get? k = some v :=
  isSome_iff_exists

theorem isEmpty_eq_false_iff : m.isEmpty = false ↔ ∃ k v, m.get? k = some v := by
  rw [← Bool.not_eq_true, isEmpty_iff, eq_nil_iff_forall_not_mem, not_forall]
  exact exists_congr fun k => by rw [not_not, mem_keys_iff]

@[simp] theorem isEmpty_insert (m : IndexMap κ ν) (k : κ) (v : ν) :
    (m.insert k v).isEmpty = false :=
  isEmpty_eq_false_iff.mpr ⟨k, v, get?_insert_self m k v⟩

/-- A map whose keys all equal one present key has one entry. -/
theorem entries_eq_singleton (h : m.get? k = some v)
    (hkeys : ∀ k' ∈ m.keys, k' = k) : m.entries = [(k, v)] := by
  have hmem : (k, v) ∈ m.entries := get?_eq_some_iff.mp h
  have hall : ∀ e ∈ m.entries, e = (k, v) := by
    rintro ⟨k', v'⟩ he
    have hk : k' = k := hkeys k' (mem_map.mpr ⟨(k', v'), he, rfl⟩)
    subst hk
    have hv : m.get? k' = some v' := get?_eq_some_iff.mpr he
    rw [h] at hv
    rw [some.inj hv]
  have hrep : m.entries = replicate m.entries.length (k, v) := eq_replicate_of_mem hall
  have hnodup : m.entries.Nodup := Nodup.of_map Prod.fst m.nodup
  rw [hrep, nodup_replicate] at hnodup
  have hlen : m.entries.length = 1 := Nat.le_antisymm hnodup (length_pos_of_mem hmem)
  rw [hrep, hlen]
  rfl

/-- One write at every key of a list. -/
theorem get?_foldl {f : IndexMap κ ν → κ → IndexMap κ ν} {r : Option ν}
    (hf : ∀ m k k', (f m k).get? k' = if k' = k then r else m.get? k') (ks : List κ)
    (m : IndexMap κ ν) (k : κ) : (ks.foldl f m).get? k = if k ∈ ks then r else m.get? k := by
  induction ks generalizing m with
  | nil => simp
  | cons k₀ ks ih =>
    rw [foldl_cons, ih, hf]
    by_cases hk : k ∈ ks
    · simp [hk]
    · by_cases h0 : k = k₀ <;> simp [hk, h0]

theorem entries_foldl_remove (ks : List κ) (m : IndexMap κ ν) :
    (ks.foldl (fun m k => m.remove k) m).entries = m.entries.filter fun e => e.1 ∉ ks := by
  induction ks generalizing m with
  | nil => simp
  | cons k₀ ks ih =>
    rw [foldl_cons, ih, remove, List.filter_filter]
    refine filter_congr fun e _ => ?_
    simp [not_or, Bool.decide_and, Bool.and_comm]

theorem get?_filterMap {μ : Type w} (f : κ → ν → Option μ) (m : IndexMap κ ν) (k : κ) :
    (m.filterMap f).get? k = (m.get? k).bind (f k) := by
  refine ext fun v => ?_
  rw [get?_eq_some_iff, bind_eq_some_iff]
  simp only [filterMap, mem_filterMap, map_eq_some_iff, Prod.exists, Prod.mk.injEq,
    get?_eq_some_iff]
  constructor
  · rintro ⟨_, v', hmem, w, hw, rfl, rfl⟩
    exact ⟨v', hmem, hw⟩
  · rintro ⟨v', hmem, hv⟩
    exact ⟨k, v', hmem, v, hv, rfl, rfl⟩

theorem mem_keys_of_filterMap {μ : Type w} {f : κ → ν → Option μ}
    (h : k ∈ (m.filterMap f).keys) : k ∈ m.keys := by
  obtain ⟨v, hv⟩ := mem_keys_iff.mp h
  rw [get?_filterMap] at hv
  obtain ⟨v', hv', -⟩ := bind_eq_some_iff.mp hv
  exact mem_keys_iff.mpr ⟨v', hv'⟩

theorem get?_of_retain {p : κ → ν → Bool}
    (h : (m.retain p).get? k = some v) : m.get? k = some v := by
  rw [retain, get?_filterMap] at h
  obtain ⟨_, hv, h⟩ := bind_eq_some_iff.mp h
  split at h
  · rw [hv, h]
  · nomatch h

theorem entries_insert_of_not_mem (v : ν) (h : k ∉ m.keys) :
    (m.insert k v).entries = m.entries ++ [(k, v)] :=
  Assoc.put_of_not_mem v h

end IndexMap

end Nautilus.Lib
