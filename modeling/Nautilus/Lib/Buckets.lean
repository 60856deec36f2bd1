import Nautilus.Lib.IndexMap
import Nautilus.Lib.OrdMap

/-!
# Buckets with an index

Items are kept in **buckets**, ordered by a key, with an **index** from item ids to the key of the
bucket that holds them. The two are written separately: does a write keep them in step?

- `IndexSound`: what the index says is true (but it may be silent);
- `IndexExact`: it knows exactly the stored ids, each under the one bucket that holds it.

Both speak of an item function `f : κ → ι → Option ω` and an index function `c : ι → Option κ`, so
they apply to any representation. Each write has one rule: `put` (**exact after exactly when the id
was not indexed elsewhere**, `IndexExact.put_iff`), `drop` one item, `drop` a bucket, rebuild from
one bucket. `item` reads the item function off an `OrdMap` of buckets; `InStep` says the same entry
by entry (`inStep_iff_exact`).
-/

namespace Nautilus.Lib

open List Option IndexMap OrdMap
open IndexMap (mem_keys_iff)
open Std.OrientedCmp (eq_symm)

universe u v w x

/-! ## Item functions and index functions -/

section Index

variable {κ : Type u} {ι : Type v} {ω : Type w} (cmp : κ → κ → Ordering)

/-- Every indexed id is held by the bucket the index names. -/
def IndexSound (f : κ → ι → Option ω) (c : ι → Option κ) : Prop :=
  ∀ i q, c i = some q → ∃ o, f q i = some o

/-- A bucket holds an id exactly when the index sends the id to that bucket. -/
def IndexExact (f : κ → ι → Option ω) (c : ι → Option κ) : Prop :=
  ∀ i p, (∃ o, f p i = some o) ↔ ∃ q, c i = some q ∧ cmp q p = .eq

/-- The item function does not tell apart keys that compare `eq`. -/
def Respects (f : κ → ι → Option ω) : Prop :=
  ∀ p p', cmp p p' = .eq → f p = f p'

variable {cmp} {f f' : κ → ι → Option ω} {c c' : ι → Option κ} {p q : κ} {i : ι} {o : ω}

theorem indexExact_empty (hf : ∀ p i, f p i = none) (hc : ∀ i, c i = none) :
    IndexExact cmp f c := by
  intro i p
  simp [hf, hc]

theorem IndexExact.sound [Std.TransCmp cmp] (h : IndexExact cmp f c) : IndexSound f c :=
  fun i q hq => (h i q).mpr ⟨q, hq, Std.ReflCmp.compare_self⟩

theorem IndexExact.unique [Std.TransCmp cmp] (h : IndexExact cmp f c) {p p' : κ} {o o' : ω}
    (hp : f p i = some o) (hp' : f p' i = some o') : cmp p p' = .eq := by
  obtain ⟨q, hq, hqp⟩ := (h i p).mp ⟨o, hp⟩
  obtain ⟨_, hq', hqp'⟩ := (h i p').mp ⟨o', hp'⟩
  rw [hq] at hq'
  cases hq'
  exact Std.TransCmp.eq_trans (eq_symm hqp) hqp'

/-- A sound index that knows every stored id is exact as soon as no id lies in
two buckets. -/
theorem IndexExact.of_unique (hr : Respects cmp f) (hs : IndexSound f c)
    (hknown : ∀ p i o, f p i = some o → ∃ q, c i = some q)
    (huniq : ∀ p p' i o o', f p i = some o → f p' i = some o' → cmp p p' = .eq) :
    IndexExact cmp f c := by
  intro i p
  constructor
  · rintro ⟨o, ho⟩
    obtain ⟨q, hq⟩ := hknown p i o ho
    obtain ⟨o', ho'⟩ := hs i q hq
    exact ⟨q, hq, huniq q p i o' o ho' ho⟩
  · rintro ⟨q, hq, hqp⟩
    obtain ⟨o, ho⟩ := hs i q hq
    exact ⟨o, hr q p hqp ▸ ho⟩

/-! ### Storing an item -/

theorem IndexSound.put [Std.TransCmp cmp] [DecidableEq ι] (h : IndexSound f c)
    (hf : ∀ p' j, f' p' j = if j = i ∧ cmp p p' = .eq then some o else f p' j)
    (hc : ∀ j, c' j = if j = i then some p else c j) : IndexSound f' c' := by
  intro j q hq
  rw [hc] at hq
  rw [hf]
  by_cases hj : j = i
  · rw [if_pos hj] at hq
    cases hq
    rw [if_pos ⟨hj, Std.ReflCmp.compare_self⟩]
    exact ⟨o, rfl⟩
  · rw [if_neg hj] at hq
    rw [if_neg fun hjp => hj hjp.1]
    exact h j q hq

/-- **Storing keeps an index exact exactly when the id was not indexed under
another bucket.** -/
theorem IndexExact.put_iff [Std.TransCmp cmp] [DecidableEq ι] (h : IndexExact cmp f c)
    (hf : ∀ p' j, f' p' j = if j = i ∧ cmp p p' = .eq then some o else f p' j)
    (hc : ∀ j, c' j = if j = i then some p else c j) :
    IndexExact cmp f' c' ↔ ∀ q, c i = some q → cmp q p = .eq := by
  constructor
  · -- the old bucket still holds the id, so it must be the new one
    intro h' q hq
    by_contra hne
    obtain ⟨o', ho'⟩ := (h i q).mpr ⟨q, hq, Std.ReflCmp.compare_self⟩
    have hold : f' q i = some o' := by
      rw [hf, if_neg fun hip => hne (eq_symm hip.2), ho']
    obtain ⟨_, hq', hqq⟩ := (h' i q).mp ⟨o', hold⟩
    rw [hc, if_pos rfl] at hq'
    cases hq'
    exact hne (eq_symm hqq)
  · intro hfresh j p'
    rw [hf, hc]
    by_cases hj : j = i
    · subst hj
      rw [if_pos rfl]
      by_cases hp : cmp p p' = .eq
      · simp [hp]
      rw [if_neg fun hjp => hp hjp.2, h j p']
      constructor
      · rintro ⟨q, hq, hqp⟩
        exact absurd (Std.TransCmp.eq_trans (eq_symm (hfresh q hq)) hqp) hp
      · rintro ⟨q, hq, hqp⟩
        cases hq
        exact absurd hqp hp
    · rw [if_neg hj, if_neg fun hjp => hj hjp.1]
      exact h j p'

/-! ### Dropping an item -/

theorem IndexSound.drop [DecidableEq ι] (h : IndexSound f c)
    (hf : ∀ p' j, f' p' j = if j = i ∧ cmp p p' = .eq then none else f p' j)
    (hc : ∀ j, c' j = if j = i then none else c j) : IndexSound f' c' := by
  intro j q hq
  rw [hc] at hq
  by_cases hj : j = i
  · rw [if_pos hj] at hq
    nomatch hq
  · rw [if_neg hj] at hq
    rw [hf, if_neg fun hjp => hj hjp.1]
    exact h j q hq

theorem IndexExact.drop [DecidableEq ι] (h : IndexExact cmp f c) (hi : c i = some p)
    (hf : ∀ p' j, f' p' j = if j = i ∧ cmp p p' = .eq then none else f p' j)
    (hc : ∀ j, c' j = if j = i then none else c j) : IndexExact cmp f' c' := by
  intro j p'
  rw [hf, hc]
  by_cases hj : j = i
  · subst hj
    by_cases hp : cmp p p' = .eq
    · simp [hp]
    · rw [if_neg fun hjp => hp hjp.2, h j p', hi]
      simp [hp]
  · rw [if_neg hj, if_neg fun hjp => hj hjp.1]
    exact h j p'

/-! ### Dropping and rebuilding whole buckets -/

theorem IndexSound.dropBucket (h : IndexSound f c) (hr : Respects cmp f)
    (hf : ∀ p' j, f' p' j = if cmp p p' = .eq then none else f p' j)
    (hc : ∀ j, c' j = if (f p j).isSome then none else c j) : IndexSound f' c' := by
  intro j q hq
  rw [hc] at hq
  split at hq
  · nomatch hq
  rename_i hout
  obtain ⟨o, ho⟩ := h j q hq
  have hne : cmp p q ≠ .eq := by
    intro hpq
    rw [hr p q hpq, ho] at hout
    exact hout rfl
  rw [hf, if_neg hne]
  exact ⟨o, ho⟩

theorem IndexExact.dropBucket [Std.TransCmp cmp] (h : IndexExact cmp f c) (hr : Respects cmp f)
    (hf : ∀ p' j, f' p' j = if cmp p p' = .eq then none else f p' j)
    (hc : ∀ j, c' j = if (f p j).isSome then none else c j) : IndexExact cmp f' c' := by
  refine IndexExact.of_unique ?_ (h.sound.dropBucket hr hf hc) ?_ ?_
  · intro p' p'' hpp
    funext j
    rw [hf, hf, Std.TransCmp.congr_right hpp, hr p' p'' hpp]
  · intro p' j o ho
    rw [hf] at ho
    split at ho
    · nomatch ho
    rename_i hne
    obtain ⟨q, hq, _⟩ := (h j p').mp ⟨o, ho⟩
    refine ⟨q, ?_⟩
    rw [hc, if_neg, hq]
    intro hin
    obtain ⟨o', ho'⟩ := isSome_iff_exists.mp hin
    exact hne (h.unique ho' ho)
  · intro p' p'' j o o' ho ho'
    rw [hf] at ho ho'
    split at ho
    · nomatch ho
    · split at ho'
      · nomatch ho'
      · exact h.unique ho ho'

/-- An index rebuilt from the only bucket left is exact, whatever was before. -/
theorem indexExact_rebuild (hr : Respects cmp f)
    (hf : ∀ p' j, f' p' j = if cmp q p' = .eq then f p' j else none)
    (hc : ∀ j, c' j = if (f q j).isSome then some q else none) : IndexExact cmp f' c' := by
  intro j p'
  rw [hf, hc]
  by_cases hp : cmp q p' = .eq
  · rw [if_pos hp, ← hr q p' hp, ← isSome_iff_exists]
    split
    · rename_i hin
      simp [hin, hp]
    · rename_i hout
      simp [hout]
  · rw [if_neg hp]
    split <;> simp [hp]

end Index

/-! ## Buckets in an ordered map -/

section Buckets

variable {κ : Type u} {cmp : κ → κ → Ordering} {β : Type v} {ι : Type w} {ω : Type x}
variable [DecidableEq ι] (orders : β → IndexMap ι ω) (m : OrdMap cmp β)

/-- The item stored under an id in the bucket of a key. -/
def item (p : κ) (i : ι) : Option ω :=
  (m.get? p).bind fun b => (orders b).get? i

variable {orders} {p : κ} {i : ι} {o : ω}

theorem item_eq_some_iff {m : OrdMap cmp β} :
    item orders m p i = some o ↔ ∃ b, m.get? p = some b ∧ (orders b).get? i = some o :=
  bind_eq_some_iff

theorem item_of_get? {m : OrdMap cmp β} {b : β} (h : m.get? p = some b) (i : ι) :
    item orders m p i = (orders b).get? i := by
  rw [item, h, bind_some]

variable [Std.TransCmp cmp]

theorem respects_item : Respects cmp (item orders m) := by
  intro p p' h
  funext i
  rw [item, item, m.get?_congr h]

theorem item_insert (p p' : κ) (b : β) (i : ι) :
    item orders (m.insert p b) p' i =
      if cmp p p' = .eq then (orders b).get? i else item orders m p' i := by
  rw [item, OrdMap.get?_insert]
  split <;> rfl

/-- A write to one bucket that changes one item of it. -/
theorem item_overwrite {f : κ → ι → Option ω} {bucket : IndexMap ι ω} {p p' : κ} {i j : ι}
    {r : Option ω} (hf : f p' j = if cmp p p' = .eq then bucket.get? j else item orders m p' j)
    (hbucket : bucket.get? j = if j = i then r else item orders m p j) :
    f p' j = if j = i ∧ cmp p p' = .eq then r else item orders m p' j := by
  rw [hf, hbucket]
  by_cases hp : cmp p p' = .eq
  · rw [if_pos hp, respects_item m p p' hp]
    simp [hp]
  · rw [if_neg hp, if_neg fun h => hp h.2]

theorem item_remove (p p' : κ) (i : ι) :
    item orders (m.remove p) p' i = if cmp p p' = .eq then none else item orders m p' i := by
  rw [item, OrdMap.get?_remove]
  split <;> rfl

theorem item_store (p p' : κ) (b : β) (i : ι) :
    item orders (m.store (fun b => (orders b).isEmpty) p b) p' i =
      if cmp p p' = .eq then (orders b).get? i else item orders m p' i := by
  rw [item, get?_store]
  by_cases hp : cmp p p' = .eq
  · rw [if_pos hp, if_pos hp]
    by_cases hempty : (orders b).isEmpty = true
    · rw [if_pos hempty, bind_none, eq_comm, get?_eq_none_iff, IndexMap.isEmpty_iff.mp hempty]
      exact not_mem_nil
    · rw [if_neg hempty, bind_some]
  · rw [if_neg hp, if_neg hp]
    rfl

variable {m}

theorem exists_entry_of_item (h : item orders m p i = some o) :
    ∃ p' b, (p', b) ∈ m.entries ∧ cmp p' p = .eq ∧ (orders b).get? i = some o := by
  obtain ⟨b, hb, ho⟩ := item_eq_some_iff.mp h
  obtain ⟨p', hp', hmem⟩ := get?_eq_some_iff.mp hb
  exact ⟨p', b, hmem, hp', ho⟩

theorem item_of_mem {b : β} (h : (p, b) ∈ m.entries) (i : ι) :
    item orders m p i = (orders b).get? i :=
  item_of_get? (get?_of_mem h) i

/-- **Under an exact index the index is as long as the buckets together.** -/
theorem len_eq_sum_of_exact {c : IndexMap ι κ} (h : IndexExact cmp (item orders m) c.get?) :
    c.len = (m.values.map fun b => (orders b).len).sum := by
  have hsum : (m.values.map fun b => (orders b).len).sum =
      (m.entries.flatMap fun e => (orders e.2).keys).length := by
    simp [OrdMap.values, length_flatMap, List.map_map, length_keys, Function.comp_def]
  rw [hsum]
  refine length_eq_of_mem_keys_iff ?_ ?_
  · -- ids repeat neither within a bucket nor, by exactness, across buckets
    refine nodup_flatMap.mpr ⟨fun e _ => (orders e.2).nodup, ?_⟩
    refine m.sorted.imp_of_mem ?_
    rintro ⟨p, b⟩ ⟨p', _⟩ hmem hmem' hlt i hi hi'
    obtain ⟨o, ho⟩ := mem_keys_iff.mp hi
    obtain ⟨_, ho'⟩ := mem_keys_iff.mp hi'
    rw [← item_of_mem hmem] at ho
    rw [← item_of_mem hmem'] at ho'
    have heq : cmp p p' = .eq := h.unique ho ho'
    rw [hlt] at heq
    cases heq
  · intro i
    rw [mem_keys_iff, mem_flatMap]
    constructor
    · rintro ⟨q, hq⟩
      obtain ⟨o, ho⟩ := (h i q).mpr ⟨q, hq, Std.ReflCmp.compare_self⟩
      obtain ⟨p, b, hmem, -, hb⟩ := exists_entry_of_item ho
      exact ⟨(p, b), hmem, mem_keys_iff.mpr ⟨o, hb⟩⟩
    · rintro ⟨⟨p, b⟩, hmem, hi⟩
      obtain ⟨o, ho⟩ := mem_keys_iff.mp hi
      rw [← item_of_mem hmem] at ho
      obtain ⟨q, hq, -⟩ := (h i p).mp ⟨o, ho⟩
      exact ⟨q, hq⟩

variable (orders) in
/-- Buckets and index in step, read off the two maps: no empty bucket, no id in two buckets, and an
index entry for exactly the stored ids, naming the bucket that holds it. -/
structure InStep (m : OrdMap cmp β) (c : IndexMap ι κ) : Prop where
  nonempty : ∀ e ∈ m.entries, (orders e.2).isEmpty = false
  oneBucket : ∀ e ∈ m.entries, ∀ e' ∈ m.entries, ∀ i,
    i ∈ (orders e.2).keys → i ∈ (orders e'.2).keys → e = e'
  indexed : ∀ e ∈ m.entries, ∀ i ∈ (orders e.2).keys, ∃ q, c.get? i = some q ∧ cmp q e.1 = .eq
  stored : ∀ i q, c.get? i = some q → ∃ e ∈ m.entries, i ∈ (orders e.2).keys ∧ cmp q e.1 = .eq
  count : c.len = (m.values.map fun b => (orders b).len).sum

/-- **With no empty bucket, in step means an exact index.** -/
theorem inStep_iff_exact {c : IndexMap ι κ}
    (hne : ∀ p b, m.get? p = some b → (orders b).isEmpty = false) :
    InStep orders m c ↔ IndexExact cmp (item orders m) c.get? := by
  constructor
  · intro h
    refine IndexExact.of_unique (respects_item m) ?_ ?_ ?_
    · intro i q hq
      obtain ⟨⟨p, b⟩, he, hi, hqp⟩ := h.stored i q hq
      obtain ⟨o, ho⟩ := mem_keys_iff.mp hi
      refine ⟨o, ?_⟩
      rw [respects_item m q p hqp, item_of_mem he]
      exact ho
    · intro p i o ho
      obtain ⟨p', b, he, -, hget⟩ := exists_entry_of_item ho
      obtain ⟨q, hq, -⟩ := h.indexed _ he i (mem_keys_iff.mpr ⟨o, hget⟩)
      exact ⟨q, hq⟩
    · intro p p' i o o' ho ho'
      obtain ⟨_, _, he₁, hp₁, hget₁⟩ := exists_entry_of_item ho
      obtain ⟨_, _, he₂, hp₂, hget₂⟩ := exists_entry_of_item ho'
      have heq := h.oneBucket _ he₁ _ he₂ i (mem_keys_iff.mpr ⟨o, hget₁⟩)
        (mem_keys_iff.mpr ⟨o', hget₂⟩)
      cases heq
      exact Std.TransCmp.eq_trans (eq_symm hp₁) hp₂
  · intro h
    have hstored : ∀ e ∈ m.entries, ∀ i ∈ (orders e.2).keys, ∃ o, item orders m e.1 i = some o := by
      intro e he i hi
      obtain ⟨o, ho⟩ := mem_keys_iff.mp hi
      exact ⟨o, (item_of_mem he i).trans ho⟩
    refine ⟨?_, ?_, ?_, ?_, len_eq_sum_of_exact h⟩
    · intro e he
      exact hne e.1 e.2 (get?_of_mem he)
    · intro e he e' he' i hi hi'
      obtain ⟨o, ho⟩ := hstored e he i hi
      obtain ⟨o', ho'⟩ := hstored e' he' i hi'
      exact entry_eq_of_cmp he he' (h.unique ho ho')
    · intro e he i hi
      exact (h i e.1).mp (hstored e he i hi)
    · intro i q hq
      obtain ⟨o, ho⟩ := h.sound i q hq
      obtain ⟨p, b, he, hp, hget⟩ := exists_entry_of_item ho
      exact ⟨(p, b), he, mem_keys_iff.mpr ⟨o, hget⟩, eq_symm hp⟩

end Buckets

end Nautilus.Lib
