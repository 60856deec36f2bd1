import Mathlib

/-!
# Ordered maps

The `BTreeMap` of the source, sorted under a comparison function. Two keys are the same when they
compare `eq`, which is weaker than being equal: prices of different precision can compare equal.
`insert` on a present key replaces the value and **keeps the key that is already there**.

`OrdMap cmp ν` carries its sortedness. Lookups are described by `get?_insert`, `get?_remove`,
`get?_retain` and `get?_congr`; the order by `entries`, `first` (`mem_of_first`) and
`entries_insert_of_lt`: inserting above every key appends.
-/

namespace Nautilus.Lib

open List

open Std (LawfulEqCmp OrientedCmp ReflCmp TransCmp)
open Std.OrientedCmp (lt_of_gt eq_symm gt_of_lt)

universe u v

/-! ## Sorted association lists -/

namespace Sorted

variable {κ : Type u} {ν : Type v} (cmp : κ → κ → Ordering)

/-- First value under a key that compares `eq`. -/
def lookup (k : κ) : List (κ × ν) → Option ν
  | [] => none
  | (k', v) :: es => if cmp k' k = .eq then some v else lookup k es

/-- Single-pass sorted insertion; a key that is present stays. -/
def put (k : κ) (v : ν) : List (κ × ν) → List (κ × ν)
  | [] => [(k, v)]
  | (k', v') :: es =>
    match cmp k k' with
    | .lt => (k, v) :: (k', v') :: es
    | .eq => (k', v) :: es
    | .gt => (k', v') :: put k v es

/-- Strictly ascending keys. -/
def Asc (es : List (κ × ν)) : Prop := es.Pairwise fun a b => cmp a.1 b.1 = .lt

variable {cmp} {k : κ} {v : ν} {es : List (κ × ν)}

/-- Every key of the list after an insertion is the new one or an old one. -/
theorem mem_put {e : κ × ν} (h : e ∈ put cmp k v es) : e.1 = k ∨ ∃ v', (e.1, v') ∈ es := by
  induction es with
  | nil =>
    rw [put, mem_singleton] at h
    exact .inl (congrArg Prod.fst h)
  | cons e₀ es ih =>
    obtain ⟨_, v₀⟩ := e₀
    rw [put] at h
    split at h
    · rcases mem_cons.mp h with rfl | h
      · exact .inl rfl
      · exact .inr ⟨e.2, h⟩
    · rcases mem_cons.mp h with rfl | h
      · exact .inr ⟨v₀, mem_cons_self⟩
      · exact .inr ⟨e.2, mem_cons_of_mem _ h⟩
    · rcases mem_cons.mp h with rfl | h
      · exact .inr ⟨v₀, mem_cons_self⟩
      · rcases ih h with h | ⟨v', h⟩
        · exact .inl h
        · exact .inr ⟨v', mem_cons_of_mem _ h⟩

theorem put_of_lt (v : ν) (h : ∀ e ∈ es, cmp k e.1 = .gt) : put cmp k v es = es ++ [(k, v)] := by
  induction es with
  | nil => rfl
  | cons e es ih =>
    obtain ⟨k₀, v₀⟩ := e
    simp [put, h (k₀, v₀) mem_cons_self, cons_append, ih fun e he => h e (mem_cons_of_mem _ he)]

theorem put_last {k' : κ} (v v' : ν) (h : ∀ e ∈ es, cmp k e.1 = .gt) (hk : cmp k k' = .eq) :
    put cmp k v (es ++ [(k', v')]) = es ++ [(k', v)] := by
  induction es with
  | nil => simp only [nil_append, put, hk]
  | cons e es ih =>
    have hgt : cmp k e.1 = .gt := h e mem_cons_self
    simp [cons_append, put, hgt, ih fun e' he' => h e' (mem_cons_of_mem _ he')]

theorem exists_mem_of_lookup
    (h : lookup cmp k es = some v) : ∃ k', cmp k' k = .eq ∧ (k', v) ∈ es := by
  induction es with
  | nil => nomatch h
  | cons e es ih =>
    obtain ⟨k₀, _⟩ := e
    rw [lookup] at h
    split at h
    · rename_i hk
      cases h
      exact ⟨k₀, hk, mem_cons_self⟩
    · obtain ⟨k', hk', hmem⟩ := ih h
      exact ⟨k', hk', mem_cons_of_mem _ hmem⟩

theorem lookup_filter {p : κ → Bool} (hp : ∀ k', cmp k' k = .eq → p k' = p k) (es : List (κ × ν)) :
    lookup cmp k (es.filter fun e => p e.1) = if p k then lookup cmp k es else none := by
  induction es with
  | nil => simp [lookup]
  | cons e es ih =>
    obtain ⟨k₀, _⟩ := e
    by_cases h0 : cmp k₀ k = .eq
    · -- the head is the key looked up: it is kept exactly when `p k`
      by_cases hpk : p k = true
      · simp [lookup, hp k₀ h0, hpk, h0]
      · simp [hp k₀ h0, hpk, ih]
    · by_cases hp0 : p k₀ = true
      · simp [lookup, hp0, h0, ih]
      · simp [lookup, hp0, h0, ih]

/-- A scan that stops at the first entry without `p` finds them all where they come first. -/
theorem takeWhile_eq_filter {p : κ × ν → Bool}
    (h : es.Pairwise fun e e' => p e' = true → p e = true) :
    es.takeWhile p = es.filter p ∧ es.dropWhile p = es.filter fun e => !p e := by
  induction es with
  | nil => exact ⟨rfl, rfl⟩
  | cons e es ih =>
    obtain ⟨hhead, htail⟩ := pairwise_cons.mp h
    cases hp : p e with
    | true => simp [hp, ih htail]
    | false =>
      have hrest : ∀ e' ∈ es, p e' = false := fun e' he' =>
        Bool.eq_false_iff.mpr fun hp' => Bool.false_ne_true (hp.symm.trans (hhead e' he' hp'))
      have hnone : es.filter p = [] := filter_eq_nil_iff.mpr (by simpa using hrest)
      have hall : (es.filter fun e => !p e) = es := filter_eq_self.mpr (by simpa using hrest)
      simp [hp, hnone, hall]

variable [TransCmp cmp]

theorem asc_put (h : Asc cmp es) : Asc cmp (put cmp k v es) := by
  induction es with
  | nil => exact pairwise_singleton _ _
  | cons e₀ es ih =>
    obtain ⟨k₀, _⟩ := e₀
    obtain ⟨hlt, hes⟩ := pairwise_cons.mp h
    rw [put]
    split
    · rename_i hk
      refine pairwise_cons.mpr ⟨?_, h⟩
      intro e he
      rcases mem_cons.mp he with rfl | he
      · exact hk
      · exact TransCmp.lt_trans hk (hlt e he)
    · exact pairwise_cons.mpr ⟨hlt, hes⟩
    · rename_i hk
      refine pairwise_cons.mpr ⟨?_, ih hes⟩
      intro e he
      show cmp k₀ e.1 = .lt
      rcases mem_put he with heq | ⟨v', hmem⟩
      · rw [heq]
        exact lt_of_gt hk
      · exact hlt (e.1, v') hmem

theorem lookup_congr {k' : κ} (h : cmp k k' = .eq) (es : List (κ × ν)) :
    lookup cmp k es = lookup cmp k' es := by
  induction es with
  | nil => rfl
  | cons e es ih =>
    rw [lookup, lookup, TransCmp.congr_right h, ih]

theorem lookup_put (k k' : κ) (v : ν) (es : List (κ × ν)) :
    lookup cmp k' (put cmp k v es) = if cmp k k' = .eq then some v else lookup cmp k' es := by
  induction es with
  | nil => rfl
  | cons e es ih =>
    obtain ⟨k₀, _⟩ := e
    rw [put]
    split
    · rfl
    · rename_i hk
      rw [lookup, lookup, TransCmp.congr_left hk]
      split <;> rfl
    rename_i hk
    rw [lookup, lookup, ih]
    by_cases h0 : cmp k₀ k' = .eq
    · -- the head is the key looked up, so the inserted key is not
      have hne : cmp k k' ≠ .eq := by
        rw [← TransCmp.congr_right h0, hk]
        nofun
      rw [if_pos h0, if_neg hne, if_pos h0]
    · rw [if_neg h0, if_neg h0]

theorem lookup_of_mem (hs : Asc cmp es) (h : (k, v) ∈ es) : lookup cmp k es = some v := by
  induction es with
  | nil => nomatch h
  | cons e es ih =>
    obtain ⟨k₀, _⟩ := e
    obtain ⟨hlt, hes⟩ := pairwise_cons.mp hs
    rcases mem_cons.mp h with heq | hmem
    · cases heq
      rw [lookup, if_pos ReflCmp.compare_self]
    · have hne : cmp k₀ k ≠ .eq := by
        rw [hlt (k, v) hmem]
        nofun
      rw [lookup, if_neg hne, ih hes hmem]

end Sorted

/-! ## The map -/

/-- A map sorted by its comparison function. -/
structure OrdMap {κ : Type u} (cmp : κ → κ → Ordering) (ν : Type v) where
  entries : List (κ × ν)
  sorted : Sorted.Asc cmp entries

namespace OrdMap

variable {κ : Type u} {ν : Type v} {cmp : κ → κ → Ordering}

/-- The map with no entry. -/
def empty : OrdMap cmp ν := ⟨[], List.Pairwise.nil⟩

variable (m : OrdMap cmp ν)

def keys : List κ := m.entries.map Prod.fst

def values : List ν := m.entries.map Prod.snd

def len : Nat := m.entries.length

/-- The entry with the least key. -/
def first : Option (κ × ν) := m.entries.head?

variable (k : κ)

def get? : Option ν := Sorted.lookup cmp k m.entries

/-- Keeps the entries whose key satisfies `p`. -/
def retain (p : κ → Bool) : OrdMap cmp ν :=
  ⟨m.entries.filter fun e => p e.1, m.sorted.sublist List.filter_sublist⟩

def remove : OrdMap cmp ν := m.retain fun k' => cmp k' k ≠ .eq

@[ext] theorem ext_entries {m m' : OrdMap cmp ν} (h : m.entries = m'.entries) : m = m' := by
  cases m
  cases m'
  cases h
  rfl

theorem mem_of_first {m : OrdMap cmp ν} {e : κ × ν} (h : m.first = some e) : e ∈ m.entries :=
  mem_of_head? h

theorem get?_retain {k : κ} {p : κ → Bool} (hp : ∀ k', cmp k' k = .eq → p k' = p k) :
    (m.retain p).get? k = if p k then m.get? k else none :=
  Sorted.lookup_filter hp m.entries

variable [TransCmp cmp]

/-- Replaces the value of a present key, adds an absent one at its place. -/
def insert (v : ν) : OrdMap cmp ν :=
  ⟨Sorted.put cmp k v m.entries, Sorted.asc_put m.sorted⟩

/-- A value changed in place, or its entry dropped when the new value is void. -/
def store (void : ν → Bool) (k : κ) (v : ν) : OrdMap cmp ν :=
  if void v then (m.insert k v).remove k else m.insert k v

theorem get?_congr {k k' : κ} (h : cmp k k' = .eq) : m.get? k = m.get? k' :=
  Sorted.lookup_congr h m.entries

theorem get?_insert (k k' : κ) (v : ν) :
    (m.insert k v).get? k' = if cmp k k' = .eq then some v else m.get? k' :=
  Sorted.lookup_put k k' v m.entries

@[simp] theorem get?_insert_self (v : ν) : (m.insert k v).get? k = some v := by
  rw [get?_insert, if_pos ReflCmp.compare_self]

theorem get?_remove (k k' : κ) :
    (m.remove k).get? k' = if cmp k k' = .eq then none else m.get? k' := by
  rw [remove, get?_retain]
  · by_cases h : cmp k k' = .eq
    · simp [h, eq_symm h]
    · have h' : ¬ cmp k' k = .eq := fun h' => h (eq_symm h')
      simp [h, h']
  · intro k₀ h₀
    rw [TransCmp.congr_left h₀]

theorem get?_store (void : ν → Bool) (k k' : κ) (v : ν) :
    (m.store void k v).get? k' =
      if cmp k k' = .eq then (if void v then none else some v) else m.get? k' := by
  unfold store
  by_cases hvoid : void v = true
  · rw [if_pos hvoid, if_pos hvoid, get?_remove, get?_insert]
    split <;> rfl
  · rw [if_neg hvoid, if_neg hvoid, get?_insert]

variable {m k} {v : ν}

theorem get?_eq_some_iff : m.get? k = some v ↔ ∃ k', cmp k' k = .eq ∧ (k', v) ∈ m.entries := by
  constructor
  · exact Sorted.exists_mem_of_lookup
  · rintro ⟨k', hk, hmem⟩
    rw [← get?_congr m hk]
    exact Sorted.lookup_of_mem m.sorted hmem

theorem get?_of_mem (h : (k, v) ∈ m.entries) : m.get? k = some v :=
  get?_eq_some_iff.mpr ⟨k, ReflCmp.compare_self, h⟩

theorem entry_eq_of_cmp {e e' : κ × ν} (he : e ∈ m.entries)
    (he' : e' ∈ m.entries) (h : cmp e.1 e'.1 = .eq) : e = e' := by
  have hpair : ∀ ⦃a⦄, a ∈ m.entries → ∀ ⦃b⦄, b ∈ m.entries → a = b ∨ cmp a.1 b.1 ≠ .eq := by
    refine Pairwise.forall_of_forall_of_flip (fun _ _ => .inl rfl) ?_ ?_
    · exact m.sorted.imp fun hlt => .inr (by rw [hlt]; nofun)
    · refine m.sorted.imp fun hlt => .inr fun heq => ?_
      rw [eq_symm heq] at hlt
      nomatch hlt
  exact (hpair he he').resolve_right fun hne => hne h

/-- Maps with at most one entry tell no two keys apart. -/
theorem cmp_eq_of_len_le_one (hlen : m.len ≤ 1) {k' : κ} {v' : ν}
    (h : m.get? k = some v) (h' : m.get? k' = some v') : cmp k k' = .eq := by
  obtain ⟨k₀, hk₀, hmem⟩ := get?_eq_some_iff.mp h
  obtain ⟨k₁, hk₁, hmem'⟩ := get?_eq_some_iff.mp h'
  have heq : (k₀, v) = (k₁, v') := by
    cases hes : m.entries with
    | nil =>
      rw [hes] at hmem
      nomatch hmem
    | cons e es =>
      have hnil : es = [] := by
        rw [len, hes, length_cons] at hlen
        exact eq_nil_of_length_eq_zero (by omega)
      rw [hes, hnil] at hmem hmem'
      rw [mem_singleton.mp hmem, mem_singleton.mp hmem']
  cases heq
  exact TransCmp.eq_trans (eq_symm hk₀) hk₁

/-- Retaining the keys equal to the first one leaves the first entry. -/
theorem retain_first (h : m.first = some (k, v))
    {p : κ → Bool} (hp : ∀ k', p k' = true ↔ cmp k' k = .eq) : (m.retain p).entries = [(k, v)] := by
  obtain ⟨es, hs⟩ := m
  cases es with
  | nil => nomatch h
  | cons e es =>
    cases h
    have hlt := (pairwise_cons.mp hs).1
    have hself : p k = true := (hp k).mpr ReflCmp.compare_self
    have hrest : es.filter (fun e => p e.1) = [] := by
      refine filter_eq_nil_iff.mpr fun e he hpe => ?_
      have heq : cmp k e.1 = .eq := eq_symm ((hp e.1).mp hpe)
      rw [hlt e he] at heq
      nomatch heq
    show ((k, v) :: es).filter (fun e => p e.1) = [(k, v)]
    rw [filter_cons, hrest]
    exact if_pos hself

theorem entries_remove_first {es : List (κ × ν)}
    (h : m.entries = (k, v) :: es) : (m.remove k).entries = es := by
  have hlt := (pairwise_cons.mp (h ▸ m.sorted)).1
  show m.entries.filter (fun e => cmp e.1 k ≠ .eq) = es
  rw [h, filter_cons_of_neg (by simp [ReflCmp.compare_self]), filter_eq_self]
  intro e he
  simp [gt_of_lt (hlt e he)]

theorem entries_insert_of_lt (v : ν)
    (h : ∀ e ∈ m.entries, cmp e.1 k = .lt) : (m.insert k v).entries = m.entries ++ [(k, v)] :=
  Sorted.put_of_lt v fun e he => gt_of_lt (h e he)

/-- An insertion puts the new key first, overwrites the first one or leaves it. -/
theorem first_insert (m : OrdMap cmp ν) (k : κ) (v : ν) :
    (m.insert k v).first =
      match m.first with
      | none => some (k, v)
      | some (k', v') =>
        match cmp k k' with
        | .lt => some (k, v)
        | .eq => some (k', v)
        | .gt => some (k', v') := by
  obtain ⟨es, _⟩ := m
  cases es with
  | nil => rfl
  | cons e es =>
    show (Sorted.put cmp k v (e :: es)).head? = _
    simp only [Sorted.put, first, head?_cons]
    cases cmp k e.1 <;> rfl

/-- A key that compares `eq` to the greatest one overwrites the last entry. -/
theorem entries_insert_last {es : List (κ × ν)} {k' : κ} {v' : ν}
    (hm : m.entries = es ++ [(k', v')]) (hk : cmp k' k = .eq) (v : ν) :
    (m.insert k v).entries = es ++ [(k', v)] := by
  have hsorted : Sorted.Asc cmp (es ++ [(k', v')]) := hm ▸ m.sorted
  show Sorted.put cmp k v m.entries = _
  rw [hm]
  refine Sorted.put_last v v' ?_ (eq_symm hk)
  intro e he
  have hlt : cmp e.1 k' = .lt :=
    (pairwise_append.mp hsorted).2.2 e he (k', v') (mem_singleton_self _)
  exact gt_of_lt (TransCmp.lt_of_lt_of_eq hlt hk)

def collect (pairs : List (κ × ν)) : OrdMap cmp ν :=
  pairs.foldl (fun m pair => m.insert pair.1 pair.2) empty

theorem entries_foldl_insert {pairs : List (κ × ν)} (h : Sorted.Asc cmp (m.entries ++ pairs)) :
    (pairs.foldl (fun m pair => m.insert pair.1 pair.2) m).entries = m.entries ++ pairs := by
  induction pairs generalizing m with
  | nil => exact (append_nil _).symm
  | cons pair pairs ih =>
    have hlast := entries_insert_of_lt pair.2 fun e he =>
      (pairwise_append.mp h).2.2 e he pair mem_cons_self
    rw [foldl_cons, ih, hlast, append_assoc, singleton_append]
    rw [hlast, append_assoc, singleton_append]
    exact h

theorem collect_entries (m : OrdMap cmp ν) : collect m.entries = m :=
  ext_entries (entries_foldl_insert m.sorted)

theorem mem_entries_iff [LawfulEqCmp cmp] : (k, v) ∈ m.entries ↔ m.get? k = some v := by
  refine ⟨get?_of_mem, fun h => ?_⟩
  obtain ⟨_, hk, hmem⟩ := get?_eq_some_iff.mp h
  exact LawfulEqCmp.eq_of_compare hk ▸ hmem

section Lawful

variable [LawfulEqCmp cmp]

/-! ## Keys that are equal when they compare equal -/

omit [TransCmp cmp] in
theorem nodup_entries (m : OrdMap cmp ν) : m.entries.Nodup :=
  m.sorted.imp fun {a b} h heq => by
    have hself : cmp b.1 b.1 = .eq := ReflCmp.compare_self
    rw [heq, hself] at h
    nomatch h

theorem ext_get? {m m' : OrdMap cmp ν} (h : ∀ k, m.get? k = m'.get? k) : m = m' := by
  have hperm : m.entries.Perm m'.entries :=
    (perm_ext_iff_of_nodup m.nodup_entries m'.nodup_entries).mpr fun (k, v) => by
      rw [mem_entries_iff, mem_entries_iff, h]
  refine ext_entries (hperm.eq_of_pairwise (fun a b _ _ hab hba => ?_) m.sorted m'.sorted)
  have hgt : cmp b.1 a.1 = .gt := gt_of_lt hab
  rw [hgt] at hba
  nomatch hba

/-- Values that tell their keys are told apart by them. -/
theorem nodup_map_values {f : ν → κ} (hf : ∀ k v, m.get? k = some v → f v = k) :
    (m.values.map f).Nodup := by
  have hkeys : m.values.map f = m.keys := by
    rw [values, keys, map_map]
    refine map_congr_left fun (k, v) hkv => ?_
    exact hf k v (mem_entries_iff.mp hkv)
  rw [hkeys, keys, Nodup, pairwise_map]
  refine m.sorted.imp fun {a b} h heq => ?_
  have hself : cmp b.1 b.1 = .eq := ReflCmp.compare_self
  rw [heq, hself] at h
  nomatch h

variable [DecidableEq κ]

theorem get?_insert_eq (m : OrdMap cmp ν) (k k' : κ) (v : ν) :
    (m.insert k v).get? k' = if k = k' then some v else m.get? k' := by
  rw [get?_insert]
  exact ite_congr (propext LawfulEqCmp.compare_eq_iff_eq) (fun _ => rfl) fun _ => rfl

theorem get?_remove_eq (m : OrdMap cmp ν) (k k' : κ) :
    (m.remove k).get? k' = if k = k' then none else m.get? k' := by
  rw [get?_remove]
  exact ite_congr (propext LawfulEqCmp.compare_eq_iff_eq) (fun _ => rfl) fun _ => rfl

theorem get?_foldl_insert {pairs : List (κ × ν)} (hnodup : (pairs.map Prod.fst).Nodup)
    (m : OrdMap cmp ν) (k : κ) (v : ν) :
    (pairs.foldl (fun m pair => m.insert pair.1 pair.2) m).get? k = some v ↔
      (k, v) ∈ pairs ∨ (k ∉ pairs.map Prod.fst ∧ m.get? k = some v) := by
  induction pairs generalizing m with
  | nil => simp
  | cons pair pairs ih =>
    obtain ⟨k', _⟩ := pair
    rw [map_cons, nodup_cons] at hnodup
    rw [foldl_cons, ih hnodup.2, get?_insert_eq]
    by_cases hk : k' = k
    · subst hk
      have hnot : ∀ v, (k', v) ∉ pairs := fun v hv =>
        hnodup.1 (mem_map.mpr ⟨(k', v), hv, rfl⟩)
      simp only [if_pos, Option.some.injEq, mem_cons, hnot, Prod.mk.injEq, map_cons]
      simp only [true_and, or_false, not_true, false_and, hnodup.1, not_false_iff, false_or]
      exact eq_comm
    · have hne : k ≠ k' := fun h => hk h.symm
      simp [hk, hne]

/-- A map is rebuilt from its values, in any order, where they tell their keys. -/
theorem foldl_insert_values {f : ν → κ} (hf : ∀ k v, m.get? k = some v → f v = k)
    {vs : List ν} (hvs : vs.Perm m.values) :
    vs.foldl (fun m v => m.insert (f v) v) empty = m := by
  have hmem : ∀ {v}, v ∈ m.values ↔ m.get? (f v) = some v := by
    intro v
    simp only [values, mem_map, Prod.exists, exists_eq_right, mem_entries_iff]
    exact ⟨fun ⟨k, hk⟩ => by rw [hf k v hk]; exact hk, fun h => ⟨f v, h⟩⟩
  have hnodup : ((vs.map fun v => (f v, v)).map Prod.fst).Nodup := by
    rw [map_map]
    exact (hvs.map f).nodup_iff.mpr (nodup_map_values hf)
  have hfold : vs.foldl (fun m v => m.insert (f v) v) (empty : OrdMap cmp ν) =
      (vs.map fun v => (f v, v)).foldl (fun m pair => m.insert pair.1 pair.2) empty := by
    rw [foldl_map]
  rw [hfold]
  refine ext_get? fun k => Option.ext fun v => ?_
  rw [get?_foldl_insert hnodup empty k v]
  have hnone : (empty : OrdMap cmp ν).get? k = none := rfl
  simp only [hnone, reduceCtorEq, and_false, or_false, mem_map, Prod.mk.injEq]
  constructor
  · rintro ⟨v, hv, rfl, rfl⟩
    exact hmem.mp (hvs.mem_iff.mp hv)
  · intro h
    obtain rfl := hf k v h
    exact ⟨v, hvs.mem_iff.mpr (hmem.mpr h), rfl, rfl⟩

/-- An insertion puts one entry in the place of the one under its key. -/
theorem perm_entries_insert (m : OrdMap cmp ν) (k : κ) (v : ν) :
    (m.insert k v).entries.Perm ((k, v) :: (m.remove k).entries) := by
  have hnot : (k, v) ∉ (m.remove k).entries := by
    rw [mem_entries_iff, get?_remove_eq, if_pos rfl]
    nofun
  refine (perm_ext_iff_of_nodup (nodup_entries _)
    (nodup_cons.mpr ⟨hnot, nodup_entries _⟩)).mpr fun (k', v') => ?_
  rw [mem_cons, mem_entries_iff, mem_entries_iff, get?_insert_eq, get?_remove_eq]
  by_cases hk : k = k'
  · simp [hk, eq_comm]
  · simp [hk, Ne.symm hk]

omit [DecidableEq κ] in
theorem insert_of_get? (h : m.get? k = some v) : m.insert k v = m := by
  classical
  refine ext_get? fun k' => ?_
  rw [get?_insert_eq]
  split
  · rename_i heq
    rw [← heq, h]
  · rfl

omit [DecidableEq κ] in
theorem remove_of_get?_none (h : m.get? k = none) : m.remove k = m := by
  classical
  refine ext_get? fun k' => ?_
  rw [get?_remove_eq]
  split
  · rename_i heq
    rw [← heq, h]
  · rfl

end Lawful

end OrdMap

end Nautilus.Lib
