import Mathlib

/-!
# What a stable sort keeps

`List.insertionSort` is stable: elements that the order does not separate stay as they were. So
dropping elements before or after sorting is the same, an appended element lands somewhere without
moving the others, and elements of one key stay in the order they came in.
-/

namespace Nautilus.Lib

open List

universe u

variable {α : Type u} {r : α → α → Prop} [DecidableRel r] {l : List α}

theorem orderedInsert_of_forall {a : α} (h : ∀ b ∈ l, r a b) : l.orderedInsert r a = a :: l := by
  cases l with
  | nil => rfl
  | cons b l => exact orderedInsert_cons_of_le r l (h b mem_cons_self)

variable [IsTrans α r]

theorem filter_orderedInsert (p : α → Bool) (a : α) (hl : l.Pairwise r) :
    (l.orderedInsert r a).filter p =
      if p a then (l.filter p).orderedInsert r a else l.filter p := by
  induction l with
  | nil => cases hp : p a <;> simp [hp]
  | cons b l ih =>
    obtain ⟨hb, hl⟩ := pairwise_cons.mp hl
    by_cases hab : r a b
    · have hall : ∀ c ∈ (b :: l).filter p, r a c := by
        intro c hc
        obtain rfl | hc := mem_cons.mp (mem_of_mem_filter hc)
        · exact hab
        · exact trans_of r hab (hb c hc)
      rw [orderedInsert_cons_of_le r l hab, filter_cons, orderedInsert_of_forall hall]
    · rw [orderedInsert_of_not_le r l hab, filter_cons, filter_cons, ih hl]
      cases p a <;> cases p b <;> simp [hab]

variable [Std.Total r]

theorem filter_insertionSort (p : α → Bool) (l : List α) :
    (l.insertionSort r).filter p = (l.filter p).insertionSort r := by
  induction l with
  | nil => rfl
  | cons a l ih =>
    rw [insertionSort_cons, filter_orderedInsert p a (pairwise_insertionSort r l), ih, filter_cons]
    split <;> rfl

/-- An element appended to the list splits the sorted one. -/
theorem insertionSort_append_singleton (x : α) (l : List α) :
    ∃ before after, l.insertionSort r = before ++ after ∧
      (l ++ [x]).insertionSort r = before ++ x :: after := by
  induction l with
  | nil => exact ⟨[], [], rfl, rfl⟩
  | cons a l ih =>
    obtain ⟨before, after, hl, hx⟩ := ih
    have hsorted : (before ++ x :: after).Pairwise r := hx ▸ pairwise_insertionSort r _
    rw [cons_append, insertionSort_cons, insertionSort_cons, hl, hx]
    clear hl hx
    -- where `a` goes among the earlier elements decides on which side of `x` it ends
    induction before with
    | nil =>
      by_cases hax : r a x
      · have hall : ∀ b ∈ after, r a b := fun b hb =>
          trans_of r hax (rel_of_pairwise_cons hsorted hb)
        refine ⟨[a], after, orderedInsert_of_forall hall, ?_⟩
        exact orderedInsert_cons_of_le r after hax
      · exact ⟨[], after.orderedInsert r a, rfl, orderedInsert_of_not_le r after hax⟩
    | cons b before ih =>
      by_cases hab : r a b
      · exact ⟨a :: b :: before, after, orderedInsert_cons_of_le r _ hab,
          orderedInsert_cons_of_le r _ hab⟩
      obtain ⟨before', after', h, h'⟩ := ih hsorted.tail
      refine ⟨b :: before', after', ?_, ?_⟩
      · rw [cons_append, orderedInsert_of_not_le r _ hab, h]
        rfl
      · rw [cons_append, orderedInsert_of_not_le r _ hab, h']
        rfl

/-! ## Sorting by a key -/

section Key

variable {κ : Type*} [LinearOrder κ] {key : α → κ} {S : α → α → Prop}

theorem pairwise_orderedInsert_key {a : α}
    (hl : l.Pairwise fun b c => key b < key c ∨ key b = key c ∧ S b c)
    (ha : ∀ b ∈ l, key a = key b → S a b) :
    (l.orderedInsert (fun b c => key b ≤ key c) a).Pairwise
      fun b c => key b < key c ∨ key b = key c ∧ S b c := by
  induction l with
  | nil => exact pairwise_singleton _ _
  | cons b l ih =>
    obtain ⟨hb, hl'⟩ := pairwise_cons.mp hl
    by_cases hab : key a ≤ key b
    · rw [orderedInsert_cons_of_le _ l hab]
      refine pairwise_cons.mpr ⟨fun c hc => ?_, hl⟩
      have hac : key a ≤ key c := by
        obtain rfl | hc := mem_cons.mp hc
        · exact hab
        · exact hab.trans ((hb c hc).elim le_of_lt fun h => h.1.le)
      exact hac.lt_or_eq.imp_right fun heq => ⟨heq, ha c hc heq⟩
    · rw [orderedInsert_of_not_le _ l hab]
      refine pairwise_cons.mpr ⟨fun c hc => ?_, ih hl' fun c hc => ha c (.tail b hc)⟩
      obtain rfl | hc := (mem_orderedInsert _).mp hc
      · exact .inl (not_le.mp hab)
      · exact hb c hc

/-- Sorting by a key orders by the key first, and elements of one key as they were ordered
before. -/
theorem pairwise_insertionSort_key (h : l.Pairwise fun a b => key a = key b → S a b) :
    (l.insertionSort fun a b => key a ≤ key b).Pairwise
      fun a b => key a < key b ∨ key a = key b ∧ S a b := by
  induction l with
  | nil => exact Pairwise.nil
  | cons a l ih =>
    obtain ⟨ha, hl⟩ := pairwise_cons.mp h
    rw [insertionSort_cons]
    exact pairwise_orderedInsert_key (ih hl) fun b hb => ha b ((mem_insertionSort _).mp hb)

end Key

end Nautilus.Lib
