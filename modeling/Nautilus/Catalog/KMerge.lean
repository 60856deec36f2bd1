import Mathlib

/-!
# Merging sorted streams of batches

`kmerge_batch.rs`: a heap holds one element of each stream, with the rest of its batch and of the
stream. `PriorityQueue` is what is assumed of the vendored `BinaryHeap`; of a heap the content
matters only.
-/

namespace Nautilus

open List

/-- `peek_mut`: an element that no other is before, and the others. -/
structure PriorityQueue (E : Type) (le : E → E → Prop) where
  peek : List E → Option (E × List E)
  peek_none : ∀ {heap}, peek heap = none → heap = []
  peek_some : ∀ {heap e rest}, peek heap = some (e, rest) →
    heap ~ e :: rest ∧ ∀ e' ∈ rest, le e e'

structure ElementBatchIter (α : Type) where
  item : α
  batch : List α
  iter : List (List α)
deriving DecidableEq

abbrev KMerge (α : Type) := List (ElementBatchIter α)

namespace KMerge

variable {α : Type}

/-- `kmerge_batch.rs:89`; `next` refills an element by the same loop. -/
def newFromIter : List (List α) → Option (ElementBatchIter α)
  | [] => none
  | [] :: iter => newFromIter iter
  | (item :: batch) :: iter => some ⟨item, batch, iter⟩

def pushIter (self : KMerge α) (s : List (List α)) : KMerge α :=
  match newFromIter s with
  | some heapElem => heapElem :: self
  | none => self

/-- What is still to come of a stream. -/
def elements (e : ElementBatchIter α) : List α := e.item :: (e.batch ++ e.iter.flatten)

def contents (self : KMerge α) : List α := self.flatMap elements

def Sorted (le : α → α → Prop) (self : KMerge α) : Prop := ∀ e ∈ self, (elements e).Pairwise le

theorem elements_newFromIter (s : List (List α)) :
    (newFromIter s).elim [] elements = s.flatten := by
  fun_induction newFromIter s with
  | case1 => rfl
  | case2 iter ih => exact ih
  | case3 => rfl

variable {le : α → α → Prop} {self self' : KMerge α}

theorem contents_pushIter (s : List (List α)) :
    (self.pushIter s).contents = s.flatten ++ self.contents := by
  rw [← elements_newFromIter, pushIter]
  cases newFromIter s <;> rfl

theorem Sorted.pushIter (h : Sorted le self) {s : List (List α)} (hs : s.flatten.Pairwise le) :
    Sorted le (self.pushIter s) := by
  rw [← elements_newFromIter] at hs
  rw [KMerge.pushIter]
  cases hnew : newFromIter s with
  | none => exact h
  | some e =>
    rw [hnew] at hs
    exact forall_mem_cons.mpr ⟨hs, h⟩

variable (queue : PriorityQueue (ElementBatchIter α) (le ·.item ·.item))

/-- `kmerge_batch.rs:137`; a head that was changed in place is put back. -/
def next (self : KMerge α) : Option (α × KMerge α) :=
  match queue.peek self with
  | some (heapElem, rest) =>
    match heapElem.batch with
    | item :: batch => some (heapElem.item, { heapElem with item, batch } :: rest)
    | [] =>
      match newFromIter heapElem.iter with
      | none => some (heapElem.item, rest)
      | some refilled => some (heapElem.item, refilled :: rest)
  | none => none

/-- The elements that `next` yields until its end, in at most `fuel` calls. -/
def collect : Nat → KMerge α → Option (List α)
  | 0, _ => none
  | fuel + 1, self =>
    match next queue self with
    | none => some []
    | some (item, self) => (collect fuel self).map (item :: ·)

/-- A call takes the first element of the stream at the head. -/
theorem next_eq (self : KMerge α) : next queue self =
    (queue.peek self).map fun e => (e.1.item, pushIter e.2 (e.1.batch :: e.1.iter)) := by
  unfold next
  cases queue.peek self with
  | none => rfl
  | some e =>
    obtain ⟨⟨item, batch, iter⟩, rest⟩ := e
    cases batch with
    | cons => rfl
    | nil =>
      dsimp only [Option.map_some, pushIter, newFromIter]
      cases newFromIter iter <;> rfl

variable [IsTrans α le]

/-- **Step**: the element is no later than what remains, and nothing is lost. -/
theorem next_spec {item : α} (hsorted : Sorted le self) (h : next queue self = some (item, self')) :
    Sorted le self' ∧ self.contents ~ item :: self'.contents ∧ ∀ x ∈ self'.contents, le item x := by
  rw [next_eq, Option.map_eq_some_iff] at h
  obtain ⟨⟨e, rest⟩, hpeek, heq⟩ := h
  cases heq
  obtain ⟨hperm, hleast⟩ := queue.peek_some hpeek
  obtain ⟨hstream, hrest⟩ := forall_mem_cons.mp fun e' he' => hsorted e' (hperm.mem_iff.mpr he')
  obtain ⟨hhead, htail⟩ := pairwise_cons.mp hstream
  rw [contents_pushIter]
  refine ⟨Sorted.pushIter hrest htail, hperm.flatMap_right elements, fun x hx => ?_⟩
  -- what remains is behind the element in its own stream, or behind the head of another
  rcases mem_append.mp hx with hx | hx
  · exact hhead x hx
  · obtain ⟨e', he', hx⟩ := mem_flatMap.mp hx
    rcases mem_cons.mp hx with rfl | hx
    · exact hleast e' he'
    · exact IsTrans.trans _ _ _ (hleast e' he') (rel_of_pairwise_cons (hrest e' he') hx)

/-- **Run**: by induction on the calls, they yield the contents in order. -/
theorem collect_spec {fuel : Nat} (hsorted : Sorted le self) (hfuel : self.contents.length < fuel) :
    ∃ out, collect queue fuel self = some out ∧ out.Pairwise le ∧ out ~ self.contents := by
  induction fuel generalizing self with
  | zero => omega
  | succ fuel ih =>
    rw [collect]
    cases hnext : next queue self with
    | none =>
      rw [next_eq, Option.map_eq_none_iff] at hnext
      cases queue.peek_none hnext
      exact ⟨[], rfl, .nil, .refl _⟩
    | some result =>
      obtain ⟨hsorted', hperm, hle⟩ := next_spec queue hsorted hnext
      have hlength := hperm.length_eq
      rw [length_cons] at hlength
      obtain ⟨out, hout, hpairwise, hcontents⟩ := ih hsorted' (by omega)
      refine ⟨result.1 :: out, by simp [hout], pairwise_cons.mpr ⟨?_, hpairwise⟩,
        (hcontents.cons _).trans hperm.symm⟩
      exact fun x hx => hle x (hcontents.mem_iff.mp hx)

/-- **Sorted streams are merged: the output is sorted, and a permutation of all elements.** -/
theorem collect_merges (inputs : List (List (List α)))
    (hinputs : ∀ s ∈ inputs, s.flatten.Pairwise le) :
    ∃ fuel out, collect queue fuel (inputs.foldl pushIter []) = some out ∧ out.Pairwise le ∧
      out ~ inputs.flatMap flatten := by
  have hpushed : ∀ self : KMerge α, Sorted le self → Sorted le (inputs.foldl pushIter self) ∧
      (inputs.foldl pushIter self).contents ~ inputs.flatMap flatten ++ self.contents := by
    induction inputs with
    | nil => exact fun self hself => ⟨hself, .refl _⟩
    | cons s inputs ih =>
      intro self hself
      obtain ⟨hs, hinputs⟩ := forall_mem_cons.mp hinputs
      obtain ⟨hsorted, hperm⟩ := ih hinputs (self.pushIter s) (hself.pushIter hs)
      refine ⟨hsorted, hperm.trans ?_⟩
      rw [contents_pushIter, flatMap_cons, append_assoc]
      exact perm_append_comm_assoc ..
  obtain ⟨hsorted, hperm⟩ := hpushed [] nofun
  obtain ⟨out, hout, hpairwise, hcontents⟩ := collect_spec queue hsorted (Nat.lt_succ_self _)
  exact ⟨_, out, hout, hpairwise, hcontents.trans (hperm.trans (.of_eq (append_nil _)))⟩

end KMerge

/-- A heap that is searched for its least element. -/
def Sample.queue : PriorityQueue (ElementBatchIter Nat) (·.item ≤ ·.item) where
  peek heap := (heap.argmin (·.item)).map fun e => (e, heap.erase e)
  peek_none h := argmin_eq_none.mp (Option.map_eq_none_iff.mp h)
  peek_some h := by
    obtain ⟨e, he, heq⟩ := Option.map_eq_some_iff.mp h
    cases heq
    exact ⟨perm_cons_erase (argmin_mem he), fun _ h' => le_of_mem_argmin (mem_of_mem_erase h') he⟩

/-- Two streams, of which one starts and ends with empty batches. -/
theorem KMerge.collect_merges_two : ∃ fuel out, KMerge.collect Sample.queue fuel
      ([[[1, 4], [4]], [[], [2, 3], [], [5], []]].foldl KMerge.pushIter []) = some out ∧
    out.Pairwise (· ≤ ·) ∧ out ~ [1, 4, 4, 2, 3, 5] :=
  KMerge.collect_merges Sample.queue [[[1, 4], [4]], [[], [2, 3], [], [5], []]] (by decide)

end Nautilus
