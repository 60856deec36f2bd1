import Nautilus.Catalog.Naming

/-!
# What the files of a directory hold

The records of a directory file by file, and the one way in which the operations that rewrite
files move records: a range query on some files, written under a new name.
-/

namespace Nautilus

open Lib List IndexMap

variable {name : FileName}

theorem flatMap_filter {α β : Type} (l : List α) (p : α → Bool) (f : α → List β) :
    (l.filter p).flatMap f = l.flatMap fun a => if p a then f a else [] := by
  induction l with
  | nil => rfl
  | cons a l ih =>
    rw [filter_cons, flatMap_cons, ← ih]
    split <;> simp

namespace Directory

variable {R : Type} {dir : Directory R}

/-- The records of a file; a file that is not there has none. -/
def contents (dir : Directory R) (name : FileName) : List R := (dir.files.get? name).getD []

theorem contents_eq {records : List R}
    (h : dir.files.get? name = some records) : dir.contents name = records := by
  rw [contents, h, Option.getD_some]

theorem contents_of_mem_entries {e : FileName × List R} (h : e ∈ dir.files.entries) :
    dir.contents e.1 = e.2 :=
  contents_eq (get?_eq_some_iff.mpr h)

theorem readable_eq (dir : Directory R) : dir.readable = dir.files.keys.flatMap dir.contents := by
  rw [readable, values, IndexMap.keys, flatMap_map, ← flatMap_def]
  exact flatMap_congr fun e he => (contents_of_mem_entries he).symm

theorem mem_keys_of_mem_contents {r : R} (h : r ∈ dir.contents name) : name ∈ dir.files.keys := by
  cases hget : dir.files.get? name with
  | none =>
    rw [contents, hget] at h
    nomatch h
  | some records => exact mem_keys_iff.mpr ⟨records, hget⟩

variable [HasTsInit R]

/-- In a tidy directory a record is in the interval of its file. -/
theorem Tidy.holds (h : Tidy dir) {r : R} (hr : r ∈ dir.contents name) : name.Holds (tsInit r) := by
  obtain ⟨records, hget⟩ := mem_keys_iff.mp (mem_keys_of_mem_contents hr)
  exact h.covers name records hget r (contents_eq hget ▸ hr)

/-! ## Range queries -/

/-- The timestamp is in the range of a query. -/
def During (start endTs : Nat) (r : R) : Prop := start ≤ tsInit r ∧ tsInit r ≤ endTs

instance (start endTs : Nat) (r : R) : Decidable (During start endTs r) :=
  inferInstanceAs (Decidable (_ ∧ _))

theorem query_perm (dir : Directory R) (names : List FileName) (start endTs : Nat) :
    (dir.query names start endTs).Perm
      ((names.flatMap dir.contents).filter fun r => During start endTs r) :=
  perm_insertionSort _ _

theorem checkAscendingTimestamps_of_pairwise {data : List R}
    (h : data.Pairwise fun a b => tsInit a ≤ tsInit b) : checkAscendingTimestamps data = true := by
  induction data with
  | nil => rfl
  | cons a data ih =>
    cases data with
    | nil => rfl
    | cons b data =>
      obtain ⟨hhead, htail⟩ := pairwise_cons.mp h
      rw [checkAscendingTimestamps, ih htail, decide_eq_true (hhead b mem_cons_self)]
      rfl

theorem checkAscendingTimestamps_query (names : List FileName) (start endTs : Nat) :
    checkAscendingTimestamps (dir.query names start endTs) = true := by
  have htotal : Std.Total fun a b : R => tsInit a ≤ tsInit b := ⟨fun _ _ => Nat.le_total _ _⟩
  have htrans : IsTrans R fun a b => tsInit a ≤ tsInit b := ⟨fun _ _ _ => Nat.le_trans⟩
  exact checkAscendingTimestamps_of_pairwise (pairwise_insertionSort _ _)

/-- Data in order, written under a new name without the check of the intervals. -/
theorem writeToParquet_of_new {data : List R} (listing : Listing)
    (hdata : data ≠ []) (hascending : checkAscendingTimestamps data = true)
    (hnew : name ∉ dir.files.keys) :
    dir.writeToParquet listing data (some name.startTs) (some name.endTs) true =
      (⟨dir.files.insert name data⟩, .ok ()) := by
  have hname : batchName data (some name.startTs) (some name.endTs) = some name := by
    obtain ⟨_, _, rfl⟩ := exists_cons_of_ne_nil hdata
    rw [batchName, head?_cons, getLast?_eq_some_getLast hdata]
    rfl
  rcases writeToParquet_cases dir listing data (some name.startTs) (some name.endTs) true with
    ⟨name', hputs, heq⟩ | ⟨hnone, -⟩
  · obtain rfl := Option.some.inj (hputs.name_eq.symm.trans hname)
    exact heq
  · exact absurd ⟨hname, hascending, hnew, .inl rfl⟩ (hnone name)

end Directory

end Nautilus
