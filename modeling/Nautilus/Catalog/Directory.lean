import Nautilus.Lib.IndexMap
import Nautilus.Lib.Word
import Nautilus.Types

/-!
# A directory of the data catalog

The files of one data type and instrument (`persistence/src/backend/catalog.rs`). A file holds
records and is named after an interval of timestamps; writing a batch and extending a name make
names.

A name is its pair of timestamps. Up to `i64::MAX` they are written as dates and read back; a later
one is a plain number, which `parse_filename_timestamps` does not read, so
`get_directory_intervals` does not see the file. The object store lists the files in some order,
puts, renames (replacing) and deletes. Sums of `u64` wrap.
-/

namespace Nautilus

open Lib

/-- The name that `timestamps_to_filename` makes. -/
structure FileName where
  startTs : Nat
  endTs : Nat
deriving DecidableEq

namespace FileName

/-- Whether `parse_filename_timestamps` reads the name back. -/
def parses (name : FileName) : Bool := name.startTs < 2 ^ 63 && name.endTs < 2 ^ 63

/-- A timestamp of the interval. -/
def Holds (name : FileName) (ts : Nat) : Prop := name.startTs ≤ ts ∧ ts ≤ name.endTs

instance (name : FileName) (ts : Nat) : Decidable (name.Holds ts) :=
  inferInstanceAs (Decidable (_ ∧ _))

end FileName

/-- `sort_by_key(|&(start, _)| start)`. -/
def sortIntervals (intervals : List FileName) : List FileName :=
  intervals.insertionSort fun a b => a.startTs ≤ b.startTs

/-- The loop of `are_intervals_disjoint`: each interval ends before the next starts. -/
def endBeforeNext : List FileName → Bool
  | a :: b :: rest => decide (a.endTs < b.startTs) && endBeforeNext (b :: rest)
  | _ => true

def areIntervalsDisjoint (intervals : List FileName) : Bool :=
  endBeforeNext (sortIntervals intervals)

/-- An order in which the object store may list names. -/
structure Listing where
  run : List FileName → List FileName
  perm : ∀ names, (run names).Perm names

variable {R : Type} [HasTsInit R]

/-- The errors of the operations on a directory. -/
inductive CatalogError where
  /-- `timestamps must be in ascending order`. -/
  | notAscending
  /-- `Writing file .. would create non-disjoint intervals`. -/
  | notDisjoint (name : FileName)
  | notDisjointAfterExtending
deriving DecidableEq

structure Directory (R : Type) where
  files : IndexMap FileName (List R)

namespace Directory

variable (self : Directory R)

/-- The records that can be read. -/
def readable : List R := self.files.values.flatten

variable (listing : Listing)

def getDirectoryIntervals : List FileName :=
  sortIntervals ((listing.run self.files.keys).filter FileName.parses)

def checkAscendingTimestamps : List R → Bool
  | a :: b :: rest => decide (tsInit a ≤ tsInit b) && checkAscendingTimestamps (b :: rest)
  | _ => true

/-- The name of a batch: the timestamps given, or those of its first and last record, if any. -/
def batchName (data : List R) (start endTs : Option Nat) : Option FileName := do
  let first ← data.head?
  let last ← data.getLast?
  some ⟨start.getD (tsInit first), endTs.getD (tsInit last)⟩

def writeToParquet (data : List R) (start endTs : Option Nat) (skipDisjointCheck : Bool) :
    Directory R × Except CatalogError Unit :=
  match batchName data start endTs with
  | none => (self, .ok ())
  | some name =>
    if checkAscendingTimestamps data = false then (self, .error .notAscending)
    else if self.files.containsKey name then (self, .ok ())
    else if skipDisjointCheck = false ∧
        areIntervalsDisjoint (self.getDirectoryIntervals listing ++ [name]) = false then
      (self, .error (.notDisjoint name))
    else (⟨self.files.insert name data⟩, .ok ())

/-- `rename` of the object store. -/
def rename (old new : FileName) : Directory R :=
  match self.files.get? old with
  | some records => ⟨(self.files.remove old).insert new records⟩
  | none => self

/-- The loop of `extend_file_name`: the file to rename, and its new name. -/
def neighbour (start endTs : Nat) : List FileName → Option (FileName × FileName)
  | [] => none
  | interval :: rest =>
    if interval.startTs = Word.add 64 endTs 1 then some (interval, ⟨start, interval.endTs⟩)
    else if interval.endTs = Word.sub 64 start 1 then some (interval, ⟨interval.startTs, endTs⟩)
    else neighbour start endTs rest

/-- The directory after that loop. -/
def extended (start endTs : Nat) : Directory R :=
  match neighbour start endTs (self.getDirectoryIntervals listing) with
  | some (old, new) => self.rename old new
  | none => self

/-- The intervals are checked after the file was renamed. -/
def extendFileName (start endTs : Nat) : Directory R × Except CatalogError Unit :=
  let self := self.extended listing start endTs
  if areIntervalsDisjoint (self.getDirectoryIntervals listing) then (self, .ok ())
  else (self, .error .notDisjointAfterExtending)

/-- `query_typed_data` on given files: their records of a range of timestamps, by timestamp. -/
def query (names : List FileName) (start endTs : Nat) : List R :=
  ((names.flatMap fun name => (self.files.get? name).getD []).filter fun r =>
    start ≤ tsInit r ∧ tsInit r ≤ endTs).insertionSort fun a b => tsInit a ≤ tsInit b

end Directory

end Nautilus
