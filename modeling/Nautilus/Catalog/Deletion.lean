import Nautilus.Catalog.Contents

/-!
# Deleting a range

`delete_data_range` of `persistence/src/backend/catalog_operations.rs`. Each file that meets the
range is removed, after what it holds before and after the range is written to files of their own.

A part lies inside the file it comes from, so it cannot fall on another name. What was met wrongly,
or not met, shows in `extra`: a file whose name is not read back is never met, and an inverted range
is met by the files around it, which keep the records between its bounds in both parts.
-/

namespace Nautilus

open Lib List Option IndexMap

/-! ## The operations -/

inductive OperationType where
  | splitBefore
  | splitAfter
  | remove
deriving DecidableEq

/-- `catalog_operations.rs`. -/
structure DeleteOperation where
  operationType : OperationType
  files : List FileName
  queryStart : Nat
  queryEnd : Nat
  fileStartNs : Nat
  fileEndNs : Nat

def splitBefore (start : Option Nat) (file : FileName) : List DeleteOperation :=
  match start with
  | some deleteStart =>
    if file.startTs < deleteStart then
      [⟨.splitBefore, [file], file.startTs, deleteStart - 1, file.startTs, deleteStart - 1⟩]
    else []
  | none => []

def splitAfter (endTs : Option Nat) (file : FileName) : List DeleteOperation :=
  match endTs with
  | some deleteEnd =>
    if deleteEnd < file.endTs then
      [⟨.splitAfter, [file], deleteEnd + 1, file.endTs, deleteEnd + 1, file.endTs⟩]
    else []
  | none => []

/-- What `prepare_delete_operations` makes of one file (`catalog_operations.rs:2062`). -/
def deleteOperationsOf (start endTs : Option Nat) (file : FileName) : List DeleteOperation :=
  let intersects := start.all (· ≤ file.endTs) && endTs.all (file.startTs ≤ ·)
  let completelyWithin := start.all (· ≤ file.startTs) && endTs.all (file.endTs ≤ ·)
  if !intersects then []
  else if completelyWithin then [⟨.remove, [file], 0, 0, 0, 0⟩]
  else splitBefore start file ++ splitAfter endTs file

def prepareDeleteOperations (intervals : List FileName) (start endTs : Option Nat) :
    List DeleteOperation :=
  intervals.flatMap (deleteOperationsOf start endTs)

namespace Directory

variable {R : Type} [HasTsInit R]

/-- One turn of the loop of `delete_data_range_generic` (`catalog_operations.rs:1951`). -/
def executeDelete (self : Directory R) (listing : Listing) (operation : DeleteOperation) :
    Directory R × Except CatalogError Unit :=
  match operation.operationType with
  | .remove => (self, .ok ())
  | .splitBefore | .splitAfter =>
    let data := self.query operation.files operation.queryStart operation.queryEnd
    if data.isEmpty then (self, .ok ())
    else self.writeToParquet listing data (some operation.fileStartNs)
      (some operation.fileEndNs) true

/-- The loop, which an error ends. -/
def executeDeletes (self : Directory R) (listing : Listing) :
    List DeleteOperation → Directory R × Except CatalogError Unit
  | [] => (self, .ok ())
  | operation :: operations =>
    match self.executeDelete listing operation with
    | (self, .ok ()) => self.executeDeletes listing operations
    | (self, .error e) => (self, .error e)

/-- `delete_data_range_generic` (`catalog_operations.rs:1918`). -/
def deleteDataRange (self : Directory R) (listing : Listing) (start endTs : Option Nat) :
    Directory R × Except CatalogError Unit :=
  let operations := prepareDeleteOperations (self.getDirectoryIntervals listing) start endTs
  match self.executeDeletes listing operations with
  | (self, .ok ()) =>
    let filesToRemove := operations.flatMap DeleteOperation.files
    (⟨filesToRemove.foldl (fun files name => files.remove name) self.files⟩, .ok ())
  | (self, .error e) => (self, .error e)

/-! ## What is written -/

/-- The file an operation writes: none when it only removes, or finds no data. -/
def written (dir : Directory R) (operation : DeleteOperation) : Option (FileName × List R) :=
  let data := dir.query operation.files operation.queryStart operation.queryEnd
  if operation.operationType = .remove ∨ data = [] then none
  else some (⟨operation.fileStartNs, operation.fileEndNs⟩, data)

variable {dir cur : Directory R} {listing : Listing} {start endTs : Option Nat}
  {operation : DeleteOperation} {name file : FileName}

theorem executeDelete_of_none (h : dir.written operation = none) :
    dir.executeDelete listing operation = (dir, .ok ()) := by
  rw [written] at h
  rw [executeDelete]
  split
  · rfl
  all_goals
    rename_i htype
    rw [htype] at h
    split at h
    · rename_i hdata
      rw [if_pos (isEmpty_iff.mpr (hdata.resolve_left nofun))]
    · nomatch h

theorem executeDelete_of_some {data : List R} (h : dir.written operation = some (name, data))
    (hnew : name ∉ dir.files.keys) :
    dir.executeDelete listing operation = (⟨dir.files.insert name data⟩, .ok ()) := by
  rw [written] at h
  split at h
  · nomatch h
  rename_i hsplits
  obtain ⟨rfl, rfl⟩ := Prod.mk.inj (some.inj h)
  obtain ⟨htype, hdata⟩ := not_or.mp hsplits
  have hwrite := writeToParquet_of_new listing hdata (checkAscendingTimestamps_query _ _ _) hnew
  rw [executeDelete]
  split
  · exact absurd ‹_› htype
  all_goals
    rw [if_neg (mt List.isEmpty_iff.mp hdata)]
    exact hwrite

variable {news : List (FileName × List R)}

/-- An operation reads files that were there before, which the writes leave as they were. -/
theorem written_of_append (hcur : cur.files.entries = dir.files.entries ++ news)
    (hfiles : ∀ file ∈ operation.files, file ∈ dir.files.keys) :
    cur.written operation = dir.written operation := by
  have hquery : cur.query operation.files operation.queryStart operation.queryEnd =
      dir.query operation.files operation.queryStart operation.queryEnd := by
    refine congrArg (fun l => insertionSort _ (filter _ l)) (flatMap_congr fun file hfile => ?_)
    show cur.contents file = dir.contents file
    obtain ⟨records, hget⟩ := mem_keys_iff.mp (hfiles file hfile)
    have hmem : (file, records) ∈ cur.files.entries :=
      hcur ▸ mem_append_left _ (get?_eq_some_iff.mp hget)
    rw [contents_eq hget, contents_eq (get?_eq_some_iff.mpr hmem)]
  rw [written, written, hquery]

/-- The loop appends what the operations write, provided that the names are new and distinct. -/
theorem executeDeletes_entries (hcur : cur.files.entries = dir.files.entries ++ news)
    (operations : List DeleteOperation)
    (hfiles : ∀ operation ∈ operations, ∀ file ∈ operation.files, file ∈ dir.files.keys)
    (hnodup : (cur.files.keys ++ (operations.filterMap dir.written).map Prod.fst).Nodup) :
    ∃ dir', cur.executeDeletes listing operations = (dir', .ok ()) ∧
      dir'.files.entries = cur.files.entries ++ operations.filterMap dir.written := by
  induction operations generalizing cur news with
  | nil => exact ⟨cur, rfl, (append_nil _).symm⟩
  | cons operation operations ih =>
    have hsame := written_of_append hcur (hfiles operation mem_cons_self)
    have hrest := fun op (hop : op ∈ operations) => hfiles op (mem_cons_of_mem _ hop)
    rw [executeDeletes]
    cases hw : dir.written operation with
    | none =>
      rw [filterMap_cons_none hw] at hnodup ⊢
      rw [executeDelete_of_none (hsame.trans hw)]
      exact ih hcur hrest hnodup
    | some file =>
      obtain ⟨name, data⟩ := file
      rw [filterMap_cons_some hw] at hnodup ⊢
      have hnew : name ∉ cur.files.keys := fun hmem =>
        disjoint_of_nodup_append hnodup hmem mem_cons_self
      have hentries : (cur.files.insert name data).entries = cur.files.entries ++ [(name, data)] :=
        entries_insert_of_not_mem data hnew
      rw [executeDelete_of_some (hsame.trans hw) hnew]
      have hcur' : (⟨cur.files.insert name data⟩ : Directory R).files.entries =
          dir.files.entries ++ (news ++ [(name, data)]) := by
        rw [hentries, hcur, append_assoc]
      obtain ⟨dir', heq, hdir'⟩ := ih hcur' hrest (by
        simpa only [IndexMap.keys, hentries, map_append, map_cons, map_nil,
          append_assoc, singleton_append] using hnodup)
      exact ⟨dir', heq, by rw [hdir', hentries, append_assoc, singleton_append]⟩

/-! ## The names of the parts -/

theorem mem_splitBefore : operation ∈ splitBefore start file ↔ ∃ deleteStart,
    start = some deleteStart ∧ file.startTs < deleteStart ∧
      operation = ⟨.splitBefore, [file], file.startTs, deleteStart - 1, file.startTs,
        deleteStart - 1⟩ := by
  cases start with
  | none => simp [splitBefore]
  | some deleteStart => by_cases hlt : file.startTs < deleteStart <;> simp [splitBefore, hlt]

theorem mem_splitAfter : operation ∈ splitAfter endTs file ↔ ∃ deleteEnd,
    endTs = some deleteEnd ∧ deleteEnd < file.endTs ∧
      operation = ⟨.splitAfter, [file], deleteEnd + 1, file.endTs, deleteEnd + 1, file.endTs⟩ := by
  cases endTs with
  | none => simp [splitAfter]
  | some deleteEnd => by_cases hlt : deleteEnd < file.endTs <;> simp [splitAfter, hlt]

theorem splitBefore_eq_nil : splitBefore start file = [] ↔ start.all (· ≤ file.startTs) = true := by
  cases start with
  | none => simp [splitBefore]
  | some deleteStart => simp [splitBefore]

theorem splitAfter_eq_nil : splitAfter endTs file = [] ↔ endTs.all (file.endTs ≤ ·) = true := by
  cases endTs with
  | none => simp [splitAfter]
  | some deleteEnd => simp [splitAfter]

/-- The comparisons take the file to reach into the range. -/
def Intersects (start endTs : Option Nat) (file : FileName) : Prop :=
  start.all (· ≤ file.endTs) = true ∧ endTs.all (file.startTs ≤ ·) = true

instance (start endTs : Option Nat) (file : FileName) : Decidable (Intersects start endTs file) :=
  inferInstanceAs (Decidable (_ ∧ _))

theorem deleteOperationsOf_cases (start endTs : Option Nat) (file : FileName) :
    ¬ Intersects start endTs file ∧ deleteOperationsOf start endTs file = [] ∨
    Intersects start endTs file ∧ splitBefore start file ++ splitAfter endTs file = [] ∧
      deleteOperationsOf start endTs file = [⟨.remove, [file], 0, 0, 0, 0⟩] ∨
    Intersects start endTs file ∧ splitBefore start file ++ splitAfter endTs file ≠ [] ∧
      deleteOperationsOf start endTs file = splitBefore start file ++ splitAfter endTs file := by
  have hwithin : splitBefore start file ++ splitAfter endTs file = [] ↔
      (start.all (· ≤ file.startTs) && endTs.all (file.endTs ≤ ·)) = true := by
    rw [append_eq_nil_iff, splitBefore_eq_nil, splitAfter_eq_nil, Bool.and_eq_true]
  rw [Intersects, ← Bool.and_eq_true]
  unfold deleteOperationsOf
  dsimp only
  split
  · rename_i hnot
    rw [Bool.not_eq_true'] at hnot
    exact .inl ⟨fun hboth => Bool.false_ne_true (hnot.symm.trans hboth), rfl⟩
  · rename_i hmeets
    have hmeets := Bool.not_eq_false _ ▸ (Bool.not_eq_true' _ ▸ hmeets)
    split_ifs with hin
    · exact .inr (.inl ⟨hmeets, hwithin.mpr hin, rfl⟩)
    · exact .inr (.inr ⟨hmeets, mt hwithin.mp hin, rfl⟩)

/-- An operation on a file removes it, or writes a part under the part's interval, which lies inside
the file's and is another one. -/
theorem operation_cases (h : operation ∈ deleteOperationsOf start endTs file) :
    operation.files = [file] ∧ (operation.operationType = .remove ∨
      operation.queryStart = operation.fileStartNs ∧ operation.queryEnd = operation.fileEndNs ∧
      file.startTs ≤ operation.fileStartNs ∧ operation.fileEndNs ≤ file.endTs ∧
      (⟨operation.fileStartNs, operation.fileEndNs⟩ : FileName) ≠ file) := by
  obtain ⟨-, heq⟩ | ⟨-, -, heq⟩ | ⟨hmeets, -, heq⟩ := deleteOperationsOf_cases start endTs file
  · nomatch heq ▸ h
  · rw [heq, mem_singleton] at h
    exact h ▸ ⟨rfl, .inl rfl⟩
  rw [heq, mem_append, mem_splitBefore, mem_splitAfter] at h
  obtain ⟨deleteStart, rfl, hlt, rfl⟩ | ⟨deleteEnd, rfl, hlt, rfl⟩ := h
  · have hle : deleteStart ≤ file.endTs := by simpa using hmeets.1
    refine ⟨rfl, .inr ⟨rfl, rfl, Nat.le_refl _, (Nat.sub_le _ _).trans hle, fun heq => ?_⟩⟩
    have hend : deleteStart - 1 = file.endTs := congrArg FileName.endTs heq
    omega
  · have hle : file.startTs ≤ deleteEnd := by simpa using hmeets.2
    refine ⟨rfl, .inr ⟨rfl, rfl, Nat.le_succ_of_le hle, Nat.le_refl _, fun heq => ?_⟩⟩
    have hstart : deleteEnd + 1 = file.startTs := congrArg FileName.startTs heq
    omega

/-- A part that is written lies inside its file and is another interval. -/
theorem holds_of_written {part : FileName × List R}
    (hop : operation ∈ deleteOperationsOf start endTs file)
    (h : dir.written operation = some part) :
    part.1 ≠ file ∧ (∃ ts, part.1.Holds ts) ∧ ∀ ts, part.1.Holds ts → file.Holds ts := by
  rw [written] at h
  split at h
  · nomatch h
  rename_i hsplits
  obtain ⟨htype, hdata⟩ := not_or.mp hsplits
  obtain ⟨-, hremove | ⟨hstart, hend, hle, hle', hne⟩⟩ := operation_cases hop
  · exact absurd hremove htype
  obtain rfl := some.inj h
  obtain ⟨r, hr⟩ := exists_mem_of_ne_nil _ hdata
  obtain ⟨hge, hle''⟩ := of_decide_eq_true (mem_filter.mp ((query_perm ..).mem_iff.mp hr)).2
  rw [hstart] at hge
  rw [hend] at hle''
  exact ⟨hne, ⟨tsInit r, hge, hle''⟩, fun ts hts => ⟨hle.trans hts.1, hts.2.trans hle'⟩⟩

/-- The two parts of a file start at different timestamps. -/
theorem pairwise_deleteOperationsOf (start endTs : Option Nat) (file : FileName) :
    (deleteOperationsOf start endTs file).Pairwise fun a b => a.fileStartNs ≠ b.fileStartNs := by
  obtain ⟨-, heq⟩ | ⟨-, -, heq⟩ | ⟨hmeets, -, heq⟩ := deleteOperationsOf_cases start endTs file
  · exact heq ▸ .nil
  · exact heq ▸ pairwise_singleton _ _
  rw [heq, pairwise_append]
  refine ⟨?_, ?_, fun a ha b hb => ?_⟩
  · cases start with
    | none => exact .nil
    | some deleteStart => rw [splitBefore]; split <;> simp
  · cases endTs with
    | none => exact .nil
    | some deleteEnd => rw [splitAfter]; split <;> simp
  · obtain ⟨deleteStart, rfl, _, rfl⟩ := mem_splitBefore.mp ha
    obtain ⟨deleteEnd, rfl, _, rfl⟩ := mem_splitAfter.mp hb
    have hle : file.startTs ≤ deleteEnd := by simpa using hmeets.2
    dsimp only
    omega

theorem fst_eq_of_written {part : FileName × List R} (h : dir.written operation = some part) :
    part.1.startTs = operation.fileStartNs := by
  rw [written] at h
  split at h
  · nomatch h
  · rw [← some.inj h]

theorem nodup_parts (dir : Directory R) (start endTs : Option Nat) (file : FileName) :
    (((deleteOperationsOf start endTs file).filterMap dir.written).map Prod.fst).Nodup := by
  refine pairwise_map.mpr (pairwise_filterMap.mpr ?_)
  refine (pairwise_deleteOperationsOf start endTs file).imp fun hne part hpart part' hpart' heq => ?_
  rw [← fst_eq_of_written hpart, ← fst_eq_of_written hpart', heq] at hne
  exact hne rfl

/-- In a tidy directory the parts have new names, no two the same: a part meets its own file, which
is apart from every other. -/
theorem Tidy.nodup_written (h : Tidy dir) (listing : Listing) (start endTs : Option Nat) :
    (dir.files.keys ++ ((prepareDeleteOperations (dir.getDirectoryIntervals listing) start
      endTs).filterMap dir.written).map Prod.fst).Nodup := by
  have hkeys : ∀ file ∈ dir.getDirectoryIntervals listing, file ∈ dir.files.keys :=
    fun file hfile => (mem_getDirectoryIntervals.mp hfile).1
  have hmeets : ∀ file part, part ∈ ((deleteOperationsOf start endTs file).filterMap
      dir.written).map Prod.fst → part ≠ file ∧ (∃ ts, part.Holds ts) ∧
        ∀ ts, part.Holds ts → file.Holds ts := by
    intro file part hpart
    obtain ⟨_, hwritten, rfl⟩ := mem_map.mp hpart
    obtain ⟨_, hop, hw⟩ := mem_filterMap.mp hwritten
    exact holds_of_written hop hw
  have hnodup : (dir.getDirectoryIntervals listing).Nodup := by
    rw [getDirectoryIntervals, sortIntervals, (perm_insertionSort _ _).nodup_iff]
    exact ((listing.perm _).nodup_iff.mpr dir.files.nodup).filter _
  rw [prepareDeleteOperations, filterMap_flatMap, map_flatMap, nodup_append']
  refine ⟨dir.files.nodup, nodup_flatMap.mpr ⟨fun file _ => nodup_parts dir start endTs file,
    ?_⟩, ?_⟩
  · refine hnodup.imp_of_mem fun {a b} ha hb hne part hpart hpart' => ?_
    obtain ⟨-, ⟨ts, hts⟩, ha'⟩ := hmeets a part hpart
    obtain ⟨-, -, hb'⟩ := hmeets b part hpart'
    exact h.apart a (hkeys a ha) b (hkeys b hb) hne ts ⟨ha' ts hts, hb' ts hts⟩
  · intro part hpart hmem
    obtain ⟨file, hfile, hpart'⟩ := mem_flatMap.mp hmem
    obtain ⟨hne, ⟨ts, hts⟩, hinside⟩ := hmeets file part hpart'
    exact h.apart part hpart file (hkeys file hfile) hne ts ⟨hts, hinside ts hts⟩

/-! ## Accounting -/

/-- The timestamp is before the range. -/
def Before (start : Option Nat) (r : R) : Bool := start.any (tsInit r < ·)

/-- The timestamp is after the range. -/
def After (endTs : Option Nat) (r : R) : Bool := endTs.any (· < tsInit r)

/-- The timestamp is outside the range; a bound that is absent excludes nothing. -/
def Outside (start endTs : Option Nat) (r : R) : Bool := Before start r || After endTs r

omit [HasTsInit R] in
theorem mem_filesToRemove :
    name ∈ (prepareDeleteOperations (dir.getDirectoryIntervals listing) start endTs).flatMap
      DeleteOperation.files ↔
    name ∈ dir.files.keys ∧ name.parses = true ∧ Intersects start endTs name := by
  have hseen : name ∈ dir.getDirectoryIntervals listing ↔ _ := mem_getDirectoryIntervals
  rw [← and_assoc, ← hseen]
  simp only [prepareDeleteOperations, mem_flatMap]
  constructor
  · rintro ⟨operation, ⟨file, hfile, hop⟩, hname⟩
    rw [(operation_cases hop).1, mem_singleton] at hname
    obtain ⟨-, heq⟩ | ⟨hmeets, -⟩ | ⟨hmeets, -⟩ := deleteOperationsOf_cases start endTs file
    · nomatch heq ▸ hop
    all_goals exact hname ▸ ⟨hfile, hmeets⟩
  · rintro ⟨hmem, hmeets⟩
    have hne : deleteOperationsOf start endTs name ≠ [] := by
      obtain ⟨hnot, -⟩ | ⟨-, -, heq⟩ | ⟨-, hne, heq⟩ := deleteOperationsOf_cases start endTs name
      · exact absurd hmeets hnot
      · exact heq ▸ cons_ne_nil _ _
      · exact heq ▸ hne
    obtain ⟨operation, hop⟩ := exists_mem_of_ne_nil _ hne
    exact ⟨operation, ⟨name, hmem, hop⟩, by rw [(operation_cases hop).1]; exact mem_singleton_self _⟩

/-- The part that an operation keeps of a file. -/
theorem written_perm {file : FileName} (htype : operation.operationType ≠ .remove)
    (hfiles : operation.files = [file]) :
    (([operation].filterMap dir.written).flatMap Prod.snd).Perm ((dir.contents file).filter
      fun r => During operation.queryStart operation.queryEnd r) := by
  have hperm := query_perm dir operation.files operation.queryStart operation.queryEnd
  rw [hfiles, flatMap_singleton] at hperm
  rw [filterMap_cons, filterMap_nil, written, hfiles]
  split
  · rename_i hnone
    split at hnone
    · rename_i hdata
      rw [hdata.resolve_left htype] at hperm
      exact hperm
    · nomatch hnone
  · rename_i part hsome
    split at hsome
    · nomatch hsome
    · rw [← some.inj hsome, flatMap_singleton]
      exact hperm

/-- What is written of a file that is met: its records before the range, and those after it. -/
theorem Tidy.parts_perm (h : Tidy dir) (hmeets : Intersects start endTs file) :
    (((deleteOperationsOf start endTs file).filterMap dir.written).flatMap Prod.snd).Perm
      ((dir.contents file).filter (Before start) ++ (dir.contents file).filter (After endTs)) := by
  have hbefore : (((splitBefore start file).filterMap dir.written).flatMap Prod.snd).Perm
      ((dir.contents file).filter (Before start)) := by
    cases start with
    | none => simp [splitBefore, Before]
    | some deleteStart =>
      rw [splitBefore]
      split
      · refine (written_perm ?_ rfl).trans (.of_eq (filter_congr fun r hr => ?_))
        · exact nofun
        have hge := (h.holds hr).1
        rw [Before, any_some, decide_eq_decide, During]
        dsimp only
        omega
      · refine .of_eq (filter_eq_nil_iff.mpr fun r hr => ?_).symm
        have hge := (h.holds hr).1
        simp only [Before, any_some, decide_eq_true_iff]
        omega
  have hafter : (((splitAfter endTs file).filterMap dir.written).flatMap Prod.snd).Perm
      ((dir.contents file).filter (After endTs)) := by
    cases endTs with
    | none => simp [splitAfter, After]
    | some deleteEnd =>
      rw [splitAfter]
      split
      · refine (written_perm ?_ rfl).trans (.of_eq (filter_congr fun r hr => ?_))
        · exact nofun
        have hle := (h.holds hr).2
        rw [After, any_some, decide_eq_decide, During]
        dsimp only
        omega
      · refine .of_eq (filter_eq_nil_iff.mpr fun r hr => ?_).symm
        have hle := (h.holds hr).2
        simp only [After, any_some, decide_eq_true_iff]
        omega
  have hboth := hbefore.append hafter
  rw [← flatMap_append, ← filterMap_append] at hboth
  obtain ⟨hnot, -⟩ | ⟨-, hnil, heq⟩ | ⟨-, -, heq⟩ := deleteOperationsOf_cases start endTs file
  · exact absurd hmeets hnot
  · rw [hnil] at hboth
    rw [heq]
    exact hboth
  · rw [heq]
    exact hboth

/-- What the directory holds afterwards of the records of a file. -/
def remains (dir : Directory R) (start endTs : Option Nat) (file : FileName) : List R :=
  if file.parses = true ∧ Intersects start endTs file then
    ((deleteOperationsOf start endTs file).filterMap dir.written).flatMap Prod.snd
  else dir.contents file

/-- The call returns, and each file leaves behind what remains of it. -/
theorem Tidy.readable_deleteDataRange (h : Tidy dir) (listing : Listing) (start endTs : Option Nat) :
    ∃ dir', dir.deleteDataRange listing start endTs = (dir', .ok ()) ∧
      dir'.readable.Perm (dir.files.keys.flatMap (dir.remains start endTs)) := by
  set operations := prepareDeleteOperations (dir.getDirectoryIntervals listing) start endTs
    with hoperations
  have hfiles : ∀ operation ∈ operations, ∀ file ∈ operation.files, file ∈ dir.files.keys :=
    fun operation hop file hfile =>
      (mem_filesToRemove.mp (mem_flatMap.mpr ⟨operation, hop, hfile⟩)).1
  have hnodup := h.nodup_written listing start endTs
  obtain ⟨dir', heq, hentries⟩ : ∃ dir', dir.executeDeletes listing operations = (dir', .ok ()) ∧
      dir'.files.entries = dir.files.entries ++ operations.filterMap dir.written :=
    executeDeletes_entries (append_nil _).symm operations hfiles hnodup
  refine ⟨_, by rw [deleteDataRange, heq], ?_⟩
  rw [readable, values, entries_foldl_remove, hentries, filter_append,
    map_append, flatten_append, ← flatMap_def, ← flatMap_def]
  -- a new name is not among those removed
  have hnews : (operations.filterMap dir.written).filter
      (fun e => e.1 ∉ operations.flatMap DeleteOperation.files) = operations.filterMap dir.written := by
    refine filter_eq_self.mpr fun e he => decide_eq_true fun hremoved => ?_
    exact disjoint_of_nodup_append hnodup (mem_filesToRemove.mp hremoved).1 (mem_map_of_mem he)
  have hkept : (dir.files.entries.filter
      fun e => e.1 ∉ operations.flatMap DeleteOperation.files).flatMap Prod.snd =
      dir.files.keys.flatMap fun file =>
        if file.parses = true ∧ Intersects start endTs file then [] else dir.contents file := by
    rw [flatMap_filter, IndexMap.keys, flatMap_map]
    refine flatMap_congr fun e he => ?_
    have hmem : e.1 ∈ operations.flatMap DeleteOperation.files ↔
        e.1.parses = true ∧ Intersects start endTs e.1 :=
      mem_filesToRemove.trans (and_iff_right (mem_map_of_mem he))
    by_cases hmet : e.1.parses = true ∧ Intersects start endTs e.1
    · rw [if_pos hmet, if_neg (by simpa using hmem.mpr hmet)]
    · rw [if_neg hmet, if_pos (decide_eq_true (mt hmem.mp hmet)), contents_of_mem_entries he]
  have hparts : ((operations.filterMap dir.written).flatMap Prod.snd).Perm
      (dir.files.keys.flatMap fun file =>
        if file.parses = true then
          ((deleteOperationsOf start endTs file).filterMap dir.written).flatMap Prod.snd else []) := by
    rw [hoperations, prepareDeleteOperations, filterMap_flatMap, flatMap_assoc, ← flatMap_filter]
    refine Perm.flatMap_right _ ?_
    exact (perm_insertionSort _ _).trans ((listing.perm _).filter _)
  rw [hnews, hkept]
  refine (hparts.append_left _).trans ((flatMap_append_perm _ _ _).trans ?_)
  refine .of_eq (flatMap_congr fun file _ => ?_)
  rw [remains]
  by_cases hparses : file.parses = true
  · by_cases hmeets : Intersects start endTs file
    · rw [if_pos ⟨hparses, hmeets⟩, if_pos hparses, if_pos ⟨hparses, hmeets⟩, nil_append]
    have hnone : deleteOperationsOf start endTs file = [] := by
      obtain ⟨-, heq⟩ | ⟨hyes, -⟩ | ⟨hyes, -⟩ := deleteOperationsOf_cases start endTs file
      · exact heq
      all_goals exact absurd hyes hmeets
    rw [if_neg (mt And.right hmeets), if_pos hparses, if_neg (mt And.right hmeets), hnone]
    exact append_nil _
  · rw [if_neg (mt And.left hparses), if_neg hparses, if_neg (mt And.left hparses), append_nil]

/-- What remains beyond the records outside the range: all of a file whose name is not read back,
and between the bounds of an inverted range what both parts of a file hold. -/
def extra (dir : Directory R) (start endTs : Option Nat) (file : FileName) : List R :=
  if file.parses = false then (dir.contents file).filter fun r => !Outside start endTs r
  else if Intersects start endTs file then
    (dir.contents file).filter fun r => Before start r && After endTs r
  else []

theorem Tidy.remains_perm (h : Tidy dir) (start endTs : Option Nat) (file : FileName) :
    (dir.remains start endTs file).Perm
      ((dir.contents file).filter (Outside start endTs) ++ dir.extra start endTs file) := by
  rw [remains, extra]
  cases hparses : file.parses with
  | false =>
    exact (filter_append_perm _ _).symm
  | true =>
    rw [if_neg (nofun : ¬ true = false)]
    by_cases hmeets : Intersects start endTs file
    · rw [if_pos ⟨rfl, hmeets⟩, if_pos hmeets]
      have hsum := Multiset.filter_add_filter (fun r => Before start r = true)
        (fun r => After endTs r = true) (dir.contents file : Multiset R)
      simp only [Multiset.filter_coe, Multiset.coe_add, Multiset.coe_eq_coe, Bool.decide_or,
        Bool.decide_and, Bool.decide_eq_true] at hsum
      exact (h.parts_perm hmeets).trans hsum
    · rw [if_neg (fun hboth => hmeets hboth.2), if_neg hmeets, append_nil]
      -- the file ends before the range, or starts after it
      refine .of_eq (filter_eq_self.mpr fun r hr => ?_).symm
      have hholds := h.holds hr
      rw [Intersects, not_and_or] at hmeets
      rw [Outside, Bool.or_eq_true]
      rcases hmeets with hstart | hend
      · cases start with
        | none => exact absurd rfl hstart
        | some deleteStart =>
          have hlt : file.endTs < deleteStart := by simpa using hstart
          exact .inl (decide_eq_true (hholds.2.trans_lt hlt))
      · cases endTs with
        | none => exact absurd rfl hend
        | some deleteEnd =>
          have hlt : deleteEnd < file.startTs := by simpa using hend
          exact .inr (decide_eq_true (hlt.trans_le hholds.1))

/-! ## Exactly the range -/

/-- A file whose name is not read back has no record in the range, and a file that meets an inverted
range has none between its bounds. -/
structure Deletable (dir : Directory R) (start endTs : Option Nat) : Prop where
  seen : ∀ file, file.parses = false → ∀ r ∈ dir.contents file, Outside start endTs r = true
  upright : ∀ file, file.parses = true → Intersects start endTs file →
    ∀ r ∈ dir.contents file, ¬ (Before start r = true ∧ After endTs r = true)

theorem deletable_iff_extra :
    dir.Deletable start endTs ↔ ∀ file, dir.extra start endTs file = [] := by
  constructor
  · intro hdel file
    rw [extra]
    cases hparses : file.parses with
    | false =>
      rw [if_pos rfl, filter_eq_nil_iff]
      exact fun r hr => by simp [hdel.seen file hparses r hr]
    | true =>
      rw [if_neg nofun]
      split_ifs with hmeets
      · rw [filter_eq_nil_iff]
        intro r hr
        rw [Bool.and_eq_true]
        exact hdel.upright file hparses hmeets r hr
      · rfl
  · intro hnil
    refine ⟨fun file hparses r hr => ?_, fun file hparses hmeets r hr => ?_⟩
    · have hfile := hnil file
      rw [extra, if_pos hparses, filter_eq_nil_iff] at hfile
      simpa using hfile r hr
    · have hfile := hnil file
      rw [extra, if_neg (by simp [hparses]), if_pos hmeets, filter_eq_nil_iff] at hfile
      simpa using hfile r hr

theorem perm_append_iff {α : Type} {l extra : List α} : (l ++ extra).Perm l ↔ extra = [] := by
  simpa using @perm_append_left_iff _ extra [] l

/-- **A deletion removes exactly the range from a tidy directory exactly when it is deletable.** -/
theorem deletes_exactly_iff (h : Tidy dir) (listing : Listing) (start endTs : Option Nat) :
    (∃ dir', dir.deleteDataRange listing start endTs = (dir', .ok ()) ∧
      dir'.readable.Perm (dir.readable.filter (Outside start endTs))) ↔
    dir.Deletable start endTs := by
  obtain ⟨dir', heq, hperm⟩ := h.readable_deleteDataRange listing start endTs
  have hremains : dir'.readable.Perm (dir.readable.filter (Outside start endTs) ++
      dir.files.keys.flatMap (dir.extra start endTs)) := by
    refine hperm.trans ((Perm.flatMap_left _ fun file _ =>
      h.remains_perm start endTs file).trans ?_)
    rw [readable_eq, filter_flatMap]
    exact (flatMap_append_perm _ _ _).symm
  have hextra : dir.files.keys.flatMap (dir.extra start endTs) = [] ↔
      ∀ file, dir.extra start endTs file = [] := by
    rw [flatMap_eq_nil_iff]
    refine ⟨fun hall file => ?_, fun hall file _ => hall file⟩
    by_cases hmem : file ∈ dir.files.keys
    · exact hall file hmem
    · -- a file that is not there has no record
      rw [extra, contents, get?_eq_none_iff.mpr hmem]
      simp
  rw [deletable_iff_extra, ← hextra, ← perm_append_iff]
  constructor
  · rintro ⟨dir'', heq', hexact⟩
    obtain rfl : dir' = dir'' := (Prod.mk.inj (heq.symm.trans heq')).1
    exact hremains.symm.trans hexact
  · exact fun hexact => ⟨dir', heq, hremains.trans hexact⟩

open Sample

/-- From five to twenty-four: both files of the sample are split. -/
theorem deletes_exactly_iff_middle :
    ∃ dir', directory.deleteDataRange Sample.listing (some 5) (some 24) = (dir', .ok ()) ∧
      dir'.readable.Perm (directory.readable.filter (Outside (some 5) (some 24))) :=
  (deletes_exactly_iff tidy_sample Sample.listing (some 5) (some 24)).mpr (by
    refine ⟨fun file hparses r hr => ?_, fun file _ _ r _ hboth => ?_⟩
    · have hseen : ∀ other ∈ directory.files.keys, other.parses = true := by decide
      rw [hseen file (mem_keys_of_mem_contents hr)] at hparses
      nomatch hparses
    · have hlt : tsInit r < 5 := by simpa [Before] using hboth.1
      have hgt : 24 < tsInit r := by simpa [After] using hboth.2
      omega)

/-- An inverted range deletes nothing and doubles a record between its bounds. -/
theorem not_deletes_exactly_inverted :
    Tidy directory ∧ ∃ dir',
      directory.deleteDataRange Sample.listing (some 5) (some 3) = (dir', .ok ()) ∧
        directory.readable.filter (Outside (some 5) (some 3)) = [⟨4⟩, ⟨25⟩] ∧
        dir'.readable = [⟨25⟩, ⟨4⟩, ⟨4⟩] :=
  ⟨tidy_sample, _, rfl, by decide, by decide⟩

end Directory

end Nautilus
