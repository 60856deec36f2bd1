import Nautilus.EventStore.Backends

/-!
# The two backends agree

`SameRun` relates a run in memory to a run in a file: the rows are the entries at the places of
their numbers, the tables answer like the maps, and the progress is the same. Every call keeps the
relation and is answered alike (`SameStore.perform`), so whole sequences are (**`answers_agree`**),
as long as no run id is opened twice: a run has a file of its own, and the directory holds only
files of run ids opened before.
-/

namespace Nautilus

open Lib List Option IndexMap RedbBackend StoreCode

variable {indices : Indices} {entries : List EventStoreEntry}
open StoreCode (encodeEntry decode_encodeEntry)

section Agreement

variable [StoreCode]

/-! ## Rows -/

/-- The entries of a run as rows of a table, numbered from `first` on. -/
def rowsFrom : (first : Nat) → List EventStoreEntry → List (Nat × StoreCode.Bytes)
  | _, [] => []
  | first, entry :: entries => (first, encodeEntry entry) :: rowsFrom (first + 1) entries

theorem rowsFrom_append (first : Nat) (entries entries' : List EventStoreEntry) :
    rowsFrom first (entries ++ entries') =
      rowsFrom first entries ++ rowsFrom (first + entries.length) entries' := by
  induction entries generalizing first with
  | nil => rfl
  | cons entry entries ih =>
    rw [cons_append, rowsFrom, ih, rowsFrom, length_cons, cons_append]
    congr 3
    omega

theorem mem_rowsFrom_iff {first : Nat} {row : Nat × Bytes} :
    row ∈ rowsFrom first entries ↔
      ∃ i entry, entries[i]? = some entry ∧ row = (first + i, encodeEntry entry) := by
  induction entries generalizing first with
  | nil => simp [rowsFrom]
  | cons entry entries ih =>
    rw [rowsFrom, mem_cons, ih]
    constructor
    · rintro (rfl | ⟨i, entry', hget, rfl⟩)
      · exact ⟨0, entry, rfl, rfl⟩
      · exact ⟨i + 1, entry', hget, by rw [Nat.add_assoc, Nat.add_comm 1 i]⟩
    rintro ⟨i, entry', hget, rfl⟩
    cases i with
    | zero =>
      cases hget
      exact .inl rfl
    | succ i =>
      exact .inr ⟨i, entry', hget, by rw [Nat.add_assoc, Nat.add_comm 1 i]⟩

theorem filter_rowsFrom_append {lo hi : Nat} (before slice after : List EventStoreEntry)
    (hlo : 1 + before.length = lo) (hhi : lo + slice.length = hi + 1) :
    ((rowsFrom 1 (before ++ (slice ++ after))).filter fun row => lo ≤ row.1 ∧ row.1 ≤ hi) =
      rowsFrom lo slice := by
  rw [rowsFrom_append, rowsFrom_append, hlo, hhi, filter_append, filter_append]
  have houtside : ∀ {first entries}, first + length entries ≤ lo ∨ hi < first →
      ((rowsFrom first entries).filter fun row => lo ≤ row.1 ∧ row.1 ≤ hi) = [] := by
    refine fun hout => filter_eq_nil_iff.mpr fun row hrow => ?_
    obtain ⟨i, entry, hget, rfl⟩ := mem_rowsFrom_iff.mp hrow
    have hi := (List.getElem?_eq_some_iff.mp hget).1
    simp only [decide_eq_true_eq]
    omega
  have hslice : ((rowsFrom lo slice).filter fun row => lo ≤ row.1 ∧ row.1 ≤ hi) =
      rowsFrom lo slice := by
    refine filter_eq_self.mpr fun row hrow => ?_
    obtain ⟨i, entry, hget, rfl⟩ := mem_rowsFrom_iff.mp hrow
    have hi := (List.getElem?_eq_some_iff.mp hget).1
    simp only [decide_eq_true_eq]
    omega
  rw [houtside (.inl hlo.le), hslice, houtside (.inr (Nat.lt_succ_self hi)), nil_append, append_nil]

theorem filter_rowsFrom {lo hi : Nat} (hlo : 1 ≤ lo) (hle : lo ≤ hi) (hhi : hi ≤ entries.length) :
    ((rowsFrom 1 entries).filter fun row => lo ≤ row.1 ∧ row.1 ≤ hi) =
      rowsFrom lo ((entries.take hi).drop (lo - 1)) := by
  have hsplit : (entries.take hi).take (lo - 1) ++
      ((entries.take hi).drop (lo - 1) ++ entries.drop hi) = entries := by
    rw [← append_assoc, take_append_drop, take_append_drop]
  have hbefore : 1 + ((entries.take hi).take (lo - 1)).length = lo := by
    rw [length_take, length_take]
    omega
  have hslice : lo + ((entries.take hi).drop (lo - 1)).length = hi + 1 := by
    rw [length_drop, length_take]
    omega
  have hrows := filter_rowsFrom_append _ _ (entries.drop hi) hbefore hslice
  rw [hsplit] at hrows
  exact hrows

/-- Reading the rows checks the entries in their order. -/
theorem scanRows_rowsFrom (lo : Nat) (slice : List EventStoreEntry)
    (hseq : ∀ i entry, slice[i]? = some entry → entry.seq = lo + i) :
    RunFile.scanRows lo (rowsFrom lo slice) =
      match slice.find? fun entry => !entry.isIntact with
      | some entry => .error (.hashMismatch entry.seq)
      | none => .ok (lo + slice.length, slice) := by
  induction slice generalizing lo with
  | nil => rfl
  | cons entry slice ih =>
    have hhead : entry.seq = lo := hseq 0 entry rfl
    have htail := ih (lo + 1) fun i entry' hget => by
      rw [hseq (i + 1) entry' hget]
      omega
    rw [rowsFrom, RunFile.scanRows, if_neg (not_not.mpr rfl), decode_encodeEntry]
    cases hintact : entry.isIntact with
    | false => simp [hintact, hhead]
    | true =>
      simp only [hintact, Bool.not_true, Bool.false_eq_true, if_false, htail, find?_cons,
        length_cons]
      cases slice.find? fun entry => !entry.isIntact with
      | some bad => rfl
      | none => simp only [Nat.add_assoc, Nat.add_comm 1]

/-! ## Indices -/

omit [StoreCode] in
theorem Indices.mapFor_setFor (indices : Indices) (kind kind' : IndexKind)
    (map : IndexMap String Nat) :
    (indices.setFor kind map).mapFor kind' = if kind' = kind then map else indices.mapFor kind' := by
  cases kind <;> cases kind' <;> rfl

theorem RunFile.tableFor_setTable (file : RunFile) (kind kind' : IndexKind)
    (table : OrdMap (compare : String → String → Ordering) Nat) :
    (file.setTable kind table).tableFor kind' =
      if kind' = kind then table else file.tableFor kind' := by
  cases kind <;> cases kind' <;> rfl

/-- The tables answer like the maps. -/
def SameIndices (indices : Indices) (file : RunFile) : Prop :=
  ∀ kind key, (indices.mapFor kind).get? key = (file.tableFor kind).get? key

theorem SameIndices.orInsert {file : RunFile} (h : SameIndices indices file)
    (seq : Nat) (indexKey : IndexKey) :
    SameIndices (indices.orInsert seq indexKey) (file.insertNew seq indexKey) := by
  intro kind key
  unfold Indices.orInsert RunFile.insertNew
  simp only [containsKey, h indexKey.kind indexKey.key]
  split
  · exact h kind key
  rw [Indices.mapFor_setFor, RunFile.tableFor_setTable]
  split
  · have hkey : compare indexKey.key key = .eq ↔ key = indexKey.key :=
      Std.LawfulEqCmp.compare_eq_iff_eq.trans eq_comm
    rw [get?_insert, OrdMap.get?_insert, h indexKey.kind key]
    simp [hkey]
  · exact h kind key

theorem SameIndices.foldl {file : RunFile} (h : SameIndices indices file)
    (seq : Nat) (indexKeys : List IndexKey) :
    SameIndices (indexKeys.foldl (Indices.orInsert seq) indices)
      (indexKeys.foldl (RunFile.insertNew seq) file) := by
  induction indexKeys generalizing indices file with
  | nil => exact h
  | cons indexKey indexKeys ih => exact ih (h.orInsert seq indexKey)

theorem RunFile.entries_foldl_insertNew (seq : Nat) (indexKeys : List IndexKey) (file : RunFile) :
    (indexKeys.foldl (RunFile.insertNew seq) file).entries = file.entries := by
  induction indexKeys generalizing file with
  | nil => rfl
  | cons indexKey indexKeys ih =>
    rw [foldl_cons, ih]
    unfold RunFile.insertNew
    simp only
    split
    · rfl
    · cases indexKey.kind <;> rfl

/-- Maps and tables with the same answers list the same pairs. -/
theorem SameIndices.perm {file : RunFile} (h : SameIndices indices file)
    (kind : IndexKind) : (indices.mapFor kind).entries.Perm (file.tableFor kind).entries := by
  have hmap : (indices.mapFor kind).entries.Nodup := (indices.mapFor kind).nodup.of_map _
  have htable : (file.tableFor kind).entries.Nodup := by
    refine (file.tableFor kind).sorted.imp ?_
    rintro a b hlt rfl
    have heq : compare a.1 a.1 = .eq := Std.ReflCmp.compare_self
    rw [heq] at hlt
    nomatch hlt
  refine (perm_ext_iff_of_nodup hmap htable).mpr fun pair => ?_
  obtain ⟨key, _⟩ := pair
  rw [← get?_eq_some_iff, h kind key, OrdMap.get?_eq_some_iff]
  constructor
  · rintro ⟨_, hkey, hmem⟩
    rw [← Std.LawfulEqCmp.eq_of_compare hkey]
    exact hmem
  · intro hmem
    exact ⟨key, Std.ReflCmp.compare_self, hmem⟩

/-! ## Runs -/

structure SameRun (run : MemoryRun) (file : RedbRun) : Prop where
  manifest : run.manifest = file.manifest
  highWatermark : run.highWatermark = file.highWatermark
  maxTsInit : run.maxTsInit = file.maxTsInit
  rows : file.db.entries.entries = rowsFrom 1 run.entries
  length : run.entries.length = run.highWatermark
  seq : ∀ i entry, run.entries[i]? = some entry → entry.seq = i + 1
  indices : SameIndices run.indices file.db

/-- What is the same while a batch is being written: in the file the progress comes last. -/
structure SameRows (run : MemoryRun) (db : RunFile) : Prop where
  rows : db.entries.entries = rowsFrom 1 run.entries
  length : run.entries.length = run.highWatermark
  seq : ∀ i entry, run.entries[i]? = some entry → entry.seq = i + 1
  indices : SameIndices run.indices db

theorem SameRows.record {run : MemoryRun} {db : RunFile} (h : SameRows run db)
    {append : AppendEntry} (hseq : append.entry.seq = run.highWatermark + 1) :
    SameRows (run.record append) (db.record append) := by
  have hnext : append.entry.seq = run.entries.length + 1 := by rw [hseq, h.length]
  refine ⟨?_, ?_, ?_, ?_⟩
  · -- the new number is above every number of the table
    have habove : ∀ row ∈ db.entries.entries, compare row.1 append.entry.seq = .lt := by
      intro row hrow
      rw [h.rows] at hrow
      obtain ⟨i, entry, hget, rfl⟩ := mem_rowsFrom_iff.mp hrow
      have hi := (List.getElem?_eq_some_iff.mp hget).1
      rw [Nat.compare_eq_lt]
      omega
    show (append.indexKeys.foldl (RunFile.insertNew append.entry.seq) _).entries.entries = _
    rw [RunFile.entries_foldl_insertNew, OrdMap.entries_insert_of_lt _ habove, h.rows]
    show _ = rowsFrom 1 (run.entries ++ [append.entry])
    rw [rowsFrom_append, hnext, Nat.add_comm]
    rfl
  · show (run.entries ++ [append.entry]).length = append.entry.seq
    rw [length_append, hnext]
    rfl
  · intro i entry hget
    change (run.entries ++ [append.entry])[i]? = some entry at hget
    rw [getElem?_append] at hget
    split at hget
    · exact h.seq i entry hget
    have hi : i = run.entries.length := by
      have hlt := (List.getElem?_eq_some_iff.mp hget).1
      simp at hlt
      omega
    subst hi
    rw [Nat.sub_self] at hget
    cases hget
    exact hnext
  · have hrow : SameIndices run.indices
        { db with
          entries := db.entries.insert append.entry.seq (encodeEntry append.entry) } := by
      intro kind key
      cases kind <;> exact h.indices _ key
    exact hrow.foldl append.entry.seq append.indexKeys

theorem SameRows.foldl {run : MemoryRun} {db : RunFile} (h : SameRows run db)
    {entries : List AppendEntry} (hseq : firstOutOfOrder (run.highWatermark + 1) entries = none) :
    SameRows (entries.foldl MemoryRun.record run) (entries.foldl RunFile.record db) := by
  induction entries generalizing run db with
  | nil => exact h
  | cons append entries ih =>
    unfold firstOutOfOrder at hseq
    split at hseq
    · nomatch hseq
    rename_i hfirst
    refine ih (h.record (not_not.mp hfirst)) ?_
    show firstOutOfOrder (append.entry.seq + 1) entries = none
    rwa [not_not.mp hfirst]

section

variable {run : MemoryRun} {file : RedbRun} {redb : RedbBackend} (hsame : SameRun run file)
  (hstate : redb.state = some file)

include hsame hstate

/-- A batch is taken by both runs or by neither, and what it leaves is the same. -/
theorem SameRun.appendBatch (entries : List AppendEntry) :
    (∃ answer, MemoryBackend.appendBatch ⟨some run⟩ entries = (⟨some run⟩, answer) ∧
      redb.appendBatch entries = (redb, answer) ∧ (entries = [] ∨ ∃ e, answer = .error e)) ∨
    ∃ n, MemoryBackend.appendBatch ⟨some run⟩ entries = (⟨some (run.written entries)⟩, .ok n) ∧
      redb.appendBatch entries = (redb.commit (file.after entries), .ok n) ∧
      SameRun (run.written entries) (file.after entries) := by
  unfold MemoryBackend.appendBatch RedbBackend.appendBatch
  simp only [hstate, hsame.manifest, hsame.highWatermark]
  split
  · exact .inl ⟨_, rfl, rfl, .inr ⟨_, rfl⟩⟩
  split
  · exact .inl ⟨_, rfl, rfl, .inl (isEmpty_iff.mp ‹_›)⟩
  rename_i hempty
  cases hseq : firstOutOfOrder (file.highWatermark + 1) entries with
  | some seq => exact .inl ⟨_, rfl, rfl, .inr ⟨_, rfl⟩⟩
  | none =>
    obtain ⟨hmanifest, hwm, hts⟩ := MemoryRun.foldl_record entries run
    have hrows : SameRows run file.db := ⟨hsame.rows, hsame.length, hsame.seq, hsame.indices⟩
    rw [← hsame.highWatermark] at hseq
    have hfold := hrows.foldl hseq
    simp only [MemoryRun.written, if_neg hempty, RedbRun.after, ← hsame.highWatermark, ← hwm]
    refine .inr ⟨_, rfl, rfl, ?_, rfl, ?_, hfold.rows, hfold.length, hfold.seq, hfold.indices⟩
    · rw [hmanifest, hsame.manifest]
    · rw [hts, hsame.maxTsInit]

theorem SameRun.sealRun (status : RunStatus) :
    (∃ e, MemoryBackend.sealRun ⟨some run⟩ status = (⟨some run⟩, .error e) ∧
      redb.sealRun status = (redb, .error e)) ∨
    status ≠ .running ∧ ∃ run', MemoryBackend.sealRun ⟨some run⟩ status = (⟨some run'⟩, .ok ()) ∧
      redb.sealRun status = (redb.commit (file.sealedAs status), .ok ()) ∧
      run'.entries = run.entries ∧ SameRun run' (file.sealedAs status) := by
  unfold MemoryBackend.sealRun RedbBackend.sealRun
  simp only [hstate, hsame.manifest]
  split
  · exact .inl ⟨_, rfl, rfl⟩
  split
  · exact .inl ⟨_, rfl, rfl⟩
  refine .inr ⟨‹_›, _, rfl, rfl, rfl, ?_⟩
  refine ⟨?_, hsame.highWatermark, hsame.maxTsInit, hsame.rows, hsame.length, hsame.seq, ?_⟩
  · rw [hsame.highWatermark, hsame.maxTsInit]
    rfl
  · intro kind key
    cases kind <;> exact hsame.indices _ key

end

/-! ## Calls -/

/-- Equal answers; the keys of an index may come in another order. -/
inductive SameAnswer : StoreAnswer → StoreAnswer → Prop where
  | same (answer : StoreAnswer) : SameAnswer answer answer
  | keys {pairs pairs' : List (String × Nat)} (h : pairs.Perm pairs') :
      SameAnswer (.keys (.ok pairs)) (.keys (.ok pairs'))

omit [StoreCode] in
theorem SameAnswer.of_eq {answer answer' : StoreAnswer} (h : answer = answer') :
    SameAnswer answer answer' := h ▸ .same answer

/-- The two backends after the run ids in `used` were opened. -/
structure SameStore (used : List String) (memory : MemoryBackend) (redb : RedbBackend) : Prop where
  state : Option.Rel SameRun memory.state redb.state
  files : ∀ path file, redb.files.get? path = some file →
    ∃ instanceId, ∃ runId ∈ used, path = runPath instanceId runId
  open_ : ∀ file, redb.state = some file →
    ∃ instanceId, ∃ runId ∈ used, file.filePath = runPath instanceId runId

def StoreOp.runId : StoreOp → Option String
  | .openRun opened => some opened.runId
  | _ => none

namespace SameStore

variable {used : List String} {memory : MemoryBackend} {redb : RedbBackend}

theorem new : SameStore [] MemoryBackend.new new :=
  ⟨.none, nofun, nofun⟩

section

variable (h : SameStore used memory redb)

include h

theorem mono {used' : List String} (hsub : used ⊆ used') : SameStore used' memory redb := by
  refine ⟨h.state, ?_, ?_⟩
  · intro path file hfile
    obtain ⟨instanceId, runId, hrun, hpath⟩ := h.files path file hfile
    exact ⟨instanceId, runId, hsub hrun, hpath⟩
  · intro file hfile
    obtain ⟨instanceId, runId, hrun, hpath⟩ := h.open_ file hfile
    exact ⟨instanceId, runId, hsub hrun, hpath⟩

/-- Both have no run open, or the same one. -/
theorem cases :
    (memory = ⟨none⟩ ∧ redb.state = none) ∨
      ∃ run file, memory = ⟨some run⟩ ∧ redb.state = some file ∧ SameRun run file := by
  obtain ⟨state⟩ := memory
  have hstate := h.state
  cases hredb : redb.state with
  | none =>
    rw [hredb] at hstate
    cases hstate
    exact .inl ⟨rfl, rfl⟩
  | some file =>
    rw [hredb] at hstate
    cases hstate with
    | some hsame => exact .inr ⟨_, file, rfl, rfl, hsame⟩

/-- The run in the file is changed, and the run in memory with it. -/
theorem commit {run : MemoryRun} {file file' : RedbRun}
    (hfile : redb.state = some file) (hpath : file'.filePath = file.filePath)
    (hsame : SameRun run file') : SameStore used ⟨some run⟩ (redb.commit file') := by
  have hused := h.open_ file hfile
  rw [← hpath] at hused
  refine ⟨.some hsame, ?_, ?_⟩
  · intro path db hdb
    change (redb.files.insert file'.filePath file'.db).get? path = some db at hdb
    rw [get?_insert] at hdb
    split at hdb
    · subst path
      exact hused
    · exact h.files path db hdb
  · rintro _ ⟨⟩
    exact hused

/-- A run id that was not opened before has no file. -/
theorem openRun {manifest : RunManifest} (hnew : manifest.runId ∉ used) :
    (memory.openRun manifest).2 = (redb.openRun manifest).2 ∧
      SameStore (manifest.runId :: used) (memory.openRun manifest).1 (redb.openRun manifest).1 := by
  have hfree : ∀ instanceId runId, runId ∈ used →
      runPath manifest.instanceId manifest.runId ≠
        runPath instanceId runId := by
    intro instanceId runId hrun heq
    exact hnew (runId_of_runPath heq ▸ hrun)
  have hunlocked : (redb.state.any fun run =>
      run.filePath = runPath manifest.instanceId manifest.runId) = false := by
    cases hstate : redb.state with
    | none => rfl
    | some file =>
      obtain ⟨instanceId, runId, hrun, hpath⟩ := h.open_ file hstate
      simp only [any_some, decide_eq_false_iff_not, hpath]
      exact (hfree instanceId runId hrun).symm
  have habsent : redb.files.get? (runPath manifest.instanceId manifest.runId) = none := by
    cases hfile : redb.files.get? (runPath manifest.instanceId manifest.runId) with
    | none => rfl
    | some file =>
      obtain ⟨instanceId, runId, hrun, hpath⟩ := h.files _ file hfile
      exact absurd hpath (hfree instanceId runId hrun)
  have hsealed : (memory.state.any fun run => !run.manifest.isSealed) =
      redb.state.any fun run => !run.manifest.isSealed := by
    obtain ⟨rfl, hstate⟩ | ⟨run, file, rfl, hstate, hsame⟩ := h.cases
    · rw [hstate]
      rfl
    · rw [hstate, any_some, any_some, hsame.manifest]
  unfold MemoryBackend.openRun RedbBackend.openRun
  rw [hsealed]
  split
  · exact ⟨rfl, h.mono (subset_cons_self _ _)⟩
  simp only [hunlocked, habsent, Bool.false_eq_true, if_false]
  refine ⟨trivial, .some ⟨rfl, rfl, rfl, rfl, rfl, by rintro _ _ ⟨⟩, ?_⟩, ?_, ?_⟩
  · intro kind key
    cases kind <;> rfl
  · intro path file hfile
    change (redb.files.insert _ _).get? path = some file at hfile
    rw [get?_insert] at hfile
    split at hfile
    · exact ⟨manifest.instanceId, manifest.runId, mem_cons_self, ‹_›⟩
    · obtain ⟨instanceId, runId, hrun, hpath⟩ := h.files path file hfile
      exact ⟨instanceId, runId, mem_cons_of_mem _ hrun, hpath⟩
  · rintro _ ⟨⟩
    exact ⟨manifest.instanceId, manifest.runId, mem_cons_self, rfl⟩

theorem appendBatch (entries : List AppendEntry) :
    (memory.appendBatch entries).2 = (redb.appendBatch entries).2 ∧
      SameStore used (memory.appendBatch entries).1 (redb.appendBatch entries).1 := by
  obtain ⟨rfl, hstate⟩ | ⟨_, _, rfl, hstate, hsame⟩ := h.cases
  · unfold MemoryBackend.appendBatch appendBatch
    rw [hstate]
    exact ⟨rfl, h⟩
  obtain ⟨_, hmemory, hredb, -⟩ | ⟨n, hmemory, hredb, hrun⟩ := hsame.appendBatch hstate entries
  · rw [hmemory, hredb]
    exact ⟨rfl, h⟩
  · rw [hmemory, hredb]
    exact ⟨rfl, h.commit hstate rfl hrun⟩

theorem sealRun (status : RunStatus) :
    (memory.sealRun status).2 = (redb.sealRun status).2 ∧
      SameStore used (memory.sealRun status).1 (redb.sealRun status).1 := by
  obtain ⟨rfl, hstate⟩ | ⟨_, _, rfl, hstate, hsame⟩ := h.cases
  · unfold MemoryBackend.sealRun sealRun
    rw [hstate]
    exact ⟨rfl, h⟩
  · obtain ⟨e, hmemory, hredb⟩ | ⟨-, _, hmemory, hredb, -, hrun⟩ := hsame.sealRun hstate status
    · rw [hmemory, hredb]
      exact ⟨rfl, h⟩
    · rw [hmemory, hredb]
      exact ⟨rfl, h.commit hstate rfl hrun⟩

theorem scanRange (lo hi : Nat) (direction : ScanDirection) :
    memory.scanRange lo hi direction = redb.scanRange lo hi direction := by
  unfold MemoryBackend.scanRange RedbBackend.scanRange
  obtain ⟨rfl, hstate⟩ | ⟨run, file, rfl, hstate, hsame⟩ := h.cases
  · rw [hstate]
  have hlength : run.entries.length = file.highWatermark := hsame.length.trans hsame.highWatermark
  have hempty : run.entries.isEmpty = true ↔ file.highWatermark = 0 := by
    rw [isEmpty_iff_length_eq_zero, hlength]
  simp only [hstate, hempty, hlength]
  split
  · rfl
  rename_i hguard
  simp only [not_or, not_lt] at hguard
  obtain ⟨_, hlo, _⟩ := hguard
  by_cases hout : lo > min hi file.highWatermark
  · rw [if_pos hout, if_pos (by omega)]
  -- the rows of the range are the slice, so they are numbered as expected
  have hlast : min hi file.highWatermark ≤ run.entries.length := by
    rw [hlength]
    exact Nat.min_le_right hi _
  have hrows := filter_rowsFrom (Nat.pos_of_ne_zero hlo) (not_lt.mp hout) hlast
  have hseq : ∀ i entry, ((run.entries.take (min hi file.highWatermark)).drop
      (lo - 1))[i]? = some entry → entry.seq = lo + i := by
    intro i entry hget
    rw [getElem?_drop, getElem?_take] at hget
    split at hget
    · rw [hsame.seq _ entry hget]
      omega
    · nomatch hget
  have hslice : ((run.entries.take (min hi file.highWatermark)).drop (lo - 1)).length =
      min hi file.highWatermark + 1 - lo := by
    rw [length_drop, length_take, hlength]
    omega
  rw [if_neg hout, if_neg (by omega), hsame.rows, hrows, scanRows_rowsFrom lo _ hseq, hslice]
  cases ((run.entries.take (min hi file.highWatermark)).drop (lo - 1)).find?
      fun entry => !entry.isIntact with
  | some entry => rfl
  | none =>
    have hend : ¬ lo + (min hi file.highWatermark + 1 - lo) ≤ min hi file.highWatermark := by
      generalize min hi file.highWatermark = last at hout ⊢
      omega
    simp only
    rw [if_neg hend]

theorem scanSeq (seq : Nat) : memory.scanSeq seq = some (redb.scanSeq seq) := by
  unfold MemoryBackend.scanSeq RedbBackend.scanSeq
  obtain ⟨rfl, hstate⟩ | ⟨run, file, rfl, hstate, hsame⟩ := h.cases
  · rw [hstate]
  simp only [hstate, hsame.highWatermark]
  split
  · rfl
  rename_i hguard
  simp only [not_or, not_lt] at hguard
  have hlt : seq - 1 < run.entries.length := by
    rw [hsame.length, hsame.highWatermark]
    omega
  have hget : run.entries[seq - 1]? = some run.entries[seq - 1] := getElem?_eq_getElem hlt
  have hrow : file.db.entries.get? seq = some (encodeEntry run.entries[seq - 1]) := by
    refine OrdMap.get?_of_mem ?_
    rw [hsame.rows]
    refine mem_rowsFrom_iff.mpr ⟨seq - 1, _, hget, ?_⟩
    rw [Nat.add_sub_cancel' (Nat.pos_of_ne_zero hguard.1)]
  rw [hget, hrow, map_some]
  simp [decode_encodeEntry]

/-- **Every call is answered alike** and leaves the two backends alike. -/
theorem perform (op : StoreOp) (hnew : ∀ runId, op.runId = some runId → runId ∉ used) :
    ∃ memory' redb' answer answer', memory.perform op = some (memory', answer) ∧
      redb.perform op = some (redb', answer') ∧ SameAnswer answer answer' ∧
      SameStore (op.runId.toList ++ used) memory' redb' := by
  cases op with
  | openRun manifest =>
    obtain ⟨hanswer, hsame⟩ := h.openRun (hnew manifest.runId rfl)
    exact ⟨_, _, _, _, rfl, rfl, .of_eq (congrArg StoreAnswer.done hanswer), hsame⟩
  | appendBatch entries =>
    obtain ⟨hanswer, hsame⟩ := h.appendBatch entries
    exact ⟨_, _, _, _, rfl, rfl, .of_eq (congrArg StoreAnswer.number hanswer), hsame⟩
  | scanRange lo hi direction =>
    exact ⟨_, _, _, _, rfl, rfl, .of_eq (congrArg _ (h.scanRange lo hi direction)), h⟩
  | scanSeq seq =>
    refine ⟨memory, redb, _, _, ?_, rfl, .same _, h⟩
    show (memory.scanSeq seq).map _ = _
    rw [h.scanSeq seq]
    rfl
  | lookup kind key =>
    refine ⟨_, _, _, _, rfl, rfl, .of_eq ?_, h⟩
    unfold MemoryBackend.lookup RedbBackend.lookup
    obtain ⟨rfl, hstate⟩ | ⟨run, file, rfl, hstate, hsame⟩ := h.cases
    · rw [hstate]
    · simp [hstate, hsame.indices kind key]
  | iterIndexKeys kind =>
    refine ⟨_, _, _, _, rfl, rfl, ?_, h⟩
    unfold MemoryBackend.iterIndexKeys iterIndexKeys
    obtain ⟨rfl, hstate⟩ | ⟨run, file, rfl, hstate, hsame⟩ := h.cases
    · rw [hstate]
      exact .same _
    · rw [hstate]
      exact .keys (hsame.indices.perm kind)
  | sealRun status =>
    obtain ⟨hanswer, hsame⟩ := h.sealRun status
    exact ⟨_, _, _, _, rfl, rfl, .of_eq (congrArg StoreAnswer.done hanswer), hsame⟩
  | manifest =>
    refine ⟨_, _, _, _, rfl, rfl, .of_eq ?_, h⟩
    unfold MemoryBackend.manifest manifest
    obtain ⟨rfl, hstate⟩ | ⟨run, file, rfl, hstate, hsame⟩ := h.cases
    · rw [hstate]
    · simp [hstate, hsame.manifest]
  | highWatermark =>
    refine ⟨_, _, _, _, rfl, rfl, .of_eq ?_, h⟩
    unfold MemoryBackend.highWatermark highWatermark
    obtain ⟨rfl, hstate⟩ | ⟨run, file, rfl, hstate, hsame⟩ := h.cases
    · rw [hstate]
    · simp [hstate, hsame.highWatermark]

/-- So is every sequence of calls that opens no run id again. -/
theorem answersTo {ops : List StoreOp} (hnodup : (ops.filterMap StoreOp.runId).Nodup)
    (hnew : ∀ runId ∈ ops.filterMap StoreOp.runId, runId ∉ used) :
    ∃ answers answers', Nautilus.answersTo MemoryBackend.perform memory ops = some answers ∧
      Nautilus.answersTo RedbBackend.perform redb ops = some answers' ∧
      Forall₂ SameAnswer answers answers' := by
  induction ops generalizing used memory redb with
  | nil => exact ⟨[], [], rfl, rfl, .nil⟩
  | cons op ops ih =>
    have hfresh : ∀ runId, op.runId = some runId → runId ∉ used := by
      intro runId hrun
      exact hnew runId (mem_filterMap.mpr ⟨op, mem_cons_self, hrun⟩)
    obtain ⟨memory', redb', answer, answer', hmemory, hredb, hsame, hstore⟩ := h.perform op hfresh
    have hrest : ∀ runId ∈ ops.filterMap StoreOp.runId, runId ∉ op.runId.toList ++ used := by
      intro runId hrun hmem
      rcases mem_append.mp hmem with hmem | hmem
      · rw [mem_toList] at hmem
        rw [filterMap_cons_some hmem] at hnodup
        exact (nodup_cons.mp hnodup).1 hrun
      · obtain ⟨op', hop', hrun'⟩ := mem_filterMap.mp hrun
        exact hnew runId (mem_filterMap.mpr ⟨op', mem_cons_of_mem _ hop', hrun'⟩) hmem
    have hnodup' : (ops.filterMap StoreOp.runId).Nodup :=
      hnodup.sublist ((sublist_cons_self op ops).filterMap _)
    obtain ⟨answers, answers', hanswers, hanswers', hall⟩ := ih hstore hnodup' hrest
    refine ⟨answer :: answers, answer' :: answers', ?_, ?_, .cons hsame hall⟩
    · rw [Nautilus.answersTo, hmemory]
      show (Nautilus.answersTo MemoryBackend.perform memory' ops).bind _ = _
      rw [hanswers]
      rfl
    · rw [Nautilus.answersTo, hredb]
      show (Nautilus.answersTo RedbBackend.perform redb' ops).bind _ = _
      rw [hanswers']
      rfl

end

end SameStore

/-- **Over every sequence of calls with pairwise distinct run ids the two backends give the same
answers**, details of errors included; neither panics. -/
theorem answers_agree (ops : List StoreOp) (hnodup : (ops.filterMap StoreOp.runId).Nodup) :
    ∃ answers answers', answersTo MemoryBackend.perform .new ops = some answers ∧
      answersTo RedbBackend.perform .new ops = some answers' ∧
      List.Forall₂ SameAnswer answers answers' :=
  SameStore.new.answersTo hnodup fun _ _ => not_mem_nil

end Agreement

section Instances

attribute [local instance] StoreCode.plain

/-- A run that is filled, refuses a batch out of order, is sealed, and is followed by another. -/
def Sample.storeOps : List StoreOp :=
  let manifest : RunManifest := ⟨"1-a", "trader", 1, none, 0, .running⟩
  let entry : Nat → AppendEntry := fun seq =>
    ⟨⟨Vector.replicate 32 0, seq, ⟨none, none, none⟩, "topic", "type", [], 5, 6⟩,
      [⟨.clientOrderId, "O-1"⟩]⟩
  [.openRun manifest, .appendBatch [entry 1, entry 2], .appendBatch [entry 4],
    .lookup .clientOrderId "O-1", .scanRange 1 9 .reverse, .openRun { manifest with runId := "1-b" },
    .sealRun .ended, .manifest, .openRun { manifest with runId := "2-a" }, .highWatermark]

open Sample

theorem answers_agree_refused :
    (storeOps.filterMap StoreOp.runId).Nodup ∧
      ∃ answers answers', answersTo MemoryBackend.perform .new storeOps = some answers ∧
        answersTo RedbBackend.perform .new storeOps = some answers' ∧
        List.Forall₂ SameAnswer answers answers' :=
  ⟨by decide, answers_agree storeOps (by decide)⟩

end Instances

end Nautilus
