import Nautilus.EventStore.Entry
import Nautilus.Lib.IndexMap
import Nautilus.Lib.OrdMap

/-!
# The two backends

`MemoryBackend` (`backend/memory.rs`) keeps a run in a vector whose place gives the sequence number.
`RedbBackend` (`backend/redb.rs`) keeps it in a file of ordered tables, which do not fail, writes a
batch in one transaction, and counts its progress beside the file.

`StoreOp` lists the calls of the trait `EventStore`, and `perform` makes one: the backend afterwards
and the answer, `none` if it panics.
-/

namespace Nautilus

open Lib StoreCode

/-- "no run open" -/
def noRunOpen : EventStoreError := .backend "no run open"

/-- The refusal of `seal`. -/
def notTerminal : EventStoreError :=
  .backend "seal status must be a terminal state, was Running"

/-- What `open_run` records of the manifest it is given. -/
def RunManifest.opened (manifest : RunManifest) : RunManifest :=
  { manifest with status := .running, endTsInit := none, highWatermark := 0 }

/-- What `seal` records; the end of an empty run stays as it was. -/
def RunManifest.sealedAs (manifest : RunManifest) (status : RunStatus) (highWatermark : Nat)
    (maxTsInit : UnixNanos) : RunManifest :=
  { manifest with
    status
    highWatermark
    endTsInit := if highWatermark > 0 then some maxTsInit else manifest.endTsInit }

/-- `if ts_init > max { max = ts_init }`. -/
def laterTs (maxTsInit tsInit : UnixNanos) : UnixNanos :=
  if tsInit > maxTsInit then tsInit else maxTsInit

/-! ## The backend in memory -/

structure Indices where
  intent : IndexMap String Nat
  clientOrder : IndexMap String Nat
  venueOrder : IndexMap String Nat

namespace Indices

def empty : Indices := ⟨.empty, .empty, .empty⟩

def mapFor (indices : Indices) : IndexKind → IndexMap String Nat
  | .intentId => indices.intent
  | .clientOrderId => indices.clientOrder
  | .venueOrderId => indices.venueOrder

/-- The same map written. -/
def setFor (indices : Indices) (kind : IndexKind) (map : IndexMap String Nat) : Indices :=
  match kind with
  | .intentId => { indices with intent := map }
  | .clientOrderId => { indices with clientOrder := map }
  | .venueOrderId => { indices with venueOrder := map }

def orInsert (seq : Nat) (indices : Indices) (indexKey : IndexKey) : Indices :=
  let map := indices.mapFor indexKey.kind
  if map.containsKey indexKey.key then indices
  else indices.setFor indexKey.kind (map.insert indexKey.key seq)

end Indices

/-- `RunState` of `memory.rs:47`. -/
structure MemoryRun where
  manifest : RunManifest
  entries : List EventStoreEntry
  indices : Indices
  highWatermark : Nat
  maxTsInit : UnixNanos

/-- One entry of a batch (`memory.rs:147-161`). -/
def MemoryRun.record (run : MemoryRun) (append : AppendEntry) : MemoryRun :=
  { run with
    indices := append.indexKeys.foldl (Indices.orInsert append.entry.seq) run.indices
    maxTsInit := laterTs run.maxTsInit append.entry.tsInit
    highWatermark := append.entry.seq
    entries := run.entries ++ [append.entry] }

/-- A run after a batch; an empty batch is none. -/
def MemoryRun.written (run : MemoryRun) (entries : List AppendEntry) : MemoryRun :=
  if entries.isEmpty then run
  else
    let run := entries.foldl record run
    { run with manifest := { run.manifest with highWatermark := run.highWatermark } }

/-- The progress counted along the way is the progress counted afterwards. -/
theorem MemoryRun.foldl_record (entries : List AppendEntry) (run : MemoryRun) :
    (entries.foldl MemoryRun.record run).manifest = run.manifest ∧
      (entries.foldl MemoryRun.record run).highWatermark =
        entries.foldl (fun _ append => append.entry.seq) run.highWatermark ∧
      (entries.foldl MemoryRun.record run).maxTsInit =
        entries.foldl (fun ts append => laterTs ts append.entry.tsInit) run.maxTsInit := by
  induction entries generalizing run with
  | nil => exact ⟨rfl, rfl, rfl⟩
  | cons append entries ih => exact ih (run.record append)

structure MemoryBackend where
  state : Option MemoryRun

namespace MemoryBackend

def new : MemoryBackend := ⟨none⟩

variable (self : MemoryBackend)

def openRun (manifest : RunManifest) : MemoryBackend × Except EventStoreError Unit :=
  if self.state.any fun run => !run.manifest.isSealed then (self, .error .crashedPredecessor)
  else (⟨some ⟨manifest.opened, [], .empty, 0, 0⟩⟩, .ok ())

def appendBatch (entries : List AppendEntry) : MemoryBackend × Except EventStoreError Nat :=
  match self.state with
  | none => (self, .error noRunOpen)
  | some run =>
    if run.manifest.isSealed then (self, .error .closed)
    else if entries.isEmpty then (self, .ok run.highWatermark)
    else
      match firstOutOfOrder (run.highWatermark + 1) entries with
      | some seq => (self, .error (.outOfOrder run.highWatermark seq))
      | none =>
        let run := entries.foldl MemoryRun.record run
        let manifest := { run.manifest with highWatermark := run.highWatermark }
        (⟨some { run with manifest }⟩, .ok run.highWatermark)

/-- `seal` (`memory.rs:228`). -/
def sealRun (status : RunStatus) : MemoryBackend × Except EventStoreError Unit :=
  match self.state with
  | none => (self, .error noRunOpen)
  | some run =>
    if status = .running then (self, .error notTerminal)
    else if run.manifest.isSealed then (self, .error .closed)
    else
      (⟨some
          { run with
            manifest := run.manifest.sealedAs status run.highWatermark run.maxTsInit }⟩, .ok ())

def lookup (kind : IndexKind) (key : String) : Except EventStoreError (Option Nat) :=
  match self.state with
  | none => .error noRunOpen
  | some run => .ok ((run.indices.mapFor kind).get? key)

def iterIndexKeys (kind : IndexKind) : Except EventStoreError (List (String × Nat)) :=
  match self.state with
  | none => .error noRunOpen
  | some run => .ok (run.indices.mapFor kind).entries

def manifest : Except EventStoreError RunManifest :=
  match self.state with
  | none => .error noRunOpen
  | some run => .ok run.manifest

def highWatermark : Except EventStoreError Nat :=
  match self.state with
  | none => .error noRunOpen
  | some run => .ok run.highWatermark

variable [StoreCode]

/-- `memory.rs:165`: the whole slice is checked before any of it is returned. -/
def scanRange (lo hi : Nat) (direction : ScanDirection) :
    Except EventStoreError (List EventStoreEntry) :=
  match self.state with
  | none => .error noRunOpen
  | some run =>
    if lo > hi ∨ lo = 0 ∨ run.entries.isEmpty then .ok []
    else if lo - 1 ≥ min hi run.entries.length then .ok []
    else
      let slice := (run.entries.take (min hi run.entries.length)).drop (lo - 1)
      match slice.find? fun entry => !entry.isIntact with
      | some entry => .error (.hashMismatch entry.seq)
      | none => .ok (if direction = .reverse then slice.reverse else slice)

/-- `memory.rs:195`; the index may be out of bounds. -/
def scanSeq (seq : Nat) : Option (Except EventStoreError (Option EventStoreEntry)) :=
  match self.state with
  | none => some (.error noRunOpen)
  | some run =>
    if seq = 0 ∨ seq > run.highWatermark then some (.ok none)
    else
      run.entries[seq - 1]?.map fun entry =>
        if !entry.isIntact then .error (.hashMismatch seq) else .ok (some entry)

end MemoryBackend

/-! ## The backend in files -/

/-- The tables of a run file. -/
structure RunFile [StoreCode] where
  entries : OrdMap (compare : Nat → Nat → Ordering) StoreCode.Bytes
  manifest : Option StoreCode.Bytes
  intent : OrdMap (compare : String → String → Ordering) Nat
  clientOrder : OrdMap (compare : String → String → Ordering) Nat
  venueOrder : OrdMap (compare : String → String → Ordering) Nat

namespace RunFile

variable [StoreCode]

/-- A file that was just created. -/
def empty : RunFile := ⟨.empty, none, .empty, .empty, .empty⟩

variable (file : RunFile)

def tableFor : IndexKind → OrdMap (compare : String → String → Ordering) Nat
  | .intentId => file.intent
  | .clientOrderId => file.clientOrder
  | .venueOrderId => file.venueOrder

/-- The same table written. -/
def setTable (kind : IndexKind)
    (table : OrdMap (compare : String → String → Ordering) Nat) : RunFile :=
  match kind with
  | .intentId => { file with intent := table }
  | .clientOrderId => { file with clientOrder := table }
  | .venueOrderId => { file with venueOrder := table }

/-- An index key of an entry: only the first occurrence is written. -/
def insertNew (seq : Nat) (file : RunFile) (indexKey : IndexKey) : RunFile :=
  let table := file.tableFor indexKey.kind
  if (table.get? indexKey.key).isSome then file
  else file.setTable indexKey.kind (table.insert indexKey.key seq)

/-- One entry of a transaction. -/
def record (append : AppendEntry) : RunFile :=
  append.indexKeys.foldl (insertNew append.entry.seq)
    { file with
      entries := file.entries.insert append.entry.seq (StoreCode.encodeEntry append.entry) }

def readManifest : Except EventStoreError (Option RunManifest) :=
  match file.manifest with
  | none => .ok none
  | some bytes =>
    match StoreCode.decodeManifest bytes with
    | .ok manifest => .ok (some manifest)
    | .error e => .error (.corrupted ("decode manifest: " ++ e))

/-- The loop of `compute_progress`. -/
def maxTs : UnixNanos → List (Nat × StoreCode.Bytes) → Except EventStoreError UnixNanos
  | maxTsInit, [] => .ok maxTsInit
  | maxTsInit, (_, bytes) :: rows =>
    match StoreCode.decodeEntry bytes with
    | .ok entry => maxTs (laterTs maxTsInit entry.tsInit) rows
    | .error e => .error (.corrupted ("decode entry on load: " ++ e))

def computeProgress : Except EventStoreError (Nat × UnixNanos) :=
  match file.entries.entries.getLast? with
  | none => .ok (0, 0)
  | some (highWatermark, _) =>
    match maxTs 0 file.entries.entries with
    | .ok maxTsInit => .ok (highWatermark, maxTsInit)
    | .error e => .error e

/-- The loop of `scan_range`: the next number expected, and the entries. -/
def scanRows : (expected : Nat) → List (Nat × StoreCode.Bytes) →
    Except EventStoreError (Nat × List EventStoreEntry)
  | expected, [] => .ok (expected, [])
  | expected, (seq, bytes) :: rows =>
    if seq ≠ expected then .error (.gap (expected - 1) seq expected)
    else
      match StoreCode.decodeEntry bytes with
      | .error e => .error (.corrupted ("decode entry seq=" ++ toString seq ++ ": " ++ e))
      | .ok entry =>
        if !entry.isIntact then .error (.hashMismatch seq)
        else
          match scanRows (seq + 1) rows with
          | .ok (next, entries) => .ok (next, entry :: entries)
          | .error e => .error e

end RunFile

/-- The path of a run file below the base directory, by its components: ids hold no separator. -/
structure RunPath where
  dir : String
  file : String
deriving DecidableEq

def RunPath.display (path : RunPath) : String := path.dir ++ "/" ++ path.file

def runPath (instanceId runId : String) : RunPath := ⟨instanceId, runId ++ ".redb"⟩

theorem runId_of_runPath {instanceId runId instanceId' runId' : String}
    (h : runPath instanceId runId = runPath instanceId' runId') : runId = runId' :=
  String.append_left_inj _ |>.mp (RunPath.mk.inj h).2

/-- `RunState`: the open file, and the progress kept beside it. -/
structure RedbRun [StoreCode] where
  db : RunFile
  manifest : RunManifest
  highWatermark : Nat
  maxTsInit : UnixNanos
  filePath : RunPath

section

variable [StoreCode]

def RedbRun.after (file : RedbRun) (entries : List AppendEntry) : RedbRun :=
  let highWatermark := entries.foldl (fun _ append => append.entry.seq) file.highWatermark
  { file with
    db := entries.foldl RunFile.record file.db
    maxTsInit := entries.foldl (fun ts append => laterTs ts append.entry.tsInit) file.maxTsInit
    highWatermark
    manifest := { file.manifest with highWatermark } }

def RedbRun.sealedAs (file : RedbRun) (status : RunStatus) : RedbRun :=
  let manifest := file.manifest.sealedAs status file.highWatermark file.maxTsInit
  { file with
    db := { file.db with manifest := some (StoreCode.encodeManifest manifest) }
    manifest }

end

/-- `RedbBackend` with the files of its base directory. -/
structure RedbBackend [StoreCode] where
  files : IndexMap RunPath RunFile
  state : Option RedbRun

namespace RedbBackend

variable [StoreCode]

/-- `new` on an empty directory. -/
def new : RedbBackend := ⟨.empty, none⟩

variable (self : RedbBackend)

/-- The open run after a transaction, which its file holds too. -/
def commit (run : RedbRun) : RedbBackend :=
  { files := self.files.insert run.filePath run.db, state := some run }

/-- An existing file: a run that was not sealed is taken over, and reported. -/
def recover (path : RunPath) (file : RunFile) : RedbBackend × Except EventStoreError Unit :=
  match file.readManifest with
  | .error e => (self, .error e)
  | .ok none =>
    (self, .error (.corrupted ("missing manifest in existing run file at " ++ path.display)))
  | .ok (some onDisk) =>
    if onDisk.status ≠ .running then
      (self, .error (.backend
        ("run file at " ++ path.display ++ " already sealed, status was " ++ onDisk.status.debug)))
    else
      match file.computeProgress with
      | .error e => (self, .error e)
      | .ok (highWatermark, maxTsInit) =>
        ({ self with
            state := some ⟨file, { onDisk with highWatermark }, highWatermark, maxTsInit, path⟩ },
          .error .crashedPredecessor)

/-- A file that is open cannot be opened again. -/
def openRun (manifest : RunManifest) : RedbBackend × Except EventStoreError Unit :=
  if self.state.any fun run => !run.manifest.isSealed then (self, .error .crashedPredecessor)
  else
    let path := runPath manifest.instanceId manifest.runId
    if self.state.any fun run => run.filePath = path then
      (self, .error (.backend StoreCode.lockMessage))
    else
      match self.files.get? path with
      | some file => self.recover path file
      | none =>
        let db := { RunFile.empty with manifest := some (StoreCode.encodeManifest manifest.opened) }
        (self.commit ⟨db, manifest.opened, 0, 0, path⟩, .ok ())

/-- The transaction, then the progress. -/
def appendBatch (entries : List AppendEntry) : RedbBackend × Except EventStoreError Nat :=
  match self.state with
  | none => (self, .error noRunOpen)
  | some run =>
    if run.manifest.isSealed then (self, .error .closed)
    else if entries.isEmpty then (self, .ok run.highWatermark)
    else
      match firstOutOfOrder (run.highWatermark + 1) entries with
      | some seq => (self, .error (.outOfOrder run.highWatermark seq))
      | none =>
        let db := entries.foldl RunFile.record run.db
        let maxTsInit := entries.foldl (fun ts append => laterTs ts append.entry.tsInit) run.maxTsInit
        let highWatermark := entries.foldl (fun _ append => append.entry.seq) run.highWatermark
        (self.commit
          { run with
            db, maxTsInit, highWatermark
            manifest := { run.manifest with highWatermark } }, .ok highWatermark)

def scanRange (lo hi : Nat) (direction : ScanDirection) :
    Except EventStoreError (List EventStoreEntry) :=
  match self.state with
  | none => .error noRunOpen
  | some run =>
    if lo > hi ∨ lo = 0 ∨ run.highWatermark = 0 then .ok []
    else if lo > min hi run.highWatermark then .ok []
    else
      let hi := min hi run.highWatermark
      match RunFile.scanRows lo (run.db.entries.entries.filter fun row => lo ≤ row.1 ∧ row.1 ≤ hi) with
      | .error e => .error e
      | .ok (expected, out) =>
        if expected ≤ hi then .error (.gap (expected - 1) (hi + 1) expected)
        else .ok (if direction = .reverse then out.reverse else out)

def scanSeq (seq : Nat) : Except EventStoreError (Option EventStoreEntry) :=
  match self.state with
  | none => .error noRunOpen
  | some run =>
    if seq = 0 ∨ seq > run.highWatermark then .ok none
    else
      match run.db.entries.get? seq with
      | none => .error (.gap (seq - 1) (seq + 1) seq)
      | some bytes =>
        match StoreCode.decodeEntry bytes with
        | .error e => .error (.corrupted ("decode entry seq=" ++ toString seq ++ ": " ++ e))
        | .ok entry => if !entry.isIntact then .error (.hashMismatch seq) else .ok (some entry)

def lookup (kind : IndexKind) (key : String) : Except EventStoreError (Option Nat) :=
  match self.state with
  | none => .error noRunOpen
  | some run => .ok ((run.db.tableFor kind).get? key)

def iterIndexKeys (kind : IndexKind) : Except EventStoreError (List (String × Nat)) :=
  match self.state with
  | none => .error noRunOpen
  | some run => .ok (run.db.tableFor kind).entries

/-- `seal`. -/
def sealRun (status : RunStatus) : RedbBackend × Except EventStoreError Unit :=
  match self.state with
  | none => (self, .error noRunOpen)
  | some run =>
    if status = .running then (self, .error notTerminal)
    else if run.manifest.isSealed then (self, .error .closed)
    else
      let updated := run.manifest.sealedAs status run.highWatermark run.maxTsInit
      let db := { run.db with manifest := some (StoreCode.encodeManifest updated) }
      (self.commit { run with db, manifest := updated }, .ok ())

def manifest : Except EventStoreError RunManifest :=
  match self.state with
  | none => .error noRunOpen
  | some run => .ok run.manifest

def highWatermark : Except EventStoreError Nat :=
  match self.state with
  | none => .error noRunOpen
  | some run => .ok run.highWatermark

end RedbBackend

/-! ## Calls and answers -/

/-- The calls of the trait `EventStore` (`backend/mod.rs:131`). -/
inductive StoreOp where
  | openRun (manifest : RunManifest)
  | appendBatch (entries : List AppendEntry)
  | scanRange (lo hi : Nat) (direction : ScanDirection)
  | scanSeq (seq : Nat)
  | lookup (kind : IndexKind) (key : String)
  | iterIndexKeys (kind : IndexKind)
  | sealRun (status : RunStatus)
  | manifest
  | highWatermark

/-- What a call returns. -/
inductive StoreAnswer where
  | done (result : Except EventStoreError Unit)
  | number (result : Except EventStoreError Nat)
  | entries (result : Except EventStoreError (List EventStoreEntry))
  | entry (result : Except EventStoreError (Option EventStoreEntry))
  | found (result : Except EventStoreError (Option Nat))
  | keys (result : Except EventStoreError (List (String × Nat)))
  | manifest (result : Except EventStoreError RunManifest)

section Perform

variable [StoreCode]

def MemoryBackend.perform (self : MemoryBackend) : StoreOp → Option (MemoryBackend × StoreAnswer)
  | .openRun manifest => some ((self.openRun manifest).map id .done)
  | .appendBatch entries => some ((self.appendBatch entries).map id .number)
  | .scanRange lo hi direction => some (self, .entries (self.scanRange lo hi direction))
  | .scanSeq seq => (self.scanSeq seq).map fun result => (self, .entry result)
  | .lookup kind key => some (self, .found (self.lookup kind key))
  | .iterIndexKeys kind => some (self, .keys (self.iterIndexKeys kind))
  | .sealRun status => some ((self.sealRun status).map id .done)
  | .manifest => some (self, .manifest self.manifest)
  | .highWatermark => some (self, .number self.highWatermark)

/-- A call of the backend in files. -/
def RedbBackend.perform (self : RedbBackend) : StoreOp → Option (RedbBackend × StoreAnswer)
  | .openRun manifest => some ((self.openRun manifest).map id .done)
  | .appendBatch entries => some ((self.appendBatch entries).map id .number)
  | .scanRange lo hi direction => some (self, .entries (self.scanRange lo hi direction))
  | .scanSeq seq => some (self, .entry (self.scanSeq seq))
  | .lookup kind key => some (self, .found (self.lookup kind key))
  | .iterIndexKeys kind => some (self, .keys (self.iterIndexKeys kind))
  | .sealRun status => some ((self.sealRun status).map id .done)
  | .manifest => some (self, .manifest self.manifest)
  | .highWatermark => some (self, .number self.highWatermark)

end Perform

/-- The answers to a sequence of calls. -/
def answersTo {σ : Type} (perform : σ → StoreOp → Option (σ × StoreAnswer)) :
    σ → List StoreOp → Option (List StoreAnswer)
  | _, [] => some []
  | store, op :: ops => do
    let (store, answer) ← perform store op
    let answers ← answersTo perform store ops
    return answer :: answers

end Nautilus
