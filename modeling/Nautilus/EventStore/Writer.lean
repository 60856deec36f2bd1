import Nautilus.EventStore.Backends

/-!
# The writer thread

`writer/batcher.rs` and the two writers of `writer/mod.rs`. The thread stamps a sequence number on a
draft **when it is received** and commits it with its batch, which is flushed by size, by timeout,
on close and on disconnect; the first failure ends it.

A schedule is a list of `WriterEvent`s: what the senders put into the channel, and the turns of the
loop. When a submit has to wait and when `recv_timeout` gives up is left to it. The loop is defined
over any `WriterStore`, whose calls may fail at any time and then leave the store as it is; this
module proves what it does over a run in memory.

* `Writer.Sound` says how numbering, batch, mirror and log fit together between two events;
  `Sound.step` is its step lemma and `Sound.after` its run lemma.
* `SyncWriter.close_submitAll`: what the synchronous writer leaves.
* `writer_log`: what the log holds after any schedule and any failures.

-/

namespace Nautilus

open Lib List Bool MemoryBackend

variable {answers : List (Except EventStoreError Nat)}

/-! ## Drafts -/

structure EntryDraft where
  headers : Headers
  topic : String
  payloadType : String
  payload : List UInt8
  tsInit : UnixNanos
  indexKeys : List IndexKey
deriving DecidableEq

section Stamping

variable [StoreCode]

def buildAppendEntry (draft : EntryDraft) (tsPublish : UnixNanos) (seq : Nat) : AppendEntry :=
  { entry :=
      { entryHash := computeEntryHash seq draft.tsInit tsPublish draft.topic draft.payloadType
          draft.payload draft.headers
        seq
        headers := draft.headers
        topic := draft.topic
        payloadType := draft.payloadType
        payload := draft.payload
        tsInit := draft.tsInit
        tsPublish }
    indexKeys := draft.indexKeys }

/-- A draft with its publish time. -/
abbrev Submission := EntryDraft × UnixNanos

/-- Drafts with consecutive sequence numbers from `first` on. -/
def stamped : (first : Nat) → List Submission → List AppendEntry
  | _, [] => []
  | first, draft :: drafts =>
    buildAppendEntry draft.1 draft.2 first :: stamped (first + 1) drafts

theorem stamped_append (first : Nat) (drafts drafts' : List Submission) :
    stamped first (drafts ++ drafts') =
      stamped first drafts ++ stamped (first + drafts.length) drafts' := by
  induction drafts generalizing first with
  | nil => rfl
  | cons draft drafts ih =>
    rw [cons_append, stamped, ih, stamped, length_cons, cons_append,
      Nat.add_right_comm, Nat.add_assoc]

theorem stamped_eq_nil_iff {first : Nat} {drafts : List Submission} :
    stamped first drafts = [] ↔ drafts = [] := by
  cases drafts <;> simp [stamped]

theorem firstOutOfOrder_stamped (first : Nat) (drafts : List Submission) :
    firstOutOfOrder first (stamped first drafts) = none := by
  induction drafts generalizing first with
  | nil => rfl
  | cons draft drafts ih =>
    have hseq : (buildAppendEntry draft.1 draft.2 first).entry.seq = first := rfl
    rw [stamped, firstOutOfOrder, if_neg (not_not.mpr hseq)]
    exact ih (first + 1)

end Stamping

/-! ## Batches in memory -/

namespace MemoryRun

theorem foldl_record_manifest (entries : List AppendEntry) (run : MemoryRun)
    (manifest : RunManifest) :
    entries.foldl record { run with manifest } =
      { entries.foldl record run with manifest } := by
  induction entries generalizing run with
  | nil => rfl
  | cons append entries ih => exact ih (run.record append)

theorem entries_foldl_record (entries : List AppendEntry) (run : MemoryRun) :
    (entries.foldl record run).entries = run.entries ++ entries.map AppendEntry.entry := by
  induction entries generalizing run with
  | nil => exact (append_nil _).symm
  | cons append entries ih =>
    rw [foldl_cons, ih, map_cons, record, append_assoc, singleton_append]

theorem written_append (run : MemoryRun) (entries entries' : List AppendEntry) :
    (run.written entries).written entries' = run.written (entries ++ entries') := by
  cases entries with
  | nil => rfl
  | cons append entries =>
    cases entries' with
    | nil => rw [append_nil]; rfl
    | cons append' entries' =>
      simp only [written, cons_append, isEmpty_cons, false_eq_true, if_false]
      rw [foldl_record_manifest, ← cons_append, foldl_append]
      simp only [(foldl_record _ _).1]

theorem entries_written (run : MemoryRun) (entries : List AppendEntry) :
    (run.written entries).entries = run.entries ++ entries.map AppendEntry.entry := by
  unfold written
  split
  · rename_i hempty
    rw [isEmpty_iff.mp hempty, map_nil, append_nil]
  · exact entries_foldl_record entries run

theorem isSealed_written (run : MemoryRun) (entries : List AppendEntry) :
    (run.written entries).manifest.isSealed = run.manifest.isSealed := by
  unfold written
  split
  · rfl
  · show RunManifest.isSealed { (entries.foldl record run).manifest with .. } = _
    rw [(foldl_record _ _).1]

theorem highWatermark_foldl_stamped [StoreCode] (run : MemoryRun) (drafts : List Submission) :
    ((stamped (run.highWatermark + 1) drafts).foldl record run).highWatermark =
      run.highWatermark + drafts.length := by
  induction drafts generalizing run with
  | nil => rfl
  | cons draft drafts ih =>
    refine (ih (run.record _)).trans ?_
    show run.highWatermark + 1 + drafts.length = run.highWatermark + (drafts.length + 1)
    omega

theorem highWatermark_written [StoreCode] (run : MemoryRun) (drafts : List Submission) :
    (run.written (stamped (run.highWatermark + 1) drafts)).highWatermark =
      run.highWatermark + drafts.length := by
  rw [← highWatermark_foldl_stamped run drafts]
  unfold written
  split
  · rename_i hempty
    rw [isEmpty_iff.mp hempty]
    rfl
  · rfl

end MemoryRun

/-- A numbered batch is refused by a sealed run only. -/
theorem MemoryBackend.appendBatch_stamped [StoreCode] (run : MemoryRun)
    {drafts : List Submission} (hdrafts : drafts ≠ []) :
    appendBatch ⟨some run⟩ (stamped (run.highWatermark + 1) drafts) =
      if run.manifest.isSealed then (⟨some run⟩, .error .closed)
      else
        (⟨some (run.written (stamped (run.highWatermark + 1) drafts))⟩,
          .ok (run.highWatermark + drafts.length)) := by
  have hempty : (stamped (run.highWatermark + 1) drafts).isEmpty = false := by
    rw [isEmpty_eq_false_iff, ne_eq, stamped_eq_nil_iff]
    exact hdrafts
  simp only [appendBatch, hempty, firstOutOfOrder_stamped, MemoryRun.written,
    MemoryRun.highWatermark_foldl_stamped, false_eq_true, if_false]

/-! ## Failures -/

/-- The `Display` text of an error (`error.rs`). -/
def EventStoreError.display : EventStoreError → String
  | backend message => "backend error: " ++ message
  | corrupted message => "corrupted run: " ++ message
  | disk message => "disk error: " ++ message
  | hashMismatch seq => "entry hash mismatch at seq " ++ toString seq
  | outOfOrder highWatermark seq =>
    "out-of-order seq: received " ++ toString seq ++
      ", expected contiguous after high-watermark " ++ toString highWatermark
  | closed => "run is closed"
  | gap prev next missing =>
    "gap detected: missing seq " ++ toString missing ++ " between " ++ toString prev ++ " and " ++
      toString next
  | crashedPredecessor => "crashed predecessor run requires sealing"

/-- `halt.rs:31`; a stall is the submit side's. -/
inductive HaltReason where
  | backendDisk (message : String)
  | backendCorrupted (message : String)
  | backendError (message : String)
deriving DecidableEq

def HaltReason.fromBackendError : EventStoreError → HaltReason
  | .disk message => backendDisk message
  | .corrupted message => backendCorrupted message
  | other => backendError other.display

/-- The calls of `EventStore` that the writer makes. -/
class WriterStore (σ : Type) where
  highWatermark : σ → Except EventStoreError Nat
  appendBatch : σ → List AppendEntry → σ × Except EventStoreError Nat
  sealRun : σ → RunStatus → σ × Except EventStoreError Unit

instance : WriterStore MemoryBackend :=
  ⟨MemoryBackend.highWatermark, MemoryBackend.appendBatch, MemoryBackend.sealRun⟩

/-- A store, the failures that wait for the next calls, the answers its appends gave so far, and the
entries of the batches it has acknowledged. -/
structure Failing (σ : Type) where
  inner : σ
  faults : List (Option EventStoreError)
  appends : List (Except EventStoreError Nat)
  committed : List EventStoreEntry

namespace Failing

section

variable {σ : Type} [WriterStore σ] (self : Failing σ)

def highWatermark : Failing σ × Except EventStoreError Nat :=
  match self.faults with
  | some e :: faults => ({ self with faults }, .error e)
  | faults => ({ self with faults := faults.tail }, WriterStore.highWatermark self.inner)

def appendBatch (entries : List AppendEntry) : Failing σ × Except EventStoreError Nat :=
  match self.faults with
  | some e :: faults => ({ self with faults, appends := self.appends ++ [.error e] }, .error e)
  | faults =>
    let (inner, answer) := WriterStore.appendBatch self.inner entries
    let acknowledged := if answer.isOk then entries.map AppendEntry.entry else []
    (⟨inner, faults.tail, self.appends ++ [answer], self.committed ++ acknowledged⟩, answer)

def sealRun (status : RunStatus) : Failing σ × Except EventStoreError Unit :=
  match self.faults with
  | some e :: faults => ({ self with faults }, .error e)
  | faults =>
    let (inner, answer) := WriterStore.sealRun self.inner status
    ({ self with inner, faults := faults.tail }, answer)

end

def log (self : Failing MemoryBackend) : List EventStoreEntry :=
  (self.inner.state.map MemoryRun.entries).getD []

variable {self : Failing MemoryBackend} {run : MemoryRun}

theorem highWatermark_cases
    (hinner : self.inner = ⟨some run⟩) :
    (∃ faults e, self.highWatermark = ({ self with faults }, .error e)) ∨
    ∃ faults, self.highWatermark = ({ self with faults }, .ok run.highWatermark) := by
  unfold highWatermark
  split
  · exact .inl ⟨_, _, rfl⟩
  · rw [hinner]
    exact .inr ⟨_, rfl⟩

/-- A numbered batch is written as a whole, or the run is left as it was. -/
theorem appendBatch_stamped [StoreCode]
    {drafts : List Submission} (hinner : self.inner = ⟨some run⟩) (hdrafts : drafts ≠ []) :
    (∃ faults e committed, self.appendBatch (stamped (run.highWatermark + 1) drafts) =
      (⟨⟨some run⟩, faults, self.appends ++ [.error e], committed⟩, .error e)) ∨
    run.manifest.isSealed = false ∧
    ∃ faults committed, self.appendBatch (stamped (run.highWatermark + 1) drafts) =
      (⟨⟨some (run.written (stamped (run.highWatermark + 1) drafts))⟩, faults,
        self.appends ++ [.ok (run.highWatermark + drafts.length)], committed⟩,
        .ok (run.highWatermark + drafts.length)) := by
  unfold appendBatch
  rw [hinner]
  split
  · exact .inl ⟨_, _, _, rfl⟩
  have hcall : WriterStore.appendBatch (MemoryBackend.mk (some run)) _ = _ :=
    MemoryBackend.appendBatch_stamped run hdrafts
  rw [hcall]
  cases run.manifest.isSealed with
  | true => exact .inl ⟨_, _, _, rfl⟩
  | false => exact .inr ⟨rfl, _, _, rfl⟩

theorem sealRun_cases (hinner : self.inner = ⟨some run⟩)
    (hopen : run.manifest.isSealed = false) :
    (∃ faults e, self.sealRun .ended = ({ self with faults }, .error e)) ∨
    ∃ faults, self.sealRun .ended =
      ({ self with
          faults
          inner := ⟨some { run with
            manifest := run.manifest.sealedAs .ended run.highWatermark run.maxTsInit }⟩ },
        .ok ()) := by
  unfold sealRun
  split
  · exact .inl ⟨_, _, rfl⟩
  have hseal : WriterStore.sealRun self.inner .ended =
      (⟨some { run with
        manifest := run.manifest.sealedAs .ended run.highWatermark run.maxTsInit }⟩,
        .ok ()) := by
    rw [hinner]
    simp [WriterStore.sealRun, MemoryBackend.sealRun, hopen]
  rw [hseal]
  exact .inr ⟨_, rfl⟩

end Failing

/-! ## The writer thread -/

/-- The reply channel of a close is `Writer.acks`. -/
inductive WriterMessage where
  | entry (draft : EntryDraft) (tsPublish : UnixNanos)
  | close (runEnded : EntryDraft)
deriving DecidableEq

/-- The drafts among the messages. -/
def submissions (messages : List WriterMessage) : List Submission :=
  messages.filterMap fun
    | .entry draft tsPublish => some (draft, tsPublish)
    | .close _ => none

/-- The variables of the loop `run`, the channel, and what was answered. `sent`
records the messages the channel took. -/
structure Writer (σ : Type) where
  backend : Failing σ
  maxBatchEntries : Nat
  rx : List WriterMessage
  /-- a sender is left -/
  connected : Bool
  nextSeq : Nat
  batch : List AppendEntry
  /-- `batch_deadline` is set -/
  batchDeadline : Bool
  highWatermark : Nat
  running : Bool
  halts : List HaltReason
  acks : List (Except EventStoreError Nat)
  sent : List WriterMessage

/-- What may happen next. -/
inductive WriterEvent where
  | send (message : WriterMessage)
  | disconnect
  /-- `recv` returns what the channel holds; the clock shows `now`. -/
  | recv (now : UnixNanos)
  | timeout

namespace Writer

variable {σ : Type} [WriterStore σ]

def flush (self : Writer σ) : Writer σ × Bool :=
  if self.batch.isEmpty then (self, true)
  else
    match self.backend.appendBatch self.batch with
    | (backend, .ok newHwm) => ({ self with backend, highWatermark := newHwm, batch := [] }, true)
    | (backend, .error e) =>
      ({ self with backend, halts := self.halts ++ [.fromBackendError e], batch := [] }, false)

/-- The loop returns. -/
def stop (self : Writer σ) : Writer σ := { self with running := false }

variable [StoreCode] (self : Writer σ)

/-- A draft is stamped and joins the batch. -/
def push (draft : EntryDraft) (tsPublish : UnixNanos) : Writer σ :=
  { self with
    batch := self.batch ++ [buildAppendEntry draft tsPublish self.nextSeq]
    nextSeq := self.nextSeq + 1 }

/-- The branch of an entry. -/
def onEntry (draft : EntryDraft) (tsPublish : UnixNanos) : Writer σ :=
  let pushed := { self.push draft tsPublish with batchDeadline := true }
  if pushed.batch.length ≥ self.maxBatchEntries then
    match pushed.flush with
    | (flushed, false) => flushed.stop
    | (flushed, true) =>
      if flushed.batch.isEmpty then { flushed with batchDeadline := false } else flushed
  else if pushed.batch.isEmpty then { pushed with batchDeadline := false }
  else pushed

/-- One message of `drain_pending`. -/
def drain : WriterMessage → Writer σ
  | .entry draft tsPublish => self.push draft tsPublish
  | .close _ => { self with acks := self.acks ++ [.error (.backend "writer is already closing")] }

def drainPending : Writer σ := self.rx.foldl drain { self with rx := [] }

/-- The branch of a close. -/
def onClose (runEnded : EntryDraft) (now : UnixNanos) : Writer σ :=
  let drained := self.drainPending
  let ended := { drained with
    batch := drained.batch ++ [buildAppendEntry runEnded now drained.nextSeq] }
  match ended.flush with
  | (flushed, false) =>
    { flushed.stop with
      acks := flushed.acks ++ [.error (.backend "writer fail-stopped before seal")] }
  | (flushed, true) =>
    match flushed.backend.sealRun .ended with
    | (backend, .ok ()) =>
      { flushed.stop with backend, acks := flushed.acks ++ [.ok flushed.highWatermark] }
    | (backend, .error e) =>
      { flushed.stop with
        backend
        halts := flushed.halts ++ [.fromBackendError e]
        acks := flushed.acks ++ [.error e] }

/-- The branch of a timeout. -/
def onTimeout : Writer σ :=
  if self.batch.isEmpty then { self with batchDeadline := false }
  else
    match self.flush with
    | (flushed, false) => flushed.stop
    | (flushed, true) => { flushed with batchDeadline := false }

/-- The branch of a disconnect. -/
def onDisconnected : Writer σ :=
  if self.batch.isEmpty then self.stop else self.flush.1.stop

/-- The channel takes a message while both ends live; a stopped loop has dropped its end. A
loop with nothing to receive waits. -/
def step : WriterEvent → Writer σ
  | .send message =>
    if self.running && self.connected then
      { self with rx := self.rx ++ [message], sent := self.sent ++ [message] }
    else self
  | .disconnect => { self with connected := false }
  | .recv now =>
    if self.running then
      match self.rx with
      | .entry draft tsPublish :: rx => { self with rx }.onEntry draft tsPublish
      | .close runEnded :: rx => { self with rx }.onClose runEnded now
      | [] => if self.connected then self else self.onDisconnected
    else self
  | .timeout => if self.running && self.batchDeadline then self.onTimeout else self

/-- A schedule. -/
def after (events : List WriterEvent) : Writer σ := events.foldl step self

/-- `spawn` (`writer/mod.rs:202`) and the start of `run`, which reads it once
more. -/
def spawn (backend : Failing σ) (maxBatchEntries : Nat) : Except EventStoreError (Writer σ) :=
  match backend.highWatermark with
  | (_, .error e) => .error e
  | (backend, .ok highWatermark) =>
    let idle : Writer σ :=
      { backend, maxBatchEntries, rx := [], connected := true, nextSeq := 0, batch := []
        batchDeadline := false, highWatermark, running := true, halts := [], acks := []
        sent := [] }
    match backend.highWatermark with
    | (backend, .error e) =>
      .ok { idle with backend, halts := [.fromBackendError e], running := false }
    | (backend, .ok hwm) => .ok { idle with backend, nextSeq := hwm + 1 }

end Writer

/-! ## The synchronous writer -/

/-- `EventStoreWriter` under simulation (`writer/mod.rs:391`). -/
structure SyncWriter where
  backend : Failing MemoryBackend
  nextSeq : Nat
  closed : Bool
  highWatermark : Nat
  halts : List HaltReason

/-- `writer/mod.rs:123`: what a synchronous submit may return. -/
inductive SubmitError where
  | closed
deriving DecidableEq

namespace SyncWriter

def spawn (backend : Failing MemoryBackend) : Except EventStoreError SyncWriter :=
  match backend.highWatermark with
  | (_, .error e) => .error e
  | (backend, .ok initialHwm) => .ok ⟨backend, initialHwm + 1, false, initialHwm, []⟩

variable [StoreCode]

def submit (self : SyncWriter) (draft : EntryDraft) (tsPublish : UnixNanos) :
    SyncWriter × Except SubmitError Unit :=
  if self.closed then (self, .error .closed)
  else
    match self.backend.appendBatch [buildAppendEntry draft tsPublish self.nextSeq] with
    | (backend, .ok newHwm) =>
      ({ self with backend, nextSeq := self.nextSeq + 1, highWatermark := newHwm }, .ok ())
    | (backend, .error e) =>
      ({ self with backend, halts := self.halts ++ [.fromBackendError e], closed := true },
        .error .closed)

def close (self : SyncWriter) (runEnded : EntryDraft) (tsPublish : UnixNanos) :
    SyncWriter × Except EventStoreError Nat :=
  if self.closed then (self, .error (.backend "writer already closed"))
  else
    match self.backend.appendBatch [buildAppendEntry runEnded tsPublish self.nextSeq] with
    | (backend, .error e) =>
      ({ self with backend, halts := self.halts ++ [.fromBackendError e], closed := true },
        .error e)
    | (backend, .ok newHwm) =>
      match backend.sealRun .ended with
      | (backend, .ok ()) =>
        (⟨backend, self.nextSeq + 1, true, newHwm, self.halts⟩, .ok newHwm)
      | (backend, .error e) =>
        (⟨backend, self.nextSeq + 1, true, newHwm, self.halts ++ [.fromBackendError e]⟩, .error e)

/-- The submits of a run, in their order. -/
def submitAll (self : SyncWriter) (drafts : List Submission) : SyncWriter :=
  drafts.foldl (fun writer draft => (writer.submit draft.1 draft.2).1) self

end SyncWriter

/-! ## What the loop keeps -/

def OnlyLastFails (answers : List (Except EventStoreError Nat)) : Prop :=
  ∀ earlier e later, answers = earlier ++ .error e :: later → later = []

def AllOk (answers : List (Except EventStoreError Nat)) : Prop :=
  ∀ e, .error e ∉ answers

theorem AllOk.concat (h : AllOk answers) (n : Nat) : AllOk (answers ++ [.ok n]) := by
  intro e hmem
  rcases mem_append.mp hmem with hmem | hmem
  · exact h e hmem
  · nomatch mem_singleton.mp hmem

theorem AllOk.onlyLastFails (h : AllOk answers) : OnlyLastFails answers := by
  rintro earlier e later rfl
  exact absurd (mem_append_right _ mem_cons_self) (h e)

theorem AllOk.onlyLastFails_concat (h : AllOk answers) (answer : Except EventStoreError Nat) :
    OnlyLastFails (answers ++ [answer]) := by
  intro earlier e later heq
  rcases eq_nil_or_concat later with rfl | ⟨_, last, rfl⟩
  · rfl
  -- the failure would be among the answers before the last
  rw [concat_eq_append, ← cons_append, ← append_assoc] at heq
  have hanswers := append_inj_left' heq rfl
  exact absurd (hanswers ▸ mem_append_right _ mem_cons_self) (h e)

theorem not_ok_mem_concat {acks : List (Except EventStoreError Nat)} (h : ∀ n, .ok n ∉ acks)
    (e : EventStoreError) : ∀ n, .ok n ∉ acks ++ [.error e] := by
  intro n hmem
  rcases mem_append.mp hmem with hmem | hmem
  · exact h n hmem
  · nomatch mem_singleton.mp hmem

namespace Writer

variable [StoreCode] {run : MemoryRun} {w : Writer MemoryBackend} {done pending : List Submission}

/-- The log holds `done`, the batch the drafts that follow, and nothing has failed. -/
structure Holds (run : MemoryRun) (w : Writer MemoryBackend) (done pending : List Submission) :
    Prop where
  inner : w.backend.inner = ⟨some (run.written (stamped (run.highWatermark + 1) done))⟩
  mirror : w.highWatermark = run.highWatermark + done.length
  batch : w.batch = stamped (run.highWatermark + 1 + done.length) pending
  appends : AllOk w.backend.appends
  acks : ∀ h, .ok h ∉ w.acks

/-- The log holds `done` and the last append may have failed. -/
structure Left (run : MemoryRun) (w : Writer MemoryBackend) (done : List Submission) : Prop where
  inner : w.backend.inner = ⟨some (run.written (stamped (run.highWatermark + 1) done))⟩
  mirror : w.highWatermark = run.highWatermark + done.length
  appends : OnlyLastFails w.backend.appends
  acks : ∀ h, .ok h ∉ w.acks

/-- `flush` moves the whole batch into the log, or fails and moves nothing. -/
theorem Holds.flush (h : Holds run w done pending) :
    ∃ backend highWatermark halts ok,
      w.flush = ({ w with backend, highWatermark, halts, batch := [] }, ok) ∧
      if ok then
        Holds run { w with backend, highWatermark, halts, batch := [] } (done ++ pending) [] ∧
          (pending ≠ [] → run.manifest.isSealed = false)
      else Left run { w with backend, highWatermark, halts, batch := [] } done := by
  obtain ⟨hinner, hmirror, hbatch, happends, hacks⟩ := h
  by_cases hpending : pending = []
  · subst hpending
    have hflush : w.flush = ({ w with batch := [] }, true) := by
      cases w
      cases hbatch
      rfl
    refine ⟨w.backend, w.highWatermark, w.halts, true, hflush, ?_, nofun⟩
    rw [append_nil]
    exact ⟨hinner, hmirror, rfl, happends, hacks⟩
  have hempty : w.batch.isEmpty = false := by
    rw [hbatch, isEmpty_eq_false_iff, ne_eq, stamped_eq_nil_iff]
    exact hpending
  have hhwm := MemoryRun.highWatermark_written run done
  have hnumbers : run.highWatermark + 1 + done.length =
      (run.written (stamped (run.highWatermark + 1) done)).highWatermark + 1 := by
    omega
  unfold Writer.flush
  rw [hempty, if_neg Bool.false_ne_true, hbatch, hnumbers]
  rcases Failing.appendBatch_stamped hinner hpending with
    ⟨_, e, _, hcall⟩ | ⟨hopen, _, _, hcall⟩
  · rw [hcall]
    exact ⟨_, _, _, false, rfl, rfl, hmirror, happends.onlyLastFails_concat _, hacks⟩
  rw [hcall]
  refine ⟨_, _, _, true, rfl, ⟨?_, ?_, rfl, happends.concat _, hacks⟩, fun _ => ?_⟩
  · show MemoryBackend.mk _ = _
    rw [MemoryRun.written_append, ← hnumbers, ← stamped_append]
  · show (run.written _).highWatermark + pending.length = _
    rw [hhwm, length_append, Nat.add_assoc]
  · rw [← MemoryRun.isSealed_written run (stamped (run.highWatermark + 1) done)]
    exact hopen

theorem Holds.push (h : Holds run w done pending)
    (hseq : w.nextSeq = run.highWatermark + 1 + done.length + pending.length)
    (draft : EntryDraft) (tsPublish : UnixNanos) :
    Holds run (w.push draft tsPublish) done (pending ++ [(draft, tsPublish)]) := by
  refine ⟨h.inner, h.mirror, ?_, h.appends, h.acks⟩
  show w.batch ++ _ = _
  rw [h.batch, hseq, stamped_append]
  rfl

/-- Draining adds the drafts of the channel to the batch and answers every other close with an
error. -/
theorem Holds.drain (messages : List WriterMessage) {w : Writer MemoryBackend}
    {pending : List Submission} (h : Holds run w done pending)
    (hseq : w.nextSeq = run.highWatermark + 1 + done.length + pending.length) :
    ∃ batch nextSeq acks,
      messages.foldl Writer.drain w = { w with batch, nextSeq, acks } ∧
      nextSeq = run.highWatermark + 1 + done.length + (pending ++ submissions messages).length ∧
      Holds run { w with batch, nextSeq, acks } done (pending ++ submissions messages) := by
  induction messages generalizing w pending with
  | nil =>
    rw [show submissions [] = [] from rfl, append_nil]
    exact ⟨w.batch, w.nextSeq, w.acks, rfl, hseq, h⟩
  | cons message messages ih =>
    cases message with
    | entry draft tsPublish =>
      have hnext : (w.push draft tsPublish).nextSeq =
          run.highWatermark + 1 + done.length + (pending ++ [(draft, tsPublish)]).length := by
        show w.nextSeq + 1 = _
        rw [hseq, length_append, length_singleton]
        omega
      obtain ⟨batch, nextSeq, acks, hfold, hnextSeq, hholds⟩ :=
        ih (h.push hseq draft tsPublish) hnext
      rw [append_assoc] at hnextSeq hholds
      exact ⟨batch, nextSeq, acks, hfold, hnextSeq, hholds⟩
    | close runEnded =>
      exact ih ⟨h.inner, h.mirror, h.batch, h.appends, not_ok_mem_concat h.acks _⟩ hseq

/-- The next number follows those of the batch, and the drafts sent are those of the log, of the
batch and of the channel. -/
structure Runs (run : MemoryRun) (w : Writer MemoryBackend) (done pending : List Submission) : Prop
    extends Holds run w done pending where
  running : w.running = true
  nextSeq : w.nextSeq = run.highWatermark + 1 + done.length + pending.length
  sent : submissions w.sent = done ++ pending ++ submissions w.rx
  rx : w.rx ⊆ w.sent

/-- A writer as a schedule may leave it, over the run it was spawned on. -/
inductive Sound (run : MemoryRun) (w : Writer MemoryBackend) : Prop where
  | running (done pending : List Submission) (h : Runs run w done pending)
  /-- The loop has returned without writing a closing entry. -/
  | stopped (hrunning : w.running = false) (done rest : List Submission)
      (hleft : Left run w done) (hsent : submissions w.sent = done ++ rest)
  /-- The closing entry is written, but the run is not sealed. -/
  | ended (hrunning : w.running = false) (runEnded : EntryDraft) (now : UnixNanos)
      (hclose : .close runEnded ∈ w.sent)
      (hleft : Left run w (submissions w.sent ++ [(runEnded, now)]))
  | closed (hrunning : w.running = false) (runEnded : EntryDraft) (now : UnixNanos)
      (hclose : .close runEnded ∈ w.sent) (hopen : run.manifest.isSealed = false)
      (final : MemoryRun)
      (hfinal : final =
        run.written (stamped (run.highWatermark + 1) (submissions w.sent ++ [(runEnded, now)])))
      (hinner : w.backend.inner = ⟨some { final with
        manifest := final.manifest.sealedAs .ended final.highWatermark final.maxTsInit }⟩)
      (hmirror : w.highWatermark = run.highWatermark + (submissions w.sent).length + 1)
      (happends : AllOk w.backend.appends)
      (hacks : ∀ h, .ok h ∈ w.acks → h = w.highWatermark)

section

theorem Sound.disconnected (h : Sound run w) : Sound run { w with connected := false } := by
  cases h with
  | running done pending h =>
    exact .running done pending
      ⟨⟨h.inner, h.mirror, h.batch, h.appends, h.acks⟩, h.running, h.nextSeq, h.sent, h.rx⟩
  | stopped hrunning done rest h hsent =>
    exact .stopped hrunning done rest ⟨h.inner, h.mirror, h.appends, h.acks⟩ hsent
  | ended hrunning runEnded now hclose h =>
    exact .ended hrunning runEnded now hclose ⟨h.inner, h.mirror, h.appends, h.acks⟩
  | closed hrunning runEnded now hclose hopen final hfinal hinner hmirror happends hacks =>
    exact .closed hrunning runEnded now hclose hopen final hfinal hinner hmirror happends hacks

variable (h : Runs run w done pending)

include h

/-- The deadline decides only which events may come. -/
theorem Runs.deadline (deadline : Bool) :
    Runs run { w with batchDeadline := deadline } done pending :=
  ⟨⟨h.inner, h.mirror, h.batch, h.appends, h.acks⟩, h.running, h.nextSeq, h.sent, h.rx⟩

theorem Runs.stop : Sound run w.stop := by
  have hsent := h.sent
  rw [append_assoc] at hsent
  exact .stopped rfl done _ ⟨h.inner, h.mirror, h.appends.onlyLastFails, h.acks⟩ hsent

/-- The loop goes on after a batch is written, and returns after one that failed. -/
theorem Runs.flush :
    (w.flush.2 = true → Runs run w.flush.1 (done ++ pending) []) ∧ Sound run w.flush.1.stop := by
  obtain ⟨backend, highWatermark, halts, ok, hflush, hcases⟩ := h.toHolds.flush
  rw [hflush]
  cases ok with
  | true =>
    obtain ⟨hholds, -⟩ : Holds run _ _ _ ∧ _ := hcases
    have hruns : Runs run { w with backend, highWatermark, halts, batch := [] }
        (done ++ pending) [] := by
      refine ⟨hholds, h.running, ?_, ?_, h.rx⟩
      · show w.nextSeq = _
        rw [h.nextSeq, length_append, length_nil]
        omega
      · rw [append_nil]
        exact h.sent
    exact ⟨fun _ => hruns, hruns.stop⟩
  | false =>
    obtain ⟨hinner, hmirror, happends, hacks⟩ : Left run _ _ := hcases
    have hsent := h.sent
    rw [append_assoc] at hsent
    exact ⟨nofun, .stopped rfl _ _ ⟨hinner, hmirror, happends, hacks⟩ hsent⟩

variable {draft : EntryDraft} {tsPublish : UnixNanos} {rx : List WriterMessage}

/-- A draft that is received moves from the channel to the batch. -/
theorem Runs.push (hrx : w.rx = .entry draft tsPublish :: rx) :
    Runs run ({ w with rx }.push draft tsPublish) done (pending ++ [(draft, tsPublish)]) := by
  have hholds : Holds run { w with rx } done pending :=
    ⟨h.inner, h.mirror, h.batch, h.appends, h.acks⟩
  refine ⟨hholds.push h.nextSeq draft tsPublish, h.running, ?_, ?_, ?_⟩
  · show w.nextSeq + 1 = _
    rw [h.nextSeq, length_append, length_singleton]
    omega
  · have hsent := h.sent
    rw [hrx] at hsent
    rw [append_assoc, append_assoc, ← append_assoc done]
    exact hsent
  · exact fun message hmem => h.rx (hrx ▸ mem_cons_of_mem _ hmem)

theorem Runs.onEntry (hrx : w.rx = .entry draft tsPublish :: rx) :
    Sound run ({ w with rx }.onEntry draft tsPublish) := by
  have hpush := (h.push hrx).deadline true
  obtain ⟨hok, hstop⟩ := hpush.flush
  unfold Writer.onEntry
  simp only
  split
  · split
    · rename_i flushed hflush
      rw [hflush] at hstop
      exact hstop
    · rename_i flushed hflush
      rw [hflush] at hok
      split
      · exact .running _ _ ((hok rfl).deadline false)
      · exact .running _ _ (hok rfl)
  · split
    · exact .running _ _ (hpush.deadline false)
    · exact .running _ _ hpush

theorem Runs.onTimeout : Sound run w.onTimeout := by
  obtain ⟨hok, hstop⟩ := h.flush
  unfold Writer.onTimeout
  split
  · exact .running _ _ (h.deadline false)
  split
  · rename_i flushed hflush
    rw [hflush] at hstop
    exact hstop
  · rename_i flushed hflush
    rw [hflush] at hok
    exact .running _ _ ((hok rfl).deadline false)

theorem Runs.onDisconnected : Sound run w.onDisconnected := by
  unfold Writer.onDisconnected
  split
  · exact h.stop
  · exact h.flush.2

/-- A close writes every draft that was sent and the closing entry in one batch, or nothing. -/
theorem Runs.onClose {runEnded : EntryDraft}
    {rx : List WriterMessage} (hrx : w.rx = .close runEnded :: rx) (now : UnixNanos) :
    Sound run ({ w with rx }.onClose runEnded now) := by
  have hclose : .close runEnded ∈ w.sent := h.rx (hrx ▸ mem_cons_self)
  have hsent : submissions w.sent = done ++ (pending ++ submissions rx) := by
    have hsent := h.sent
    rw [hrx, append_assoc] at hsent
    exact hsent
  obtain ⟨batch, nextSeq, acks, hdrain, hnext, hdrained⟩ :=
    Holds.drain rx (w := { w with rx := [] })
      ⟨h.inner, h.mirror, h.batch, h.appends, h.acks⟩ h.nextSeq
  have hended := hdrained.push hnext runEnded now
  -- the batch with the closing entry; its number is not taken up
  obtain ⟨backend, highWatermark, _, ok, hflush, hcases⟩ :=
    Holds.flush (w := { w with
      rx := [], nextSeq, acks
      batch := batch ++ [buildAppendEntry runEnded now nextSeq] })
      ⟨hended.inner, hended.mirror, hended.batch, hended.appends, hended.acks⟩
  unfold Writer.onClose Writer.drainPending
  simp only [hdrain, hflush]
  cases ok with
  | false =>
    obtain ⟨hinner, hmirror, happends, hacks⟩ : Left run _ _ := hcases
    exact .stopped rfl _ _ ⟨hinner, hmirror, happends, not_ok_mem_concat hacks _⟩ hsent
  | true =>
    obtain ⟨hflushed, hopen⟩ : Holds run _ _ _ ∧ _ := hcases
    have hopen : run.manifest.isSealed = false := hopen (append_ne_nil_of_right_ne_nil _ nofun)
    have hall : done ++ (pending ++ submissions rx ++ [(runEnded, now)]) =
        submissions w.sent ++ [(runEnded, now)] := by
      rw [hsent, append_assoc done]
    have hinner : backend.inner = _ := hflushed.inner
    have hmirror : highWatermark = _ := hflushed.mirror
    rw [hall] at hinner hmirror
    have hunsealed := (run.isSealed_written (stamped (run.highWatermark + 1)
      (submissions w.sent ++ [(runEnded, now)]))).trans hopen
    rcases Failing.sealRun_cases hinner hunsealed with ⟨faults, e, hseal⟩ | ⟨faults, hseal⟩
    · simp only [hseal]
      exact .ended rfl runEnded now hclose ⟨hinner, hmirror, hflushed.appends.onlyLastFails,
        not_ok_mem_concat hflushed.acks _⟩
    simp only [hseal]
    refine .closed rfl runEnded now hclose hopen _ rfl rfl ?_ hflushed.appends ?_
    · rw [length_append, length_singleton, ← Nat.add_assoc] at hmirror
      exact hmirror
    · intro h hmem
      rcases mem_append.mp hmem with hmem | hmem
      · exact absurd hmem (hflushed.acks h)
      · exact Except.ok.inj (mem_singleton.mp hmem)

theorem Runs.step (event : WriterEvent) : Sound run (w.step event) := by
  cases event with
  | send message =>
    simp only [Writer.step]
    split
    · refine .running done pending
        ⟨⟨h.inner, h.mirror, h.batch, h.appends, h.acks⟩, h.running, h.nextSeq, ?_, ?_⟩
      · show submissions (w.sent ++ _) = _ ++ submissions (w.rx ++ _)
        unfold submissions
        rw [filterMap_append, filterMap_append, ← append_assoc]
        exact congrArg (· ++ _) h.sent
      · exact fun message' hmem => mem_append.mpr
          ((mem_append.mp hmem).imp (fun hmem => h.rx hmem) id)
    · exact .running done pending h
  | disconnect => exact Sound.disconnected (.running done pending h)
  | recv now =>
    show Sound run (if w.running = true then _ else _)
    rw [if_pos h.running]
    split
    · rename_i hrx
      exact h.onEntry hrx
    · rename_i hrx
      exact h.onClose hrx now
    · split
      · exact .running done pending h
      · exact h.onDisconnected
  | timeout =>
    simp only [Writer.step]
    split
    · exact h.onTimeout
    · exact .running done pending h

end

theorem step_of_stopped (hrunning : w.running = false) (event : WriterEvent) :
    w.step event = w ∨ w.step event = { w with connected := false } := by
  have hnot : ∀ flag, ¬ (w.running && flag) = true := by
    intro flag
    rw [hrunning, Bool.false_and]
    exact false_ne_true
  cases event with
  | send message => exact .inl (if_neg (hnot w.connected))
  | disconnect => exact .inr rfl
  | recv now => exact .inl (if_neg (by rw [hrunning]; exact false_ne_true))
  | timeout => exact .inl (if_neg (hnot w.batchDeadline))

/-- **An event keeps a writer sound.** -/
theorem Sound.step (h : Sound run w) (event : WriterEvent) : Sound run (w.step event) := by
  have hstopped : w.running = false → Sound run (w.step event) := by
    intro hrunning
    rcases step_of_stopped hrunning event with heq | heq <;> rw [heq]
    · exact h
    · exact h.disconnected
  cases h with
  | running done pending h => exact h.step event
  | stopped hrunning | ended hrunning | closed hrunning => exact hstopped hrunning

theorem Sound.after (h : Sound run w) (events : List WriterEvent) : Sound run (w.after events) := by
  induction events generalizing w with
  | nil => exact h
  | cons event events ih => exact ih (h.step event)

theorem Sound.spawn {faults : List (Option EventStoreError)} {maxBatchEntries : Nat}
    (hspawn : Writer.spawn ⟨⟨some run⟩, faults, [], []⟩ maxBatchEntries = .ok w) : Sound run w := by
  unfold Writer.spawn at hspawn
  have hinner : ∀ faults, (Failing.mk (MemoryBackend.mk (some run)) faults [] []).inner =
      ⟨some run⟩ := fun _ => rfl
  rcases Failing.highWatermark_cases (hinner faults) with ⟨faults', e, hread⟩ | ⟨faults', hread⟩
  · rw [hread] at hspawn
    nomatch hspawn
  rw [hread] at hspawn
  -- the second read, by the thread
  rcases Failing.highWatermark_cases (hinner faults') with ⟨rest, e, hread⟩ | ⟨rest, hread⟩
  · simp only [hread, Except.ok.injEq] at hspawn
    subst hspawn
    exact .stopped rfl [] [] ⟨rfl, rfl, AllOk.onlyLastFails nofun, nofun⟩ rfl
  · simp only [hread, Except.ok.injEq] at hspawn
    subst hspawn
    exact .running [] [] ⟨⟨rfl, rfl, rfl, nofun, nofun⟩, rfl, rfl, rfl, nofun⟩

end Writer

/-! ## The log -/

namespace SyncWriter

variable [StoreCode] (drafts : List Submission) {run : MemoryRun}
  (hopen : run.manifest.isSealed = false)

include hopen

/-- The synchronous writer without failures writes its drafts one by one. -/
theorem submitAll_open (appends : List (Except EventStoreError Nat))
    (committed : List EventStoreEntry) :
    ∃ appends' committed', (SyncWriter.mk ⟨⟨some run⟩, [], appends, committed⟩
      (run.highWatermark + 1) false run.highWatermark []).submitAll drafts =
        ⟨⟨⟨some (run.written (stamped (run.highWatermark + 1) drafts))⟩, [], appends', committed'⟩,
          run.highWatermark + drafts.length + 1, false, run.highWatermark + drafts.length, []⟩ := by
  induction drafts generalizing run appends committed with
  | nil => exact ⟨appends, committed, rfl⟩
  | cons draft drafts ih =>
    have hcall := appendBatch_stamped run (cons_ne_nil draft [])
    have hnext := MemoryRun.highWatermark_written run [draft]
    have hopen' := (run.isSealed_written (stamped (run.highWatermark + 1) [draft])).trans hopen
    rw [hopen, if_neg Bool.false_ne_true] at hcall
    obtain ⟨appends', committed', hrest⟩ := ih hopen' (appends ++ [.ok (run.highWatermark + 1)])
      (committed ++ (stamped (run.highWatermark + 1) [draft]).map AppendEntry.entry)
    rw [hnext, MemoryRun.written_append] at hrest
    refine ⟨appends', committed', (congrArg (submitAll · drafts) ?_).trans (hrest.trans ?_)⟩
    · show (SyncWriter.submit _ draft.1 draft.2).1 = _
      simp only [SyncWriter.submit, false_eq_true, if_false, Failing.appendBatch,
        WriterStore.appendBatch]
      rw [show [buildAppendEntry draft.1 draft.2 (run.highWatermark + 1)] =
        stamped (run.highWatermark + 1) [draft] from rfl, hcall]
      rfl
    · have hlength : run.highWatermark + 1 + drafts.length =
          run.highWatermark + (draft :: drafts).length := by
        rw [length_cons]
        omega
      rw [length_singleton, hlength]
      rfl

/-- Closed after its drafts, it leaves the run sealed behind them and the closing entry. -/
theorem close_submitAll (runEnded : EntryDraft) (tsPublish : UnixNanos) (final : MemoryRun)
    (hfinal : final =
      run.written (stamped (run.highWatermark + 1) (drafts ++ [(runEnded, tsPublish)]))) :
    ∃ sync, SyncWriter.spawn ⟨⟨some run⟩, [], [], []⟩ = .ok sync ∧
      ((sync.submitAll drafts).close runEnded tsPublish).2 =
        .ok (run.highWatermark + drafts.length + 1) ∧
      ((sync.submitAll drafts).close runEnded tsPublish).1.backend.inner =
        ⟨some { final with
          manifest := final.manifest.sealedAs .ended final.highWatermark final.maxTsInit }⟩ := by
  refine ⟨⟨⟨⟨some run⟩, [], [], []⟩, run.highWatermark + 1, false, run.highWatermark, []⟩, rfl, ?_⟩
  obtain ⟨_, _, hall⟩ := submitAll_open drafts hopen [] []
  have hhwm := MemoryRun.highWatermark_written run drafts
  have hopen' := (run.isSealed_written (stamped (run.highWatermark + 1) drafts)).trans hopen
  have hcall := appendBatch_stamped
    (run.written (stamped (run.highWatermark + 1) drafts)) (cons_ne_nil (runEnded, tsPublish) [])
  have hlast : final = run.written (stamped (run.highWatermark + 1) drafts ++
      stamped (run.highWatermark + drafts.length + 1) [(runEnded, tsPublish)]) := by
    rw [hfinal, stamped_append, Nat.add_right_comm run.highWatermark]
  rw [hopen', if_neg Bool.false_ne_true, MemoryRun.written_append, hhwm, ← hlast] at hcall
  have hunsealed : final.manifest.isSealed = false := by
    rw [hfinal, MemoryRun.isSealed_written]
    exact hopen
  rw [hall]
  simp only [SyncWriter.close, false_eq_true, if_false, Failing.appendBatch,
    WriterStore.appendBatch]
  rw [show [buildAppendEntry runEnded tsPublish _] =
    stamped (run.highWatermark + drafts.length + 1) [(runEnded, tsPublish)] from rfl, hcall]
  simp only [Failing.sealRun, WriterStore.sealRun, sealRun, hunsealed, false_eq_true, if_false,
    reduceCtorEq]
  exact ⟨rfl, rfl⟩

end SyncWriter

section Log

variable [StoreCode] {run : MemoryRun} {w : Writer MemoryBackend}

/-- What a writer over `run` has to show for the drafts that were sent to it. -/
structure Logged (run : MemoryRun) (w : Writer MemoryBackend) : Prop where
  /-- The log grew by the first of the drafts, or by all of them and a closing entry. -/
  log : ∃ drafts, w.backend.log =
      run.entries ++ (stamped (run.highWatermark + 1) drafts).map AppendEntry.entry ∧
    (drafts <+: submissions w.sent ∨ ∃ runEnded now, .close runEnded ∈ w.sent ∧
      drafts = submissions w.sent ++ [(runEnded, now)])
  mirror : w.backend.inner.highWatermark = .ok w.highWatermark
  /-- No append follows one that failed, and no close succeeds. -/
  failStop : OnlyLastFails w.backend.appends
  failed : ∀ e, .error e ∈ w.backend.appends → ∀ h, .ok h ∉ w.acks
  /-- A close that succeeds has written every draft and the closing entry, and sealed the run. -/
  closed : ∀ h, .ok h ∈ w.acks → ∃ runEnded now, .close runEnded ∈ w.sent ∧
    w.backend.log = run.entries ++
      (stamped (run.highWatermark + 1) (submissions w.sent)).map AppendEntry.entry ++
        [(buildAppendEntry runEnded now h).entry] ∧
    (∃ manifest, w.backend.inner.manifest = .ok manifest ∧ manifest.status = .ended) ∧
    ∃ sync, SyncWriter.spawn ⟨⟨some run⟩, [], [], []⟩ = .ok sync ∧
      ((sync.submitAll (submissions w.sent)).close runEnded now).2 = .ok h ∧
      ((sync.submitAll (submissions w.sent)).close runEnded now).1.backend.inner = w.backend.inner

section

variable {done : List Submission}
  (hinner : w.backend.inner = ⟨some (run.written (stamped (run.highWatermark + 1) done))⟩)

include hinner

theorem log_of_inner :
    w.backend.log = run.entries ++ (stamped (run.highWatermark + 1) done).map AppendEntry.entry := by
  unfold Failing.log
  rw [hinner]
  exact MemoryRun.entries_written run _

theorem mirror_of_inner (hmirror : w.highWatermark = run.highWatermark + done.length) :
    w.backend.inner.highWatermark = .ok w.highWatermark := by
  rw [hinner, hmirror, ← MemoryRun.highWatermark_written run done]
  rfl

end

theorem Writer.Sound.logged (h : w.Sound run) : Logged run w := by
  cases h with
  | running done pending h =>
    refine ⟨⟨done, log_of_inner h.inner, .inl ?_⟩, mirror_of_inner h.inner h.mirror,
      h.appends.onlyLastFails, fun e hmem => absurd hmem (h.appends e),
      fun n hmem => absurd hmem (h.acks n)⟩
    rw [h.sent, append_assoc]
    exact prefix_append done _
  | stopped _ done rest h hsent =>
    refine ⟨⟨done, log_of_inner h.inner, .inl ?_⟩, mirror_of_inner h.inner h.mirror,
      h.appends, fun _ _ => h.acks, fun n hmem => absurd hmem (h.acks n)⟩
    rw [hsent]
    exact prefix_append done _
  | ended _ runEnded now hclose h =>
    exact ⟨⟨_, log_of_inner h.inner, .inr ⟨runEnded, now, hclose, rfl⟩⟩,
      mirror_of_inner h.inner h.mirror, h.appends, fun _ _ => h.acks,
      fun n hmem => absurd hmem (h.acks n)⟩
  | closed _ runEnded now hclose hopen final hfinal hinner hmirror happends hacks =>
    have hlog : w.backend.log = run.entries ++ (stamped (run.highWatermark + 1)
        (submissions w.sent ++ [(runEnded, now)])).map AppendEntry.entry := by
      unfold Failing.log
      rw [hinner, hfinal]
      exact MemoryRun.entries_written run _
    refine ⟨⟨_, hlog, .inr ⟨runEnded, now, hclose, rfl⟩⟩, ?_, happends.onlyLastFails,
      fun e hmem => absurd hmem (happends e), ?_⟩
    · have hhwm := MemoryRun.highWatermark_written run (submissions w.sent ++ [(runEnded, now)])
      rw [← hfinal, length_append, length_singleton, ← Nat.add_assoc, ← hmirror] at hhwm
      rw [hinner, ← hhwm]
      rfl
    · intro n hmem
      have hn : n = run.highWatermark + (submissions w.sent).length + 1 :=
        (hacks n hmem).trans hmirror
      obtain ⟨sync, hspawn, hanswer, hsync⟩ :=
        SyncWriter.close_submitAll (submissions w.sent) hopen runEnded now final hfinal
      refine ⟨runEnded, now, hclose, ?_, ⟨_, by rw [hinner]; rfl, rfl⟩, sync, hspawn, ?_, ?_⟩
      · rw [hlog, stamped_append, map_append, append_assoc, hn,
          Nat.add_right_comm run.highWatermark _ 1]
        rfl
      · rw [hanswer, hn]
      · rw [hsync, hinner]

/-- **Whatever the schedule and the failures, the log grows by a prefix of the drafts, numbered from
the high-watermark on**; the published high-watermark is the backend's; nothing is appended after a
failed append; and a close that succeeds leaves the run the synchronous writer leaves. -/
theorem writer_log (faults : List (Option EventStoreError)) (maxBatchEntries : Nat)
    (hspawn : Writer.spawn ⟨⟨some run⟩, faults, [], []⟩ maxBatchEntries = .ok w)
    (events : List WriterEvent) : Logged run (w.after events) :=
  ((Writer.Sound.spawn hspawn).after events).logged

end Log

section Instances

attribute [local instance] StoreCode.plain

def Sample.emptyRun : MemoryRun :=
  ⟨⟨"1-a", "trader", 1, none, 0, .running⟩, [], .empty, 0, 0⟩

def Sample.draft (topic : String) : EntryDraft := ⟨⟨none, none, none⟩, topic, "type", [], 5, []⟩

/-- Two drafts fill a batch, a third waits for a timeout, and a close takes the fourth along. -/
def Sample.schedule : List WriterEvent :=
  [.send (.entry (Sample.draft "a") 6), .send (.entry (Sample.draft "b") 7), .recv 8, .recv 8,
    .send (.entry (Sample.draft "c") 9), .recv 9, .timeout, .send (.close (Sample.draft "end")),
    .send (.entry (Sample.draft "d") 10), .recv 11]

open Sample

theorem writer_log_closed :
    ∃ w, Writer.spawn ⟨⟨some emptyRun⟩, [], [], []⟩ 2 = .ok w ∧
      Except.ok 5 ∈ (w.after schedule).acks ∧
      Logged emptyRun (w.after schedule) :=
  ⟨_, rfl, mem_singleton.mpr rfl, writer_log [] 2 rfl schedule⟩

end Instances

end Nautilus
