import Nautilus.EventStore.Recovery

/-!
# From the bus to a verified run

The capture adapter (`capture/adapter.rs`), its encoder registry (`capture/registry.rs`) and the
submit side of the writer (`writer/mod.rs`), over the writer thread and a run in files. A
`CaptureEvent` is what the bus, the owner of the writer or the thread may do next; whether a submit
stalls is left to the schedule.

The encoder sees no headers, so the adapter adds their intent id to the index keys. So the intent
index of a captured run is the one the verifier rebuilds (`indexed_of_capture`), and a run that was
closed or cut off is sealed clean and read back as committed (**`captured_run_verifies`**).
-/

namespace Nautilus

open Lib List RedbBackend
open MemoryRun (holding sealedHolding manifest_holding entries_holding)

/-! ## The adapter -/

structure EncodedPayload where
  payload : List UInt8
  indexKeys : List IndexKey
  payloadType : Option String

inductive EncodeError where
  | typeMismatch (expected : String)
  | serialize (message : String)
deriving DecidableEq

/-- `Any::type_id` of a message. -/
class HasTypeId (M : Type) where
  typeId : M → String

structure Registered (M : Type) where
  payloadType : String
  encode : M → Except EncodeError EncodedPayload

structure EncoderRegistry (M : Type) where
  byType : IndexMap String (Registered M)

def EncoderRegistry.encodeAny {M : Type} [HasTypeId M] (self : EncoderRegistry M) (message : M) :
    Except EncodeError (Option (String × EncodedPayload)) :=
  match self.byType.get? (HasTypeId.typeId message) with
  | none => .ok none
  | some reg =>
    match reg.encode message with
    | .error e => .error e
    | .ok encoded => .ok (some (encoded.payloadType.getD reg.payloadType, encoded))

def withIntentIndex (indexKeys : List IndexKey) (headers : Headers) : List IndexKey :=
  match headers.intentId with
  | some intentId => indexKeys ++ [⟨.intentId, intentId.value⟩]
  | none => indexKeys

/-- `adapter.rs:61`, with the errors of a submit (`writer/mod.rs:123`). -/
inductive CaptureError where
  | encode (e : EncodeError)
  | closed
  | haltSignaled (stalledFor threshold : Nat)
  | halted
deriving DecidableEq

section Capture

variable [StoreCode] {M : Type} [HasTypeId M]

/-- A `BusCaptureAdapter` (`adapter.rs:87`), its `EventStoreWriter` (`writer/mod.rs:160`) and the
thread. -/
structure CapturePipeline (M : Type) where
  registry : EncoderRegistry M
  /-- the adapter has fail-stopped -/
  halted : Bool
  /-- a submit has stalled -/
  writerHalted : Bool
  haltThreshold : Nat
  thread : Writer RedbBackend

namespace CapturePipeline

def new (registry : EncoderRegistry M) (haltThreshold : Nat) (thread : Writer RedbBackend) :
    CapturePipeline M :=
  ⟨registry, false, false, haltThreshold, thread⟩

/-- `submit` (`writer/mod.rs:261`) at the time `now`; `stalledFor` is how long the channel was full,
from the threshold on. -/
def submit (self : CapturePipeline M) (draft : EntryDraft) (now : UnixNanos)
    (stalledFor : Option Nat) : CapturePipeline M × Except CaptureError Unit :=
  if self.writerHalted then (self, .error .closed)
  else if !self.thread.connected then (self, .error .closed)
  else
    match stalledFor with
    | some stalled =>
      ({ self with writerHalted := true }, .error (.haltSignaled stalled self.haltThreshold))
    | none =>
      if self.thread.running then
        ({ self with thread := self.thread.step (.send (.entry draft now)) }, .ok ())
      else (self, .error .closed)

def captureAny (self : CapturePipeline M) (topic : String) (message : M) (headers : Headers)
    (tsInit now : UnixNanos) (stalledFor : Option Nat) :
    CapturePipeline M × Except CaptureError Bool :=
  if self.halted then (self, .error .halted)
  else
    match self.registry.encodeAny message with
    | .error e => (self, .error (.encode e))
    | .ok none => (self, .ok false)
    | .ok (some (payloadType, encoded)) =>
      let draft : EntryDraft :=
        { headers, topic, payloadType, payload := encoded.payload, tsInit
          indexKeys := withIntentIndex encoded.indexKeys headers }
      match self.submit draft now stalledFor with
      | (self, .ok ()) => (self, .ok true)
      | (self, .error e) => ({ self with halted := true }, .error e)

end CapturePipeline

/-- What may happen next. -/
inductive CaptureEvent (M : Type) where
  | capture (topic : String) (message : M) (headers : Headers) (tsInit now : UnixNanos)
      (stalledFor : Option Nat)
  /-- `close` takes the writer: the message is sent and the sender dropped. -/
  | close (runEnded : EntryDraft)
  /-- The writer is dropped without a close. -/
  | drop
  | recv (now : UnixNanos)
  | timeout

namespace CapturePipeline

def step (self : CapturePipeline M) : CaptureEvent M → CapturePipeline M
  | .capture topic message headers tsInit now stalledFor =>
    (self.captureAny topic message headers tsInit now stalledFor).1
  | .close runEnded =>
    { self with thread := (self.thread.step (.send (.close runEnded))).step .disconnect }
  | .drop => { self with thread := self.thread.step .disconnect }
  | .recv now => { self with thread := self.thread.step (.recv now) }
  | .timeout => { self with thread := self.thread.step .timeout }

/-- A schedule. -/
def after (self : CapturePipeline M) (events : List (CaptureEvent M)) : CapturePipeline M :=
  events.foldl step self

end CapturePipeline

/-! ## What is sent to the writer -/

def WriterMessage.draft : WriterMessage → EntryDraft
  | .entry draft _ => draft
  | .close runEnded => runEnded

/-- The encoders emit only client-order and venue-order keys. -/
def EncoderRegistry.EmitsOrderKeys (self : EncoderRegistry M) : Prop :=
  ∀ typeId reg, self.byType.get? typeId = some reg → ∀ message encoded,
    reg.encode message = .ok encoded → ∀ indexKey ∈ encoded.indexKeys,
      indexKey.kind = .clientOrderId ∨ indexKey.kind = .venueOrderId

/-- What is captured is not older than the run, and a closing entry has no intent id. -/
def CaptureEvent.Proper (manifest : RunManifest) : CaptureEvent M → Prop
  | .capture _ _ _ tsInit _ _ => manifest.startTsInit ≤ tsInit
  | .close runEnded =>
    manifest.startTsInit ≤ runEnded.tsInit ∧ runEnded.headers.intentId = none ∧
      ∀ indexKey ∈ runEnded.indexKeys, indexKey.kind ≠ .intentId
  | .drop | .recv _ | .timeout => True

omit [StoreCode] in
/-- The adapter adds the one intent key that the headers call for. -/
theorem mem_withIntentIndex {indexKeys : List IndexKey} {headers : Headers}
    (h : ∀ indexKey ∈ indexKeys, indexKey.kind ≠ .intentId) (key : String) :
    ⟨.intentId, key⟩ ∈ withIntentIndex indexKeys headers ↔ headers.intentId = some ⟨key⟩ := by
  have hnot : ⟨.intentId, key⟩ ∉ indexKeys := fun hmem => h _ hmem rfl
  unfold withIntentIndex
  cases headers.intentId with
  | none => exact iff_of_false hnot nofun
  | some intentId =>
    obtain ⟨_⟩ := intentId
    simp [hnot, eq_comm]

namespace CapturePipeline

/-- The thread of the pipeline is one that `thread` becomes, and what it was sent is indexed. -/
structure Traced (manifest : RunManifest) (thread : Writer RedbBackend) (p : CapturePipeline M) :
    Prop where
  registry : p.registry.EmitsOrderKeys
  thread : ∃ events, p.thread = thread.after events
  sent : ∀ message ∈ p.thread.sent, message.draft.Indexed manifest

variable {manifest : RunManifest} {thread : Writer RedbBackend} {p : CapturePipeline M}

omit [HasTypeId M] in
theorem Traced.turn (h : p.Traced manifest thread) {event : WriterEvent}
    (hsend : ∀ message, event = .send message → message.draft.Indexed manifest) :
    { p with thread := p.thread.step event }.Traced manifest thread := by
  obtain ⟨events, hthread⟩ := h.thread
  refine ⟨h.registry, ⟨events ++ [event], ?_⟩, fun message hmem => ?_⟩
  · rw [Writer.after, foldl_append]
    exact congrArg (Writer.step · event) hthread
  · rcases Writer.mem_sent_step hmem with hmem | hevent
    · exact h.sent message hmem
    · exact hsend message hevent

omit [HasTypeId M] in
theorem Traced.submit (h : p.Traced manifest thread) {draft : EntryDraft}
    (hdraft : draft.Indexed manifest) (now : UnixNanos) (stalledFor : Option Nat) :
    (p.submit draft now stalledFor).1.Traced manifest thread := by
  unfold CapturePipeline.submit
  split
  · exact h
  split
  · exact h
  split
  · exact ⟨h.registry, h.thread, h.sent⟩
  · split
    · exact h.turn fun message hmessage => by cases hmessage; exact hdraft
    · exact h

omit [StoreCode] in
/-- **The draft of a captured message is indexed as its headers say.** -/
theorem indexed_of_capture {registry : EncoderRegistry M} (hregistry : registry.EmitsOrderKeys)
    {message : M} {payloadType : String} {encoded : EncodedPayload}
    (hencode : registry.encodeAny message = .ok (some (payloadType, encoded)))
    (topic : String) (headers : Headers) {tsInit : UnixNanos}
    (hts : manifest.startTsInit ≤ tsInit) :
    EntryDraft.Indexed
      { headers, topic, payloadType, payload := encoded.payload, tsInit
        indexKeys := withIntentIndex encoded.indexKeys headers } manifest := by
  unfold EncoderRegistry.encodeAny at hencode
  split at hencode
  · nomatch hencode
  rename_i reg hreg
  split at hencode
  · nomatch hencode
  rename_i hencoded
  cases hencode
  refine ⟨mem_withIntentIndex fun indexKey hmem => ?_, hts⟩
  rcases hregistry _ reg hreg message _ hencoded indexKey hmem with hkind | hkind <;>
    rw [hkind] <;> nofun

theorem Traced.captureAny (h : p.Traced manifest thread) (topic : String) (message : M)
    (headers : Headers) {tsInit : UnixNanos} (hts : manifest.startTsInit ≤ tsInit)
    (now : UnixNanos) (stalledFor : Option Nat) :
    (p.captureAny topic message headers tsInit now stalledFor).1.Traced manifest thread := by
  unfold CapturePipeline.captureAny
  split
  · exact h
  split
  · exact h
  · exact h
  rename_i hencode
  have hsubmit := h.submit (indexed_of_capture h.registry hencode topic headers hts) now stalledFor
  dsimp only
  split
  · rename_i hcall
    rw [hcall] at hsubmit
    exact hsubmit
  · rename_i hcall
    rw [hcall] at hsubmit
    exact ⟨hsubmit.registry, hsubmit.thread, hsubmit.sent⟩

theorem Traced.step (h : p.Traced manifest thread) {event : CaptureEvent M}
    (hevent : event.Proper manifest) : (p.step event).Traced manifest thread := by
  cases event with
  | capture topic message headers tsInit now stalledFor =>
    exact h.captureAny topic message headers hevent now stalledFor
  | close runEnded =>
    obtain ⟨hts, hheaders, hkeys⟩ := hevent
    have hindexed : runEnded.Indexed manifest := by
      refine ⟨fun key => iff_of_false (fun hmem => hkeys _ hmem rfl) ?_, hts⟩
      rw [hheaders]
      nofun
    have hsent : { p with thread := p.thread.step (.send (.close runEnded)) }.Traced manifest thread :=
      h.turn fun message hmessage => by cases hmessage; exact hindexed
    exact hsent.turn nofun
  | drop | recv | timeout => exact h.turn nofun

theorem Traced.after (h : p.Traced manifest thread) {events : List (CaptureEvent M)}
    (hevents : ∀ event ∈ events, event.Proper manifest) : (p.after events).Traced manifest thread := by
  induction events generalizing p with
  | nil => exact h
  | cons event events ih =>
    obtain ⟨hevent, hevents⟩ := forall_mem_cons.mp hevents
    exact ih (h.step hevent) hevents

end CapturePipeline

/-! ## The run that was captured -/

/-- The drafts a writer has committed to a fresh run are among those sent, and the run is sealed if
a close was acknowledged. -/
theorem Writer.Sound.outcome {manifest : RunManifest} {w : Writer MemoryBackend}
    (h : w.Sound (MemoryRun.fresh manifest)) : ∃ drafts : List Submission,
      (∀ draft ∈ drafts, ∃ message ∈ w.sent, message.draft = draft.1) ∧
      (w.backend.inner = ⟨some (holding manifest drafts)⟩ ∧ (∀ n, .ok n ∉ w.acks) ∨
        w.backend.inner = ⟨some (sealedHolding manifest drafts .ended)⟩) := by
  have hsubmitted : ∀ draft ∈ submissions w.sent, ∃ message ∈ w.sent, message.draft = draft.1 := by
    intro draft hmem
    obtain ⟨message, hmessage, hdraft⟩ := mem_filterMap.mp hmem
    cases message with
    | entry => cases hdraft; exact ⟨_, hmessage, rfl⟩
    | close => nomatch hdraft
  have hclosed : ∀ {runEnded} now, .close runEnded ∈ w.sent →
      ∀ draft ∈ submissions w.sent ++ [(runEnded, now)],
        ∃ message ∈ w.sent, message.draft = draft.1 := by
    intro runEnded now hclose draft hmem
    rcases mem_append.mp hmem with hmem | hmem
    · exact hsubmitted draft hmem
    · rw [mem_singleton.mp hmem]
      exact ⟨_, hclose, rfl⟩
  cases h with
  | running done pending h =>
    refine ⟨done, fun draft hmem => hsubmitted draft ?_, .inl ⟨h.inner, h.acks⟩⟩
    rw [h.sent, append_assoc]
    exact mem_append_left _ hmem
  | stopped _ done rest hleft hsent =>
    refine ⟨done, fun draft hmem => hsubmitted draft ?_, .inl ⟨hleft.inner, hleft.acks⟩⟩
    rw [hsent]
    exact mem_append_left _ hmem
  | ended _ runEnded now hclose hleft =>
    exact ⟨_, hclosed now hclose, .inl ⟨hleft.inner, hleft.acks⟩⟩
  | closed _ runEnded now hclose _ final hfinal hinner =>
    refine ⟨_, hclosed now hclose, .inr ?_⟩
    rw [hinner, hfinal]
    rfl

/-- The file can be opened again with a manifest of the same run, sealed as recovered, and
verified. -/
def RedbBackend.Recovers (store : RedbBackend) (manifest : RunManifest)
    (committed : List EventStoreEntry) : Prop :=
  ∀ manifest' : RunManifest, manifest'.instanceId = manifest.instanceId →
    manifest'.runId = manifest.runId → ∃ reopened recovered,
      RedbBackend.openRun ⟨store.files, none⟩ manifest' = (reopened, .error .crashedPredecessor) ∧
      reopened.sealRun .crashedRecovered = (recovered, .ok ()) ∧
      recovered.Verified .crashedRecovered committed

theorem recovers_of_holding {store : RedbBackend} {manifest : RunManifest} {drafts : List Submission}
    {file : RedbRun} (hfiled : Filed manifest store file)
    (hsame : SameRun (holding manifest drafts) file)
    (hdrafts : ∀ draft ∈ drafts, draft.1.Indexed manifest) :
    store.Recovers manifest (holding manifest drafts).entries := by
  intro manifest' hinstance hrun
  have hfiled' : Filed manifest ⟨store.files, some file⟩ file :=
    ⟨rfl, hfiled.path, hfiled.onDisk, hfiled.running⟩
  obtain ⟨_, _, store', _, hmemory, hstore, hsame', hfiled'', -⟩ :=
    hfiled'.sealRun hsame .crashedRecovered
  have hsealed : MemoryBackend.sealRun ⟨some (holding manifest drafts)⟩ .crashedRecovered =
      (⟨some (sealedHolding manifest drafts .crashedRecovered)⟩, .ok ()) := by
    simp only [MemoryBackend.sealRun, manifest_holding, sealedHolding]
    rfl
  rw [hsealed] at hmemory
  cases hmemory
  refine ⟨_, store', openRun_reopens hfiled hsame hinstance hrun, hstore, ?_⟩
  rw [entries_holding]
  exact verified_of_sealed hfiled'' hsame' hdrafts

/-- **Whatever the schedule, a captured run can be verified**: once a close is acknowledged it is
sealed; sealed, or cut off and recovered, it gives a clean report and reads back as committed. -/
theorem captured_run_verifies {store₀ store : RedbBackend} {manifest : RunManifest}
    (hopen : store₀.openRun manifest = (store, .ok ())) (faults : List (Option EventStoreError))
    (maxBatchEntries : Nat) (thread : Writer RedbBackend)
    (hspawn : Writer.spawn ⟨store, faults, [], []⟩ maxBatchEntries = .ok thread)
    (registry : EncoderRegistry M) (hregistry : registry.EmitsOrderKeys) (haltThreshold : Nat)
    (events : List (CaptureEvent M)) (hevents : ∀ event ∈ events, event.Proper manifest)
    (ended : Writer RedbBackend)
    (hended : ended = ((CapturePipeline.new registry haltThreshold thread).after events).thread) :
    ∃ current, ended.backend.inner.manifest = .ok current ∧
      (∀ n, .ok n ∈ ended.acks → current.isSealed = true) ∧
      (current.isSealed = true → ended.backend.inner.Verified .ended ended.backend.committed) ∧
      (current.isSealed = false →
        ended.backend.inner.Recovers manifest ended.backend.committed) := by
  have hR := answersAlike_recorded manifest
  obtain ⟨_, hwriter, hfollows₀⟩ := Follows.spawn hR (recorded_of_openRun hopen faults) hspawn
  have hnew : (CapturePipeline.new registry haltThreshold thread).Traced manifest thread := by
    refine ⟨hregistry, ⟨[], rfl⟩, ?_⟩
    rw [CapturePipeline.new, Writer.sent_spawn hspawn]
    rintro _ ⟨⟩
  have htraced := hnew.after hevents
  obtain ⟨turns, hthread⟩ := htraced.thread
  rw [← hended] at hthread
  have hfollows := hfollows₀.after hR turns
  rw [← hthread] at hfollows
  -- what the writer over a run in memory holds, the file holds
  obtain ⟨drafts, hfrom, hheld⟩ := ((Writer.Sound.spawn hwriter).after turns).outcome
  have hdrafts : ∀ draft ∈ drafts, draft.1.Indexed manifest := by
    intro draft hmem
    obtain ⟨message, hmessage, hdraft⟩ := hfrom draft hmem
    rw [← hdraft]
    refine htraced.sent message ?_
    rw [← hended, hfollows.sent]
    exact hmessage
  obtain ⟨-, run, file, hinner, hsame, hfiled, hcommitted⟩ := hfollows.backend
  refine ⟨file.manifest, by rw [RedbBackend.manifest, hfiled.state], ?_⟩
  rcases hheld with ⟨hheld, hacks⟩ | hheld
  · obtain rfl : run = holding manifest drafts :=
      Option.some.inj (congrArg MemoryBackend.state (hinner.symm.trans hheld))
    have hrunning : file.manifest.isSealed = false := by
      rw [← hsame.manifest, manifest_holding]
      rfl
    refine ⟨fun n hack => absurd hack ?_, fun hsealed => ?_, fun _ => ?_⟩
    · rw [hfollows.acks]
      exact hacks n
    · rw [hrunning] at hsealed
      cases hsealed
    · rw [hcommitted]
      exact recovers_of_holding hfiled hsame hdrafts
  · obtain rfl : run = sealedHolding manifest drafts .ended :=
      Option.some.inj (congrArg MemoryBackend.state (hinner.symm.trans hheld))
    have hsealed : file.manifest.isSealed = true := by
      rw [← hsame.manifest]
      rfl
    refine ⟨fun _ _ => hsealed, fun _ => ?_, fun hrunning => ?_⟩
    · have hentries : ended.backend.committed = (stamped 1 drafts).map AppendEntry.entry :=
        hcommitted.trans entries_holding
      rw [hentries]
      exact verified_of_sealed hfiled hsame hdrafts
    · rw [hsealed] at hrunning
      cases hrunning

end Capture

section Instances

attribute [local instance] StoreCode.plain

/-- Texts, which the one registered encoder copies. -/
local instance Sample.textTypeId : HasTypeId String := ⟨fun _ => "Text"⟩

def Sample.textRegistry : EncoderRegistry String :=
  ⟨IndexMap.empty.insert "Text" ⟨"Text", fun message =>
    .ok ⟨[], [⟨.clientOrderId, message⟩], none⟩⟩⟩

def Sample.captureManifest : RunManifest := ⟨"1-a", "trader", 1, none, 0, .running⟩

/-- A message with an intent id, and the close. -/
def Sample.captureEvents : List (CaptureEvent String) :=
  [.capture "topic" "O-1" ⟨some ⟨"I-1"⟩, none, none⟩ 5 6 none, .recv 7,
    .close ⟨⟨none, none, none⟩, "run", "RunEnded", [], 8, []⟩, .recv 9]

def Sample.captureThread : Writer RedbBackend :=
  ⟨⟨(RedbBackend.new.openRun captureManifest).1, [], [], []⟩, 10, [], true, 1, [], false, 0, true,
    [], [], []⟩

def Sample.captured : Writer RedbBackend :=
  ((CapturePipeline.new textRegistry 1000 captureThread).after
    captureEvents).thread

open Sample

theorem captured_run_verifies_closed :
    captured.backend.committed.length = 2 ∧
      ∃ current, captured.backend.inner.manifest = .ok current ∧ current.isSealed = true ∧
        captured.backend.inner.Verified .ended captured.backend.committed := by
  have hopen : new.openRun captureManifest = ((new.openRun captureManifest).1, .ok ()) := rfl
  have hregistry : textRegistry.EmitsOrderKeys := by
    intro typeId reg hreg message encoded hencode indexKey hmem
    rw [textRegistry, IndexMap.get?_insert] at hreg
    split at hreg
    · cases hreg
      cases hencode
      exact .inl (congrArg IndexKey.kind (mem_singleton.mp hmem))
    · cases hreg
  have hproper : ∀ event ∈ captureEvents, event.Proper captureManifest := by
    simp [captureEvents, CaptureEvent.Proper, captureManifest]
  obtain ⟨current, hcurrent, hacked, hsealed, -⟩ := captured_run_verifies hopen [] 10
    captureThread rfl textRegistry hregistry 1000 captureEvents hproper _ rfl
  have hack : current.isSealed = true := hacked 2 (mem_singleton_self _)
  exact ⟨rfl, current, hcurrent, hack, hsealed hack⟩

end Instances

end Nautilus
