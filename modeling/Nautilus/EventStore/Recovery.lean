import Nautilus.EventStore.Thread
import Nautilus.EventStore.Verifier

/-!
# A run that was written can be verified

A run holds the drafts committed to it, and is sealed, or the process ends and the file is opened
again. `compute_progress` then counts from the rows what the lost process had counted, so the run
comes back as it was (`openRun_reopens`).

A sealed run whose intent index has exactly the intent ids of its headers and whose entries are not
older than its manifest is sound (`RedbRun.sound_of_sealed`); the verifier reports nothing.
-/

namespace Nautilus

open Lib List Option IndexMap RedbBackend RunFile StoreCode

variable {seq : Nat}

/-! ## What a run holds -/

section Indices

variable {kind : IndexKind} {key : String}

theorem Indices.get?_orInsert (seq : Nat) (indexKey : IndexKey) (indices : Indices) :
    ((indices.orInsert seq indexKey).mapFor kind).get? key =
      ((indices.mapFor kind).get? key).or (if indexKey = ⟨kind, key⟩ then some seq else none) := by
  unfold Indices.orInsert
  dsimp only
  split
  · rename_i hhas
    split
    · rename_i heq
      obtain ⟨_, hold⟩ := containsKey_iff.mp hhas
      rw [heq] at hold
      rw [hold, some_or]
    · rw [or_none]
  · rename_i hnew
    have habsent : (indices.mapFor indexKey.kind).get? indexKey.key = none := by
      simpa [containsKey] using hnew
    rw [Indices.mapFor_setFor]
    by_cases hkind : kind = indexKey.kind
    · subst hkind
      rw [if_pos rfl, get?_insert]
      by_cases hkey : key = indexKey.key
      · subst hkey
        rw [if_pos rfl, habsent, none_or, if_pos rfl]
      · have hne : indexKey ≠ ⟨indexKey.kind, key⟩ := fun heq =>
          hkey (congrArg IndexKey.key heq).symm
        rw [if_neg hkey, if_neg hne, or_none]
    · have hne : indexKey ≠ ⟨kind, key⟩ := fun heq => hkind (congrArg IndexKey.kind heq).symm
      rw [if_neg hkind, if_neg hne, or_none]

theorem Indices.get?_foldl_orInsert (seq : Nat) (indexKeys : List IndexKey) (indices : Indices) :
    ((indexKeys.foldl (Indices.orInsert seq) indices).mapFor kind).get? key =
      ((indices.mapFor kind).get? key).or (if ⟨kind, key⟩ ∈ indexKeys then some seq else none) := by
  induction indexKeys generalizing indices with
  | nil => simp
  | cons indexKey indexKeys ih =>
    rw [foldl_cons, ih, get?_orInsert, Option.or_assoc]
    congr 1
    by_cases heq : indexKey = ⟨kind, key⟩
    · simp [heq]
    · simp [heq, Ne.symm heq]

theorem MemoryRun.get?_foldl_record (entries : List AppendEntry) (run : MemoryRun) :
    ((entries.foldl record run).indices.mapFor kind).get? key =
      ((run.indices.mapFor kind).get? key).or
        ((entries.find? fun append => ⟨kind, key⟩ ∈ append.indexKeys).map
          fun append => append.entry.seq) := by
  induction entries generalizing run with
  | nil => simp
  | cons append entries ih =>
    rw [foldl_cons, ih]
    show ((append.indexKeys.foldl (Indices.orInsert append.entry.seq) run.indices).mapFor kind
      |>.get? key).or _ = _
    rw [Indices.get?_foldl_orInsert, Option.or_assoc, find?_cons]
    by_cases hmem : (⟨kind, key⟩ : IndexKey) ∈ append.indexKeys
    · simp [hmem]
    · simp [hmem]

end Indices

theorem MemoryRun.indices_written (run : MemoryRun) (entries : List AppendEntry) :
    (run.written entries).indices = (entries.foldl record run).indices := by
  cases entries <;> rfl

/-- The later timestamp is kept, so the last one is. -/
theorem isGreatest_foldl_laterTs (entries : List AppendEntry) (ts : Nat) :
    IsGreatest { x | x = ts ∨ ∃ append ∈ entries, append.entry.tsInit = x }
      (entries.foldl (fun ts append => laterTs ts append.entry.tsInit) ts) := by
  induction entries generalizing ts with
  | nil => exact ⟨.inl rfl, by rintro x (rfl | ⟨_, hmem, -⟩); exacts [Nat.le_refl _, nomatch hmem]⟩
  | cons append entries ih =>
    obtain ⟨hmem, hmax⟩ := ih (laterTs ts append.entry.tsInit)
    have hle : ts ≤ laterTs ts append.entry.tsInit ∧
        append.entry.tsInit ≤ laterTs ts append.entry.tsInit := by
      unfold laterTs
      split
      · exact ⟨Nat.le_of_lt ‹_›, Nat.le_refl _⟩
      · exact ⟨Nat.le_refl _, Nat.le_of_not_lt ‹_›⟩
    have hlater := hmax (.inl rfl)
    refine ⟨?_, ?_⟩
    · rcases hmem with heq | ⟨append', hmem', heq⟩
      · rw [foldl_cons, heq]
        unfold laterTs
        split
        · exact .inr ⟨append, mem_cons_self, rfl⟩
        · exact .inl rfl
      · exact .inr ⟨append', mem_cons_of_mem _ hmem', heq⟩
    · rintro x (rfl | ⟨append', hmem', rfl⟩)
      · exact hle.1.trans hlater
      · rcases mem_cons.mp hmem' with rfl | hmem'
        · exact hle.2.trans hlater
        · exact hmax (.inr ⟨append', hmem', rfl⟩)

/-- Timestamps start at zero, so nothing is later than the last of some entries. -/
theorem isGreatest_laterTs {entries : List AppendEntry} (h : entries ≠ []) :
    IsGreatest { ts | ∃ append ∈ entries, append.entry.tsInit = ts }
      (entries.foldl (fun ts append => laterTs ts append.entry.tsInit) 0) := by
  obtain ⟨hmem, hmax⟩ := isGreatest_foldl_laterTs entries 0
  refine ⟨?_, fun x hx => hmax (.inr hx)⟩
  rcases hmem with hzero | hmem
  · obtain ⟨append, happend⟩ := exists_mem_of_ne_nil entries h
    have hle := hmax (.inr ⟨append, happend, rfl⟩)
    rw [hzero] at hle ⊢
    exact ⟨append, happend, Nat.le_zero.mp hle⟩
  · exact hmem

section Holds

variable [StoreCode]

theorem getElem?_stamped (first : Nat) (drafts : List Submission) (i : Nat) :
    (stamped first drafts)[i]? =
      drafts[i]?.map fun draft => buildAppendEntry draft.1 draft.2 (first + i) := by
  induction drafts generalizing first i with
  | nil => rfl
  | cons draft drafts ih =>
    cases i with
    | zero => rfl
    | succ i =>
      rw [stamped, getElem?_cons_succ, getElem?_cons_succ, ih, Nat.add_assoc, Nat.add_comm 1 i]

variable (manifest : RunManifest)

def MemoryRun.fresh : MemoryRun := ⟨manifest.opened, [], .empty, 0, 0⟩

/-- The run of a manifest with the drafts that were committed to it. -/
def MemoryRun.holding (drafts : List Submission) : MemoryRun :=
  (fresh manifest).written (stamped 1 drafts)

/-- The run of a manifest, sealed after the drafts that were committed to it. -/
def MemoryRun.sealedHolding (drafts : List Submission) (status : RunStatus) : MemoryRun :=
  let run := holding manifest drafts
  { run with manifest := run.manifest.sealedAs status run.highWatermark run.maxTsInit }

namespace MemoryRun

variable {manifest : RunManifest} {drafts : List Submission}

theorem entries_holding :
    (holding manifest drafts).entries = (stamped 1 drafts).map AppendEntry.entry :=
  entries_written (fresh manifest) _

theorem highWatermark_holding : (holding manifest drafts).highWatermark = drafts.length :=
  (highWatermark_written (fresh manifest) drafts).trans (Nat.zero_add _)

theorem manifest_holding :
    (holding manifest drafts).manifest = { manifest.opened with highWatermark := drafts.length } := by
  have hhwm : ((stamped 1 drafts).foldl record (fresh manifest)).highWatermark = drafts.length :=
    (highWatermark_foldl_stamped (fresh manifest) drafts).trans (Nat.zero_add _)
  unfold holding written
  split
  · rename_i hempty
    rw [stamped_eq_nil_iff.mp (isEmpty_iff.mp hempty)]
    rfl
  · rw [← hhwm]
    dsimp only
    rw [(foldl_record _ _).1]
    rfl

theorem maxTsInit_holding : (holding manifest drafts).maxTsInit =
    (stamped 1 drafts).foldl (fun ts append => laterTs ts append.entry.tsInit) 0 := by
  refine Eq.trans ?_ (foldl_record (stamped 1 drafts) (fresh manifest)).2.2
  unfold holding
  cases stamped 1 drafts <;> rfl

theorem get?_holding (kind : IndexKind) (key : String) :
    ((holding manifest drafts).indices.mapFor kind).get? key =
      ((stamped 1 drafts).find? fun append => ⟨kind, key⟩ ∈ append.indexKeys).map
        fun append => append.entry.seq := by
  rw [holding, indices_written, get?_foldl_record]
  cases kind <;> rfl

def KeyedAt (drafts : List Submission) (kind : IndexKind) (key : String) (seq : Nat) : Prop :=
  ∃ i draft, drafts[i]? = some draft ∧ ⟨kind, key⟩ ∈ draft.1.indexKeys ∧ seq = i + 1

theorem keyedAt_iff {kind : IndexKind} {key : String} {i : Nat} {append : AppendEntry}
    (h : (stamped 1 drafts)[i]? = some append) :
    KeyedAt drafts kind key (i + 1) ↔ ⟨kind, key⟩ ∈ append.indexKeys := by
  rw [getElem?_stamped, map_eq_some_iff] at h
  obtain ⟨draft, hdraft, rfl⟩ := h
  constructor
  · rintro ⟨i', _, hdraft', hkey, heq⟩
    obtain rfl : i = i' := Nat.add_right_cancel heq
    obtain rfl := some.inj (hdraft.symm.trans hdraft')
    exact hkey
  · exact fun hkey => ⟨i, draft, hdraft, hkey, rfl⟩

/-- An index leads to the first draft with the key. -/
theorem get?_holding_iff {kind : IndexKind} {key : String} :
    ((holding manifest drafts).indices.mapFor kind).get? key = some seq ↔
      IsLeast { seq | KeyedAt drafts kind key seq } seq := by
  rw [get?_holding, map_eq_some_iff]
  constructor
  · rintro ⟨_, hfind, rfl⟩
    obtain ⟨hkey, i, hi, rfl, hbefore⟩ := find?_eq_some_iff_getElem.mp hfind
    have hget := getElem?_eq_getElem hi
    have hseq : ((stamped 1 drafts)[i]).entry.seq = i + 1 := by
      rw [getElem?_stamped, map_eq_some_iff] at hget
      obtain ⟨draft, -, hbuild⟩ := hget
      rw [← hbuild]
      exact Nat.add_comm 1 i
    rw [hseq]
    refine ⟨(keyedAt_iff hget).mpr (of_decide_eq_true hkey), ?_⟩
    rintro _ ⟨j, draft, hdraft, hkeyed, rfl⟩
    by_contra hlt
    have hj : j < i := by omega
    have hnot := hbefore j hj
    have hgetj := getElem?_eq_getElem (hj.trans hi)
    rw [decide_eq_true ((keyedAt_iff hgetj).mp ⟨j, draft, hdraft, hkeyed, rfl⟩)] at hnot
    nomatch hnot
  · rintro ⟨⟨i, draft, hdraft, hkeyed, rfl⟩, hleast⟩
    have hget : (stamped 1 drafts)[i]? = some (buildAppendEntry draft.1 draft.2 (1 + i)) := by
      rw [getElem?_stamped, hdraft]
      rfl
    obtain ⟨hi, hgetElem⟩ := List.getElem?_eq_some_iff.mp hget
    refine ⟨_, find?_eq_some_iff_getElem.mpr ⟨decide_eq_true hkeyed, i, hi, hgetElem, ?_⟩,
      Nat.add_comm 1 i⟩
    intro j hj
    have hgetj := getElem?_eq_getElem (hj.trans hi)
    rw [Bool.not_eq_true', decide_eq_false_iff_not, ← keyedAt_iff hgetj]
    intro hkeyedj
    have hle := hleast hkeyedj
    omega

end MemoryRun

open MemoryRun (holding sealedHolding KeyedAt entries_holding highWatermark_holding
  manifest_holding maxTsInit_holding)

/-! ## A sealed run is sound -/

/-- The intent id of the headers is the one key of its index, and the draft is not older than the
run. -/
structure EntryDraft.Indexed (draft : EntryDraft) (manifest : RunManifest) : Prop where
  intent : ∀ key, ⟨.intentId, key⟩ ∈ draft.indexKeys ↔ draft.headers.intentId = some ⟨key⟩
  ts : manifest.startTsInit ≤ draft.tsInit

namespace RedbRun

variable {manifest : RunManifest} {drafts : List Submission} {run : MemoryRun} {file : RedbRun}

section

variable (h : SameRun run file)

include h

/-- The rows of a file decode to the entries of the run. -/
theorem get?_of_sameRun {bytes : Bytes} :
    file.db.entries.get? seq = some bytes ↔ ∃ i entry, run.entries[i]? = some entry ∧ seq = i + 1 ∧
      bytes = encodeEntry entry := by
  rw [OrdMap.get?_eq_some_iff]
  constructor
  · rintro ⟨_, hkey, hmem⟩
    rw [h.rows] at hmem
    obtain ⟨i, entry, hget, heq⟩ := mem_rowsFrom_iff.mp hmem
    obtain ⟨rfl, rfl⟩ := Prod.mk.inj heq
    have hseq : 1 + i = seq := Std.LawfulEqCmp.eq_of_compare hkey
    exact ⟨i, entry, hget, by omega, rfl⟩
  · rintro ⟨i, entry, hget, rfl, rfl⟩
    refine ⟨i + 1, Std.ReflCmp.compare_self, ?_⟩
    rw [h.rows]
    exact mem_rowsFrom_iff.mpr ⟨i, entry, hget, by rw [Nat.add_comm]⟩

theorem decodable_of_sameRun : file.Decodable := by
  intro seq bytes hget
  obtain ⟨i, entry, -, -, rfl⟩ := (get?_of_sameRun h).mp hget
  exact ⟨entry, decode_encodeEntry entry⟩

theorem entry?_of_sameRun {entry : EventStoreEntry} :
    file.entry? seq = some entry ↔ ∃ i, run.entries[i]? = some entry ∧ seq = i + 1 := by
  unfold entry?
  rw [bind_eq_some_iff]
  constructor
  · rintro ⟨_, hget, hdec⟩
    obtain ⟨i, _, hentry, rfl, rfl⟩ := (get?_of_sameRun h).mp hget
    rw [decode_encodeEntry] at hdec
    exact ⟨i, (some.inj hdec) ▸ hentry, rfl⟩
  · rintro ⟨i, hentry, rfl⟩
    refine ⟨_, (get?_of_sameRun h).mpr ⟨i, entry, hentry, rfl, rfl⟩, ?_⟩
    rw [decode_encodeEntry]
    rfl

variable (hentries : run.entries = (stamped 1 drafts).map AppendEntry.entry)
  (hhwm : run.highWatermark = drafts.length)

include hentries hhwm

theorem clean_iff {entry : EventStoreEntry} :
    file.Clean seq entry ↔ ∃ i draft, drafts[i]? = some draft ∧ seq = i + 1 ∧
      entry = (buildAppendEntry draft.1 draft.2 (i + 1)).entry := by
  have hget : ∀ i, run.entries[i]? = drafts[i]?.map fun draft =>
      (buildAppendEntry draft.1 draft.2 (i + 1)).entry := by
    intro i
    rw [hentries, getElem?_map, getElem?_stamped, Option.map_map, Nat.add_comm 1 i]
    rfl
  constructor
  · intro hclean
    obtain ⟨i, hentry, rfl⟩ := (entry?_of_sameRun h).mp hclean.row
    rw [hget, map_eq_some_iff] at hentry
    obtain ⟨draft, hdraft, rfl⟩ := hentry
    exact ⟨i, draft, hdraft, rfl, rfl⟩
  · rintro ⟨i, draft, hdraft, rfl, rfl⟩
    have hi := (List.getElem?_eq_some_iff.mp hdraft).1
    refine ⟨Nat.succ_pos i, ?_, (entry?_of_sameRun h).mpr ⟨i, ?_, rfl⟩, beq_self_eq_true _, rfl⟩
    · rw [← h.highWatermark, hhwm]
      exact hi
    · rw [hget, hdraft]
      rfl

theorem timestamps_eq :
    { ts | ∃ seq entry, file.Clean seq entry ∧ entry.tsInit = ts } =
      { ts | ∃ append ∈ stamped 1 drafts, append.entry.tsInit = ts } := by
  ext ts
  constructor
  · rintro ⟨seq, entry, hentry, rfl⟩
    obtain ⟨i, draft, hdraft, rfl, rfl⟩ := (clean_iff h hentries hhwm).mp hentry
    have hget := getElem?_stamped 1 drafts i
    rw [hdraft, map_some, Nat.add_comm 1 i] at hget
    exact ⟨_, mem_of_getElem? hget, rfl⟩
  · rintro ⟨append, happend, rfl⟩
    obtain ⟨i, hi⟩ := getElem?_of_mem happend
    rw [getElem?_stamped, map_eq_some_iff, Nat.add_comm 1 i] at hi
    obtain ⟨draft, hdraft, rfl⟩ := hi
    exact ⟨i + 1, _, (clean_iff h hentries hhwm).mpr ⟨i, draft, hdraft, rfl, rfl⟩, rfl⟩

end

/-- **A sealed run of indexed drafts is sound.** -/
theorem sound_of_sealed {status : RunStatus}
    (h : SameRun (sealedHolding manifest drafts status) file)
    (hdrafts : ∀ draft ∈ drafts, draft.1.Indexed manifest) : file.Sound := by
  have hclean : ∀ {seq entry}, file.Clean seq entry ↔ _ :=
    clean_iff h entries_holding highWatermark_holding
  have htables : ∀ kind key seq, (file.db.tableFor kind).get? key = some seq ↔
      IsLeast { seq | KeyedAt drafts kind key seq } seq := by
    intro kind key seq
    rw [← h.indices kind key]
    exact MemoryRun.get?_holding_iff
  have hkeyed : ∀ {kind key seq}, KeyedAt drafts kind key seq → ∃ entry, file.Clean seq entry := by
    rintro kind key _ ⟨i, draft, hdraft, -, rfl⟩
    exact ⟨_, hclean.mpr ⟨i, draft, hdraft, rfl, rfl⟩⟩
  have hcarries : ∀ key seq, file.Carries key seq ↔ KeyedAt drafts .intentId key seq := by
    intro key seq
    constructor
    · rintro ⟨entry, hentry, hintent⟩
      obtain ⟨i, draft, hdraft, rfl, rfl⟩ := hclean.mp hentry
      have hindexed := hdrafts draft (mem_of_getElem? hdraft)
      exact ⟨i, draft, hdraft, (hindexed.intent key).mpr hintent, rfl⟩
    · rintro ⟨i, draft, hdraft, hkey, rfl⟩
      have hindexed := hdrafts draft (mem_of_getElem? hdraft)
      exact ⟨_, hclean.mpr ⟨i, draft, hdraft, rfl, rfl⟩, (hindexed.intent key).mp hkey⟩
  have hmanifest := h.manifest
  have hhwm : drafts.length = file.highWatermark := highWatermark_holding.symm.trans h.highWatermark
  refine ⟨fun seq hpos hle => ?_, fun key seq => ?_, fun key seq hget => ?_, fun key seq hget => ?_,
    ?_, fun seq entry hentry => ?_, fun _ ts => ?_⟩
  · have hlt : seq - 1 < drafts.length := by omega
    refine ⟨_, hclean.mpr ⟨seq - 1, drafts[seq - 1], getElem?_eq_getElem hlt, by omega, rfl⟩⟩
  · simp only [hcarries]
    exact htables .intentId key seq
  · exact hkeyed ((htables .clientOrderId key seq).mp hget).1
  · exact hkeyed ((htables .venueOrderId key seq).mp hget).1
  · rw [← hmanifest]
    exact h.highWatermark
  · obtain ⟨i, draft, hdraft, rfl, rfl⟩ := hclean.mp hentry
    have hstart : file.manifest.startTsInit = manifest.startTsInit := by
      rw [← hmanifest]
      show (holding manifest drafts).manifest.startTsInit = _
      rw [manifest_holding]
      rfl
    rw [hstart]
    exact (hdrafts draft (mem_of_getElem? hdraft)).ts
  · have htimes := timestamps_eq h entries_holding highWatermark_holding
    have hend : file.manifest.endTsInit =
        if drafts.length > 0 then some (holding manifest drafts).maxTsInit else none := by
      rw [← hmanifest]
      show (if (holding manifest drafts).highWatermark > 0 then _ else
        (holding manifest drafts).manifest.endTsInit) = _
      rw [manifest_holding, highWatermark_holding]
      rfl
    rw [hend, htimes, maxTsInit_holding]
    by_cases hempty : drafts = []
    · subst hempty
      exact iff_of_false nofun fun hgreatest => nomatch hgreatest.1.choose_spec.1
    · rw [if_pos (length_pos_of_ne_nil hempty), some_inj]
      have hgreatest := isGreatest_laterTs (mt stamped_eq_nil_iff.mp hempty : stamped 1 drafts ≠ [])
      exact ⟨fun heq => heq ▸ hgreatest, fun hts => hgreatest.unique hts⟩

end RedbRun

theorem MemoryBackend.scanRange_all {run : MemoryRun}
    (hintact : ∀ entry ∈ run.entries, entry.isIntact = true) :
    MemoryBackend.scanRange ⟨some run⟩ 1 run.entries.length .forward = .ok run.entries := by
  unfold scanRange
  dsimp only
  by_cases hempty : run.entries = []
  · rw [hempty]
    rfl
  have hlen := length_pos_of_ne_nil hempty
  rw [if_neg (by simp [hempty]), if_neg (by omega), Nat.min_self, Nat.sub_self,
    drop_zero, take_length]
  have hnone : (run.entries.find? fun entry => !entry.isIntact) = none := by
    rw [find?_eq_none]
    intro entry hentry
    simp [hintact entry hentry]
  rw [hnone]
  rfl

/-- A stored run can be verified: nothing is found, and it is read back as it was committed. -/
structure RedbBackend.Verified (store : RedbBackend) (status : RunStatus)
    (committed : List EventStoreEntry) : Prop where
  report : ∃ report, store.verify = .ok report ∧ report.findings = [] ∧ report.status = status ∧
    report.highWatermark = committed.length
  read : store.scanRange 1 committed.length .forward = .ok committed

/-! ## The run in its file -/

instance : WriterStore RedbBackend :=
  ⟨RedbBackend.highWatermark, RedbBackend.appendBatch, RedbBackend.sealRun⟩

/-- The run is open and its file holds it, with the manifest of the open run until it is sealed. -/
structure Filed (manifest : RunManifest) (store : RedbBackend) (file : RedbRun) : Prop where
  state : store.state = some file
  path : file.filePath = runPath manifest.instanceId manifest.runId
  onDisk : store.files.get? file.filePath = some file.db
  running : file.manifest.isSealed = false →
    file.db.manifest = some (StoreCode.encodeManifest manifest.opened)

section Filed

variable {manifest : RunManifest} {store : RedbBackend} {run : MemoryRun} {file : RedbRun}

theorem Filed.commit (h : Filed manifest store file) {file' : RedbRun}
    (hpath : file'.filePath = file.filePath)
    (hrunning : file'.manifest.isSealed = false →
      file'.db.manifest = some (encodeManifest manifest.opened)) :
    Filed manifest (store.commit file') file' :=
  ⟨rfl, hpath.trans h.path, get?_insert_self _ _ _, hrunning⟩

theorem Filed.sameStore (h : Filed manifest store file) (hsame : SameRun run file) :
    SameStore [manifest.runId] ⟨some run⟩ ⟨.empty, some file⟩ := by
  refine ⟨.some hsame, nofun, ?_⟩
  rintro _ ⟨⟩
  exact ⟨manifest.instanceId, manifest.runId, mem_singleton_self _, h.path⟩

theorem verified_of_sealed {drafts : List Submission} {status : RunStatus}
    (hfiled : Filed manifest store file) (h : SameRun (sealedHolding manifest drafts status) file)
    (hdrafts : ∀ draft ∈ drafts, draft.1.Indexed manifest) :
    store.Verified status ((stamped 1 drafts).map AppendEntry.entry) := by
  have hentries : (sealedHolding manifest drafts status).entries =
      (stamped 1 drafts).map AppendEntry.entry := entries_holding
  have hlength : ((stamped 1 drafts).map AppendEntry.entry).length = file.highWatermark := by
    rw [← hentries, h.length]
    exact h.highWatermark
  obtain ⟨files, state⟩ := store
  obtain rfl : state = some file := hfiled.state
  constructor
  · obtain ⟨_, hverify, hiff, -⟩ := verify_eq files file (RedbRun.decodable_of_sameRun h)
    refine ⟨_, hverify, hiff.mpr (RedbRun.sound_of_sealed h hdrafts), ?_, hlength.symm⟩
    rw [← h.manifest]
    rfl
  · -- the directory does not matter to a read
    have hread := (hfiled.sameStore h).scanRange 1
      ((stamped 1 drafts).map AppendEntry.entry).length .forward
    rw [← hentries, MemoryBackend.scanRange_all] at hread
    · rw [← hentries]
      exact hread.symm
    intro entry hentry
    rw [hentries] at hentry
    obtain ⟨_, happend, rfl⟩ := mem_map.mp hentry
    obtain ⟨i, hi⟩ := getElem?_of_mem happend
    rw [getElem?_stamped, map_eq_some_iff] at hi
    obtain ⟨draft, -, rfl⟩ := hi
    exact beq_self_eq_true _

theorem RunFile.manifest_foldl_insertNew (seq : Nat) (indexKeys : List IndexKey) (db : RunFile) :
    (indexKeys.foldl (insertNew seq) db).manifest = db.manifest := by
  induction indexKeys generalizing db with
  | nil => rfl
  | cons indexKey indexKeys ih =>
    rw [foldl_cons, ih]
    unfold insertNew
    dsimp only
    split
    · rfl
    · cases indexKey.kind <;> rfl

theorem RunFile.manifest_foldl_record (entries : List AppendEntry) (db : RunFile) :
    (entries.foldl record db).manifest = db.manifest := by
  induction entries generalizing db with
  | nil => rfl
  | cons append entries ih =>
    rw [foldl_cons, ih]
    exact manifest_foldl_insertNew _ _ _

/-- A batch is taken by both runs or by neither, and the file holds what the memory does. -/
theorem Filed.appendBatch (h : Filed manifest store file) (hsame : SameRun run file)
    (entries : List AppendEntry) : ∃ run' file' store' answer,
      MemoryBackend.appendBatch ⟨some run⟩ entries = (⟨some run'⟩, answer) ∧
      store.appendBatch entries = (store', answer) ∧ SameRun run' file' ∧
      Filed manifest store' file' ∧
      run'.entries = run.entries ++
        if answer.isOk then entries.map AppendEntry.entry else [] := by
  obtain ⟨answer, hmemory, hstore, hnone⟩ | ⟨n, hmemory, hstore, hrun⟩ :=
    hsame.appendBatch h.state entries
  · refine ⟨run, file, store, answer, hmemory, hstore, hsame, h, ?_⟩
    rcases hnone with rfl | ⟨e, rfl⟩
    · cases answer <;> exact (append_nil _).symm
    · exact (append_nil _).symm
  · refine ⟨_, _, _, _, hmemory, hstore, hrun, h.commit rfl fun hopen => ?_,
      MemoryRun.entries_written run entries⟩
    show (entries.foldl record file.db).manifest = _
    rw [manifest_foldl_record]
    exact h.running hopen

theorem Filed.sealRun (h : Filed manifest store file) (hsame : SameRun run file)
    (status : RunStatus) : ∃ run' file' store' answer,
      MemoryBackend.sealRun ⟨some run⟩ status = (⟨some run'⟩, answer) ∧
      store.sealRun status = (store', answer) ∧ SameRun run' file' ∧
      Filed manifest store' file' ∧ run'.entries = run.entries := by
  obtain ⟨e, hmemory, hstore⟩ | ⟨hstatus, run', hmemory, hstore, hentries, hrun⟩ :=
    hsame.sealRun h.state status
  · exact ⟨run, file, store, _, hmemory, hstore, hsame, h, rfl⟩
  refine ⟨_, _, _, _, hmemory, hstore, hrun, h.commit rfl fun hopen => ?_, hentries⟩
  -- the new status is not that of an open run
  exact absurd (by simpa [RedbRun.sealedAs, RunManifest.isSealed, RunManifest.sealedAs] using hopen)
    hstatus

end Filed

/-- A run in memory and the same run in its file, with the same failures to come. -/
structure Recorded (manifest : RunManifest) (memory : Failing MemoryBackend)
    (store : Failing RedbBackend) : Prop where
  faults : memory.faults = store.faults
  run : ∃ run file, memory.inner = ⟨some run⟩ ∧ SameRun run file ∧
    Filed manifest store.inner file ∧ store.committed = run.entries

theorem answersAlike_recorded : AnswersAlike (Recorded manifest) := by
  constructor
  · rintro ⟨_, faults, appends, committed⟩ ⟨inner, _, appends', _⟩
      ⟨rfl, run, file, rfl, hsame, hfiled, rfl⟩
    have hrecorded : ∀ faults, Recorded manifest ⟨⟨some run⟩, faults, appends, committed⟩
      ⟨inner, faults, appends', run.entries⟩ := fun _ => ⟨rfl, run, file, rfl, hsame, hfiled, rfl⟩
    have hanswer : Except.ok run.highWatermark = inner.highWatermark := by
      rw [highWatermark, hfiled.state]
      exact congrArg Except.ok hsame.highWatermark
    rcases faults with _ | ⟨_ | e, faults⟩
    · exact ⟨hrecorded [], hanswer⟩
    · exact ⟨hrecorded faults, hanswer⟩
    · exact ⟨hrecorded faults, rfl⟩
  · rintro ⟨_, faults, appends, committed⟩ ⟨inner, _, appends', _⟩
      ⟨rfl, run, file, rfl, hsame, hfiled, rfl⟩ entries
    obtain ⟨run', file', store', answer, hmemory, hstore, hsame', hfiled', hentries⟩ :=
      hfiled.appendBatch hsame entries
    have hmemory : WriterStore.appendBatch (MemoryBackend.mk (some run)) entries = _ := hmemory
    have hstore : WriterStore.appendBatch inner entries = _ := hstore
    unfold Failing.appendBatch
    rw [hmemory, hstore]
    rcases faults with _ | ⟨_ | e, faults⟩
    iterate 2 exact ⟨⟨rfl, run', file', rfl, hsame', hfiled', hentries.symm⟩, rfl⟩
    · exact ⟨⟨rfl, run, file, rfl, hsame, hfiled, rfl⟩, rfl⟩
  · rintro ⟨_, faults, appends, committed⟩ ⟨inner, _, appends', _⟩
      ⟨rfl, run, file, rfl, hsame, hfiled, rfl⟩ status
    obtain ⟨run', file', store', answer, hmemory, hstore, hsame', hfiled', hentries⟩ :=
      hfiled.sealRun hsame status
    have hmemory : WriterStore.sealRun (MemoryBackend.mk (some run)) status = _ := hmemory
    have hstore : WriterStore.sealRun inner status = _ := hstore
    unfold Failing.sealRun
    rw [hmemory, hstore]
    rcases faults with _ | ⟨_ | e, faults⟩
    iterate 2 exact ⟨⟨rfl, run', file', rfl, hsame', hfiled', hentries.symm⟩, rfl⟩
    · exact ⟨⟨rfl, run, file, rfl, hsame, hfiled, rfl⟩, rfl⟩

/-! ## Opening a run -/

/-- A run that is opened without complaint is fresh, in memory and in its file. -/
theorem recorded_of_openRun {store₀ store : RedbBackend} {manifest : RunManifest}
    (h : store₀.openRun manifest = (store, .ok ())) (faults : List (Option EventStoreError)) :
    Recorded manifest ⟨⟨some (MemoryRun.fresh manifest)⟩, faults, [], []⟩
      ⟨store, faults, [], []⟩ := by
  unfold openRun at h
  split at h
  · cases h
  dsimp only at h
  split at h
  · cases h
  split at h
  · rename_i file hfile
    unfold recover at h
    repeat' split at h
    all_goals cases h
  · obtain ⟨rfl, -⟩ := Prod.mk.inj h
    refine ⟨rfl, _, _, rfl, ⟨rfl, rfl, rfl, rfl, rfl, ?_, ?_⟩, ⟨rfl, rfl, ?_, fun _ => rfl⟩, rfl⟩
    · rintro _ _ ⟨⟩
    · intro kind key
      cases kind <;> rfl
    · exact get?_insert_self _ _ _

theorem maxTs_rowsFrom (first : Nat) (entries : List EventStoreEntry) (ts : UnixNanos) :
    maxTs ts (rowsFrom first entries) =
      .ok (entries.foldl (fun ts entry => laterTs ts entry.tsInit) ts) := by
  induction entries generalizing first ts with
  | nil => rfl
  | cons entry entries ih =>
    rw [rowsFrom, maxTs, decode_encodeEntry]
    exact ih _ _

/-- The rows give back the progress that was counted along the way. -/
theorem computeProgress_rowsFrom {db : RunFile} {entries : List EventStoreEntry}
    (h : db.entries.entries = rowsFrom 1 entries) :
    db.computeProgress =
      .ok (entries.length, entries.foldl (fun ts entry => laterTs ts entry.tsInit) 0) := by
  unfold computeProgress
  rw [h, maxTs_rowsFrom]
  rcases eq_nil_or_concat entries with rfl | ⟨front, last, rfl⟩
  · rfl
  have hlast : (rowsFrom 1 (front ++ [last])).getLast? =
      some (1 + front.length, encodeEntry last) := by
    rw [rowsFrom_append]
    exact getLast?_concat
  rw [concat_eq_append, hlast, length_append, length_singleton, Nat.add_comm 1]

/-- **A file that is opened again after the process ended gives the run back as it was.** -/
theorem openRun_reopens {store : RedbBackend} {manifest manifest' : RunManifest}
    {drafts : List Submission} {file : RedbRun} (hfiled : Filed manifest store file)
    (hsame : SameRun (holding manifest drafts) file)
    (hinstance : manifest'.instanceId = manifest.instanceId)
    (hrun : manifest'.runId = manifest.runId) :
    openRun ⟨store.files, none⟩ manifest' =
      (⟨store.files, some file⟩, .error .crashedPredecessor) := by
  have hmanifest : file.manifest = { manifest.opened with highWatermark := file.highWatermark } := by
    rw [← hsame.manifest, ← hsame.highWatermark, manifest_holding, highWatermark_holding]
  have hread : file.db.readManifest = .ok (some manifest.opened) := by
    unfold readManifest
    rw [hfiled.running (by rw [hmanifest]; rfl)]
    dsimp only
    rw [decode_encodeManifest]
  have hprogress : file.db.computeProgress = .ok (file.highWatermark, file.maxTsInit) := by
    rw [computeProgress_rowsFrom hsame.rows, hsame.length, hsame.highWatermark, ← hsame.maxTsInit,
      maxTsInit_holding, entries_holding, foldl_map]
  have hondisk : store.files.get? (runPath manifest.instanceId manifest.runId) =
      some file.db := hfiled.path ▸ hfiled.onDisk
  unfold openRun
  rw [hinstance, hrun]
  dsimp only
  rw [hondisk]
  show recover _ _ file.db = _
  unfold recover
  rw [hread, hprogress]
  show (mk store.files (some ⟨file.db,
    { manifest.opened with highWatermark := file.highWatermark }, file.highWatermark,
    file.maxTsInit, runPath manifest.instanceId manifest.runId⟩), _) = _
  rw [← hmanifest, ← hfiled.path]

end Holds

end Nautilus
