import Nautilus.EventStore.Backends
import Nautilus.Lib.Sweep

/-!
# The verifier

`verifier/mod.rs` over the backend in files. `scanEntries` reads the numbers up to the
high-watermark: a missing row opens or prolongs a gap, a row with a wrong hash or number is
reported, and every other row feeds the projection of the intent ids and the extremes of the
timestamps, with which the stored indices and the manifest are then compared.

Table, indices and manifest are arbitrary. `Scanned` says what the scan knows after `n` numbers.
-/

namespace Nautilus

open Lib List Option RedbBackend RedbRun

variable {seq : Nat} {key : String} {findings : List VerifyFinding} {pairs : List (String × Nat)}

/-! ## Findings -/

structure GapRange where
  fromSeq : Nat
  toSeq : Nat
deriving DecidableEq

inductive IndexDrift where
  | missingFromStored (rebuiltSeq : Nat)
  | divergentSeq (storedSeq rebuiltSeq : Nat)
  | unknownKey (storedSeq : Nat)
  | danglingTarget (storedSeq : Nat)
  | targetCorrupted (storedSeq : Nat)
deriving DecidableEq

inductive ManifestField where
  | highWatermark
  | startTsInit
  | endTsInit
deriving DecidableEq

inductive VerifyFinding where
  | hashMismatch (seq : Nat)
  | gap (range : GapRange)
  | seqMismatch (tableKey embeddedSeq : Nat)
  | indexDrift (kind : IndexKind) (key : String) (drift : IndexDrift)
  | manifestMismatch (kind : ManifestField) (reason : String)
deriving DecidableEq

structure VerifyReport where
  runId : String
  status : RunStatus
  highWatermark : Nat
  entriesScanned : Nat
  findings : List VerifyFinding

def gapsOf (findings : List VerifyFinding) : List (Nat × Nat) :=
  findings.filterMap fun
    | .gap range => some (range.fromSeq, range.toSeq)
    | _ => none

/-- A finding that is not a gap. -/
def VerifyFinding.isOther : VerifyFinding → Bool
  | .gap _ => false
  | _ => true

/-! ## The scan -/

/-- `EntryScan` with the cursor of the open gap and the findings. -/
structure EntryScan where
  scanned : Nat
  minTs : Option Nat
  maxTs : Option Nat
  intentIndex : OrdMap (compare : String → String → Ordering) Nat
  cleanSeqs : Finset Nat
  corruptedSeqs : Finset Nat
  gapCursor : Option Nat
  findings : List VerifyFinding

namespace EntryScan

def empty : EntryScan := ⟨0, none, none, .empty, ∅, ∅, none, []⟩

variable (scan : EntryScan)

def recordEntry (entry : EventStoreEntry) : EntryScan :=
  { scan with
    minTs := some (scan.minTs.elim entry.tsInit fun cur => min cur entry.tsInit)
    maxTs := some (scan.maxTs.elim entry.tsInit fun cur => max cur entry.tsInit)
    intentIndex :=
      match entry.headers.intentId with
      | some intentId =>
        if (scan.intentIndex.get? intentId.value).isSome then scan.intentIndex
        else scan.intentIndex.insert intentId.value entry.seq
      | none => scan.intentIndex }

def extendPendingGap (seq : Nat) : EntryScan :=
  if scan.gapCursor.isNone then { scan with gapCursor := some seq } else scan

def flushPendingGap (nextSeq : Nat) : EntryScan :=
  match scan.gapCursor with
  | some start =>
    { scan with
      gapCursor := none
      findings := scan.findings ++ [.gap ⟨start, nextSeq - 1⟩] }
  | none => scan

/-- One turn of the loop of `scan_entries`. -/
def visit (seq : Nat) :
    Except EventStoreError (Option EventStoreEntry) → Except EventStoreError EntryScan
  | .ok (some entry) =>
    let scan := scan.flushPendingGap seq
    if entry.seq ≠ seq then
      .ok { scan with
        findings := scan.findings ++ [.seqMismatch seq entry.seq]
        corruptedSeqs := insert seq scan.corruptedSeqs
        scanned := scan.scanned + 1 }
    else
      let scan := scan.recordEntry entry
      .ok { scan with cleanSeqs := insert seq scan.cleanSeqs, scanned := scan.scanned + 1 }
  | .ok none => .ok (scan.extendPendingGap seq)
  | .error (.gap _ _ _) => .ok (scan.extendPendingGap seq)
  | .error (.hashMismatch bad) =>
    let scan := scan.flushPendingGap seq
    .ok { scan with
      findings := scan.findings ++ [.hashMismatch bad]
      corruptedSeqs := insert seq scan.corruptedSeqs
      scanned := scan.scanned + 1 }
  | .error other => .error other

end EntryScan

section Verify

variable [StoreCode] (self : RedbBackend)

def RedbBackend.scanEntries (highWatermark : Nat) : Except EventStoreError EntryScan := do
  let scan ← (List.range' 1 highWatermark).foldlM
    (fun scan seq => scan.visit seq (self.scanSeq seq)) EntryScan.empty
  return scan.flushPendingGap (highWatermark + 1)

def diffIndex (kind : IndexKind) (rebuilt stored : OrdMap (compare : String → String → Ordering) Nat) :
    List VerifyFinding :=
  (rebuilt.entries.filterMap fun (key, rebuiltSeq) =>
    match stored.get? key with
    | some storedSeq =>
      if storedSeq = rebuiltSeq then none
      else some (.indexDrift kind key (.divergentSeq storedSeq rebuiltSeq))
    | none => some (.indexDrift kind key (.missingFromStored rebuiltSeq))) ++
  stored.entries.filterMap fun (key, storedSeq) =>
    if (rebuilt.get? key).isSome then none
    else some (.indexDrift kind key (.unknownKey storedSeq))

def classifyTarget (storedSeq : Nat) (scan : EntryScan) : Option IndexDrift :=
  if storedSeq ∈ scan.cleanSeqs then none
  else if storedSeq ∈ scan.corruptedSeqs then some (.targetCorrupted storedSeq)
  else some (.danglingTarget storedSeq)

/-- The loop over an index whose keys are not rebuilt. -/
def checkTargets (kind : IndexKind) (pairs : List (String × Nat)) (scan : EntryScan) :
    List VerifyFinding :=
  pairs.filterMap fun (key, storedSeq) =>
    (classifyTarget storedSeq scan).map fun drift => .indexDrift kind key drift

def RedbBackend.crossCheckIndices (scan : EntryScan) :
    Except EventStoreError (List VerifyFinding) := do
  let storedIntent ← self.iterIndexKeys .intentId
  let clientOrders ← self.iterIndexKeys .clientOrderId
  let venueOrders ← self.iterIndexKeys .venueOrderId
  return diffIndex .intentId scan.intentIndex (.collect storedIntent) ++
    checkTargets .clientOrderId clientOrders scan ++ checkTargets .venueOrderId venueOrders scan

/-- The end of a sealed manifest. -/
def checkEndTs : (endTsInit maxTs : Option Nat) → List VerifyFinding
  | some stored, some observed =>
    if stored ≠ observed then
      [.manifestMismatch .endTsInit ("manifest end_ts_init " ++ toString stored ++
        " disagrees with last observed ts_init " ++ toString observed)]
    else []
  | none, some observed =>
    [.manifestMismatch .endTsInit
      ("sealed manifest is missing end_ts_init while entries up to ts_init " ++
        toString observed ++ " exist")]
  | some stored, none =>
    [.manifestMismatch .endTsInit ("sealed manifest carries end_ts_init " ++ toString stored ++
      " despite empty entry table")]
  | none, none => []

def validateManifest (manifest : RunManifest) (highWatermark : Nat) (scan : EntryScan) :
    List VerifyFinding :=
  (if manifest.highWatermark ≠ highWatermark then
    [.manifestMismatch .highWatermark ("manifest high_watermark " ++
      toString manifest.highWatermark ++ " disagrees with durable high_watermark " ++
      toString highWatermark)]
  else []) ++
  (match scan.minTs with
  | some minTs =>
    if manifest.startTsInit > minTs then
      [.manifestMismatch .startTsInit ("manifest start_ts_init " ++
        toString manifest.startTsInit ++ " sits above earliest entry ts_init " ++ toString minTs)]
    else []
  | none => []) ++
  if manifest.isSealed then checkEndTs manifest.endTsInit scan.maxTs else []

def RedbBackend.verify : Except EventStoreError VerifyReport := do
  let manifest ← self.manifest
  let highWatermark ← self.highWatermark
  let scan ← self.scanEntries highWatermark
  let drifts ← self.crossCheckIndices scan
  return {
    runId := manifest.runId
    status := manifest.status
    highWatermark
    entriesScanned := scan.scanned
    findings := scan.findings ++ drifts ++ validateManifest manifest highWatermark scan }

end Verify

/-! ## What a stored run holds -/

namespace RedbRun

variable [StoreCode]

/-- The entry in the row of a number. -/
def entry? (run : RedbRun) (seq : Nat) : Option EventStoreEntry :=
  (run.db.entries.get? seq).bind fun bytes => (StoreCode.decodeEntry bytes).toOption

/-- Every row can be decoded. -/
def Decodable (run : RedbRun) : Prop :=
  ∀ seq bytes, run.db.entries.get? seq = some bytes →
    ∃ entry, StoreCode.decodeEntry bytes = .ok entry

/-- A number up to the high-watermark without a row. -/
def Missing (run : RedbRun) (seq : Nat) : Prop :=
  1 ≤ seq ∧ seq ≤ run.highWatermark ∧ run.db.entries.get? seq = none

/-- A number up to the high-watermark whose row holds an entry of that number with its hash. -/
structure Clean (run : RedbRun) (seq : Nat) (entry : EventStoreEntry) : Prop where
  pos : 1 ≤ seq
  le : seq ≤ run.highWatermark
  row : run.entry? seq = some entry
  intact : entry.isIntact = true
  seq_eq : entry.seq = seq

/-- The timestamps of the clean rows up to a number. -/
def timestamps (run : RedbRun) (n : Nat) : Set Nat :=
  { ts | ∃ seq entry, seq ≤ n ∧ run.Clean seq entry ∧ entry.tsInit = ts }

/-- A clean row carries an intent id. -/
def Carries (run : RedbRun) (key : String) (seq : Nat) : Prop :=
  ∃ entry, run.Clean seq entry ∧ entry.headers.intentId = some ⟨key⟩

/-- The first clean row up to a number that carries an intent id. -/
def FirstCarrier (run : RedbRun) (n : Nat) (key : String) (seq : Nat) : Prop :=
  seq ≤ n ∧ IsLeast { seq | run.Carries key seq } seq

variable {run : RedbRun} {n : Nat} {entry : EventStoreEntry}

theorem entry?_of_missing (h : run.Missing seq) : run.entry? seq = none := by
  unfold entry?
  rw [h.2.2]
  rfl

theorem missing_of_entry? (hdec : run.Decodable) (hpos : 1 ≤ seq)
    (hle : seq ≤ run.highWatermark) (h : run.entry? seq = none) : run.Missing seq := by
  refine ⟨hpos, hle, ?_⟩
  cases hrow : run.db.entries.get? seq with
  | none => rfl
  | some bytes =>
    obtain ⟨entry, hentry⟩ := hdec seq bytes hrow
    unfold entry? at h
    rw [hrow, bind_some, hentry] at h
    cases h

theorem Clean.unique {entry' : EventStoreEntry} (h : run.Clean seq entry)
    (h' : run.Clean seq entry') : entry = entry' :=
  some.inj (h.row.symm.trans h'.row)

theorem timestamps_skip (h : ∀ entry, ¬ run.Clean (n + 1) entry) :
    run.timestamps (n + 1) = run.timestamps n := by
  ext ts
  refine exists₂_congr fun seq entry => and_congr_left fun hrow => ?_
  have hne : seq ≠ n + 1 := fun heq => h entry (heq ▸ hrow.1)
  omega

theorem timestamps_insert (h : run.Clean (n + 1) entry) :
    run.timestamps (n + 1) = insert entry.tsInit (run.timestamps n) := by
  ext ts
  constructor
  · rintro ⟨seq, entry', hle, hclean, rfl⟩
    rcases Nat.le_or_eq_of_le_succ hle with hle | rfl
    · exact .inr ⟨seq, entry', hle, hclean, rfl⟩
    · exact .inl (congrArg EventStoreEntry.tsInit (hclean.unique h))
  · rintro (rfl | ⟨seq, entry', hle, hclean, rfl⟩)
    · exact ⟨n + 1, entry, Nat.le_refl _, h, rfl⟩
    · exact ⟨seq, entry', Nat.le_succ_of_le hle, hclean, rfl⟩

theorem firstCarrier_skip (h : ¬ run.Carries key (n + 1)) (seq : Nat) :
    run.FirstCarrier (n + 1) key seq ↔ run.FirstCarrier n key seq := by
  refine and_congr_left fun hfirst => ?_
  have hne : seq ≠ n + 1 := fun heq => h (heq ▸ hfirst.1)
  omega

/-- The next row is the first one to carry a key that none before carried. -/
theorem firstCarrier_new (h : run.Carries key (n + 1))
    (hnone : ∀ seq, ¬ run.FirstCarrier n key seq) (seq : Nat) :
    run.FirstCarrier (n + 1) key seq ↔ seq = n + 1 := by
  -- a row before it would have a first one among those up to `n`
  have hearlier : ∀ m ≤ n, ¬ run.Carries key m := by
    intro m
    induction m using Nat.strong_induction_on with
    | _ m ih =>
      intro hm hcarries
      refine hnone m ⟨hm, hcarries, fun k hk => ?_⟩
      by_contra hlt
      exact ih k (Nat.lt_of_not_le hlt) (by omega) hk
  constructor
  · rintro ⟨hle, hfirst⟩
    rcases Nat.le_or_eq_of_le_succ hle with hle | rfl
    · exact absurd hfirst.1 (hearlier seq hle)
    · rfl
  · rintro rfl
    refine ⟨Nat.le_refl _, h, fun m hm => ?_⟩
    by_contra hlt
    exact hearlier m (by omega) hm

theorem firstCarrier_old {first : Nat} (h : run.FirstCarrier n key first)
    (seq : Nat) : run.FirstCarrier (n + 1) key seq ↔ seq = first := by
  constructor
  · rintro ⟨-, hfirst⟩
    exact hfirst.unique h.2
  · rintro rfl
    exact ⟨Nat.le_succ_of_le h.1, h.2⟩

end RedbRun

/-! ## What the scan knows -/

namespace EntryScan

/-- A pending gap is reported and forgotten. -/
theorem flushPendingGap_eq (scan : EntryScan) (nextSeq : Nat) :
    scan.flushPendingGap nextSeq =
      { scan with
        gapCursor := none
        findings := scan.findings ++
          scan.gapCursor.toList.map fun start => .gap ⟨start, nextSeq - 1⟩ } := by
  unfold flushPendingGap
  split
  · rename_i start hcursor
    rw [hcursor]
    rfl
  · rename_i hcursor
    obtain ⟨_, _, _, _, _, _, _, _⟩ := scan
    cases hcursor
    rw [toList_none, map_nil, append_nil]

theorem extendPendingGap_eq (scan : EntryScan) (seq : Nat) :
    scan.extendPendingGap seq = { scan with gapCursor := some (scan.gapCursor.getD seq) } := by
  obtain ⟨_, _, _, _, _, _, cursor, _⟩ := scan
  cases cursor <;> rfl

theorem gapsOf_append (findings findings' : List VerifyFinding) :
    gapsOf (findings ++ findings') = gapsOf findings ++ gapsOf findings' :=
  filterMap_append

theorem gapsOf_gap (cursor : Option Nat) (last : Nat) :
    gapsOf (cursor.toList.map fun start => .gap ⟨start, last⟩) =
      cursor.toList.map fun start => (start, last) := by
  cases cursor <;> rfl

theorem filter_isOther_gap (cursor : Option Nat) (last : Nat) :
    ((cursor.toList.map fun start => VerifyFinding.gap ⟨start, last⟩).filter
      VerifyFinding.isOther) = [] := by
  cases cursor <;> rfl

theorem forall_le_succ_iff {n : Nat} {P : Nat → EventStoreEntry → Prop} :
    (∀ seq entry, 1 ≤ seq → seq ≤ n + 1 → P seq entry) ↔
      (∀ seq entry, 1 ≤ seq → seq ≤ n → P seq entry) ∧ ∀ entry, P (n + 1) entry := by
  constructor
  · intro h
    exact ⟨fun seq entry hpos hle => h seq entry hpos (Nat.le_succ_of_le hle),
      fun entry => h (n + 1) entry (Nat.succ_pos n) (Nat.le_refl _)⟩
  · rintro ⟨hbelow, hlast⟩ seq entry hpos hle
    rcases Nat.le_or_eq_of_le_succ hle with hle | rfl
    · exact hbelow seq entry hpos hle
    · exact hlast entry

variable [StoreCode]

/-- A turn of the loop, by what the row holds. -/
def see (scan : EntryScan) (seq : Nat) : Option EventStoreEntry → EntryScan
  | none => scan.extendPendingGap seq
  | some entry =>
    let scan := scan.flushPendingGap seq
    if !entry.isIntact then
      { scan with
        findings := scan.findings ++ [.hashMismatch seq]
        corruptedSeqs := insert seq scan.corruptedSeqs
        scanned := scan.scanned + 1 }
    else if entry.seq ≠ seq then
      { scan with
        findings := scan.findings ++ [.seqMismatch seq entry.seq]
        corruptedSeqs := insert seq scan.corruptedSeqs
        scanned := scan.scanned + 1 }
    else
      let scan := scan.recordEntry entry
      { scan with cleanSeqs := insert seq scan.cleanSeqs, scanned := scan.scanned + 1 }

theorem visit_scanSeq {files : IndexMap RunPath RunFile} {run : RedbRun} (hdec : run.Decodable)
    (scan : EntryScan) (hpos : 1 ≤ seq) (hle : seq ≤ run.highWatermark) :
    scan.visit seq (scanSeq ⟨files, some run⟩ seq) = .ok (scan.see seq (run.entry? seq)) := by
  unfold scanSeq entry?
  simp only
  rw [if_neg (by omega)]
  cases hrow : run.db.entries.get? seq with
  | none => rfl
  | some bytes =>
    obtain ⟨entry, hentry⟩ := hdec seq bytes hrow
    simp only [bind_some, hentry, Except.toOption]
    unfold see
    cases hintact : entry.isIntact with
    | false => simp only [Bool.not_false, if_true, hintact]; rfl
    | true =>
      simp only [Bool.not_true, Bool.false_eq_true, if_false, hintact, visit]
      split <;> rfl

/-- The projection of the clean rows up to `n`. -/
structure Projected (run : RedbRun) (n : Nat) (scan : EntryScan) : Prop where
  cleanSeqs : ∀ seq, seq ∈ scan.cleanSeqs ↔ seq ≤ n ∧ ∃ entry, run.Clean seq entry
  minTs : LeastOf scan.minTs (run.timestamps n)
  maxTs : GreatestOf scan.maxTs (run.timestamps n)
  intents : ∀ key seq, scan.intentIndex.get? key = some seq ↔ run.FirstCarrier n key seq

variable {run : RedbRun} {n : Nat} {scan : EntryScan}

theorem Projected.skip (h : Projected run n scan) (hnot : ∀ entry, ¬ run.Clean (n + 1) entry) :
    Projected run (n + 1) scan where
  cleanSeqs seq := by
    rw [h.cleanSeqs]
    refine and_congr_left fun ⟨entry, hclean⟩ => ?_
    have hne : seq ≠ n + 1 := fun heq => hnot entry (heq ▸ hclean)
    omega
  minTs := timestamps_skip hnot ▸ h.minTs
  maxTs := timestamps_skip hnot ▸ h.maxTs
  intents key seq := by
    rw [h.intents, firstCarrier_skip]
    exact fun ⟨entry, hclean, _⟩ => hnot entry hclean

section

variable (h : Projected run n scan) {entry : EventStoreEntry} (hclean : run.Clean (n + 1) entry)

include h hclean

/-- The intents after the next clean row: a key is taken up the first time it is carried. -/
theorem Projected.intents_record (key : String) (seq : Nat) :
    (scan.recordEntry entry).intentIndex.get? key = some seq ↔
      run.FirstCarrier (n + 1) key seq := by
  unfold recordEntry
  cases hintent : entry.headers.intentId with
  | none =>
    have hnot : ¬ run.Carries key (n + 1) := by
      rintro ⟨entry', hclean', hkey⟩
      rw [hclean'.unique hclean, hintent] at hkey
      cases hkey
    rw [firstCarrier_skip hnot]
    exact h.intents key seq
  | some intentId =>
    simp only
    by_cases hsame : intentId.value = key
    · subst hsame
      have hcarries : run.Carries intentId.value (n + 1) := ⟨entry, hclean, hintent⟩
      cases hold : scan.intentIndex.get? intentId.value with
      | some first =>
        rw [isSome_some, if_pos rfl, hold,
          firstCarrier_old ((h.intents _ _).mp hold), some.injEq, eq_comm]
      | none =>
        have hnone : ∀ seq, ¬ run.FirstCarrier n intentId.value seq := by
          intro seq hfirst
          rw [(h.intents _ _).mpr hfirst] at hold
          cases hold
        rw [isSome_none, if_neg Bool.false_ne_true, OrdMap.get?_insert_self,
          firstCarrier_new hcarries hnone, hclean.seq_eq, some.injEq, eq_comm]
    · have hnot : ¬ run.Carries key (n + 1) := by
        rintro ⟨entry', hclean', hkey⟩
        rw [hclean'.unique hclean, hintent] at hkey
        exact hsame (congrArg UUID4.value (some.inj hkey))
      rw [firstCarrier_skip hnot, ← h.intents key seq]
      split
      · rfl
      · rw [OrdMap.get?_insert, if_neg (mt Std.LawfulEqCmp.eq_of_compare hsame)]

theorem Projected.record (scanned : Nat) :
    Projected run (n + 1)
      { scan.recordEntry entry with
        cleanSeqs := insert (n + 1) (scan.recordEntry entry).cleanSeqs, scanned } where
  cleanSeqs seq := by
    show seq ∈ insert (n + 1) scan.cleanSeqs ↔ _
    rw [Finset.mem_insert, h.cleanSeqs]
    constructor
    · rintro (rfl | ⟨hle, hseq⟩)
      · exact ⟨Nat.le_refl _, entry, hclean⟩
      · exact ⟨Nat.le_succ_of_le hle, hseq⟩
    · rintro ⟨hle, hseq⟩
      rcases Nat.le_or_eq_of_le_succ hle with hle | heq
      · exact .inr ⟨hle, hseq⟩
      · exact .inl heq
  minTs := timestamps_insert hclean ▸ h.minTs.insert entry.tsInit
  maxTs := timestamps_insert hclean ▸ h.maxTs.insert entry.tsInit
  intents := h.intents_record hclean

end

/-- What the scan knows after `n` numbers: the gaps, the clean rows, and whether it reported others.
-/
structure Scanned (run : RedbRun) (n : Nat) (scan : EntryScan) : Prop where
  gaps : Swept run.Missing n (gapsOf scan.findings) scan.gapCursor
  projected : Projected run n scan
  others : scan.findings.filter VerifyFinding.isOther = [] ↔
    ∀ seq entry, 1 ≤ seq → seq ≤ n → run.entry? seq = some entry → run.Clean seq entry

theorem Scanned.start : Scanned run 0 empty where
  gaps := Swept.start fun h => nomatch h.1
  projected := by
    have hnone : ∀ entry, ¬ run.Clean 0 entry := fun entry h => nomatch h.pos
    have hempty : run.timestamps 0 = ∅ := by
      refine Set.eq_empty_of_forall_notMem ?_
      rintro ts ⟨seq, entry, hle, hclean, -⟩
      exact hnone entry (Nat.le_zero.mp hle ▸ hclean)
    refine ⟨fun seq => ⟨fun h => absurd h (Finset.notMem_empty seq), ?_⟩, hempty, hempty,
      fun key seq => ⟨nofun, ?_⟩⟩
    · rintro ⟨hle, entry, hclean⟩
      exact absurd (Nat.le_zero.mp hle ▸ hclean) (hnone entry)
    · rintro ⟨hle, ⟨entry, hclean, -⟩, -⟩
      exact absurd (Nat.le_zero.mp hle ▸ hclean) (hnone entry)
  others := ⟨fun _ seq entry hpos hle => by omega, fun _ => rfl⟩

/-- A row with a wrong hash or number: the gap ends, and the row is reported. -/
theorem Scanned.report (h : Scanned run n scan) {entry : EventStoreEntry}
    (hrow : run.entry? (n + 1) = some entry) (hnot : ¬ run.Clean (n + 1) entry)
    (hgap : ¬ run.Missing (n + 1)) {finding : VerifyFinding} (hother : finding.isOther = true)
    (hgaps : gapsOf [finding] = []) (corruptedSeqs : Finset Nat) (scanned : Nat) :
    Scanned run (n + 1)
      { scan.flushPendingGap (n + 1) with
        findings := (scan.flushPendingGap (n + 1)).findings ++ [finding]
        corruptedSeqs, scanned } := by
  have hclean : ∀ entry', ¬ run.Clean (n + 1) entry' := by
    intro entry' hentry'
    have heq : entry' = entry := some.inj (hentry'.row.symm.trans hrow)
    exact hnot (heq ▸ hentry')
  have hprojected := h.projected.skip hclean
  rw [flushPendingGap_eq]
  refine ⟨?_, ⟨hprojected.cleanSeqs, hprojected.minTs, hprojected.maxTs, hprojected.intents⟩, ?_⟩
  · show Swept _ _ (gapsOf (scan.findings ++ _ ++ [finding])) none
    rw [gapsOf_append, hgaps, append_nil, gapsOf_append, gapsOf_gap]
    exact h.gaps.close hgap
  show (scan.findings ++ _ ++ [finding]).filter _ = [] ↔ _
  rw [filter_append, forall_le_succ_iff]
  constructor
  · intro hnil
    rw [filter_cons_of_pos hother] at hnil
    nomatch (append_eq_nil_iff.mp hnil).2
  · rintro ⟨-, hlast⟩
    exact absurd (hlast entry hrow) hnot

/-- **A turn of the loop** keeps what the scan knows. -/
theorem Scanned.see (h : Scanned run n scan) (hdec : run.Decodable)
    (hle : n + 1 ≤ run.highWatermark) :
    Scanned run (n + 1) (scan.see (n + 1) (run.entry? (n + 1))) := by
  cases hrow : run.entry? (n + 1) with
  | none =>
    have hmissing := missing_of_entry? hdec (Nat.succ_pos n) hle hrow
    have hprojected := h.projected.skip fun entry hclean => by
      rw [hclean.row] at hrow
      cases hrow
    show Scanned run (n + 1) (scan.extendPendingGap (n + 1))
    rw [extendPendingGap_eq]
    refine ⟨h.gaps.extend hmissing,
      ⟨hprojected.cleanSeqs, hprojected.minTs, hprojected.maxTs, hprojected.intents⟩, ?_⟩
    rw [forall_le_succ_iff, ← h.others]
    refine ⟨fun hnil => ⟨hnil, fun entry hentry => ?_⟩, And.left⟩
    rw [hrow] at hentry
    cases hentry
  | some entry =>
    have hgap : ¬ run.Missing (n + 1) := by
      intro hmissing
      rw [entry?_of_missing hmissing] at hrow
      cases hrow
    unfold EntryScan.see
    simp only
    split
    · rename_i hintact
      refine h.report hrow (fun hclean => ?_) hgap rfl rfl _ _
      rw [hclean.intact] at hintact
      cases hintact
    · rename_i hintact
      split
      · rename_i hseq
        exact h.report hrow (fun hclean => hseq hclean.seq_eq) hgap rfl rfl _ _
      rename_i hseq
      have hclean : run.Clean (n + 1) entry :=
        ⟨Nat.succ_pos n, hle, hrow, by simpa using hintact, not_not.mp hseq⟩
      have hrecorded := h.projected.record hclean 0
      rw [flushPendingGap_eq]
      refine ⟨?_, ⟨hrecorded.cleanSeqs, hrecorded.minTs, hrecorded.maxTs, hrecorded.intents⟩, ?_⟩
      · show Swept _ _ (gapsOf (scan.findings ++ _)) none
        rw [gapsOf_append, gapsOf_gap]
        exact h.gaps.close hgap
      · show (scan.findings ++ _).filter _ = [] ↔ _
        rw [filter_append, filter_isOther_gap, append_nil, forall_le_succ_iff, ← h.others]
        refine ⟨fun hnil => ⟨hnil, fun entry' hentry' => ?_⟩, And.left⟩
        exact some.inj (hrow.symm.trans hentry') ▸ hclean

/-- The loop reads every number and does not fail. -/
theorem scanned_foldlM (files : IndexMap RunPath RunFile) (hdec : run.Decodable) (n : Nat)
    (hle : n ≤ run.highWatermark) :
    ∃ scan, (range' 1 n).foldlM
      (fun scan seq => scan.visit seq (scanSeq ⟨files, some run⟩ seq)) empty =
        .ok scan ∧ Scanned run n scan := by
  induction n with
  | zero => exact ⟨empty, rfl, Scanned.start⟩
  | succ n ih =>
    obtain ⟨scan, hscan, hscanned⟩ := ih (Nat.le_of_succ_le hle)
    refine ⟨scan.see (n + 1) (run.entry? (n + 1)), ?_, hscanned.see hdec hle⟩
    rw [range'_1_concat, foldlM_append, hscan, Nat.add_comm 1 n]
    exact congrArg (fun result : Except EventStoreError EntryScan => result >>= pure)
      (visit_scanSeq hdec scan (Nat.succ_pos n) hle)

/-- The whole scan; the last gap is flushed behind the high-watermark. -/
theorem scanned_scanEntries (files : IndexMap RunPath RunFile) (hdec : run.Decodable) :
    ∃ scan, scanEntries ⟨files, some run⟩ run.highWatermark = .ok scan ∧
      Swept run.Missing (run.highWatermark + 1) (gapsOf scan.findings) none ∧
      Projected run run.highWatermark scan ∧
      (scan.findings.filter VerifyFinding.isOther = [] ↔ ∀ seq entry, 1 ≤ seq →
        seq ≤ run.highWatermark → run.entry? seq = some entry → run.Clean seq entry) := by
  obtain ⟨scan, hscan, hgaps, hprojected, hothers⟩ :=
    scanned_foldlM files hdec run.highWatermark (Nat.le_refl _)
  refine ⟨scan.flushPendingGap (run.highWatermark + 1), ?_, ?_, ?_, ?_⟩
  · unfold scanEntries
    rw [hscan]
    rfl
  all_goals rw [flushPendingGap_eq]
  · show Swept _ _ (gapsOf (scan.findings ++ _)) none
    rw [gapsOf_append, gapsOf_gap]
    exact hgaps.close fun hmissing => absurd hmissing.2.1 (Nat.not_succ_le_self _)
  · exact ⟨hprojected.cleanSeqs, hprojected.minTs, hprojected.maxTs, hprojected.intents⟩
  · show (scan.findings ++ _).filter _ = [] ↔ _
    rw [filter_append, filter_isOther_gap, append_nil]
    exact hothers

end EntryScan

/-! ## The report -/

theorem gapsOf_eq_nil
    (h : ∀ finding ∈ findings, finding.isOther = true) : gapsOf findings = [] := by
  refine filterMap_eq_nil_iff.mpr fun finding hmem => ?_
  have hother := h finding hmem
  cases finding with
  | gap range => nomatch hother
  | _ => rfl

theorem findings_eq_nil_iff :
    findings = [] ↔ gapsOf findings = [] ∧ findings.filter VerifyFinding.isOther = [] := by
  constructor
  · rintro rfl
    exact ⟨rfl, rfl⟩
  rintro ⟨hgaps, hothers⟩
  refine eq_nil_iff_forall_not_mem.mpr fun finding hmem => ?_
  cases finding with
  | gap range => nomatch filterMap_eq_nil_iff.mp hgaps _ hmem
  | _ => exact filter_eq_nil_iff.mp hothers _ hmem rfl

theorem diffIndex_eq_nil_iff (kind : IndexKind)
    (rebuilt stored : OrdMap (compare : String → String → Ordering) Nat) :
    diffIndex kind rebuilt stored = [] ↔ ∀ key, rebuilt.get? key = stored.get? key := by
  unfold diffIndex
  rw [append_eq_nil_iff, filterMap_eq_nil_iff, filterMap_eq_nil_iff]
  constructor
  · rintro ⟨hrebuilt, hstored⟩ key
    cases hkey : rebuilt.get? key with
    | some seq =>
      have hfound := hrebuilt (key, seq) (OrdMap.mem_entries_iff.mpr hkey)
      simp only at hfound
      split at hfound
      · rename_i storedSeq hget
        split at hfound
        · rename_i heq
          rw [hget, heq]
        · cases hfound
      · cases hfound
    | none =>
      cases hget : stored.get? key with
      | none => rfl
      | some storedSeq =>
        have hfound := hstored (key, storedSeq) (OrdMap.mem_entries_iff.mpr hget)
        simp only [hkey, isSome_none, Bool.false_eq_true, if_false] at hfound
        cases hfound
  · intro h
    constructor
    · rintro ⟨key, seq⟩ hmem
      have hget : stored.get? key = some seq := h key ▸ OrdMap.mem_entries_iff.mp hmem
      simp [hget]
    · rintro ⟨key, seq⟩ hmem
      have hget : rebuilt.get? key = some seq := (h key).trans (OrdMap.mem_entries_iff.mp hmem)
      simp [hget]

theorem diffIndex_isOther {kind : IndexKind}
    {rebuilt stored : OrdMap (compare : String → String → Ordering) Nat} {finding : VerifyFinding}
    (h : finding ∈ diffIndex kind rebuilt stored) : finding.isOther = true := by
  rcases mem_append.mp h with h | h
  · obtain ⟨pair, -, hpair⟩ := mem_filterMap.mp h
    simp only at hpair
    split at hpair
    · split at hpair
      · cases hpair
      · exact some.inj hpair ▸ rfl
    · exact some.inj hpair ▸ rfl
  · obtain ⟨pair, -, hpair⟩ := mem_filterMap.mp h
    simp only at hpair
    split at hpair
    · cases hpair
    · exact some.inj hpair ▸ rfl

variable {scan : EntryScan} {finding : VerifyFinding}

theorem classifyTarget_eq_none_iff {storedSeq : Nat} :
    classifyTarget storedSeq scan = none ↔ storedSeq ∈ scan.cleanSeqs := by
  unfold classifyTarget
  split
  · exact ⟨fun _ => ‹_›, fun _ => rfl⟩
  · split <;> exact ⟨nofun, fun h => absurd h ‹_›⟩

theorem checkTargets_eq_nil_iff {kind : IndexKind} :
    checkTargets kind pairs scan = [] ↔ ∀ pair ∈ pairs, pair.2 ∈ scan.cleanSeqs := by
  unfold checkTargets
  rw [filterMap_eq_nil_iff]
  refine forall₂_congr fun pair _ => ?_
  rw [map_eq_none_iff, classifyTarget_eq_none_iff]

theorem checkTargets_isOther {kind : IndexKind} (h : finding ∈ checkTargets kind pairs scan) :
    finding.isOther = true := by
  obtain ⟨_, -, hpair⟩ := mem_filterMap.mp h
  obtain ⟨_, -, rfl⟩ := map_eq_some_iff.mp hpair
  rfl

theorem checkEndTs_eq_nil_iff {endTsInit maxTs : Option Nat} :
    checkEndTs endTsInit maxTs = [] ↔ endTsInit = maxTs := by
  cases endTsInit <;> cases maxTs <;> simp [checkEndTs]

theorem validateManifest_eq_nil_iff {manifest : RunManifest} {highWatermark : Nat} :
    validateManifest manifest highWatermark scan = [] ↔
      manifest.highWatermark = highWatermark ∧
      (∀ minTs, scan.minTs = some minTs → manifest.startTsInit ≤ minTs) ∧
      (manifest.isSealed = true → manifest.endTsInit = scan.maxTs) := by
  unfold validateManifest
  rw [append_eq_nil_iff, append_eq_nil_iff, and_assoc]
  refine and_congr ?_ (and_congr ?_ ?_)
  · split
    · exact ⟨nofun, fun h => absurd h ‹_›⟩
    · exact ⟨fun _ => not_not.mp ‹_›, fun _ => rfl⟩
  · cases scan.minTs with
    | none => exact ⟨fun _ => nofun, fun _ => rfl⟩
    | some minTs =>
      simp only [some.injEq, forall_eq']
      split
      · exact ⟨nofun, fun h => absurd h (not_le.mpr ‹_›)⟩
      · exact ⟨fun _ => not_lt.mp ‹_›, fun _ => rfl⟩
  · split
    · rename_i hsealed
      rw [checkEndTs_eq_nil_iff]
      exact ⟨fun h _ => h, fun h => h hsealed⟩
    · exact ⟨fun _ h => absurd h ‹_›, fun _ => rfl⟩

theorem validateManifest_isOther {manifest : RunManifest} {highWatermark : Nat}
    (h : finding ∈ validateManifest manifest highWatermark scan) :
    finding.isOther = true := by
  have hone : ∀ {kind reason}, finding ∈ [VerifyFinding.manifestMismatch kind reason] →
      finding.isOther = true := fun hmem => mem_singleton.mp hmem ▸ rfl
  rcases mem_append.mp h with h | h
  · rcases mem_append.mp h with h | h
    · split at h
      · exact hone h
      · cases h
    · split at h
      · split at h
        · exact hone h
        · cases h
      · cases h
  · split at h
    · unfold checkEndTs at h
      split at h
      · split at h
        · exact hone h
        · cases h
      · exact hone h
      · exact hone h
      · cases h
    · cases h

structure RedbRun.Sound [StoreCode] (run : RedbRun) : Prop where
  rows : ∀ seq, 1 ≤ seq → seq ≤ run.highWatermark → ∃ entry, run.Clean seq entry
  /-- The intent index leads each intent id to the first entry that carries it. -/
  intents : ∀ key seq, run.db.intent.get? key = some seq ↔ IsLeast { seq | run.Carries key seq } seq
  clientOrders : ∀ key seq, run.db.clientOrder.get? key = some seq → ∃ entry, run.Clean seq entry
  venueOrders : ∀ key seq, run.db.venueOrder.get? key = some seq → ∃ entry, run.Clean seq entry
  highWatermark : run.manifest.highWatermark = run.highWatermark
  startTs : ∀ seq entry, run.Clean seq entry → run.manifest.startTsInit ≤ entry.tsInit
  /-- The end of a sealed run is its last timestamp; an empty run has none. -/
  endTs : run.manifest.isSealed = true → ∀ ts, run.manifest.endTsInit = some ts ↔
    IsGreatest { ts | ∃ seq entry, run.Clean seq entry ∧ entry.tsInit = ts } ts

section Report

variable [StoreCode] {run : RedbRun} {scan : EntryScan}

theorem RedbRun.firstCarrier_iff :
    run.FirstCarrier run.highWatermark key seq ↔ IsLeast { seq | run.Carries key seq } seq :=
  ⟨And.right, fun h => ⟨h.1.choose_spec.1.le, h⟩⟩

theorem RedbRun.timestamps_all :
    run.timestamps run.highWatermark =
      { ts | ∃ seq entry, run.Clean seq entry ∧ entry.tsInit = ts } := by
  ext ts
  exact ⟨fun ⟨seq, entry, _, h⟩ => ⟨seq, entry, h⟩, fun ⟨seq, entry, h⟩ => ⟨seq, entry, h.1.le, h⟩⟩

section

variable (h : scan.Projected run run.highWatermark) (kind : IndexKind)
  (table : OrdMap (compare : String → String → Ordering) Nat)

include h

/-- An index of targets has nothing to report exactly if each of them is clean. -/
theorem EntryScan.Projected.checkTargets_iff :
    checkTargets kind table.entries scan = [] ↔
      ∀ key seq, table.get? key = some seq → ∃ entry, run.Clean seq entry := by
  rw [checkTargets_eq_nil_iff]
  constructor
  · intro hall key seq hget
    exact ((h.cleanSeqs seq).mp (hall (key, seq) (OrdMap.mem_entries_iff.mpr hget))).2
  · rintro hall ⟨key, seq⟩ hmem
    obtain ⟨entry, hclean⟩ := hall key seq (OrdMap.mem_entries_iff.mp hmem)
    exact (h.cleanSeqs seq).mpr ⟨hclean.le, entry, hclean⟩

theorem EntryScan.Projected.diffIndex_iff :
    diffIndex kind scan.intentIndex table = [] ↔
      ∀ key seq, table.get? key = some seq ↔ IsLeast { seq | run.Carries key seq } seq := by
  rw [diffIndex_eq_nil_iff]
  refine forall_congr' fun key => ?_
  constructor
  · intro heq seq
    rw [← heq, h.intents, firstCarrier_iff]
  · intro hall
    refine ext fun seq => ?_
    rw [h.intents, firstCarrier_iff, hall]

theorem EntryScan.Projected.endTs_iff (endTsInit : Option Nat) :
    endTsInit = scan.maxTs ↔ ∀ ts, endTsInit = some ts ↔
      IsGreatest { ts | ∃ seq entry, run.Clean seq entry ∧ entry.tsInit = ts } ts := by
  rw [← timestamps_all]
  constructor
  · rintro rfl ts
    exact h.maxTs.eq_some_iff ts
  · intro hall
    refine ext fun ts => ?_
    rw [hall, h.maxTs.eq_some_iff]

end

/-- The scan reports nothing exactly if no number is missing and every row is clean. -/
theorem scan_findings_iff (hdec : run.Decodable)
    (hgaps : Swept run.Missing (run.highWatermark + 1) (gapsOf scan.findings) none)
    (hothers : scan.findings.filter VerifyFinding.isOther = [] ↔ ∀ seq entry, 1 ≤ seq →
      seq ≤ run.highWatermark → run.entry? seq = some entry → run.Clean seq entry) :
    scan.findings = [] ↔
      ∀ seq, 1 ≤ seq → seq ≤ run.highWatermark → ∃ entry, run.Clean seq entry := by
  rw [findings_eq_nil_iff, hothers]
  constructor
  · rintro ⟨hnil, hclean⟩ seq hpos hle
    cases hrow : run.entry? seq with
    | none =>
      exact absurd (RedbRun.missing_of_entry? hdec hpos hle hrow)
        (hgaps.clear hnil rfl seq (Nat.le_succ_of_le hle))
    | some entry => exact ⟨entry, hclean seq entry hpos hle hrow⟩
  · intro hrows
    constructor
    · refine eq_nil_iff_forall_not_mem.mpr fun r hr => ?_
      have hrun := ((hgaps.mem r).mp hr).1
      have hmissing := hrun.all r.2 hrun.le (Nat.le_refl _)
      obtain ⟨entry, hclean⟩ := hrows r.2 hmissing.1 hmissing.2.1
      nomatch (entry?_of_missing hmissing).symm.trans hclean.row
    · intro seq entry hpos hle hrow
      obtain ⟨_, hclean⟩ := hrows seq hpos hle
      exact some.inj (hrow.symm.trans hclean.row) ▸ hclean

/-- What `cross_check_indices` reports for the tables of a run. -/
def RedbRun.drifts (run : RedbRun) (scan : EntryScan) : List VerifyFinding :=
  diffIndex .intentId scan.intentIndex (.collect run.db.intent.entries) ++
    checkTargets .clientOrderId run.db.clientOrder.entries scan ++
    checkTargets .venueOrderId run.db.venueOrder.entries scan

theorem RedbRun.drifts_isOther {finding : VerifyFinding} (h : finding ∈ run.drifts scan) :
    finding.isOther = true := by
  rcases mem_append.mp h with h | h
  · rcases mem_append.mp h with h | h
    · exact diffIndex_isOther h
    · exact checkTargets_isOther h
  · exact checkTargets_isOther h

theorem EntryScan.Projected.sound_iff (h : scan.Projected run run.highWatermark)
    (hrows : scan.findings = [] ↔
      ∀ seq, 1 ≤ seq → seq ≤ run.highWatermark → ∃ entry, run.Clean seq entry) :
    scan.findings ++ run.drifts scan ++ validateManifest run.manifest run.highWatermark scan = [] ↔
      run.Sound := by
  unfold drifts
  rw [append_eq_nil_iff, append_eq_nil_iff, append_eq_nil_iff,
    append_eq_nil_iff, hrows, OrdMap.collect_entries, h.diffIndex_iff, h.checkTargets_iff,
    h.checkTargets_iff, validateManifest_eq_nil_iff, h.minTs.forall_le_iff, h.endTs_iff,
    timestamps_all]
  constructor
  · rintro ⟨⟨hrows, ⟨hintents, hclient⟩, hvenue⟩, hhwm, hstart, hend⟩
    exact ⟨hrows, hintents, hclient, hvenue, hhwm,
      fun seq entry hclean => hstart _ ⟨seq, entry, hclean, rfl⟩, hend⟩
  · intro hsound
    refine ⟨⟨hsound.rows, ⟨hsound.intents, hsound.clientOrders⟩, hsound.venueOrders⟩,
      hsound.highWatermark, ?_, hsound.endTs⟩
    rintro _ ⟨seq, entry, hclean, rfl⟩
    exact hsound.startTs seq entry hclean

/-- The report of a run whose rows can be decoded; only the scan reports gaps. -/
theorem verify_eq (files : IndexMap RunPath RunFile) (run : RedbRun) (hdec : run.Decodable) :
    ∃ scan, verify ⟨files, some run⟩ =
        .ok ⟨run.manifest.runId, run.manifest.status, run.highWatermark, scan.scanned,
          scan.findings ++ run.drifts scan ++
            validateManifest run.manifest run.highWatermark scan⟩ ∧
      (scan.findings ++ run.drifts scan ++
        validateManifest run.manifest run.highWatermark scan = [] ↔ run.Sound) ∧
      Swept run.Missing (run.highWatermark + 1) (gapsOf (scan.findings ++ run.drifts scan ++
        validateManifest run.manifest run.highWatermark scan)) none := by
  obtain ⟨scan, hscan, hgaps, hprojected, hothers⟩ := EntryScan.scanned_scanEntries files hdec
  refine ⟨scan, ?_, hprojected.sound_iff (scan_findings_iff hdec hgaps hothers), ?_⟩
  · unfold verify
    show (scanEntries ⟨files, some run⟩ run.highWatermark >>= _) = _
    rw [hscan]
    rfl
  · have hdrifts : gapsOf (run.drifts scan) = [] := gapsOf_eq_nil fun _ => drifts_isOther
    have hmanifest : gapsOf (validateManifest run.manifest run.highWatermark scan) = [] :=
      gapsOf_eq_nil fun _ => validateManifest_isOther
    rwa [EntryScan.gapsOf_append, EntryScan.gapsOf_append, hdrifts, hmanifest, append_nil,
      append_nil]

/-- **The verifier reports nothing exactly if the run is sound**: every number up to the
high-watermark holds its entry, the intent index is the one of the entries, the targets of the other
indices exist, and the manifest agrees. **The gaps it reports are the maximal runs of missing
numbers**, in order. -/
theorem verify_clean_iff (files : IndexMap RunPath RunFile) (run : RedbRun) (hdec : run.Decodable) :
    ∃ report, RedbBackend.verify ⟨files, some run⟩ = .ok report ∧
      (report.findings = [] ↔ run.Sound) ∧
      (∀ r, r ∈ gapsOf report.findings ↔ MaximalRun run.Missing r) ∧
      (gapsOf report.findings).Pairwise fun r r' => r.2 < r'.1 := by
  obtain ⟨_, hverify, hsound, hgaps⟩ := verify_eq files run hdec
  refine ⟨_, hverify, hsound, fun r => ?_, hgaps.sorted⟩
  rw [hgaps.mem]
  refine ⟨And.left, fun h => ⟨h, ?_⟩⟩
  exact Nat.lt_succ_of_le (h.all r.2 h.le (Nat.le_refl _)).2.1

end Report

section Instances

attribute [local instance] StoreCode.plain

/-- A sealed run whose second row is lost, and whose third one is damaged. -/
def Sample.damagedRun : RedbRun :=
  let entry : Nat → EventStoreEntry := fun seq =>
    ⟨Vector.replicate 32 0, seq, ⟨none, none, none⟩, "topic", "type", [], 5, 6⟩
  { db :=
      { RunFile.empty with
        entries := (OrdMap.empty.insert 1 (.inl (entry 1))).insert 3 (.inl (entry 3)) }
    manifest := ⟨"1-a", "trader", 1, some 5, 3, .ended⟩
    highWatermark := 3
    maxTsInit := 5
    filePath := runPath "instance" "1-a" }

open Sample

theorem verify_clean_iff_damaged :
    damagedRun.Decodable ∧
    ∃ report, RedbBackend.verify ⟨.empty, some damagedRun⟩ = .ok report ∧
      (report.findings = [] ↔ damagedRun.Sound) ∧
      (∀ r, r ∈ gapsOf report.findings ↔ MaximalRun damagedRun.Missing r) ∧
      (gapsOf report.findings).Pairwise fun r r' => r.2 < r'.1 := by
  have hdec : damagedRun.Decodable := by
    intro seq bytes hget
    obtain ⟨_, -, hmem⟩ := OrdMap.get?_eq_some_iff.mp hget
    rcases mem_cons.mp hmem with heq | hmem
    · exact ⟨_, congrArg _ (congrArg Prod.snd heq)⟩
    · exact ⟨_, congrArg _ (congrArg Prod.snd (mem_singleton.mp hmem))⟩
  exact ⟨hdec, verify_clean_iff .empty damagedRun hdec⟩

end Instances

end Nautilus
