import Nautilus.Types

/-!
# Entries, manifests and errors of the event store

`entry.rs`, `headers.rs`, `hash.rs`, `manifest.rs` and `error.rs` of `crates/event_store`.

BLAKE3, bincode and redb are not part of the repository; `StoreCode` is what is assumed of them:
decoding inverts encoding.
-/

namespace Nautilus

/-- `UUID4`, by its text. -/
structure UUID4 where
  value : String
deriving DecidableEq

structure Headers where
  intentId : Option UUID4
  correlationId : Option UUID4
  causedBy : Option UUID4
deriving DecidableEq

abbrev EntryHash := Vector UInt8 32

structure EventStoreEntry where
  entryHash : EntryHash
  seq : Nat
  headers : Headers
  topic : String
  payloadType : String
  payload : List UInt8
  tsInit : UnixNanos
  tsPublish : UnixNanos
deriving DecidableEq

inductive RunStatus where
  | running
  | ended
  | crashedRecovered
  | quarantined
deriving DecidableEq

/-- The `Debug` text of a status. -/
def RunStatus.debug : RunStatus → String
  | running => "Running"
  | ended => "Ended"
  | crashedRecovered => "CrashedRecovered"
  | quarantined => "Quarantined"

/-- `manifest.rs:46`: the fields the store reads or writes. -/
structure RunManifest where
  runId : String
  instanceId : String
  startTsInit : UnixNanos
  endTsInit : Option UnixNanos
  highWatermark : Nat
  status : RunStatus
deriving DecidableEq

def RunManifest.isSealed (manifest : RunManifest) : Bool := manifest.status != .running

inductive EventStoreError where
  | backend (message : String)
  | corrupted (message : String)
  | disk (message : String)
  | hashMismatch (seq : Nat)
  | outOfOrder (highWatermark seq : Nat)
  | closed
  | gap (prev next missing : Nat)
  | crashedPredecessor
deriving DecidableEq

class StoreCode where
  blake3 : List UInt8 → EntryHash
  uuidBytes : UUID4 → List UInt8
  /-- what a table holds as the value of a row -/
  Bytes : Type
  encodeEntry : EventStoreEntry → Bytes
  decodeEntry : Bytes → Except String EventStoreEntry
  decode_encodeEntry : ∀ entry, decodeEntry (encodeEntry entry) = .ok entry
  encodeManifest : RunManifest → Bytes
  decodeManifest : Bytes → Except String RunManifest
  decode_encodeManifest : ∀ manifest, decodeManifest (encodeManifest manifest) = .ok manifest
  /-- what redb says of a file that is open already -/
  lockMessage : String

/-- Rows kept as they are, a sum for a hash, and the start of its text for an id. -/
@[reducible]
def StoreCode.plain : StoreCode where
  blake3 bytes := Vector.replicate 32 bytes.sum
  uuidBytes uuid := uuid.value.toUTF8.toList.take 16
  Bytes := EventStoreEntry ⊕ RunManifest
  encodeEntry := .inl
  decodeEntry
    | .inl entry => .ok entry
    | .inr _ => .error "not an entry"
  decode_encodeEntry _ := rfl
  encodeManifest := .inr
  decodeManifest
    | .inl _ => .error "not a manifest"
    | .inr manifest => .ok manifest
  decode_encodeManifest _ := rfl
  lockMessage := "locked"

/-! ## The canonical hash -/

section Hash

variable [StoreCode]

def toBeBytes (n : Nat) : List UInt8 :=
  (List.range 8).reverse.map fun i => UInt8.ofNat (n / 256 ^ i % 256)

def writeBytes (bytes : List UInt8) : List UInt8 := toBeBytes bytes.length ++ bytes

def writeStr (value : String) : List UInt8 := writeBytes value.toUTF8.toList

def writeOptionalUuid : Option UUID4 → List UInt8
  | some uuid => 1 :: StoreCode.uuidBytes uuid
  | none => [0]

/-- What `compute_entry_hash` feeds to the hasher. -/
def hashInput (seq : Nat) (tsInit tsPublish : UnixNanos) (topic payloadType : String)
    (payload : List UInt8) (headers : Headers) : List UInt8 :=
  "nautilus-event-store/entry/v1".toUTF8.toList ++ toBeBytes seq ++ toBeBytes tsInit ++
    toBeBytes tsPublish ++ writeStr topic ++ writeStr payloadType ++ writeBytes payload ++
    writeOptionalUuid headers.intentId ++ writeOptionalUuid headers.correlationId ++
    writeOptionalUuid headers.causedBy

def computeEntryHash (seq : Nat) (tsInit tsPublish : UnixNanos) (topic payloadType : String)
    (payload : List UInt8) (headers : Headers) : EntryHash :=
  StoreCode.blake3 (hashInput seq tsInit tsPublish topic payloadType payload headers)

namespace EventStoreEntry

def recomputeHash (entry : EventStoreEntry) : EntryHash :=
  computeEntryHash entry.seq entry.tsInit entry.tsPublish entry.topic entry.payloadType
    entry.payload entry.headers

/-- The check every read makes. -/
def isIntact (entry : EventStoreEntry) : Bool := entry.recomputeHash == entry.entryHash

end EventStoreEntry

end Hash

/-! ## What a hash is taken of

Every field is written so that its end can be found: a fixed number of bytes, a length first, or a
tag. So **the bytes determine the entry**, whatever the strings hold. -/

section Framing

open List

theorem toList_loop (bytes : ByteArray) (i : Nat) (r : List UInt8) :
    ByteArray.toList.loop bytes i r = r.reverse ++ bytes.data.toList.drop i := by
  fun_induction ByteArray.toList.loop bytes i r with
  | case1 i r h ih =>
    have hlt : i < bytes.data.toList.length := h
    rw [ih, reverse_cons, append_assoc, singleton_append, drop_eq_getElem_cons hlt]
    congr 2
    exact getElem!_pos bytes.data i h
  | case2 i r h =>
    have hle : bytes.data.toList.length ≤ i := Nat.le_of_not_lt h
    rw [drop_of_length_le hle, append_nil]

theorem utf8_inj {s s' : String} (h : s.toUTF8.toList = s'.toUTF8.toList) : s = s' := by
  unfold ByteArray.toList at h
  rw [toList_loop, toList_loop] at h
  exact String.toByteArray_inj.mp (ByteArray.ext (Array.toList_inj.mp h))

theorem toBeBytes_inj {m n : Nat} (hm : m < 2 ^ 64) (hn : n < 2 ^ 64)
    (h : toBeBytes m = toBeBytes n) : m = n := by
  have hbyte : ∀ i < 8, m / 256 ^ i % 256 = n / 256 ^ i % 256 := by
    intro i hi
    have heq := map_inj_left.mp h i (mem_reverse.mpr (mem_range.mpr hi))
    simpa using congrArg UInt8.toNat heq
  -- from equal bytes, the numbers agree in their lowest bytes, one more at a time
  have hmod : ∀ k ≤ 8, m % 256 ^ k = n % 256 ^ k := by
    intro k hk
    induction k with
    | zero => simp only [Nat.pow_zero, Nat.mod_one]
    | succ k ih => rw [Nat.mod_pow_succ, Nat.mod_pow_succ, ih (by omega), hbyte k hk]
  have := hmod 8 le_rfl
  omega

/-- Of the values in `s`, what is written can be read back, whatever follows it. -/
def SelfDelimiting {α : Type} (write : α → List UInt8) (s : α → Prop) : Prop :=
  ∀ {a a' r r'}, s a → s a' → write a ++ r = write a' ++ r' → a = a' ∧ r = r'

theorem selfDelimiting_toBeBytes : SelfDelimiting toBeBytes (· < 2 ^ 64) := by
  intro n n' r r' hn hn' h
  obtain ⟨hbytes, hrest⟩ := append_inj h rfl
  exact ⟨toBeBytes_inj hn hn' hbytes, hrest⟩

theorem selfDelimiting_writeBytes :
    SelfDelimiting writeBytes fun bytes => bytes.length < 2 ^ 64 := by
  intro bytes bytes' r r' hb hb' h
  unfold writeBytes at h
  rw [append_assoc, append_assoc] at h
  obtain ⟨hlength, hrest⟩ := selfDelimiting_toBeBytes hb hb' h
  exact append_inj hrest hlength

theorem selfDelimiting_writeStr :
    SelfDelimiting writeStr fun s => s.toUTF8.toList.length < 2 ^ 64 := by
  intro s s' r r' hs hs' h
  obtain ⟨hbytes, hrest⟩ := selfDelimiting_writeBytes hs hs' h
  exact ⟨utf8_inj hbytes, hrest⟩

variable [StoreCode] {ids : UUID4 → Prop}

/-- The `uuid` crate gives sixteen bytes for an id it wrote, and different ones for another. -/
structure UuidBytes (ids : UUID4 → Prop) : Prop where
  length : ∀ id, ids id → (StoreCode.uuidBytes id).length = 16
  inj : ∀ id id', ids id → ids id' → StoreCode.uuidBytes id = StoreCode.uuidBytes id' → id = id'

theorem selfDelimiting_writeOptionalUuid (h : UuidBytes ids) :
    SelfDelimiting writeOptionalUuid fun id => ∀ uuid ∈ id, ids uuid := by
  rintro (_ | id) (_ | id') r r' hid hid' heq
  · exact ⟨rfl, (cons_eq_cons.mp heq).2⟩
  · nomatch heq
  · nomatch heq
  · have hlength := (h.length id (hid id rfl)).trans (h.length id' (hid' id' rfl)).symm
    obtain ⟨hbytes, hrest⟩ := append_inj (cons_eq_cons.mp heq).2 hlength
    exact ⟨congrArg some (h.inj id id' (hid id rfl) (hid' id' rfl) hbytes), hrest⟩

namespace EventStoreEntry

/-- What the hash of an entry is taken of. -/
def hashedBytes (entry : EventStoreEntry) : List UInt8 :=
  hashInput entry.seq entry.tsInit entry.tsPublish entry.topic entry.payloadType entry.payload
    entry.headers

/-- The numbers are words, the lengths fit in one, and the ids are written ones. -/
structure Hashable (entry : EventStoreEntry) (ids : UUID4 → Prop) : Prop where
  seq : entry.seq < 2 ^ 64
  tsInit : entry.tsInit < 2 ^ 64
  tsPublish : entry.tsPublish < 2 ^ 64
  topic : entry.topic.toUTF8.toList.length < 2 ^ 64
  payloadType : entry.payloadType.toUTF8.toList.length < 2 ^ 64
  payload : entry.payload.length < 2 ^ 64
  intentId : ∀ uuid ∈ entry.headers.intentId, ids uuid
  correlationId : ∀ uuid ∈ entry.headers.correlationId, ids uuid
  causedBy : ∀ uuid ∈ entry.headers.causedBy, ids uuid

/-- **Entries hashed from the same bytes differ at most in the stored hash; so do entries with the
same hash, unless their bytes are a collision.** -/
theorem hashedBytes_inj {entry entry' : EventStoreEntry} (hids : UuidBytes ids)
    (h : entry.Hashable ids) (h' : entry'.Hashable ids) :
    (entry.hashedBytes = entry'.hashedBytes →
      { entry with entryHash := entry'.entryHash } = entry') ∧
    (entry.recomputeHash = entry'.recomputeHash →
      { entry with entryHash := entry'.entryHash } = entry' ∨
      (entry.hashedBytes ≠ entry'.hashedBytes ∧
        StoreCode.blake3 entry.hashedBytes = StoreCode.blake3 entry'.hashedBytes)) := by
  have hbytes : entry.hashedBytes = entry'.hashedBytes →
      { entry with entryHash := entry'.entryHash } = entry' := by
    intro heq
    have huuid := @selfDelimiting_writeOptionalUuid _ _ hids
    unfold hashedBytes hashInput at heq
    simp only [append_assoc] at heq
    obtain ⟨-, heq⟩ := append_inj heq rfl
    obtain ⟨_, heq⟩ := selfDelimiting_toBeBytes h.seq h'.seq heq
    obtain ⟨_, heq⟩ := selfDelimiting_toBeBytes h.tsInit h'.tsInit heq
    obtain ⟨_, heq⟩ := selfDelimiting_toBeBytes h.tsPublish h'.tsPublish heq
    obtain ⟨_, heq⟩ := selfDelimiting_writeStr h.topic h'.topic heq
    obtain ⟨_, heq⟩ := selfDelimiting_writeStr h.payloadType h'.payloadType heq
    obtain ⟨_, heq⟩ := selfDelimiting_writeBytes h.payload h'.payload heq
    obtain ⟨_, heq⟩ := huuid h.intentId h'.intentId heq
    obtain ⟨_, heq⟩ := huuid h.correlationId h'.correlationId heq
    obtain ⟨_, -⟩ := huuid h.causedBy h'.causedBy (congrArg (· ++ []) heq)
    obtain ⟨_, _, ⟨_, _, _⟩, _, _, _, _, _⟩ := entry
    obtain ⟨_, _, ⟨_, _, _⟩, _, _, _, _, _⟩ := entry'
    simp_all
  refine ⟨hbytes, fun hhash => ?_⟩
  by_cases heq : entry.hashedBytes = entry'.hashedBytes
  · exact .inl (hbytes heq)
  · exact .inr ⟨heq, hhash⟩

end EventStoreEntry

end Framing

section

attribute [local instance] StoreCode.plain

def Sample.uuid : UUID4 := ⟨"00112233-4455-4677-8899-aabbccddeeff"⟩

def Sample.entryOf (topic payloadType : String) : EventStoreEntry :=
  ⟨.replicate 32 0, 7, ⟨some uuid, some uuid, some uuid⟩, topic, payloadType, [1, 2], 3, 4⟩

open Sample

/-- Topic and payload type are told apart where their texts together are the same. -/
theorem hashedBytes_inj_topic :
    (entryOf "ab" "c").hashedBytes ≠ (entryOf "a" "bc").hashedBytes := by
  have hids : UuidBytes (· = uuid) :=
    ⟨by rintro _ rfl; decide +kernel, fun _ _ h h' _ => h.trans h'.symm⟩
  have hid : ∀ id ∈ some uuid, id = uuid := fun _ h => (Option.some.inj h).symm
  intro heq
  have hsame := (EventStoreEntry.hashedBytes_inj hids
    ⟨by decide, by decide, by decide, by decide +kernel, by decide +kernel, by decide,
      hid, hid, hid⟩
    ⟨by decide, by decide, by decide, by decide +kernel, by decide +kernel, by decide,
      hid, hid, hid⟩).1
      heq
  nomatch congrArg EventStoreEntry.topic hsame

end

/-! ## Index keys and batches -/

inductive IndexKind where
  | intentId
  | clientOrderId
  | venueOrderId
deriving DecidableEq

inductive ScanDirection where
  | forward
  | reverse
deriving DecidableEq

structure IndexKey where
  kind : IndexKind
  key : String
deriving DecidableEq

structure AppendEntry where
  entry : EventStoreEntry
  indexKeys : List IndexKey
deriving DecidableEq

/-- The loop that checks a batch: the first sequence number that is not the one expected. -/
def firstOutOfOrder : (expected : Nat) → List AppendEntry → Option Nat
  | _, [] => none
  | expected, append :: entries =>
    if append.entry.seq ≠ expected then some append.entry.seq
    else firstOutOfOrder (expected + 1) entries

end Nautilus
