import Nautilus.EventStore.Agreement
import Nautilus.EventStore.Writer

/-!
# Writers over two stores

`batcher::run` knows its `Box<dyn EventStore>` only through the answers to three calls. A writer
whose store answers as a run in memory does follows the writer over that run.

* `AnswersAlike R`: the stores that `R` relates answer alike and stay related.
* `Follows.step`, `Follows.after`: the writers over two such stores stay in the same state, through
  one event and through every schedule.
* `Writer.mem_sent_step`: what the channel has taken was sent.
-/

namespace Nautilus

open Lib List

namespace Writer

/-! ## What was sent -/

variable {σ : Type} [WriterStore σ] (w : Writer σ)

theorem sent_flush : w.flush.1.sent = w.sent := by
  unfold flush
  split
  · rfl
  · split <;> rfl

theorem sent_spawn {backend : Failing σ} {maxBatchEntries : Nat} {w : Writer σ}
    (h : spawn backend maxBatchEntries = .ok w) : w.sent = [] := by
  unfold spawn at h
  split at h
  · nomatch h
  · split at h <;> cases h <;> rfl

theorem sent_onTimeout : w.onTimeout.sent = w.sent := by
  have hflush := w.sent_flush
  unfold onTimeout
  split
  · rfl
  split
  all_goals
    rename_i hcall
    rw [hcall] at hflush
    exact hflush

variable [StoreCode]

theorem sent_onEntry (draft : EntryDraft) (tsPublish : UnixNanos) :
    (w.onEntry draft tsPublish).sent = w.sent := by
  have hflush := sent_flush { w.push draft tsPublish with batchDeadline := true }
  unfold onEntry
  dsimp only
  split
  · split
    · rename_i hcall
      rw [hcall] at hflush
      exact hflush
    · rename_i hcall
      rw [hcall] at hflush
      split <;> exact hflush
  · split <;> rfl

omit [WriterStore σ] in
theorem sent_foldl_drain (messages : List WriterMessage) (w : Writer σ) :
    (messages.foldl drain w).sent = w.sent := by
  induction messages generalizing w with
  | nil => rfl
  | cons message messages ih =>
    rw [foldl_cons, ih]
    cases message <;> rfl

theorem sent_onClose (runEnded : EntryDraft) (now : UnixNanos) :
    (w.onClose runEnded now).sent = w.sent := by
  have hdrained : w.drainPending.sent = w.sent := sent_foldl_drain w.rx { w with rx := [] }
  have hflush := sent_flush { w.drainPending with
    batch := w.drainPending.batch ++ [buildAppendEntry runEnded now w.drainPending.nextSeq] }
  rw [← hdrained]
  unfold onClose
  dsimp only
  split
  · rename_i hcall
    rw [hcall] at hflush
    exact hflush
  · rename_i hcall
    rw [hcall] at hflush
    split <;> exact hflush

/-- What the channel has taken was taken before or is sent now. -/
theorem mem_sent_step {w : Writer σ} {event : WriterEvent} {message : WriterMessage}
    (h : message ∈ (w.step event).sent) : message ∈ w.sent ∨ event = .send message := by
  unfold step at h
  cases event with
  | send message' =>
    dsimp only at h
    split at h
    · rcases mem_append.mp h with h | h
      · exact .inl h
      · exact .inr (by rw [mem_singleton.mp h])
    · exact .inl h
  | disconnect => exact .inl h
  | recv now =>
    refine .inl ?_
    dsimp only at h
    split at h
    · split at h
      · rwa [sent_onEntry] at h
      · rwa [sent_onClose] at h
      split at h
      · exact h
      unfold onDisconnected at h
      split at h
      · exact h
      · exact sent_flush w ▸ h
    · exact h
  | timeout =>
    refine .inl ?_
    dsimp only at h
    split at h
    · rwa [sent_onTimeout] at h
    · exact h

end Writer

/-! ## Stores that answer alike -/

section

variable {σ τ : Type}

/-- Two calls of related stores: the answers are the same, and the stores stay related. -/
def SameCall {α : Type} (R : Failing σ → Failing τ → Prop) (call : Failing σ × α)
    (call' : Failing τ × α) : Prop :=
  R call.1 call'.1 ∧ call.2 = call'.2

theorem SameCall.exists {α : Type} {R : Failing σ → Failing τ → Prop} {call : Failing σ × α}
    {call' : Failing τ × α} (h : SameCall R call call') :
    ∃ backend backend' answer, call = (backend, answer) ∧ call' = (backend', answer) ∧
      R backend backend' :=
  ⟨_, _, _, rfl, Prod.ext rfl h.2.symm, h.1⟩

/-- The stores that `R` relates answer alike and stay related. -/
structure AnswersAlike [WriterStore σ] [WriterStore τ] (R : Failing σ → Failing τ → Prop) :
    Prop where
  highWatermark : ∀ {backend backend'}, R backend backend' →
    SameCall R backend.highWatermark backend'.highWatermark
  appendBatch : ∀ {backend backend'}, R backend backend' → ∀ entries,
    SameCall R (backend.appendBatch entries) (backend'.appendBatch entries)
  sealRun : ∀ {backend backend'}, R backend backend' → ∀ status,
    SameCall R (backend.sealRun status) (backend'.sealRun status)

/-- The loop with another store. -/
def Writer.withBackend (w : Writer σ) (backend : Failing τ) : Writer τ := { w with backend }

/-- The second writer is the first with another store, related to that of the first. -/
inductive Follows (R : Failing σ → Failing τ → Prop) (w : Writer σ) : Writer τ → Prop
  | intro {backend : Failing τ} (h : R w.backend backend) : Follows R w (w.withBackend backend)

namespace Follows

variable {R : Failing σ → Failing τ → Prop} {w : Writer σ} {w' : Writer τ}

theorem backend (h : Follows R w w') : R w.backend w'.backend := by
  cases h with
  | intro h => exact h

theorem sent (h : Follows R w w') : w'.sent = w.sent := by
  cases h
  rfl

theorem acks (h : Follows R w w') : w'.acks = w.acks := by
  cases h
  rfl

theorem stop (h : Follows R w w') : Follows R w.stop w'.stop := by
  cases h with
  | intro h => exact .intro h

theorem deadline (h : Follows R w w') (batchDeadline : Bool) :
    Follows R { w with batchDeadline } { w' with batchDeadline } := by
  cases h with
  | intro h => exact .intro h

theorem foldl_drain [StoreCode] (messages : List WriterMessage) (h : Follows R w w') :
    Follows R (messages.foldl Writer.drain w) (messages.foldl Writer.drain w') := by
  induction messages generalizing w w' with
  | nil => exact h
  | cons message messages ih =>
    cases h with
    | intro h => cases message <;> exact ih (.intro h)

variable [WriterStore σ] [WriterStore τ] (hR : AnswersAlike R) (h : Follows R w w')

include hR h

theorem flush : ∃ flushed flushed' ok, w.flush = (flushed, ok) ∧ w'.flush = (flushed', ok) ∧
    Follows R flushed flushed' := by
  cases h with
  | @intro backend h =>
  have hempty' : (w.withBackend backend).batch.isEmpty = w.batch.isEmpty := rfl
  unfold Writer.flush
  rw [hempty']
  by_cases hempty : w.batch.isEmpty = true
  · rw [if_pos hempty, if_pos hempty]
    exact ⟨_, _, _, rfl, rfl, .intro h⟩
  · rw [if_neg hempty, if_neg hempty]
    obtain ⟨_, _, answer, hcall, hcall', hrel⟩ := (hR.appendBatch h w.batch).exists
    rw [hcall,
      show (w.withBackend backend).backend.appendBatch (w.withBackend backend).batch = _ from hcall']
    cases answer <;> exact ⟨_, _, _, rfl, rfl, .intro hrel⟩

theorem onTimeout : Follows R w.onTimeout w'.onTimeout := by
  obtain ⟨_, _, ok, hw, hw', hflush⟩ := h.flush hR
  unfold Writer.onTimeout
  rw [hw, hw']
  cases h with
  | intro h =>
  show Follows R (if w.batch.isEmpty = true then _ else _) (if w.batch.isEmpty = true then _ else _)
  split
  · exact .intro h
  cases ok with
  | false => exact hflush.stop
  | true => exact hflush.deadline false

theorem onDisconnected : Follows R w.onDisconnected w'.onDisconnected := by
  obtain ⟨_, _, _, hw, hw', hflush⟩ := h.flush hR
  unfold Writer.onDisconnected
  rw [hw, hw']
  cases h with
  | intro h =>
  show Follows R (if w.batch.isEmpty = true then _ else _) (if w.batch.isEmpty = true then _ else _)
  split
  · exact .intro h
  · exact hflush.stop

variable [StoreCode]

theorem onEntry (draft : EntryDraft) (tsPublish : UnixNanos) :
    Follows R (w.onEntry draft tsPublish) (w'.onEntry draft tsPublish) := by
  have hpushed : Follows R { w.push draft tsPublish with batchDeadline := true }
      { w'.push draft tsPublish with batchDeadline := true } := by
    cases h with
    | intro h => exact .intro h
  obtain ⟨flushed, flushed', ok, hw, hw', hflush⟩ := hpushed.flush hR
  unfold Writer.onEntry
  simp only [hw, hw']
  cases h with
  | intro h =>
  show Follows R (if (w.push draft tsPublish).batch.length ≥ w.maxBatchEntries then _ else _)
    (if (w.push draft tsPublish).batch.length ≥ w.maxBatchEntries then _ else _)
  split
  · cases ok with
    | false => exact hflush.stop
    | true =>
      cases hflush with
      | intro h =>
      show Follows R (if flushed.batch.isEmpty = true then _ else _)
        (if flushed.batch.isEmpty = true then _ else _)
      split <;> exact .intro h
  · show Follows R (if (w.push draft tsPublish).batch.isEmpty = true then _ else _)
      (if (w.push draft tsPublish).batch.isEmpty = true then _ else _)
    split <;> exact .intro h

theorem onClose (runEnded : EntryDraft) (now : UnixNanos) :
    Follows R (w.onClose runEnded now) (w'.onClose runEnded now) := by
  have hended : Follows R
      { w.drainPending with batch := w.drainPending.batch ++
          [buildAppendEntry runEnded now w.drainPending.nextSeq] }
      { w'.drainPending with batch := w'.drainPending.batch ++
          [buildAppendEntry runEnded now w'.drainPending.nextSeq] } := by
    have hdrained : Follows R w.drainPending w'.drainPending := by
      cases h with
      | intro h => exact foldl_drain w.rx (.intro h)
    generalize w.drainPending = drained, w'.drainPending = drained' at hdrained
    cases hdrained with
    | intro h => exact .intro h
  obtain ⟨flushed, flushed', ok, hw, hw', hflush⟩ := hended.flush hR
  unfold Writer.onClose
  dsimp only
  rw [hw, hw']
  cases hflush with
  | @intro backend hrel =>
  cases ok with
  | false => exact .intro hrel
  | true =>
    obtain ⟨_, _, answer, hcall, hcall', hrel⟩ := (hR.sealRun hrel .ended).exists
    dsimp only
    rw [hcall, show (flushed.withBackend backend).backend.sealRun _ = _ from hcall']
    cases answer <;> exact .intro hrel

/-- **A turn of the second writer follows that of the first.** -/
theorem step (event : WriterEvent) : Follows R (w.step event) (w'.step event) := by
  have hcases := h
  cases h with
  | @intro backend h =>
  cases event with
  | send message =>
    unfold Writer.step
    show Follows R (if (w.running && w.connected) = true then _ else _)
      (if (w.running && w.connected) = true then _ else _)
    split <;> exact .intro h
  | disconnect => exact .intro h
  | recv now =>
    unfold Writer.step
    show Follows R (if w.running = true then _ else _) (if w.running = true then _ else _)
    split
    · have hrx : (w.withBackend backend).rx = w.rx := rfl
      rw [hrx]
      cases w.rx with
      | nil =>
        show Follows R (if w.connected = true then _ else _) (if w.connected = true then _ else _)
        split
        · exact hcases
        · exact hcases.onDisconnected hR
      | cons message rx =>
        have hpop : Follows R { w with rx } { w.withBackend backend with rx } := .intro h
        cases message with
        | entry draft tsPublish => exact hpop.onEntry hR draft tsPublish
        | close runEnded => exact hpop.onClose hR runEnded now
    · exact hcases
  | timeout =>
    unfold Writer.step
    show Follows R (if (w.running && w.batchDeadline) = true then _ else _)
      (if (w.running && w.batchDeadline) = true then _ else _)
    split
    · exact hcases.onTimeout hR
    · exact hcases

omit hR h

theorem after (hR : AnswersAlike R) (h : Follows R w w') (events : List WriterEvent) :
    Follows R (w.after events) (w'.after events) := by
  induction events generalizing w w' with
  | nil => exact h
  | cons event events ih => exact ih (h.step hR event)

omit [StoreCode] in
/-- A writer is spawned where one over a related store is. -/
theorem spawn (hR : AnswersAlike R) {backend : Failing σ} {backend' : Failing τ}
    (h : R backend backend') {maxBatchEntries : Nat}
    (hspawn : Writer.spawn backend' maxBatchEntries = .ok w') :
    ∃ w, Writer.spawn backend maxBatchEntries = .ok w ∧ Follows R w w' := by
  obtain ⟨_, _, answer, hcall, hcall', hrel⟩ := (hR.highWatermark h).exists
  unfold Writer.spawn at hspawn ⊢
  rw [hcall'] at hspawn
  rw [hcall]
  cases answer with
  | error e => nomatch hspawn
  | ok highWatermark =>
    dsimp only at hspawn ⊢
    -- the second read, by the thread
    obtain ⟨_, _, answer, hcall, hcall', hrel⟩ := (hR.highWatermark hrel).exists
    rw [hcall'] at hspawn
    rw [hcall]
    cases answer <;> cases hspawn <;> exact ⟨_, rfl, .intro hrel⟩

end Follows

end

end Nautilus
