import Nautilus.Clock.Throttler
import Nautilus.Lib.Run
import Nautilus.Lib.Spacing

/-!
# What a throttler lets through

The kept timestamps are the latest `limit` of all send times, so a message that goes when
`delta_next` is zero comes an interval after the one `limit` places before it (`Spaced`); the bound
on every window follows. While limiting, the alert stands where `delta_next` reaches zero, so the
callback may send its first message unchecked.

Setting an alert beyond `u64` panics in the middle of `send` or of the callback, after the message
was taken in; `Fits` says when that does not happen.
-/

namespace Nautilus.Throttler

open Lib List Option Bool

variable {T : Type} {s s' : Throttler T} {msg : T} {q : List T}

/-- The times of all sends, latest first. -/
def times (s : Throttler T) : List Nat := s.sent.map Prod.fst

/-- The messages sent, latest first. -/
def messages (s : Throttler T) : List T := s.sent.map Prod.snd

/-! ## The send times -/

/-- What the timestamps are to the send times. -/
structure History (s : Throttler T) : Prop where
  spaced : Spaced s.limit s.interval s.times
  le_now : ∀ t ∈ s.times, t ≤ s.now
  timestamps_eq : s.timestamps = s.times.take s.limit
  sentCount_eq : s.sentCount = s.sent.length

theorem History.getElem_timestamps (h : History s) :
    s.timestamps[s.limit - 1]? = s.times[s.limit - 1]? := by
  rw [h.timestamps_eq, getElem?_take_of_lt (Nat.sub_lt s.limit_pos Nat.one_pos)]

theorem deltaNext_of_getElem {ts : Nat} (hts : s.timestamps[s.limit - 1]? = some ts) :
    s.deltaNext = s.interval - (s.now - ts) := by
  rw [deltaNext, hts]

/-- A message may not go: the timestamp that decides, and when it lapses. -/
theorem History.of_deltaNext_pos (h : History s) (hd : 0 < s.deltaNext) :
    ∃ ts, s.timestamps[s.limit - 1]? = some ts ∧ ts ≤ s.now ∧
      s.now + s.deltaNext = ts + s.interval := by
  cases hts : s.timestamps[s.limit - 1]? with
  | none =>
    rw [deltaNext, hts] at hd
    exact absurd hd (Nat.lt_irrefl 0)
  | some ts =>
    have hle : ts ≤ s.now := h.le_now ts (mem_of_getElem? (h.getElem_timestamps ▸ hts))
    have hdelta := deltaNext_of_getElem hts
    exact ⟨ts, rfl, hle, by omega⟩

/-- The delay runs down with the clock. -/
theorem History.deltaNext_at (h : History s) (hd : 0 < s.deltaNext) {t : Nat} (ht : s.now ≤ t) :
    ({ s with now := t } : Throttler T).deltaNext = s.now + s.deltaNext - t := by
  obtain ⟨ts, hts, _, _⟩ := h.of_deltaNext_pos hd
  have hts : ({ s with now := t } : Throttler T).timestamps[s.limit - 1]? = some ts := hts
  rw [deltaNext_of_getElem hts]
  dsimp only
  omega

/-- A message that may go keeps the times spaced. -/
theorem History.sendMsg (h : History s) (hd : s.deltaNext = 0) (msg : T) :
    History (s.sendMsg msg) where
  spaced := by
    refine ⟨h.le_now, fun u hu => ?_, h.spaced⟩
    have hle : u ≤ s.now := h.le_now u (mem_of_getElem? hu)
    have hdelta := deltaNext_of_getElem (h.getElem_timestamps.trans hu)
    show u + s.interval ≤ s.now
    omega
  le_now t ht := by
    rcases mem_cons.mp ht with rfl | ht
    · exact Nat.le_refl _
    · exact h.le_now t ht
  timestamps_eq := by
    show s.now :: _ = (s.now :: s.times).take s.limit
    obtain ⟨n, hn⟩ : ∃ n, s.limit = n + 1 := ⟨s.limit - 1, (Nat.sub_add_cancel s.limit_pos).symm⟩
    rw [h.timestamps_eq, hn, take_succ_cons, length_take]
    split
    · rw [dropLast_eq_take, take_take, length_take]
      congr 2
      omega
    · rw [take_of_length_le (by omega), take_of_length_le (by omega)]
  sentCount_eq := congrArg (· + 1) h.sentCount_eq

/-! ## The callback -/

/-- The alert stands exactly while the throttler is limiting, at the end of the delay. -/
structure Armed (s : Throttler T) : Prop where
  idle : s.isLimiting = false → s.alert = none ∧ s.buffer = []
  limiting : s.isLimiting = true → 0 < s.deltaNext ∧ s.alert = some (s.now + s.deltaNext)

theorem of_setTimer (h : s.setTimer = some s') :
    s.now + s.deltaNext < 2 ^ 64 ∧ s' = { s with alert := some (s.now + s.deltaNext) } := by
  rw [setTimer, UnixNanos.add] at h
  split at h
  · rename_i hlt
    exact ⟨hlt, (some.inj h).symm⟩
  · nomatch h

theorem isSome_setTimer : s.setTimer.isSome ↔ s.now + s.deltaNext < 2 ^ 64 := by
  rw [setTimer, isSome_map, UnixNanos.add]
  split <;> simp_all

/-- Draining a queue sends the oldest messages, at least one; the rest stays behind a new alert. -/
structure Drained (q : List T) (s s' : Throttler T) : Prop where
  history : History s'
  armed : Armed s'
  split : ∃ out, q = out ++ s'.buffer.reverse ∧ s'.messages = out.reverse ++ s.messages ∧
    (q ≠ [] → out ≠ [])
  recvCount_eq : s'.recvCount = s.recvCount
  dropped_eq : s'.dropped = s.dropped
  outputDrop_eq : s'.outputDrop = s.outputDrop
  limit_eq : s'.limit = s.limit
  interval_eq : s'.interval = s.interval

/-- By induction on the queue. Every turn starts with a message that may go: the first because the
alert fell due, a later one because the loop went on. -/
theorem drained_of_drain (h : History s) (halert : s.alert = none) (hbuffer : s.buffer = q.reverse)
    (hq : q ≠ [] → s.deltaNext = 0) (hrun : drain q s = some s') : Drained q s s' := by
  induction q generalizing s with
  | nil =>
    cases hrun
    refine ⟨⟨h.spaced, h.le_now, h.timestamps_eq, h.sentCount_eq⟩, ⟨fun _ => ⟨halert, hbuffer⟩, nofun⟩,
      ⟨[], ?_, rfl, fun hne => absurd rfl hne⟩, rfl, rfl, rfl, rfl, rfl⟩
    show [] = [] ++ s.buffer.reverse
    rw [hbuffer]
    rfl
  | cons msg rest ih =>
    rw [drain] at hrun
    have h₀ : History { s with buffer := rest.reverse } :=
      ⟨h.spaced, h.le_now, h.timestamps_eq, h.sentCount_eq⟩
    have h₁ := h₀.sendMsg (hq (cons_ne_nil _ _)) msg
    split at hrun
    · rename_i hstop
      obtain ⟨-, rfl⟩ := of_setTimer hrun
      refine ⟨⟨h₁.spaced, h₁.le_now, h₁.timestamps_eq, h₁.sentCount_eq⟩,
        ⟨nofun, fun _ => ⟨hstop.2, rfl⟩⟩, ⟨[msg], ?_, rfl, fun _ => cons_ne_nil _ _⟩,
        rfl, rfl, rfl, rfl, rfl⟩
      show msg :: rest = msg :: rest.reverse.reverse
      rw [reverse_reverse]
    · rename_i hgo
      have hnext : rest ≠ [] →
          (Throttler.sendMsg { s with buffer := rest.reverse } msg).deltaNext = 0 :=
        fun hne => Nat.eq_zero_of_not_pos fun hpos => hgo ⟨hne, hpos⟩
      obtain ⟨hh, ha, ⟨out, hsplit, hmsgs, -⟩, h5, h6, h7, h8, h9⟩ := ih h₁ halert rfl hnext hrun
      refine ⟨hh, ha, ⟨msg :: out, ?_, ?_, fun _ => cons_ne_nil _ _⟩, h5, h6, h7, h8, h9⟩
      · rw [cons_append, ← hsplit]
      · rw [hmsgs, reverse_cons, append_assoc]
        rfl

/-! ## When the next alert fits -/

/-- How many timestamps have lapsed by a time. -/
def lapsed (s : Throttler T) (t : Nat) : Nat := s.timestamps.countP fun ts => ts + s.interval ≤ t

/-- The timestamp that decides after as many messages as had lapsed: the oldest that has not, or
now. -/
def firstStanding (s : Throttler T) (t : Nat) : Nat :=
  (s.timestamps.take (s.limit - s.lapsed t)).getLast?.getD t

section Full

variable (h : History s) (hlen : s.timestamps.length = s.limit) (hpos : 0 < s.interval)

include hlen in
theorem timestamps_sendMsg (msg : T) :
    (s.sendMsg msg).timestamps = s.now :: s.timestamps.take (s.limit - 1) := by
  show s.now :: _ = _
  rw [if_pos (Nat.le_of_eq hlen.symm), dropLast_eq_take, hlen]

include hlen in
theorem length_timestamps_sendMsg (msg : T) : (s.sendMsg msg).timestamps.length = s.limit := by
  have := s.limit_pos
  rw [timestamps_sendMsg hlen, length_cons, length_take]
  omega

include hlen in
/-- The timestamps are full, so the oldest one decides. -/
theorem timestamps_eq_append : ∃ ts, s.timestamps[s.limit - 1]? = some ts ∧
    s.timestamps = s.timestamps.take (s.limit - 1) ++ [ts] := by
  have hlt : s.limit - 1 < s.timestamps.length := by
    have := s.limit_pos
    omega
  refine ⟨s.timestamps[s.limit - 1], getElem?_eq_getElem hlt, ?_⟩
  have hsucc : s.limit - 1 + 1 = s.timestamps.length := by
    omega
  have htake := take_succ_eq_append_getElem hlt
  rwa [hsucc, take_length] at htake

include h hlen hpos in
/-- Sending a message that may go uses up the oldest timestamp, which had lapsed. -/
theorem lapsed_sendMsg (hd : s.deltaNext = 0) (msg : T) :
    s.lapsed s.now = (s.sendMsg msg).lapsed s.now + 1 := by
  obtain ⟨ts, hts, happ⟩ := timestamps_eq_append hlen
  have hle : ts ≤ s.now := h.le_now ts (mem_of_getElem? (h.getElem_timestamps ▸ hts))
  have hdelta := deltaNext_of_getElem hts
  have hold : ts + s.interval ≤ s.now := by omega
  have hnew : ¬ s.now + s.interval ≤ s.now := by omega
  have hlast : [ts].countP (fun ts => ts + s.interval ≤ s.now) = 1 := by simp [hold]
  rw [lapsed, lapsed, timestamps_sendMsg hlen, countP_cons]
  conv_lhs => rw [happ, countP_append, hlast]
  show _ = _ + (if decide (s.now + s.interval ≤ s.now) = true then 1 else 0) + 1
  rw [decide_eq_false hnew]
  rfl

include h hlen hpos in
theorem firstStanding_sendMsg (hd : s.deltaNext = 0) (msg : T) :
    (s.sendMsg msg).firstStanding s.now = s.firstStanding s.now := by
  have hcount := lapsed_sendMsg h hlen hpos hd msg
  have hle : s.lapsed s.now ≤ s.limit := hlen ▸ countP_le_length
  obtain ⟨k, _⟩ : ∃ k, s.limit = s.lapsed s.now + k := ⟨s.limit - s.lapsed s.now, by omega⟩
  rw [firstStanding, firstStanding, timestamps_sendMsg hlen]
  show ((s.now :: s.timestamps.take (s.limit - 1)).take
    (s.limit - (s.sendMsg msg).lapsed s.now)).getLast?.getD s.now = _
  have hsucc : s.limit - (s.sendMsg msg).lapsed s.now = k + 1 := by omega
  have hk' : s.limit - s.lapsed s.now = k := by omega
  have hmin : min k (s.limit - 1) = k := by omega
  rw [hsucc, hk', take_succ_cons, take_take, hmin, getLast?_cons]
  rfl

include h hlen in
/-- When a message may not go, no timestamp has lapsed. -/
theorem lapsed_of_deltaNext_pos (hd : 0 < s.deltaNext) : s.lapsed s.now = 0 := by
  obtain ⟨ts, hts, happ⟩ := timestamps_eq_append hlen
  obtain ⟨ts', hts', _, _⟩ := h.of_deltaNext_pos hd
  obtain rfl : ts = ts' := some.inj (hts.symm.trans hts')
  have hsorted : s.timestamps.Pairwise (· ≥ ·) := by
    rw [h.timestamps_eq]
    exact h.spaced.sorted.sublist (take_sublist _ _)
  refine countP_eq_zero.mpr fun u hu hlapsed => ?_
  have hge : ts ≤ u := by
    rw [happ] at hu hsorted
    rcases mem_append.mp hu with hu | hu
    · exact (pairwise_append.mp hsorted).2.2 u hu ts (mem_singleton_self ts)
    · exact Nat.le_of_eq (mem_singleton.mp hu).symm
  have := of_decide_eq_true hlapsed
  omega

end Full

/-- The loop empties the queue with what has lapsed, or the alert it sets for the rest fits. -/
theorem isSome_drain (h : History s) (hlen : s.timestamps.length = s.limit)
    (hpos : 0 < s.interval) (hq : q ≠ [] → s.deltaNext = 0) :
    (drain q s).isSome ↔
      q.length ≤ s.lapsed s.now ∨ s.firstStanding s.now + s.interval < 2 ^ 64 := by
  induction q generalizing s with
  | nil => exact iff_of_true rfl (.inl (Nat.zero_le _))
  | cons msg rest ih =>
    have hd := hq (cons_ne_nil _ _)
    have h₀ : History { s with buffer := rest.reverse } :=
      ⟨h.spaced, h.le_now, h.timestamps_eq, h.sentCount_eq⟩
    have h₁ := h₀.sendMsg hd msg
    have hcount := lapsed_sendMsg h₀ hlen hpos hd msg
    have hstanding := firstStanding_sendMsg h₀ hlen hpos hd msg
    have hlen₀ : ({ s with buffer := rest.reverse } : Throttler T).timestamps.length = s.limit :=
      hlen
    have hlen₁ := length_timestamps_sendMsg hlen₀ msg
    rw [drain]
    generalize hs₁ : Throttler.sendMsg { s with buffer := rest.reverse } msg = s₁ at *
    obtain ⟨hnow, hinterval, hlimit⟩ :
        s₁.now = s.now ∧ s₁.interval = s.interval ∧ s₁.limit = s.limit := by
      subst hs₁
      exact ⟨rfl, rfl, rfl⟩
    have hlen₁ : s₁.timestamps.length = s₁.limit := hlen₁.trans hlimit.symm
    have hcount : s.lapsed s.now = s₁.lapsed s.now + 1 := hcount
    have hstanding : s₁.firstStanding s.now = s.firstStanding s.now := hstanding
    rw [hcount, ← hstanding, ← hnow, ← hinterval, length_cons, Nat.add_le_add_iff_right]
    split
    · rename_i hstop
      have hnone := lapsed_of_deltaNext_pos h₁ hlen₁ hstop.2
      obtain ⟨ts, hts, -, hsum⟩ := h₁.of_deltaNext_pos hstop.2
      have hfirst : s₁.firstStanding s₁.now = ts := by
        obtain ⟨ts', hts', happ⟩ := timestamps_eq_append hlen₁
        obtain rfl : ts' = ts := some.inj (hts'.symm.trans hts)
        rw [firstStanding, hnone, Nat.sub_zero, take_of_length_le hlen₁.le, happ, getLast?_concat]
        rfl
      have hlong : ¬ rest.length ≤ 0 := fun hle =>
        hstop.1 (eq_nil_of_length_eq_zero (Nat.le_zero.mp hle))
      rw [isSome_setTimer, hnone, hfirst, or_iff_right hlong, ← hsum]
      rfl
    · rename_i hgo
      exact ih h₁ hlen₁ (hinterval ▸ hpos) fun hne => Nat.eq_zero_of_not_pos fun hp => hgo ⟨hne, hp⟩

/-! ## Steps -/

/-- The message is buffered or dropped. -/
def takeIn (s : Throttler T) (msg : T) : Throttler T :=
  { s with
    recvCount := s.recvCount + 1
    buffer := if s.outputDrop then s.buffer else msg :: s.buffer
    dropped := if s.outputDrop then msg :: s.dropped else s.dropped }

theorem limitMsg_eq (s : Throttler T) (msg : T) :
    ({ s with recvCount := s.recvCount + 1 } : Throttler T).limitMsg msg =
      if s.isLimiting then some (s.takeIn msg)
      else (s.takeIn msg).setTimer.map fun s => { s with isLimiting := true } := by
  cases hdrop : s.outputDrop <;> simp [limitMsg, takeIn, hdrop]

/-- `send`, for a throttler whose alert stands while it limits: the auto-reset finds nothing to
reset. -/
theorem send_eq (h : Armed s) (msg : T) :
    s.send msg =
      if s.isLimiting then some (s.takeIn msg)
      else if 0 < s.deltaNext then
        (s.takeIn msg).setTimer.map fun s => { s with isLimiting := true }
      else some (({ s with recvCount := s.recvCount + 1 } : Throttler T).sendMsg msg) := by
  have hreset : ¬ (s.isLimiting = true ∧ s.deltaNext = 0 ∧ s.buffer.isEmpty = true) :=
    fun ⟨hl, hd, _⟩ => Nat.ne_of_gt (h.limiting hl).1 hd
  have hdelta : ({ s with recvCount := s.recvCount + 1 } : Throttler T).deltaNext = s.deltaNext :=
    rfl
  simp only [send, hdelta, if_neg hreset, limitMsg_eq]
  cases hl : s.isLimiting with
  | true => simp
  | false => by_cases hd : 0 < s.deltaNext <;> simp [hd]

theorem isSome_send (h : Armed s) (msg : T) :
    (s.send msg).isSome ↔ s.isLimiting = true ∨ s.deltaNext = 0 ∨ s.now + s.deltaNext < 2 ^ 64 := by
  rw [send_eq h]
  split
  · rename_i hl
    exact iff_of_true rfl (.inl hl)
  rename_i hl
  rw [or_iff_right hl]
  split
  · rename_i hd
    rw [isSome_map, isSome_setTimer, or_iff_right (Nat.ne_of_gt hd)]
    rfl
  · rename_i hd
    exact iff_of_true rfl (.inl (Nat.eq_zero_of_not_pos hd))

/-- Where the messages are that `arrived`: sent, buffered or dropped. -/
structure Accounts (arrived : List T) (s : Throttler T) : Prop where
  recvCount_eq : s.recvCount = arrived.length
  buffering : s.outputDrop = false →
    s.dropped = [] ∧ arrived = s.messages.reverse ++ s.buffer.reverse
  dropping : s.outputDrop = true → s.buffer = [] ∧ s.messages.reverse.Sublist arrived ∧
    arrived.length = s.sent.length + s.dropped.length

structure Inv (arrived : List T) (s : Throttler T) : Prop where
  history : History s
  armed : Armed s
  accounts : Accounts arrived s

theorem inv_new (limit : Nat) (limit_pos : 0 < limit) (interval : Nat) (outputDrop : Bool)
    (now : Nat) : Inv [] (new limit limit_pos interval outputDrop now : Throttler T) where
  history := ⟨trivial, nofun, take_nil.symm, rfl⟩
  armed := ⟨fun _ => ⟨rfl, rfl⟩, nofun⟩
  accounts := ⟨rfl, fun _ => ⟨rfl, rfl⟩, fun _ => ⟨rfl, Sublist.refl _, rfl⟩⟩

section Steps

variable {arrived : List T} {elapsed : Nat}

theorem Accounts.takeIn (h : Accounts arrived s) (msg : T) :
    Accounts (arrived ++ [msg]) (s.takeIn msg) where
  recvCount_eq := by
    rw [length_append]
    exact congrArg (· + 1) h.recvCount_eq
  buffering hb := by
    have hb : s.outputDrop = false := hb
    obtain ⟨hdrop, harr⟩ := h.buffering hb
    refine ⟨?_, ?_⟩
    · simp [Throttler.takeIn, hb, hdrop]
    have hbuffer : (s.takeIn msg).buffer = msg :: s.buffer := by
      simp [Throttler.takeIn, hb]
    have hmsgs : (s.takeIn msg).messages = s.messages := rfl
    rw [hbuffer, hmsgs, reverse_cons, ← append_assoc, ← harr]
  dropping hb := by
    have hb : s.outputDrop = true := hb
    obtain ⟨hbuffer, hsub, hlen⟩ := h.dropping hb
    have hdropped : (s.takeIn msg).dropped = msg :: s.dropped := by
      simp [Throttler.takeIn, hb]
    refine ⟨?_, hsub.trans (sublist_append_left _ _), ?_⟩
    · simp [Throttler.takeIn, hb, hbuffer]
    · rw [hdropped, length_append, hlen]
      rfl

/-- A message that goes at once: nothing is buffered before it. -/
theorem Accounts.sendMsg (h : Accounts arrived s) (hbuffer : s.buffer = []) (msg : T) :
    Accounts (arrived ++ [msg])
      (({ s with recvCount := s.recvCount + 1 } : Throttler T).sendMsg msg) where
  recvCount_eq := by
    rw [length_append]
    exact congrArg (· + 1) h.recvCount_eq
  buffering hb := by
    obtain ⟨hdrop, harr⟩ := h.buffering hb
    refine ⟨hdrop, ?_⟩
    show arrived ++ [msg] = (msg :: s.messages).reverse ++ s.buffer.reverse
    rw [harr, hbuffer, reverse_cons, reverse_nil, append_nil, append_nil]
  dropping hb := by
    obtain ⟨-, hsub, hlen⟩ := h.dropping hb
    refine ⟨hbuffer, ?_, ?_⟩
    · show (msg :: s.messages).reverse.Sublist (arrived ++ [msg])
      rw [reverse_cons]
      exact hsub.append (Sublist.refl _)
    · show (arrived ++ [msg]).length = s.sent.length + 1 + s.dropped.length
      rw [length_append, length_singleton, hlen]
      omega

/-- The throttler when its alert falls due, with the time it fell due at. -/
def dueState (s : Throttler T) (elapsed : Nat) : Throttler T :=
  { s with now := s.now + elapsed, alert := none }

theorem advance_eq (s : Throttler T) (elapsed : Nat) :
    s.advance elapsed =
      if s.alert.any (· ≤ s.now + elapsed) then
        if s.outputDrop then some (s.dueState elapsed).resume else (s.dueState elapsed).handle
      else some { s with now := s.now + elapsed } := rfl

/-- The alert that the event sets, if any, is in the range of the clock. A message sets one when
limiting starts; an alert that falls due sets the next when more messages are buffered than
timestamps have lapsed. -/
def Fits (s : Throttler T) : Event T → Prop
  | .send _ => s.isLimiting = true ∨ s.deltaNext = 0 ∨ s.now + s.deltaNext < 2 ^ 64
  | .advance elapsed => ∀ a, s.alert = some a → a ≤ s.now + elapsed → s.outputDrop = false →
    s.buffer.length ≤ s.lapsed (s.now + elapsed) ∨
      s.firstStanding (s.now + elapsed) + s.interval < 2 ^ 64

variable (h : Inv arrived s)

include h

theorem inv_send (hrun : s.send msg = some s') : Inv (arrived ++ [msg]) s' := by
  rw [send_eq h.armed] at hrun
  split at hrun
  · rename_i hl
    cases hrun
    exact ⟨⟨h.history.spaced, h.history.le_now, h.history.timestamps_eq, h.history.sentCount_eq⟩,
      ⟨fun hn => absurd hl (eq_false_iff.mp hn), h.armed.limiting⟩, h.accounts.takeIn msg⟩
  · rename_i hl
    split at hrun
    · rename_i hd
      obtain ⟨_, hset, rfl⟩ := map_eq_some_iff.mp hrun
      obtain ⟨-, rfl⟩ := of_setTimer hset
      have hacc := h.accounts.takeIn msg
      exact ⟨⟨h.history.spaced, h.history.le_now, h.history.timestamps_eq,
        h.history.sentCount_eq⟩, ⟨nofun, fun _ => ⟨hd, rfl⟩⟩,
        ⟨hacc.recvCount_eq, hacc.buffering, hacc.dropping⟩⟩
    · rename_i hd
      cases hrun
      obtain ⟨halert, hbuffer⟩ := h.armed.idle (eq_false_iff.mpr hl)
      have hhist : History ({ s with recvCount := s.recvCount + 1 } : Throttler T) :=
        ⟨h.history.spaced, h.history.le_now, h.history.timestamps_eq, h.history.sentCount_eq⟩
      exact ⟨hhist.sendMsg (Nat.eq_zero_of_not_pos hd) msg,
        ⟨fun _ => ⟨halert, hbuffer⟩, fun hl' => absurd hl' hl⟩,
        h.accounts.sendMsg hbuffer msg⟩

/-- An alert that falls due: the timestamps are full, the oldest has lapsed. -/
theorem Inv.of_due {a : Nat} (ha : s.alert = some a) (hdue : a ≤ s.now + elapsed) :
    History (s.dueState elapsed) ∧ (s.dueState elapsed).timestamps.length = s.limit ∧
      0 < s.interval ∧ (s.dueState elapsed).deltaNext = 0 := by
  have hl : s.isLimiting = true := by
    by_contra hl
    have := (h.armed.idle (eq_false_iff.mpr hl)).1
    rw [ha] at this
    nomatch this
  obtain ⟨hd, halert⟩ := h.armed.limiting hl
  obtain ⟨ts, hts, _, _⟩ := h.history.of_deltaNext_pos hd
  obtain rfl : a = s.now + s.deltaNext := some.inj (ha.symm.trans halert)
  refine ⟨⟨h.history.spaced, fun t ht => ?_, h.history.timestamps_eq, h.history.sentCount_eq⟩,
    ?_, by omega, ?_⟩
  · exact (h.history.le_now t ht).trans (Nat.le_add_right _ _)
  · show s.timestamps.length = s.limit
    have hlt := (List.getElem?_eq_some_iff.mp hts).1
    have htake : s.timestamps.length ≤ s.limit := by
      rw [h.history.timestamps_eq]
      exact length_take_le _ _
    omega
  · have hts : (s.dueState elapsed).timestamps[(s.dueState elapsed).limit - 1]? = some ts := hts
    rw [deltaNext_of_getElem hts]
    show s.interval - (s.now + elapsed - ts) = 0
    omega

theorem inv_advance (hrun : s.advance elapsed = some s') : Inv arrived s' := by
  rw [advance_eq] at hrun
  split at hrun
  · rename_i hany
    obtain ⟨a, ha, hdue⟩ := (any_eq_true _ _).mp hany
    obtain ⟨hhist, _, _, hd⟩ := h.of_due ha (of_decide_eq_true hdue)
    split at hrun
    · rename_i hdrop
      cases hrun
      have hbuffer := (h.accounts.dropping hdrop).1
      exact ⟨⟨hhist.spaced, hhist.le_now, hhist.timestamps_eq, hhist.sentCount_eq⟩,
        ⟨fun _ => ⟨rfl, hbuffer⟩, nofun⟩,
        ⟨h.accounts.recvCount_eq, h.accounts.buffering, h.accounts.dropping⟩⟩
    · rename_i hdrop
      have hdrop : s.outputDrop = false := eq_false_iff.mpr hdrop
      have hdrained := drained_of_drain hhist rfl (reverse_reverse _).symm (fun _ => hd) hrun
      obtain ⟨hdropped, harr⟩ := h.accounts.buffering hdrop
      obtain ⟨out, hq, hmsgs, -⟩ := hdrained.split
      refine ⟨hdrained.history, hdrained.armed,
        ⟨hdrained.recvCount_eq.trans h.accounts.recvCount_eq, fun _ => ⟨?_, ?_⟩, fun hb => ?_⟩⟩
      · exact hdrained.dropped_eq.trans hdropped
      · have hq : s.buffer.reverse = out ++ s'.buffer.reverse := hq
        have hmsgs : s'.messages = out.reverse ++ s.messages := hmsgs
        rw [harr, hq, hmsgs, reverse_append, reverse_reverse, append_assoc]
      · have hb' : s'.outputDrop = s.outputDrop := hdrained.outputDrop_eq
        rw [hb', hdrop] at hb
        nomatch hb
  · rename_i hany
    cases hrun
    refine ⟨⟨h.history.spaced, fun t ht => ?_, h.history.timestamps_eq, h.history.sentCount_eq⟩,
      ⟨h.armed.idle, fun hl => ?_⟩,
      ⟨h.accounts.recvCount_eq, h.accounts.buffering, h.accounts.dropping⟩⟩
    · exact (h.history.le_now t ht).trans (Nat.le_add_right _ _)
    -- the delay shrinks as time passes, and the alert stays where it is
    obtain ⟨hd, halert⟩ := h.armed.limiting hl
    have hnot : ¬ s.now + s.deltaNext ≤ s.now + elapsed := by
      intro hdue
      rw [halert] at hany
      exact hany (decide_eq_true hdue)
    have hdelta := h.history.deltaNext_at hd (Nat.le_add_right s.now elapsed)
    refine ⟨by omega, halert.trans (congrArg some ?_)⟩
    show s.now + s.deltaNext = s.now + elapsed + _
    omega

theorem isSome_advance : (s.advance elapsed).isSome ↔ s.Fits (.advance elapsed) := by
  rw [advance_eq]
  split
  · rename_i hany
    obtain ⟨a, ha, hdue⟩ := (any_eq_true _ _).mp hany
    have hdue := of_decide_eq_true hdue
    obtain ⟨hhist, hlen, hpos, hd⟩ := h.of_due ha hdue
    split
    · rename_i hdrop
      refine iff_of_true rfl fun _ _ _ hno => ?_
      rw [hdrop] at hno
      nomatch hno
    · rename_i hdrop
      have hdrop : s.outputDrop = false := eq_false_iff.mpr hdrop
      have hdrain := isSome_drain (q := s.buffer.reverse) hhist hlen hpos fun _ => hd
      rw [length_reverse] at hdrain
      exact hdrain.trans ⟨fun hfit _ _ _ _ => hfit, fun hfit => hfit a ha hdue hdrop⟩
  · rename_i hany
    refine iff_of_true rfl fun a ha hdue => absurd ?_ hany
    rw [ha]
    exact decide_eq_true hdue

theorem isSome_step (e : Event T) : (s.step e).isSome ↔ s.Fits e := by
  cases e with
  | send msg => exact isSome_send h.armed msg
  | advance elapsed => exact isSome_advance h

theorem length_buffer_advance (hrun : s.advance elapsed = some s')
    (hdue : ∀ a, s.alert = some a → a ≤ s.now + elapsed) :
    s'.buffer.length ≤ s.buffer.length - 1 := by
  rw [advance_eq] at hrun
  split at hrun
  · rename_i hany
    obtain ⟨a, ha, hle⟩ := (any_eq_true _ _).mp hany
    obtain ⟨hhist, hlen, _, hd⟩ := h.of_due ha (of_decide_eq_true hle)
    split at hrun
    · rename_i hdrop
      cases hrun
      have hbuffer : (s.dueState elapsed).resume.buffer = [] := (h.accounts.dropping hdrop).1
      rw [hbuffer]
      exact Nat.zero_le _
    · have hdrained := drained_of_drain hhist rfl (reverse_reverse _).symm (fun _ => hd) hrun
      obtain ⟨out, hq, -, hout⟩ := hdrained.split
      have hq : s.buffer.reverse = out ++ s'.buffer.reverse := hq
      have hlen := congrArg length hq
      rw [length_append, length_reverse, length_reverse] at hlen
      by_cases hempty : s.buffer.reverse = []
      · rw [hempty] at hq
        have := (append_eq_nil_iff.mp hq.symm).2
        rw [reverse_eq_nil_iff.mp this]
        exact Nat.zero_le _
      · have := length_pos_iff.mpr (hout hempty)
        omega
  · rename_i hany
    cases hrun
    -- no alert is pending, so nothing is buffered
    have hidle : s.isLimiting = false := by
      refine eq_false_iff.mpr fun hl => hany ?_
      have halert := (h.armed.limiting hl).2
      have hle := hdue _ halert
      rw [halert]
      exact decide_eq_true hle
    show s.buffer.length ≤ _
    rw [(h.armed.idle hidle).2]
    exact Nat.zero_le _

end Steps

/-! ## Runs -/

section Runs

variable {arrived : List T} {events : List (Event T)}

/-- The message of a `send`. -/
def Event.msg? : Event T → Option T
  | .send msg => some msg
  | .advance _ => none

/-- The messages that arrive in a run, in order. -/
def arrivals (events : List (Event T)) : List T := events.filterMap Event.msg?

/-- Time passes until the pending alert falls due. -/
def Due (s : Throttler T) (e : Event T) (_ : Throttler T) : Prop :=
  ∃ elapsed, e = .advance elapsed ∧ ∀ a, s.alert = some a → a ≤ s.now + elapsed

/-- What a throttler that the messages `arrived` came to guarantees. -/
structure Keeps (arrived : List T) (s : Throttler T) : Prop where
  /-- No half-open window of an interval holds more sends than the limit. -/
  window : ∀ w, (s.times.filter fun t => w ≤ t ∧ t < w + s.interval).length ≤ s.limit
  /-- Messages leave in the order they arrived in. -/
  order : s.messages.reverse.Sublist arrived
  /-- All of them are sent or buffered, or sent or dropped. -/
  buffered : s.outputDrop = false → s.recvCount = s.sentCount + s.buffer.length
  dropped : s.outputDrop = true → s.recvCount = s.sentCount + s.dropped.length
  /-- Behind a buffered message stands the alert, at the first time a message may go. -/
  pending : s.buffer ≠ [] → s.isLimiting = true ∧ ∃ a, s.alert = some a ∧ s.now < a ∧
    ∀ t, s.now ≤ t → (({ s with now := t } : Throttler T).deltaNext = 0 ↔ a ≤ t)

section

variable (h : Inv arrived s)

include h

theorem inv_step {e : Event T} (hrun : s.step e = some s') : Inv (arrived ++ arrivals [e]) s' := by
  cases e with
  | send msg => exact inv_send h hrun
  | advance elapsed =>
    show Inv (arrived ++ []) s'
    rw [append_nil]
    exact inv_advance h hrun

theorem inv_runs (hrun : runs step s events = some s') : Inv (arrived ++ arrivals events) s' := by
  induction events generalizing arrived s with
  | nil =>
    cases hrun
    rwa [arrivals, filterMap_nil, append_nil]
  | cons e events ih =>
    rw [runs_cons, bind_eq_some_iff] at hrun
    obtain ⟨_, hstep, hrest⟩ := hrun
    have hsplit : arrivals (e :: events) = arrivals [e] ++ arrivals events := by
      rw [arrivals, arrivals, arrivals, ← filterMap_append, singleton_append]
    rw [hsplit, ← append_assoc]
    exact ih (inv_step h hstep) hrest

theorem isSome_runs
    (hfits : ∀ pre e suf t, events = pre ++ e :: suf → runs step s pre = some t → t.Fits e) :
    (runs step s events).isSome := by
  induction events generalizing arrived s with
  | nil => rfl
  | cons e events ih =>
    have hstep := (isSome_step h e).mpr (hfits [] e events s rfl rfl)
    obtain ⟨_, hs₁⟩ := isSome_iff_exists.mp hstep
    rw [runs_cons, hs₁]
    refine ih (inv_step h hs₁) fun pre e' suf t heq hrun => ?_
    refine hfits (e :: pre) e' suf t (by rw [heq, cons_append]) ?_
    rw [runs_cons, hs₁]
    exact hrun

/-- With as many alerts falling due as messages are buffered, none is left. -/
theorem buffer_of_due (hrun : runs step s events = some s')
    (hdue : Along step Due s events) (hlen : s.buffer.length ≤ events.length) :
    s'.buffer = [] := by
  induction events generalizing arrived s with
  | nil =>
    cases hrun
    exact eq_nil_of_length_eq_zero (Nat.le_zero.mp hlen)
  | cons e events ih =>
    rw [runs_cons, bind_eq_some_iff] at hrun
    obtain ⟨s₁, hstep, hrest⟩ := hrun
    obtain ⟨⟨_, rfl, hreach⟩, hlater⟩ := hdue s₁ hstep
    have hshorter := length_buffer_advance h hstep hreach
    rw [length_cons] at hlen
    exact ih (inv_step h hstep) hrest hlater (by omega)

theorem keeps_of_inv : Keeps arrived s where
  window w := h.history.spaced.length_window_le s.limit_pos w
  order := by
    cases hdrop : s.outputDrop with
    | true => exact (h.accounts.dropping hdrop).2.1
    | false =>
      rw [(h.accounts.buffering hdrop).2]
      exact sublist_append_left _ _
  buffered hdrop := by
    rw [h.accounts.recvCount_eq, (h.accounts.buffering hdrop).2, h.history.sentCount_eq]
    simp [messages]
  dropped hdrop := by
    rw [h.accounts.recvCount_eq, (h.accounts.dropping hdrop).2.2, h.history.sentCount_eq]
  pending hne := by
    have hl : s.isLimiting = true := by
      by_contra hl
      exact hne (h.armed.idle (eq_false_iff.mpr hl)).2
    obtain ⟨hd, halert⟩ := h.armed.limiting hl
    refine ⟨hl, _, halert, Nat.lt_add_of_pos_right hd, fun t ht => ?_⟩
    rw [h.history.deltaNext_at hd ht]
    exact Nat.sub_eq_zero_iff_le

end

/-- A run completes, every state on the way keeps its guarantee, and a buffer is empty once as many
alerts fell due as it held messages. -/
def KeepsRate (s₀ : Throttler T) (events : List (Event T)) : Prop :=
  ∀ pre suf, events = pre ++ suf → ∃ s s', runs step s₀ pre = some s ∧ Keeps (arrivals pre) s ∧
    runs step s suf = some s' ∧
    (Along step Due s suf → s.buffer.length ≤ suf.length → s'.buffer = [])

/-- **The rate is kept exactly when no alert is set beyond the range of the clock.** -/
theorem keepsRate_iff (limit : Nat) (limit_pos : 0 < limit) (interval : Nat) (outputDrop : Bool)
    (now : Nat) (events : List (Event T)) :
    KeepsRate (new limit limit_pos interval outputDrop now) events ↔
      ∀ pre e suf s, events = pre ++ e :: suf →
        runs step (new limit limit_pos interval outputDrop now) pre = some s → s.Fits e := by
  have hinit := inv_new (T := T) limit limit_pos interval outputDrop now
  constructor
  · rintro h pre e suf s rfl hrun
    obtain ⟨_, -, hrun₁, -⟩ := h (pre ++ [e]) suf (by rw [append_assoc]; rfl)
    rw [runs_append, hrun] at hrun₁
    have hstep : (s.step e).isSome := by
      cases hs : s.step e with
      | none =>
        rw [bind_some, runs_cons, hs] at hrun₁
        nomatch hrun₁
      | some _ => rfl
    exact (isSome_step (inv_runs hinit hrun) e).mp hstep
  · intro hfits pre suf heq
    obtain ⟨s', hall⟩ := isSome_iff_exists.mp (isSome_runs hinit hfits)
    rw [heq, runs_append, bind_eq_some_iff] at hall
    obtain ⟨s, hpre, hsuf⟩ := hall
    have hinv := inv_runs hinit hpre
    exact ⟨s, s', hpre, keeps_of_inv hinv, hsuf, buffer_of_due hinv hsuf⟩

/-- One message in ten nanoseconds: the second waits for the alert at ten. -/
theorem keepsRate_iff_small :
    KeepsRate (new 1 Nat.one_pos 10 false 0) [.send 'a', .send 'b', .advance 10] := by
  refine (keepsRate_iff 1 Nat.one_pos 10 false 0 _).mpr fun pre e suf s heq hrun => ?_
  match pre with
  | [] =>
    cases heq
    cases hrun
    exact .inr (.inl rfl)
  | [_] =>
    cases heq
    cases hrun
    exact .inr (.inr (by decide))
  | [_, _] =>
    cases heq
    cases hrun
    intro _ _ _ _
    exact .inl (by decide)
  | _ :: _ :: _ :: pre =>
    simp at heq

/-- An interval of `u64::MAX` nanoseconds: the message that the limit holds back panics. -/
theorem not_keepsRate_overflow :
    ¬ KeepsRate (new 1 Nat.one_pos (2 ^ 64 - 1) false 1) [.send 'a', .send 'b'] := by
  intro h
  obtain ⟨s, -, hrun, -⟩ := h [.send 'a', .send 'b'] [] rfl
  have hnone : (runs step (new 1 Nat.one_pos (2 ^ 64 - 1) false 1)
      [.send 'a', .send 'b']).isNone = true := by decide
  rw [hrun] at hnone
  nomatch hnone

end Runs

end Nautilus.Throttler
