import Nautilus.Clock.TestClock
import Nautilus.Lib.Run
import Nautilus.Lib.StableSort

/-!
# The schedule of a test clock

What a timer still owes is a set of times: the next one and every interval after it, up to the stop
time (`DueAt`). Advancing takes the times up to the target out of it, in order
(`advanced_of_advance`), so advancing in steps returns the same events as advancing at once.

`Agenda` is what each name was last booked for; a clock owes exactly what the agenda of the
accepted requests says (`represents_accept`).
-/

namespace Nautilus

open Lib List Option OrdMap Sorted TestTimer

/-! ## One timer -/

namespace TestTimer

/-- The times a timer has still to fire at. -/
def DueAt (timer : TestTimer) (t : Nat) : Prop :=
  timer.isExpired = false ∧ (∃ k, t = timer.nextTimeNs + k * timer.intervalNs.val) ∧
    ∀ stop, timer.stopTimeNs = some stop → t ≤ stop

/-- Advancing a timer to a time returns the events due by then, in order, and it owes the later
ones. -/
structure Advanced (toTimeNs : Nat) (timer timer' : TestTimer) (events : List TimeEvent) :
    Prop where
  sorted : events.Pairwise fun a b => a.tsEvent < b.tsEvent
  mem_iff : ∀ e, e ∈ events ↔
    e.name = timer.name ∧ e.tsInit = e.tsEvent ∧ timer.DueAt e.tsEvent ∧ e.tsEvent ≤ toTimeNs
  due_iff : ∀ t, timer'.DueAt t ↔ timer.DueAt t ∧ toTimeNs < t
  name_eq : timer'.name = timer.name
  intervalNs_eq : timer'.intervalNs = timer.intervalNs

variable {timer timer' : TestTimer} {toTimeNs t : Nat}

theorem DueAt.nextTimeNs_le (h : timer.DueAt t) : timer.nextTimeNs ≤ t := by
  obtain ⟨k, rfl⟩ := h.2.1
  exact Nat.le_add_right _ _

/-- A timer that owes nothing by the target is advanced by doing nothing, or by expiring. -/
theorem Advanced.of_not_due (hnone : ∀ t, timer.DueAt t → toTimeNs < t)
    (hdue : ∀ t, timer'.DueAt t ↔ timer.DueAt t) (hname : timer'.name = timer.name)
    (hinterval : timer'.intervalNs = timer.intervalNs) :
    Advanced toTimeNs timer timer' [] where
  sorted := .nil
  mem_iff e := by
    refine ⟨nofun, fun ⟨_, _, hd, hle⟩ => ?_⟩
    exact absurd (hnone _ hd) (Nat.not_lt.mpr hle)
  due_iff t := by rw [hdue, iff_self_and]; exact hnone t
  name_eq := hname
  intervalNs_eq := hinterval

theorem not_dueAt_of_isExpired (h : timer.isExpired = true) (t : Nat) : ¬ timer.DueAt t :=
  fun hd => Bool.false_ne_true (hd.1.symm.trans h)

theorem not_dueAt_of_stop (h : timer.stopTimeNs.any (· < timer.nextTimeNs) = true) (t : Nat) :
    ¬ timer.DueAt t := by
  obtain ⟨stop, hstop, hlt⟩ := (any_eq_true _ _).mp h
  intro hd
  have hle := hd.2.2 stop hstop
  have hge := hd.nextTimeNs_le
  have hlt' := of_decide_eq_true hlt
  omega

def afterEvent (timer : TestTimer) : TestTimer :=
  { timer with
    isExpired := decide (timer.stopTimeNs = some timer.nextTimeNs)
    nextTimeNs := timer.nextTimeNs + timer.intervalNs.val }

/-- It owes what it owed, that event apart. -/
theorem dueAt_afterEvent (hexp : timer.isExpired = false) (t : Nat) :
    timer.afterEvent.DueAt t ↔ timer.DueAt t ∧ timer.nextTimeNs < t := by
  have hpos := timer.intervalNs.property
  constructor
  · rintro ⟨_, ⟨k, ht⟩, hle⟩
    dsimp only [afterEvent] at ht hle
    have hk : t = timer.nextTimeNs + (k + 1) * timer.intervalNs.val := by
      rw [ht, Nat.succ_mul]
      omega
    refine ⟨⟨hexp, ⟨k + 1, hk⟩, hle⟩, ?_⟩
    omega
  · rintro ⟨⟨-, ⟨k, hk⟩, hle⟩, _⟩
    refine ⟨?_, ?_, hle⟩
    · -- with the stop time at this event nothing later is due
      refine decide_eq_false fun hstop => ?_
      have := hle _ hstop
      omega
    · cases k with
      | zero => omega
      | succ k =>
        refine ⟨k, ?_⟩
        dsimp only [afterEvent]
        rw [hk, Nat.succ_mul]
        omega

/-- The induction is on the number of calls still allowed, which reaches past everything due. -/
theorem advanced_of_take {n : Nat} {timer : TestTimer}
    (hfits : ∀ t, timer.DueAt t → t ≤ toTimeNs → t + timer.intervalNs.val < 2 ^ 64)
    (hin : ∀ k < n, timer.nextTimeNs + k * timer.intervalNs.val ≤ toTimeNs)
    (hall : ∀ t, timer.DueAt t → t ≤ toTimeNs → t < timer.nextTimeNs + n * timer.intervalNs.val) :
    ∃ timer' events, take n timer = some (timer', events) ∧
      Advanced toTimeNs timer timer' events := by
  induction n generalizing timer with
  | zero =>
    refine ⟨timer, [], rfl, .of_not_due (fun t ht => ?_) (fun _ => Iff.rfl) rfl rfl⟩
    have hge := ht.nextTimeNs_le
    have hlt := hall t ht
    omega
  | succ n ih =>
    by_cases hexp : timer.isExpired = true
    · have hnone := not_dueAt_of_isExpired hexp
      refine ⟨timer, [], ?_, .of_not_due (fun t ht => absurd ht (hnone t)) (fun _ => Iff.rfl) rfl
        rfl⟩
      simp [take, next, hexp]
    · have hexp := Bool.not_eq_true _ ▸ hexp
      by_cases hstop : timer.stopTimeNs.any (· < timer.nextTimeNs) = true
      · have hnone := not_dueAt_of_stop hstop
        refine ⟨{ timer with isExpired := true }, [], ?_, .of_not_due (fun t ht => absurd ht (hnone t))
          (fun t => iff_of_false (not_dueAt_of_isExpired rfl t) (hnone t)) rfl rfl⟩
        simp [take, next, hexp, hstop]
      · -- an event: the timer that is left owes the later ones
        have hdue : timer.DueAt timer.nextTimeNs := by
          refine ⟨hexp, ⟨0, by rw [Nat.zero_mul, Nat.add_zero]⟩, fun stop hs => ?_⟩
          rw [hs] at hstop
          simpa using hstop
        have hto : timer.nextTimeNs ≤ toTimeNs := by simpa using hin 0 (Nat.succ_pos n)
        have hadd := hfits _ hdue hto
        have hafter := dueAt_afterEvent hexp
        obtain ⟨timer', events, htake, hadv⟩ := @ih timer.afterEvent
          (fun t ht => hfits t ((hafter t).mp ht).1)
          (fun k hk => by
            have := hin (k + 1) (Nat.succ_lt_succ hk)
            rw [Nat.succ_mul] at this
            dsimp only [afterEvent]
            omega)
          (fun t ht hle => by
            have := hall t ((hafter t).mp ht).1 hle
            rw [Nat.succ_mul] at this
            dsimp only [afterEvent]
            omega)
        refine ⟨timer', ⟨timer.name, timer.nextTimeNs, timer.nextTimeNs⟩ :: events, ?_, ?_⟩
        · rw [take, next, if_neg (Bool.not_eq_true _ ▸ hexp), if_neg hstop, UnixNanos.add, if_pos hadd]
          show (take n timer.afterEvent).bind _ = _
          rw [htake]
          rfl
        · refine ⟨pairwise_cons.mpr ⟨fun e he => ?_, hadv.sorted⟩, fun e => ?_, fun t => ?_,
            hadv.name_eq, hadv.intervalNs_eq⟩
          · exact ((hafter _).mp ((hadv.mem_iff e).mp he).2.2.1).2
          · rw [mem_cons, hadv.mem_iff]
            constructor
            · rintro (rfl | ⟨hname, hinit, hd, hle⟩)
              · exact ⟨rfl, rfl, hdue, hto⟩
              · exact ⟨hname, hinit, ((hafter _).mp hd).1, hle⟩
            rintro ⟨hname, hinit, hd, hle⟩
            rcases hd.nextTimeNs_le.eq_or_lt with heq | hlt
            · left
              obtain ⟨name, _, _⟩ := e
              dsimp only at hname hinit heq
              rw [hname, hinit, heq]
            · exact .inr ⟨hname, hinit, (hafter _).mpr ⟨hd, hlt⟩, hle⟩
          · rw [hadv.due_iff, hafter, and_assoc]
            refine and_congr_right fun _ => ⟨fun h => h.2, fun h => ⟨?_, h⟩⟩
            omega

/-- **One timer.** The steps that `advance` divides out reach past everything due, though they
saturate: the time after the last event would not fit otherwise. -/
theorem advanced_of_advance
    (hfits : ∀ t, timer.DueAt t → t ≤ toTimeNs → t + timer.intervalNs.val < 2 ^ 64) :
    ∃ timer' events, timer.advance toTimeNs = some (timer', events) ∧
      Advanced toTimeNs timer timer' events := by
  have hpos := timer.intervalNs.property
  apply advanced_of_take hfits
  · intro k hk
    rw [advances] at hk
    split at hk
    · rename_i hle
      have hq : k ≤ (toTimeNs - timer.nextTimeNs) / timer.intervalNs.val := by omega
      have := (Nat.le_div_iff_mul_le hpos).mp hq
      omega
    · exact absurd hk (Nat.not_lt_zero k)
  · intro t ht hle
    have hge := ht.nextTimeNs_le
    have hsum := hfits t ht hle
    obtain ⟨k, rfl⟩ := ht.2.1
    have hq : k ≤ (toTimeNs - timer.nextTimeNs) / timer.intervalNs.val :=
      (Nat.le_div_iff_mul_le hpos).mpr (by omega)
    have hk : k ≤ k * timer.intervalNs.val := Nat.le_mul_of_pos_right k hpos
    have hlt : k < timer.advances toTimeNs := by
      rw [advances, if_pos (hge.trans hle)]
      omega
    exact Nat.add_lt_add_left (Nat.mul_lt_mul_of_pos_right hlt hpos) _

end TestTimer

/-! ## The clock -/

/-- The order of a schedule: by time, then by timer name. -/
def TimeEvent.Before (a b : TimeEvent) : Prop :=
  a.tsEvent < b.tsEvent ∨ a.tsEvent = b.tsEvent ∧ compare a.name b.name = .lt

/-- A list in that order is known from its members. -/
theorem TimeEvent.eq_of_pairwise_before {as bs : List TimeEvent}
    (ha : as.Pairwise TimeEvent.Before) (hb : bs.Pairwise TimeEvent.Before)
    (hmem : ∀ e, e ∈ as ↔ e ∈ bs) : as = bs := by
  have hne : ∀ {a b : TimeEvent}, a.Before b → a ≠ b := by
    rintro a b h rfl
    have hself : compare a.name a.name = .eq := Std.ReflCmp.compare_self
    obtain h | ⟨-, h⟩ := h
    · exact Nat.lt_irrefl _ h
    · rw [hself] at h
      nomatch h
  have hperm : as.Perm bs := (perm_ext_iff_of_nodup (ha.imp hne) (hb.imp hne)).mpr hmem
  refine hperm.eq_of_pairwise (fun a b _ _ hab hba => ?_) ha hb
  obtain hab | ⟨heq, hab⟩ := hab
  · obtain hba | ⟨heq, -⟩ := hba <;> omega
  obtain hba | ⟨-, hba⟩ := hba
  · omega
  · rw [Std.OrientedCmp.gt_of_lt hab] at hba
    nomatch hba

/-- The times that the timer of a name has still to fire at, with the interval it adds after
each. -/
def Owes (timers : List (String × TestTimer)) (name : String) (t interval : Nat) : Prop :=
  ∃ timer, (name, timer) ∈ timers ∧ timer.DueAt t ∧ timer.intervalNs.val = interval

/-- Each timer is kept under its own name, and no time that one computes up to the target overflows.
-/
structure TimersFit (toTimeNs : Nat) (timers : List (String × TestTimer)) : Prop where
  named : ∀ p ∈ timers, p.2.name = p.1
  fits : ∀ name t interval, Owes timers name t interval → t ≤ toTimeNs → t + interval < 2 ^ 64

structure AdvancedAll (toTimeNs : Nat) (timers kept : List (String × TestTimer))
    (events : List TimeEvent) : Prop where
  grouped : events.Pairwise fun a b => a.tsEvent = b.tsEvent → compare a.name b.name = .lt
  mem_iff : ∀ e, e ∈ events ↔ e.tsInit = e.tsEvent ∧ e.tsEvent ≤ toTimeNs ∧
    ∃ interval, Owes timers e.name e.tsEvent interval
  sorted : Sorted.Asc compare kept
  keys : ∀ p ∈ kept, p.2.name = p.1 ∧ ∃ q ∈ timers, q.1 = p.1
  owes_iff : ∀ name t interval,
    Owes kept name t interval ↔ Owes timers name t interval ∧ toTimeNs < t

section Timers

variable {toTimeNs : Nat} {timers kept : List (String × TestTimer)} {timer timer' : TestTimer}
  {events later : List TimeEvent} {name : String}

theorem owes_cons {p : String × TestTimer} {t interval : Nat} :
    Owes (p :: timers) name t interval ↔
      (name = p.1 ∧ p.2.DueAt t ∧ p.2.intervalNs.val = interval) ∨
        Owes timers name t interval := by
  constructor
  · rintro ⟨timer, hmem, hrest⟩
    rcases mem_cons.mp hmem with rfl | hmem
    · exact .inl ⟨rfl, hrest⟩
    · exact .inr ⟨timer, hmem, hrest⟩
  · rintro (⟨rfl, hrest⟩ | ⟨timer, hmem, hrest⟩)
    · exact ⟨p.2, mem_cons_self, hrest⟩
    · exact ⟨timer, mem_cons_of_mem p hmem, hrest⟩

/-- A timer in front of advanced ones: its events come first. -/
theorem AdvancedAll.cons (hname : timer.name = name)
    (hsorted : Asc compare ((name, timer) :: timers)) (hadv : Advanced toTimeNs timer timer' events)
    (hall : AdvancedAll toTimeNs timers kept later) :
    AdvancedAll toTimeNs ((name, timer) :: timers)
      (if timer'.isExpired then kept else (name, timer') :: kept) (events ++ later) := by
  obtain ⟨hlt, -⟩ := pairwise_cons.mp hsorted
  refine ⟨?_, fun e => ?_, ?_, fun p hp => ?_, fun name' t interval => ?_⟩
  · refine pairwise_append.mpr ⟨hadv.sorted.imp fun h heq => ?_, hall.grouped,
      fun a ha b hb _ => ?_⟩
    · exact absurd heq (Nat.ne_of_lt h)
    · obtain ⟨-, -, -, other, hmem, -⟩ := (hall.mem_iff b).mp hb
      rw [((hadv.mem_iff a).mp ha).1, hname]
      exact hlt (b.name, other) hmem
  · rw [mem_append, hadv.mem_iff, hall.mem_iff, hname]
    constructor
    · rintro (⟨hn, hinit, hd, hle⟩ | ⟨hinit, hle, interval, howes⟩)
      · exact ⟨hinit, hle, timer.intervalNs.val, owes_cons.mpr (.inl ⟨hn, hd, rfl⟩)⟩
      · exact ⟨hinit, hle, interval, owes_cons.mpr (.inr howes)⟩
    · rintro ⟨hinit, hle, interval, howes⟩
      rcases owes_cons.mp howes with ⟨hn, hd, -⟩ | howes
      · exact .inl ⟨hn, hinit, hd, hle⟩
      · exact .inr ⟨hinit, hle, interval, howes⟩
  · split
    · exact hall.sorted
    · refine pairwise_cons.mpr ⟨fun p hp => ?_, hall.sorted⟩
      obtain ⟨-, q, hq, heq⟩ := hall.keys p hp
      exact heq ▸ hlt q hq
  · have hkept : p ∈ (name, timer') :: kept := by
      split at hp
      · exact mem_cons_of_mem _ hp
      · exact hp
    rcases mem_cons.mp hkept with rfl | hp
    · exact ⟨hadv.name_eq.trans hname, _, mem_cons_self, rfl⟩
    · obtain ⟨hn, q, hq, heq⟩ := hall.keys p hp
      exact ⟨hn, q, mem_cons_of_mem _ hq, heq⟩
  · -- a timer that is dropped owes nothing
    have hkept : Owes (if timer'.isExpired then kept else (name, timer') :: kept) name' t interval ↔
        Owes ((name, timer') :: kept) name' t interval := by
      split_ifs with hexp
      · rw [owes_cons]
        refine ⟨.inr, fun h => h.resolve_left fun h => ?_⟩
        exact not_dueAt_of_isExpired hexp t h.2.1
      · rfl
    rw [hkept, owes_cons, owes_cons, hall.owes_iff, hadv.due_iff, hadv.intervalNs_eq]
    constructor
    · rintro (⟨hn, ⟨hd, hgt⟩, hi⟩ | ⟨howes, hgt⟩)
      · exact ⟨.inl ⟨hn, hd, hi⟩, hgt⟩
      · exact ⟨.inr howes, hgt⟩
    · rintro ⟨⟨hn, hd, hi⟩ | howes, hgt⟩
      · exact .inl ⟨hn, ⟨hd, hgt⟩, hi⟩
      · exact .inr ⟨howes, hgt⟩

theorem TimersFit.tail {p : String × TestTimer} (h : TimersFit toTimeNs (p :: timers)) :
    TimersFit toTimeNs timers where
  named q hq := h.named q (mem_cons_of_mem p hq)
  fits name t interval howes := h.fits name t interval (owes_cons.mpr (.inr howes))

theorem advancedAll_of_advanceTimers (hsorted : Asc compare timers)
    (hfits : TimersFit toTimeNs timers) :
    ∃ kept events, TestClock.advanceTimers toTimeNs timers = some (kept, events) ∧
      AdvancedAll toTimeNs timers kept events := by
  induction timers with
  | nil =>
    refine ⟨[], [], rfl, .nil, fun e => ?_, .nil, nofun, fun name t interval => ?_⟩
    · exact ⟨nofun, fun ⟨_, _, _, _, hmem, _⟩ => nomatch hmem⟩
    · exact ⟨fun ⟨_, hmem, _⟩ => (nomatch hmem), fun ⟨⟨_, hmem, _⟩, _⟩ => nomatch hmem⟩
  | cons p timers ih =>
    obtain ⟨name, timer⟩ := p
    have hdue : ∀ t, timer.DueAt t → t ≤ toTimeNs → t + timer.intervalNs.val < 2 ^ 64 :=
      fun t hd => hfits.fits name t _ (owes_cons.mpr (.inl ⟨rfl, hd, rfl⟩))
    obtain ⟨_, events, hrun, hadv⟩ := advanced_of_advance hdue
    obtain ⟨kept, _, hrest, hall⟩ := ih (pairwise_cons.mp hsorted).2 hfits.tail
    refine ⟨_, _, ?_, hall.cons (hfits.named _ mem_cons_self) hsorted hadv⟩
    rw [TestClock.advanceTimers, hrun]
    simp [hrest]

theorem TimersFit.mono {earlier : Nat} (h : TimersFit toTimeNs timers) (hle : earlier ≤ toTimeNs) :
    TimersFit earlier timers where
  named := h.named
  fits name t interval howes ht := h.fits name t interval howes (ht.trans hle)

end Timers

namespace TestClock

variable {Callback : Type} {c c' c'' : TestClock Callback} {toTimeNs last : Nat}
  {events later : List TimeEvent}

/-- What advancing a clock does, at once or in steps. -/
structure Advances (toTimeNs : Nat) (c c' : TestClock Callback) (events : List TimeEvent) :
    Prop where
  sorted : events.Pairwise TimeEvent.Before
  mem_iff : ∀ e, e ∈ events ↔ e.tsInit = e.tsEvent ∧ e.tsEvent ≤ toTimeNs ∧
    ∃ interval, Owes c.timers.entries e.name e.tsEvent interval
  time_le : c'.time ≤ toTimeNs
  named : ∀ p ∈ c'.timers.entries, p.2.name = p.1
  owes_iff : ∀ name t interval, Owes c'.timers.entries name t interval ↔
    Owes c.timers.entries name t interval ∧ toTimeNs < t

theorem advances_of_advanceTime (setTime : Bool) (hle : c.time ≤ toTimeNs)
    (hfits : TimersFit toTimeNs c.timers.entries) :
    ∃ c' events, c.advanceTime toTimeNs setTime = some (c', events) ∧
      Advances toTimeNs c c' events := by
  obtain ⟨kept, events, hrun, hall⟩ := advancedAll_of_advanceTimers c.timers.sorted hfits
  have hkept : (collect kept : OrdMap compare TestTimer).entries = kept :=
    entries_foldl_insert hall.sorted
  have hadvance : c.advanceTime toTimeNs setTime = some
      ({ c with time := if setTime then toTimeNs else c.time, timers := collect kept },
        events.insertionSort fun a b => a.tsEvent ≤ b.tsEvent) := by
    rw [advanceTime, if_neg (Nat.not_lt.mpr hle), hrun]
    rfl
  refine ⟨_, _, hadvance, pairwise_insertionSort_key hall.grouped, fun e => ?_, ?_,
    fun p hp => ?_, fun name t interval => ?_⟩
  · rw [mem_insertionSort, hall.mem_iff]
  · dsimp only
    split
    · exact le_rfl
    · exact hle
  · exact (hall.keys p (hkept ▸ hp)).1
  · rw [hkept, hall.owes_iff]

theorem Advances.trans (hle : toTimeNs ≤ last) (h : Advances toTimeNs c c' events)
    (h' : Advances last c' c'' later) : Advances last c c'' (events ++ later) where
  sorted := by
    refine pairwise_append.mpr ⟨h.sorted, h'.sorted, fun a ha b hb => .inl ?_⟩
    obtain ⟨-, -, _, howes⟩ := (h'.mem_iff b).mp hb
    have hb' := ((h.owes_iff _ _ _).mp howes).2
    have ha' := ((h.mem_iff a).mp ha).2.1
    omega
  mem_iff e := by
    rw [mem_append, h.mem_iff, h'.mem_iff]
    constructor
    · rintro (⟨hinit, ht, howes⟩ | ⟨hinit, ht, interval, howes⟩)
      · exact ⟨hinit, ht.trans hle, howes⟩
      · exact ⟨hinit, ht, interval, ((h.owes_iff _ _ _).mp howes).1⟩
    · rintro ⟨hinit, ht, interval, howes⟩
      -- an event belongs to the first advance or the second, by its time
      rcases Nat.lt_or_ge toTimeNs e.tsEvent with hlt | hge
      · exact .inr ⟨hinit, ht, interval, (h.owes_iff _ _ _).mpr ⟨howes, hlt⟩⟩
      · exact .inl ⟨hinit, hge, interval, howes⟩
  time_le := h'.time_le
  named := h'.named
  owes_iff name t interval := by
    rw [h'.owes_iff, h.owes_iff, and_assoc]
    exact and_congr_right fun _ => ⟨And.right, fun hlt => ⟨hle.trans_lt hlt, hlt⟩⟩

/-- Advancing a clock to one target after the other, with the events of all calls. -/
def advanceEach (c : TestClock Callback) :
    List (Nat × Bool) → Option (TestClock Callback × List TimeEvent)
  | [] => some (c, [])
  | (toTimeNs, setTime) :: targets => do
    let (c, events) ← c.advanceTime toTimeNs setTime
    let (c, later) ← c.advanceEach targets
    some (c, events ++ later)

/-- The run lemma: the targets are taken one by one, and what the clock owes shrinks with each. -/
theorem advances_of_advanceEach {targets : List (Nat × Bool)} {setTime : Bool}
    (hmono : (c.time :: (targets.map Prod.fst ++ [last])).Pairwise (· ≤ ·))
    (hfits : TimersFit last c.timers.entries) :
    ∃ c' events, c.advanceEach (targets ++ [(last, setTime)]) = some (c', events) ∧
      Advances last c c' events := by
  induction targets generalizing c with
  | nil =>
    have hle : c.time ≤ last := rel_of_pairwise_cons hmono mem_cons_self
    obtain ⟨c', events, hrun, hadv⟩ := advances_of_advanceTime setTime hle hfits
    refine ⟨c', events, ?_, hadv⟩
    rw [nil_append, advanceEach, hrun]
    simp [advanceEach]
  | cons target targets ih =>
    obtain ⟨toTimeNs, flag⟩ := target
    have hle : c.time ≤ toTimeNs := rel_of_pairwise_cons hmono mem_cons_self
    have hrest := (pairwise_cons.mp hmono).2
    have hlast : toTimeNs ≤ last := rel_of_pairwise_cons hrest (mem_append_right _ mem_cons_self)
    obtain ⟨c₁, events, hrun, hadv⟩ := advances_of_advanceTime flag hle (hfits.mono hlast)
    have hmono₁ : (c₁.time :: (targets.map Prod.fst ++ [last])).Pairwise (· ≤ ·) := by
      obtain ⟨hall, htail⟩ := pairwise_cons.mp hrest
      exact pairwise_cons.mpr ⟨fun t ht => hadv.time_le.trans (hall t ht), htail⟩
    have hfits₁ : TimersFit last c₁.timers.entries :=
      ⟨hadv.named, fun name t interval howes =>
        hfits.fits name t interval ((hadv.owes_iff _ _ _).mp howes).1⟩
    obtain ⟨c₂, later, hrun₂, hadv₂⟩ := ih hmono₁ hfits₁
    refine ⟨c₂, events ++ later, ?_, hadv.trans hlast hadv₂⟩
    rw [cons_append, advanceEach, hrun]
    simp [hrun₂]

end TestClock

/-! ## What was booked -/

inductive Booking where
  | timer (startTimeNs intervalNs : Nat) (stopTimeNs : Option Nat) (fireImmediately : Bool)
  /-- Once, at a time requested at another. -/
  | alert (setAt requested : Nat)

namespace Booking

def FiresAt : Booking → Nat → Prop
  | .timer startTimeNs intervalNs stopTimeNs fireImmediately, t =>
    ∃ k, (if fireImmediately then 0 else 1) ≤ k ∧ t = startTimeNs + k * intervalNs ∧
      ∀ stop, stopTimeNs = some stop → t ≤ stop
  | .alert setAt requested, t => t = max requested setAt

/-- What its timer adds to the time of an event to get the next. -/
def period : Booking → Nat
  | .timer _ intervalNs _ _ => intervalNs
  | .alert setAt requested => max (requested - setAt) 1

end Booking

inductive Request (Callback : Type) where
  | setTimerNs (name : String) (intervalNs : Nat) (startTimeNs stopTimeNs : Option Nat)
      (callback : Option Callback) (allowPast fireImmediately : Option Bool)
  | setTimeAlertNs (name : String) (alertTimeNs : Nat) (callback : Option Callback)
      (allowPast : Option Bool)
  | setTime (time : Nat)
  | registerDefaultHandler (callback : Callback)

/-- The time and the booking of every name. -/
structure Agenda where
  now : Nat
  booking : String → Option Booking

namespace Agenda

/-- Nothing booked at time zero. -/
def empty : Agenda := ⟨0, fun _ => none⟩

def book (agenda : Agenda) (name : String) (booking : Booking) : Agenda :=
  { agenda with booking := Function.update agenda.booking name (some booking) }

/-- What an accepted request books; a later booking of a name replaces the earlier. -/
def accept {Callback : Type} (agenda : Agenda) : Request Callback → Agenda
  | .setTimerNs name intervalNs startTimeNs stopTimeNs _ _ fireImmediately =>
    let start := startTimeNs.getD 0
    agenda.book name (.timer (if start = 0 then agenda.now else start) intervalNs stopTimeNs
      (fireImmediately.getD false))
  | .setTimeAlertNs name alertTimeNs _ _ => agenda.book name (.alert agenda.now alertTimeNs)
  | .setTime time => { agenda with now := time }
  | .registerDefaultHandler _ => agenda

end Agenda

/-- A setter's call that returns `Ok`. -/
def accepted {ε σ : Type} : Outcome ε σ → Option σ
  | some (s, .ok ()) => some s
  | _ => none

namespace TestClock

variable {Callback : Type} {c c' : TestClock Callback} {name : String} {callback : Option Callback}
  {fireImmediately allowPast : Option Bool} {intervalNs : Nat} {startTimeNs : Option Nat}

def accept (c : TestClock Callback) : Request Callback → Option (TestClock Callback)
  | .setTimerNs name intervalNs startTimeNs stopTimeNs callback allowPast fireImmediately =>
    accepted (c.setTimerNs name intervalNs startTimeNs stopTimeNs callback allowPast
      fireImmediately)
  | .setTimeAlertNs name alertTimeNs callback allowPast =>
    accepted (c.setTimeAlertNs name alertTimeNs callback allowPast)
  | .setTime time => some (c.setTime time)
  | .registerDefaultHandler callback => some (c.registerDefaultHandler callback)

structure Represents (c : TestClock Callback) (agenda : Agenda) : Prop where
  now : c.time = agenda.now
  named : ∀ p ∈ c.timers.entries, p.2.name = p.1
  owes_iff : ∀ name t interval, Owes c.timers.entries name t interval ↔
    ∃ booking, agenda.booking name = some booking ∧ booking.FiresAt t ∧ booking.period = interval

/-- A new timer owes its first event and every interval after it. -/
theorem dueAt_new {interval : NonZeroU64} {start : Nat} {stop : Option Nat}
    {fire : Bool} {timer : TestTimer}
    (h : TestTimer.new name interval start stop fire = some timer) :
    timer.name = name ∧ timer.intervalNs = interval ∧
      ∀ t, timer.DueAt t ↔ (Booking.timer start interval.val stop fire).FiresAt t := by
  rw [TestTimer.new] at h
  split at h
  · nomatch h
  obtain ⟨next, hnext, h⟩ := bind_eq_some_iff.mp h
  cases h
  refine ⟨rfl, rfl, fun t => ?_⟩
  rw [firstEventTime] at hnext
  cases fire with
  | true =>
    cases hnext
    constructor
    · rintro ⟨-, ⟨k, hk⟩, hle⟩
      exact ⟨k, Nat.zero_le k, hk, hle⟩
    · rintro ⟨k, -, hk, hle⟩
      exact ⟨rfl, ⟨k, hk⟩, hle⟩
  | false =>
    have hadd : next = start + interval.val := by
      rw [if_neg Bool.false_ne_true, UnixNanos.add] at hnext
      split at hnext
      · exact (some.inj hnext).symm
      · nomatch hnext
    constructor
    · rintro ⟨-, ⟨k, hk⟩, hle⟩
      refine ⟨k + 1, Nat.le_add_left 1 k, ?_, hle⟩
      rw [hk, Nat.succ_mul]
      dsimp only
      omega
    · rintro ⟨k, hk1, hk, hle⟩
      obtain ⟨k, rfl⟩ : ∃ j, k = j + 1 := ⟨k - 1, by simp at hk1; omega⟩
      refine ⟨rfl, ⟨k, ?_⟩, hle⟩
      rw [hk, Nat.succ_mul]
      dsimp only
      omega

/-- An alert is a timer with one event: the stop time is the only multiple in reach. -/
theorem firesAt_alert (now requested t : Nat) :
    (Booking.timer now (max (max requested now - now) 1) (some (max requested now))
        (decide (max requested now = now))).FiresAt t ↔
      (Booking.alert now requested).FiresAt t := by
  rcases Nat.lt_or_ge now requested with hlt | hge
  · have hmax : max requested now = requested := Nat.max_eq_left hlt.le
    have hperiod : max (requested - now) 1 = requested - now := by omega
    simp only [Booking.FiresAt, hmax, hperiod]
    rw [decide_eq_false (Nat.ne_of_gt hlt)]
    constructor
    · rintro ⟨k, hk, ht, hle⟩
      have hle := hle requested rfl
      have hk : 1 ≤ k := hk
      have := Nat.mul_le_mul_right (requested - now) hk
      omega
    · rintro rfl
      refine ⟨1, Nat.le_refl 1, by omega, fun stop hs => ?_⟩
      cases hs
      exact le_rfl
  · have hmax : max requested now = now := Nat.max_eq_right hge
    simp only [Booking.FiresAt, hmax]
    constructor
    · rintro ⟨k, -, ht, hle⟩
      have hle := hle now rfl
      omega
    · rintro rfl
      refine ⟨0, ?_, by omega, fun stop hs => ?_⟩
      · simp
      · cases hs
        exact le_rfl

/-- Inserting the timer of a booking in place of what the name had. -/
theorem represents_insert {agenda : Agenda} {timer : TestTimer} {booking : Booking}
    (h : Represents c agenda) (hname : timer.name = name)
    (hdue : ∀ t, timer.DueAt t ↔ booking.FiresAt t)
    (hperiod : timer.intervalNs.val = booking.period) (htime : c'.time = c.time)
    (htimers : c'.timers = (c.timers.remove name).insert timer.name timer) :
    Represents c' (agenda.book name booking) := by
  have hget : ∀ name', c'.timers.get? name' =
      if name = name' then some timer else c.timers.get? name' := by
    intro name'
    rw [htimers, get?_insert_eq, get?_remove_eq, hname]
    split <;> rfl
  refine ⟨htime.trans h.now, fun p hp => ?_, fun name' t interval => ?_⟩
  · have hp := mem_entries_iff.mp hp
    rw [hget] at hp
    split at hp
    · rename_i heq
      cases hp
      exact hname.trans heq
    · exact h.named p (mem_entries_iff.mpr hp)
  · rw [Owes]
    simp only [mem_entries_iff, hget]
    by_cases heq : name = name'
    · subst heq
      simp [Agenda.book, hdue, hperiod]
    · have := h.owes_iff name' t interval
      rw [Owes] at this
      simp only [mem_entries_iff] at this
      simp [if_neg heq, this, Agenda.book, Function.update_of_ne (Ne.symm heq)]

section

variable (c name callback)

@[simp] theorem time_registerCallback : (c.registerCallback name callback).time = c.time := by
  cases callback <;> rfl

@[simp] theorem timers_registerCallback : (c.registerCallback name callback).timers = c.timers := by
  cases callback <;> rfl

end

theorem of_accepted {ε σ : Type} {o : Outcome ε σ} {s : σ} (h : accepted o = some s) :
    o = some (s, .ok ()) := by
  unfold accepted at h
  split at h
  · cases h
    rfl
  · nomatch h

/-- What an accepted alert leaves: a timer from now to the alert time. -/
theorem validateAndPrepareTimeAlert_eq_ok_iff {alertTimeNs tsNow : Nat} {prepared : String × Nat} :
    validateAndPrepareTimeAlert name alertTimeNs allowPast tsNow = some (.ok prepared) ↔
      checkValidStringUtf8 name "name" = .ok () ∧ (alertTimeNs < tsNow → allowPast.getD true) ∧
        prepared = (name, max alertTimeNs tsNow) := by
  unfold validateAndPrepareTimeAlert
  cases checkValidStringUtf8 name "name" with
  | error e => simp
  | ok =>
    by_cases hlt : alertTimeNs < tsNow
    · cases allowPast.getD true <;> simp [hlt, hlt.le, @eq_comm _ _ prepared, bind_eq_some_iff]
    · simp [hlt, @eq_comm _ _ prepared, Nat.not_lt.mp hlt]

theorem of_setTimeAlertNs {alertTimeNs : Nat}
    (h : c.setTimeAlertNs name alertTimeNs callback allowPast = some (c', .ok ())) :
    ∃ timer, TestTimer.new name (createValidInterval (max alertTimeNs c.time - c.time)) c.time
        (some (max alertTimeNs c.time)) (decide (max alertTimeNs c.time = c.time)) = some timer ∧
      c'.time = c.time ∧ c'.timers = (c.timers.remove name).insert timer.name timer := by
  rw [setTimeAlertNs] at h
  split at h
  · cases h
  · cases h
  rename_i hvalid
  obtain ⟨-, -, ⟨⟩⟩ := validateAndPrepareTimeAlert_eq_ok_iff.mp hvalid
  dsimp only at h
  split at h
  · cases h
  · obtain ⟨timer, hnew, heq⟩ := map_eq_some_iff.mp h
    obtain ⟨rfl, -⟩ := Prod.mk.inj heq
    exact ⟨timer, hnew, time_registerCallback _ _ _, by rw [timers_registerCallback]; rfl⟩

theorem of_prepareStartTime {start tsNow : Nat} {allowPast fireImmediately : Bool}
    (h : prepareStartTime name intervalNs startTimeNs allowPast fireImmediately tsNow =
      some (.ok start)) : start = if startTimeNs.getD 0 = 0 then tsNow else startTimeNs.getD 0 := by
  rw [prepareStartTime] at h
  split at h
  · rename_i hzero
    cases h
    rw [if_pos hzero]
  rename_i hzero
  rw [if_neg hzero]
  split at h
  · cases h
    rfl
  obtain ⟨_, -, h⟩ := bind_eq_some_iff.mp h
  split at h
  · obtain ⟨_, -, h⟩ := bind_eq_some_iff.mp h
    nomatch h
  · cases h
    rfl

theorem of_validateAndPrepareTimer {tsNow : Nat} {stopTimeNs : Option Nat}
    {prepared : String × Nat × Option Nat × Bool × Bool}
    (h : validateAndPrepareTimer name intervalNs startTimeNs stopTimeNs allowPast fireImmediately
      tsNow = some (.ok prepared)) :
    0 < intervalNs ∧ prepared =
      (name, if startTimeNs.getD 0 = 0 then tsNow else startTimeNs.getD 0, stopTimeNs,
        allowPast.getD true, fireImmediately.getD false) := by
  rw [validateAndPrepareTimer] at h
  split at h
  · nomatch h
  split at h
  · nomatch h
  rename_i hpositive
  have hpos : 0 < intervalNs := by
    rw [checkPositiveU64] at hpositive
    split at hpositive
    · nomatch hpositive
    · rename_i hne
      exact Nat.pos_of_ne_zero hne
  obtain ⟨start, hstart, h⟩ := bind_eq_some_iff.mp h
  cases start with
  | error e => nomatch h
  | ok start =>
    obtain ⟨stop, -, h⟩ := bind_eq_some_iff.mp h
    cases stop with
    | error e => nomatch h
    | ok _ =>
      cases h
      rw [of_prepareStartTime hstart]
      exact ⟨hpos, rfl⟩

theorem of_setTimerNs {stopTimeNs : Option Nat} {callback : Option Callback}
    (h : c.setTimerNs name intervalNs startTimeNs stopTimeNs callback allowPast fireImmediately =
      some (c', .ok ())) :
    ∃ timer, TestTimer.new name (createValidInterval intervalNs)
        (if startTimeNs.getD 0 = 0 then c.time else startTimeNs.getD 0) stopTimeNs
        (fireImmediately.getD false) = some timer ∧
      0 < intervalNs ∧ c'.time = c.time ∧
      c'.timers = (c.timers.remove name).insert timer.name timer := by
  rw [setTimerNs] at h
  split at h
  · cases h
  · cases h
  rename_i hvalid
  obtain ⟨hpos, heq⟩ := of_validateAndPrepareTimer hvalid
  cases heq
  split at h
  · cases h
  · obtain ⟨timer, hnew, heq⟩ := map_eq_some_iff.mp h
    obtain ⟨rfl, -⟩ := Prod.mk.inj heq
    exact ⟨timer, hnew, hpos, time_registerCallback _ _ _, by rw [timers_registerCallback]; rfl⟩

/-- An accepted request books what the agenda notes. -/
theorem represents_accept {agenda : Agenda} {request : Request Callback}
    (h : Represents c agenda) (hrun : c.accept request = some c') :
    Represents c' (agenda.accept request) := by
  cases request with
  | setTimerNs name intervalNs startTimeNs stopTimeNs callback allowPast fireImmediately =>
    obtain ⟨timer, hnew, hpos, htime, htimers⟩ := of_setTimerNs (of_accepted hrun)
    have hmax : (createValidInterval intervalNs).val = intervalNs := Nat.max_eq_left hpos
    obtain ⟨hname, hinterval, hdue⟩ := dueAt_new hnew
    rw [hmax, h.now] at hdue
    refine represents_insert h hname hdue ?_ htime htimers
    rw [hinterval, hmax]
    rfl
  | setTimeAlertNs name alertTimeNs callback allowPast =>
    obtain ⟨timer, hnew, htime, htimers⟩ := of_setTimeAlertNs (of_accepted hrun)
    obtain ⟨hname, hinterval, hdue⟩ := dueAt_new hnew
    have hdue' : ∀ t, timer.DueAt t ↔ (Booking.alert agenda.now alertTimeNs).FiresAt t :=
      fun t => (hdue t).trans (h.now ▸ firesAt_alert c.time alertTimeNs t)
    refine represents_insert h hname hdue' ?_ htime htimers
    rw [hinterval]
    show max (max alertTimeNs c.time - c.time) 1 = max (alertTimeNs - agenda.now) 1
    rw [h.now]
    omega
  | setTime time =>
    cases hrun
    exact ⟨rfl, h.named, h.owes_iff⟩
  | registerDefaultHandler callback =>
    cases hrun
    exact ⟨h.now, h.named, h.owes_iff⟩

theorem represents_new : Represents (new : TestClock Callback) Agenda.empty where
  now := rfl
  named := nofun
  owes_iff _ _ _ := ⟨fun ⟨_, hmem, _⟩ => (nomatch hmem), fun ⟨_, hbook, _⟩ => nomatch hbook⟩

/-- **The schedule is exact.** After any accepted requests, advancing in steps and at once return
the same events: those of the agenda up to the last target, by time and name. -/
theorem schedule_exact (requests : List (Request Callback))
    (hset : runs accept new requests = some c) (targets : List (Nat × Bool)) (last : Nat)
    (setTime setTime' : Bool)
    (hmono : (c.time :: (targets.map Prod.fst ++ [last])).Pairwise (· ≤ ·))
    (hfits : ∀ name booking, (requests.foldl Agenda.accept .empty).booking name = some booking →
      ∀ t, booking.FiresAt t → t ≤ last → t + booking.period < 2 ^ 64) :
    ∃ c₁ c₂ events, c.advanceEach (targets ++ [(last, setTime)]) = some (c₁, events) ∧
      c.advanceTime last setTime' = some (c₂, events) ∧
      events.Pairwise TimeEvent.Before ∧
      ∀ e, e ∈ events ↔ e.tsInit = e.tsEvent ∧ e.tsEvent ≤ last ∧
        ∃ booking, (requests.foldl Agenda.accept .empty).booking e.name = some booking ∧
          booking.FiresAt e.tsEvent := by
  have hrep := runs_refines Represents Agenda.accept (fun _ _ _ _ => represents_accept)
    represents_new hset
  have hfit : TimersFit last c.timers.entries := by
    refine ⟨hrep.named, fun name t interval howes hle => ?_⟩
    obtain ⟨booking, hbook, hfires, rfl⟩ := (hrep.owes_iff _ _ _).mp howes
    exact hfits name booking hbook t hfires hle
  have hlast : c.time ≤ last := rel_of_pairwise_cons hmono (mem_append_right _ mem_cons_self)
  obtain ⟨c₁, events, hrun₁, hadv₁⟩ := advances_of_advanceEach hmono hfit
  obtain ⟨c₂, _, hrun₂, hadv₂⟩ := advances_of_advanceTime setTime' hlast hfit
  obtain rfl := TimeEvent.eq_of_pairwise_before hadv₁.sorted hadv₂.sorted
    fun e => by rw [hadv₁.mem_iff, hadv₂.mem_iff]
  refine ⟨c₁, c₂, events, hrun₁, hrun₂, hadv₁.sorted, fun e => ?_⟩
  rw [hadv₁.mem_iff]
  refine and_congr_right fun _ => and_congr_right fun _ => ?_
  simp only [hrep.owes_iff]
  exact ⟨fun ⟨_, b, hb, hf, _⟩ => ⟨b, hb, hf⟩, fun ⟨b, hb, hf⟩ => ⟨_, b, hb, hf, rfl⟩⟩

/-- A timer every three from the time ten and up to nineteen, and an alert at thirteen. -/
def Sample.requests : List (Request Unit) :=
  [.registerDefaultHandler (), .setTime 10,
    .setTimerNs "tick" 3 none (some 19) none none none,
    .setTimeAlertNs "close" 13 none none]

def Sample.scheduled : TestClock Unit :=
  (runs accept new requests).get (by decide +kernel)

open TestClock.Sample

/-- Both fire at thirteen, the alert first by its name. -/
theorem schedule_exact_split : ∃ c₁ c₂ events,
    scheduled.advanceEach [(12, true), (13, false), (20, true)] = some (c₁, events) ∧
    scheduled.advanceTime 20 true = some (c₂, events) ∧
    events = [⟨"close", 13, 13⟩, ⟨"tick", 13, 13⟩, ⟨"tick", 16, 16⟩, ⟨"tick", 19, 19⟩] := by
  have hfits : ∀ name booking,
      (requests.foldl Agenda.accept .empty).booking name = some booking →
      ∀ t, booking.FiresAt t → t ≤ 20 → t + booking.period < 2 ^ 64 := by
    intro name booking hbook t _ hle
    have hperiod : booking.period = 3 := by
      simp only [requests, foldl_cons, foldl_nil, Agenda.accept, Agenda.book,
        Function.update_apply] at hbook
      split at hbook
      · cases hbook
        rfl
      · split at hbook
        · cases hbook
          rfl
        · nomatch hbook
    omega
  have hset : runs accept new requests = some scheduled := (some_get _).symm
  obtain ⟨c₁, c₂, events, h₁, h₂, -, -⟩ := schedule_exact requests hset
    [(12, true), (13, false)] 20 true true (by decide +kernel) hfits
  refine ⟨c₁, c₂, events, h₁, h₂, ?_⟩
  have hevents : (scheduled.advanceTime 20 true).map Prod.snd =
      some [⟨"close", 13, 13⟩, ⟨"tick", 13, 13⟩, ⟨"tick", 16, 16⟩, ⟨"tick", 19, 19⟩] := by
    decide +kernel
  rw [h₂] at hevents
  exact some.inj hevents

/-! ## Refused timers -/

/-- A call that returns an error leaves the clock as it was. -/
def KeptOnError (c : TestClock Callback) (outcome : Outcome ClockError (TestClock Callback)) :
    Prop :=
  ∀ c' e, outcome = some (c', .error e) → c' = c

theorem keptOnError_error (e : ClockError) : KeptOnError c (some (c', .error e)) ↔ c' = c :=
  ⟨fun h => h c' e rfl, fun h _ _ heq => by cases heq; exact h⟩

theorem keptOnError_insertTimer (timer : Option TestTimer) :
    KeptOnError c (c'.insertTimer timer) := by
  intro _ _ h
  cases timer <;> nomatch h

theorem replaceExistingTimerIfNeeded_eq_self_iff :
    c.replaceExistingTimerIfNeeded name = c ↔ c.timers.get? name = none := by
  refine ⟨fun h => ?_, fun h => ?_⟩
  · rw [← h]
    exact (get?_remove_eq ..).trans (if_pos rfl)
  · rw [replaceExistingTimerIfNeeded, remove_of_get?_none h]

/-- A refused alert has dropped the timer of its name if it is refused for want of a callback; a
refused timer has not. -/
theorem keptOnError_iff (c : TestClock Callback) (name : String) (callback : Option Callback)
    (allowPast : Option Bool) :
    (∀ alertTimeNs, KeptOnError c (c.setTimeAlertNs name alertTimeNs callback allowPast) ↔
      (checkValidStringUtf8 name "name" = .ok () → (alertTimeNs < c.time → allowPast.getD true) →
        (callback.isSome || c.callbacks.hasAnyCallback name) ∨ c.timers.get? name = none)) ∧
      ∀ intervalNs startTimeNs stopTimeNs fireImmediately, KeptOnError c
        (c.setTimerNs name intervalNs startTimeNs stopTimeNs callback allowPast fireImmediately) := by
  refine ⟨fun alertTimeNs => ?_, fun intervalNs startTimeNs stopTimeNs fireImmediately => ?_⟩
  · have hok := @validateAndPrepareTimeAlert_eq_ok_iff name allowPast alertTimeNs c.time
    unfold setTimeAlertNs
    dsimp only
    split
    · rename_i hvalid
      exact iff_of_true nofun fun hname hpast =>
        nomatch hvalid.symm.trans (hok.mpr ⟨hname, hpast, rfl⟩)
    · rename_i hvalid
      exact iff_of_true ((keptOnError_error _).mpr rfl) fun hname hpast =>
        nomatch hvalid.symm.trans (hok.mpr ⟨hname, hpast, rfl⟩)
    · rename_i hvalid
      obtain ⟨hname, hpast, ⟨⟩⟩ := hok.mp hvalid
      have hsame : (c.replaceExistingTimerIfNeeded name).callbacks = c.callbacks := rfl
      cases hcallback : callback.isSome || c.callbacks.hasAnyCallback name <;> rw [hsame, hcallback]
      · rw [← replaceExistingTimerIfNeeded_eq_self_iff]
        exact (keptOnError_error _).trans
          ⟨fun h _ _ => .inr h, fun h => (h hname hpast).resolve_left Bool.false_ne_true⟩
      · exact iff_of_true (keptOnError_insertTimer _) fun _ _ => .inl rfl
  · unfold setTimerNs
    dsimp only
    split
    · intro _ _ h
      nomatch h
    · exact (keptOnError_error _).mpr rfl
    · split
      · exact (keptOnError_error _).mpr rfl
      · exact keptOnError_insertTimer _

/-- An alert that was set by way of the default handler, which is then cancelled. -/
def Sample.orphaned : Option (TestClock Unit) :=
  (accepted ((new.registerDefaultHandler ()).setTimeAlertNs "T" 10 none none)).map
    cancelDefaultHandler

theorem not_keptOnError_orphaned :
    Sample.orphaned.map (fun c => (c.timers.get? "T").isSome) = some true ∧
      Sample.orphaned.map (fun c => (c.setTimeAlertNs "T" 20 none none).map fun r =>
        ((r.1.timers.get? "T").isSome, r.2.isOk)) = some (some (false, false)) := by
  decide +kernel

end TestClock

end Nautilus
