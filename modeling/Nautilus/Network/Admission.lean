import Nautilus.Network.RateLimiter

/-!
# How many calls the rate limiter lets through

A quota of burst size `b` and interval `t` promises at most `b + w / t` calls in a window of length
`w`. The calls of one key are decisions on the one number stored for it (`admitted_eq`), and each
admission moves that number by at least `t` (`countUpTo_mul_le`).

The number is started one interval ahead for a fresh key and not for an idle one: **the window
opened at a time is kept for every sequence of calls iff the key has nothing stored or is at least
one interval ahead** (`quota_kept_iff`). An idle key is let through once too often.

A rejected call is told the earliest time of a retry, and that time is exact
(`earliestPossible_exact`).
-/

namespace Nautilus

open Lib List Option Word

variable {horizon now w : Nat}

namespace Gcra

/-! ## Decisions on one number -/

/-- The arrival time a call at `t0` is compared with. -/
def tatAt (gcra : Gcra) (prev t0 : Nat) : Nat := if prev = 0 then gcra.startingState t0 else prev

/-- A call at `t0` is let through. -/
def Conforms (gcra : Gcra) (prev t0 : Nat) : Prop := gcra.tatAt prev t0 ≤ t0 + gcra.tau

instance (gcra : Gcra) (prev t0 : Nat) : Decidable (gcra.Conforms prev t0) :=
  inferInstanceAs (Decidable (_ ≤ _))

/-- What a call that is let through stores. -/
def advance (gcra : Gcra) (prev t0 : Nat) : Nat := Nanos.add (max (gcra.tatAt prev t0) t0) gcra.t

/-- The calls that are let through, from the number stored before. -/
def conforming (gcra : Gcra) : Nat → List Nat → List Nat
  | _, [] => []
  | prev, t0 :: times =>
    if gcra.Conforms prev t0 then t0 :: gcra.conforming (gcra.advance prev t0) times
    else gcra.conforming prev times

variable {gcra : Gcra} {prev t0 : Nat} {times : List Nat}

theorem conforms_iff (hpos : prev ≠ 0) : gcra.Conforms prev t0 ↔ prev ≤ t0 + gcra.tau := by
  unfold Conforms tatAt
  rw [if_neg hpos]

theorem conforming_of_conforms (h : gcra.Conforms prev t0) :
    gcra.conforming prev (t0 :: times) = t0 :: gcra.conforming (gcra.advance prev t0) times :=
  if_pos h

theorem measureAndReplaceOne_decision (gcra : Gcra) (start prev t0 : Nat) :
    (measureAndReplaceOne prev (gcra.decision start t0)).1 =
        (if gcra.Conforms prev t0 then gcra.advance prev t0 else prev) ∧
      ((measureAndReplaceOne prev (gcra.decision start t0)).2.isOk = true ↔
        gcra.Conforms prev t0) := by
  have htat : (if prev = 0 then none else some prev).getD (gcra.startingState t0) =
      gcra.tatAt prev t0 := by
    unfold tatAt
    split <;> rfl
  unfold measureAndReplaceOne decision
  rw [htat]
  by_cases h : gcra.Conforms prev t0
  · have hnot : ¬ t0 < gcra.tatAt prev t0 - gcra.tau := by
      unfold Conforms at h
      omega
    simp only [if_neg hnot, if_pos h]
    exact ⟨rfl, iff_of_true rfl h⟩
  · have hlt : t0 < gcra.tatAt prev t0 - gcra.tau := by
      unfold Conforms at h
      omega
    simp only [if_pos hlt, if_neg h]
    exact ⟨trivial, iff_of_false Bool.false_ne_true h⟩

end Gcra

/-! ## The calls of one key -/

namespace RateLimiter

variable {K : Type} [DecidableEq K] {limiter : RateLimiter K} {key : K} {gcra : Gcra}

/-- A check leaves the quotas and the numbers of the other keys as they are. -/
theorem checkKey_frame (limiter : RateLimiter K) (key : K) (now : Nat) :
    (limiter.checkKey key now).1.start = limiter.start ∧
      (limiter.checkKey key now).1.gcraFor = limiter.gcraFor ∧
      ∀ other, other ≠ key → (limiter.checkKey key now).1.stored other = limiter.stored other := by
  have hupdate : ∀ gcra, ∀ other, other ≠ key →
      (limiter.testAndUpdate gcra key now).1.stored other = limiter.stored other := by
    intro gcra other hne
    unfold stored testAndUpdate StateStore.measureAndReplace
    dsimp only
    rw [Function.update_of_ne hne]
  unfold checkKey
  split
  · exact ⟨rfl, rfl, hupdate _⟩
  · split
    · exact ⟨rfl, rfl, hupdate _⟩
    · exact ⟨rfl, rfl, fun _ _ => rfl⟩

section

variable (h : limiter.gcraFor key = some gcra)

include h

theorem checkKey_eq (now : Nat) :
    limiter.checkKey key now = limiter.testAndUpdate gcra key now := by
  unfold gcraFor at h
  unfold checkKey
  cases hkey : limiter.gcra key with
  | some own =>
    rw [hkey] at h
    cases h
    rfl
  | none =>
    rw [hkey] at h
    have hdefault : limiter.defaultGcra = some gcra := h
    rw [hdefault]

theorem checkKey_self (t0 : Nat) :
    (limiter.checkKey key (limiter.start + t0)).1.stored key =
        (if gcra.Conforms (limiter.stored key) t0 then gcra.advance (limiter.stored key) t0
          else limiter.stored key) ∧
      ((limiter.checkKey key (limiter.start + t0)).2.isOk = true ↔
        gcra.Conforms (limiter.stored key) t0) := by
  have hone := gcra.measureAndReplaceOne_decision limiter.start (limiter.stored key) t0
  rw [checkKey_eq h]
  unfold testAndUpdate StateStore.measureAndReplace
  rw [Nat.add_sub_cancel_left]
  refine ⟨?_, hone.2⟩
  unfold stored at hone ⊢
  dsimp only
  rw [Function.update_self]
  exact hone.1

/-- The calls of one key are decided on the number stored for it. -/
theorem admitted_eq (calls : List (Call K)) :
    limiter.admitted key calls =
      gcra.conforming (limiter.stored key) ((calls.filter (·.1 = key)).map (·.2)) := by
  induction calls generalizing limiter with
  | nil => rfl
  | cons call calls ih =>
    obtain ⟨_, hgcra, hother⟩ := limiter.checkKey_frame call.1 (limiter.start + call.2)
    have hsame : (limiter.checkKey call.1 (limiter.start + call.2)).1.gcraFor key = some gcra := by
      rw [hgcra]
      exact h
    have hnext := ih hsame
    unfold admitted
    dsimp only
    rw [hnext]
    by_cases hkey : call.1 = key
    · rw [filter_cons_of_pos (by simpa using hkey), map_cons]
      subst hkey
      obtain ⟨hstored, hok⟩ := checkKey_self h call.2
      rw [hstored]
      by_cases hconf : gcra.Conforms (limiter.stored call.1) call.2
      · rw [if_pos ⟨rfl, hok.mpr hconf⟩, if_pos hconf, Gcra.conforming_of_conforms hconf]
      · rw [if_neg (fun hand => hconf (hok.mp hand.2)), if_neg hconf, Gcra.conforming, if_neg hconf]
    · rw [filter_cons_of_neg (by simpa using hkey), if_neg (fun hand => hkey hand.1),
        hother key (Ne.symm hkey)]

end

end RateLimiter

/-! ## What the stored number allows -/

namespace Gcra

variable {gcra : Gcra} {b : Nat} {prev t0 : Nat} {times : List Nat}

/-- The calls let through no later than `limit`. -/
def countUpTo (limit : Nat) (times : List Nat) : Nat := times.countP (· ≤ limit)

/-- No addition wraps for calls up to `horizon`. -/
def Fits (gcra : Gcra) (horizon : Nat) : Prop := horizon + gcra.tau + gcra.t < 2 ^ 64

theorem advance_of_fits (hfits : gcra.Fits horizon) (hpos : prev ≠ 0) (ht0 : t0 ≤ horizon)
    (h : gcra.Conforms prev t0) : gcra.advance prev t0 = max prev t0 + gcra.t := by
  rw [conforms_iff hpos] at h
  unfold Fits at hfits
  unfold advance tatAt
  rw [if_neg hpos]
  exact add_of_lt (by omega)

/-- Each call let through moves the stored number by one interval, and it never gets further ahead
of the calls than the burst capacity. -/
theorem countUpTo_mul_le (limit : Nat) (hfits : gcra.Fits horizon)
    (htimes : ∀ a ∈ times, a ≤ horizon) (hpos : prev ≠ 0) :
    countUpTo limit (gcra.conforming prev times) * gcra.t ≤ limit + gcra.tau + gcra.t - prev := by
  induction times generalizing prev with
  | nil => exact (Nat.zero_mul _).trans_le (Nat.zero_le _)
  | cons a times ih =>
    have htail : ∀ x ∈ times, x ≤ horizon := fun x hx => htimes x (mem_cons_of_mem a hx)
    by_cases hconf : gcra.Conforms prev a
    · have hadv := advance_of_fits hfits hpos (htimes a mem_cons_self) hconf
      have hrest := ih htail (show gcra.advance prev a ≠ 0 by omega)
      have hle := (conforms_iff hpos).mp hconf
      rw [conforming_of_conforms hconf]
      unfold countUpTo at hrest ⊢
      by_cases hlimit : a ≤ limit
      · rw [countP_cons_of_pos (by simpa using hlimit), Nat.succ_mul]
        omega
      · rw [countP_cons_of_neg (by simpa using hlimit)]
        omega
    · rw [conforming, if_neg hconf]
      exact ih htail hpos

theorem le_burst_add {n : Nat} (ht : 0 < gcra.t) (htau : gcra.tau = gcra.t * b)
    (h : n * gcra.t ≤ w + gcra.tau) : n ≤ b + w / gcra.t := by
  rw [htau] at h
  have hdiv := (Nat.le_div_iff_mul_le ht).mpr h
  rw [Nat.add_mul_div_left _ _ ht] at hdiv
  omega

theorem conforming_subset (times : List Nat) : gcra.conforming prev times ⊆ times := by
  induction times generalizing prev with
  | nil => exact Subset.refl _
  | cons a times ih =>
    unfold conforming
    split
    · exact cons_subset_cons a ih
    · exact subset_cons_of_subset a ih

/-- A number beyond the last call lets the burst through and no more. -/
theorem countUpTo_le_of_beyond {limit : Nat} (ht : 0 < gcra.t) (htau : gcra.tau = gcra.t * b)
    (hfits : gcra.Fits horizon) (htimes : ∀ a ∈ times, a ≤ horizon) (hbeyond : horizon < prev) :
    countUpTo limit (gcra.conforming prev times) ≤ b := by
  have hmono : countUpTo limit (gcra.conforming prev times) ≤
      countUpTo horizon (gcra.conforming prev times) := by
    refine countP_mono_left fun a ha _ => ?_
    exact decide_eq_true (htimes a (conforming_subset _ ha))
  have hbound := countUpTo_mul_le horizon hfits htimes (show prev ≠ 0 by omega)
  have hlt : gcra.t * countUpTo horizon (gcra.conforming prev times) < gcra.t * (b + 1) := by
    rw [Nat.mul_comm, Nat.mul_succ]
    omega
  have := Nat.lt_of_mul_lt_mul_left hlt
  omega

theorem advance_fresh (hburst : gcra.t ≤ gcra.tau) (hfits : gcra.Fits horizon) (ht0 : t0 ≤ horizon) :
    gcra.Conforms 0 t0 ∧ gcra.advance 0 t0 = t0 + gcra.t + gcra.t := by
  have htat : gcra.tatAt 0 t0 = t0 + gcra.t := by
    unfold Fits at hfits
    exact add_of_lt (by omega)
  unfold Conforms advance
  rw [htat]
  refine ⟨by omega, ?_⟩
  unfold Fits at hfits
  rw [Nat.max_eq_left (by omega)]
  exact add_of_lt (by omega)

/-- The first call of a fresh key puts its number two intervals ahead. -/
theorem countUpTo_le_of_fresh (ht : 0 < gcra.t) (hb : 0 < b) (htau : gcra.tau = gcra.t * b)
    (hfits : gcra.Fits horizon) (htimes : ∀ a ∈ times, now ≤ a ∧ a ≤ horizon) :
    countUpTo (now + w) (gcra.conforming 0 times) ≤ b + w / gcra.t := by
  have hburst : gcra.t ≤ gcra.tau := by
    rw [htau]
    exact Nat.le_mul_of_pos_right _ hb
  cases times with
  | nil => exact Nat.zero_le _
  | cons a times =>
    obtain ⟨_, hhorizon⟩ := htimes a mem_cons_self
    have htail : ∀ x ∈ times, x ≤ horizon := fun x hx => (htimes x (mem_cons_of_mem a hx)).2
    obtain ⟨hconf, hadv⟩ := advance_fresh hburst hfits hhorizon
    rw [conforming_of_conforms hconf, hadv]
    have hcons : countUpTo (now + w) (a :: gcra.conforming (a + gcra.t + gcra.t) times) ≤
        countUpTo (now + w) (gcra.conforming (a + gcra.t + gcra.t) times) + 1 := by
      unfold countUpTo
      rw [countP_cons]
      split <;> omega
    have hbound := countUpTo_mul_le (now + w) hfits htail (show a + gcra.t + gcra.t ≠ 0 by omega)
    refine hcons.trans (le_burst_add ht htau ?_)
    rw [Nat.succ_mul]
    omega

/-! ## One call too many -/

/-- Calls at one instant, from a number that is not behind it. -/
theorem conforming_replicate (hfits : gcra.Fits horizon) (hnow : now ≤ horizon) (n : Nat)
    (hpos : prev ≠ 0) (hprev : now ≤ prev) (hroom : prev + n * gcra.t ≤ now + gcra.tau + gcra.t)
    (rest : List Nat) :
    gcra.conforming prev (replicate n now ++ rest) =
      replicate n now ++ gcra.conforming (prev + n * gcra.t) rest := by
  induction n generalizing prev with
  | zero => simp
  | succ n ih =>
    rw [Nat.succ_mul] at hroom
    have hconf : gcra.Conforms prev now := (conforms_iff hpos).mpr (by omega)
    have hadv := advance_of_fits hfits hpos hnow hconf
    rw [replicate_succ, cons_append, conforming_of_conforms hconf, hadv,
      ih (by omega) (by omega) (by omega), cons_append]
    congr 3
    rw [Nat.succ_mul]
    omega

/-- A key less than one interval ahead: the whole burst, and one more call when its number is
reached. -/
theorem conforming_overrun (hb : 0 < b) (htau : gcra.tau = gcra.t * b) (hfits : gcra.Fits horizon)
    (hpos : prev ≠ 0) (hbehind : prev < now + gcra.t) (hlast : max prev now ≤ horizon) :
    gcra.conforming prev (replicate b now ++ [max prev now]) =
      replicate b now ++ [max prev now] := by
  obtain ⟨m, rfl⟩ := Nat.exists_eq_succ_of_ne_zero hb.ne'
  have htau' : gcra.tau = m * gcra.t + gcra.t := by rw [htau, Nat.mul_comm, Nat.succ_mul]
  have hfirst : gcra.Conforms prev now := (conforms_iff hpos).mpr (by omega)
  have hadv := advance_of_fits hfits hpos (by omega) hfirst
  have hfinal : gcra.Conforms (max prev now + gcra.t + m * gcra.t) (max prev now) :=
    (conforms_iff (by omega)).mpr (by omega)
  rw [replicate_succ, cons_append, conforming_of_conforms hfirst, hadv,
    conforming_replicate hfits (by omega) m (by omega) (by omega) (by omega),
    conforming_of_conforms hfinal]
  rfl

/-! ## Where the additions wrap -/

/-- Calls at one instant go through as long as their number allows; a wrapped addition only makes it
smaller. -/
theorem conforming_replicate_of_le (htau : gcra.tau = gcra.t * b) (n : Nat) (hn : n ≤ b + 1)
    (hroom : gcra.tatAt prev now + n * gcra.t ≤ now + gcra.tau + gcra.t) :
    gcra.conforming prev (replicate n now) = replicate n now := by
  induction n generalizing prev with
  | zero => rfl
  | succ n ih =>
    rw [Nat.succ_mul] at hroom
    have hconf : gcra.Conforms prev now := by
      unfold Conforms
      omega
    rw [replicate_succ, conforming_of_conforms hconf]
    congr 1
    apply ih (by omega)
    have hcap : n * gcra.t ≤ gcra.tau := by
      rw [htau, Nat.mul_comm gcra.t]
      exact Nat.mul_le_mul_right _ (by omega)
    have hadv : gcra.advance prev now ≤ max (gcra.tatAt prev now) now + gcra.t := Nat.mod_le _ _
    have hstart : gcra.startingState now ≤ now + gcra.t := Nat.mod_le _ _
    have hle : gcra.tatAt (gcra.advance prev now) now ≤ max (gcra.tatAt prev now) now + gcra.t := by
      generalize gcra.advance prev now = next at hadv
      generalize gcra.tatAt prev now = tat at hadv
      unfold tatAt
      split <;> omega
    omega

/-- A number that starts again within one interval lets the whole burst through. -/
theorem conforming_replicate_of_restart (htau : gcra.tau = gcra.t * b) (hprev : prev ≤ now + gcra.t)
    {n : Nat} (hn : n ≤ b) :
    gcra.conforming prev (replicate n now) = replicate n now := by
  have hstart : gcra.startingState now ≤ now + gcra.t := Nat.mod_le _ _
  have hrest : n * gcra.t ≤ gcra.tau := by
    rw [htau, Nat.mul_comm gcra.t]
    exact Nat.mul_le_mul_right _ hn
  refine conforming_replicate_of_le htau n (by omega) ?_
  unfold tatAt
  split <;> omega

/-- A burst that runs into the end of `u64` is never refused. -/
theorem conforming_replicate_of_wraps (htau : gcra.tau = gcra.t * b) (ht : gcra.t < 2 ^ 64)
    (hwraps : 2 ^ 64 ≤ now + gcra.tau + gcra.t) (n k : Nat) (hk : k + n = b)
    (hprev : prev = now + k * gcra.t + gcra.t) (hpos : prev ≠ 0) (hlt : prev < 2 ^ 64) :
    gcra.conforming prev (replicate (n + 1) now) = replicate (n + 1) now := by
  induction n generalizing prev k with
  | zero =>
    obtain rfl : k = b := by omega
    rw [htau, Nat.mul_comm] at hwraps
    omega
  | succ n ih =>
    have hstep : (k + 1) * gcra.t = k * gcra.t + gcra.t := Nat.succ_mul ..
    have hcap : (k + 1) * gcra.t ≤ gcra.tau := by
      rw [htau, Nat.mul_comm gcra.t]
      exact Nat.mul_le_mul_right _ (by omega)
    have hconf : gcra.Conforms prev now := (conforms_iff hpos).mpr (by omega)
    have hadv : gcra.advance prev now = (prev + gcra.t) % 2 ^ 64 := by
      unfold advance tatAt
      rw [if_neg hpos, Nat.max_eq_left (by omega)]
      rfl
    rw [replicate_succ, conforming_of_conforms hconf]
    congr 1
    rw [hadv]
    by_cases hnext : prev + gcra.t < 2 ^ 64
    · rw [Nat.mod_eq_of_lt hnext]
      exact ih (k + 1) (by omega) (by omega) (by omega) hnext
    · -- the number starts again below one interval
      exact conforming_replicate_of_restart htau (by omega) (by omega)

/-- At a time where the additions wrap, a fresh key is let through once too often. -/
theorem conforming_fresh_of_wraps (hb : 0 < b) (htau : gcra.tau = gcra.t * b) (ht : 0 < gcra.t)
    (htlt : gcra.t < 2 ^ 64) (hnow : now < 2 ^ 64) (hwraps : 2 ^ 64 ≤ now + gcra.tau + gcra.t) :
    gcra.conforming 0 (replicate (b + 1) now) = replicate (b + 1) now := by
  have hburst : gcra.t ≤ gcra.tau := by
    rw [htau]
    exact Nat.le_mul_of_pos_right _ hb
  have hconf : gcra.Conforms 0 now := by
    have hle : gcra.startingState now ≤ now + gcra.t := Nat.mod_le _ _
    unfold Conforms tatAt
    rw [if_pos rfl]
    omega
  have hadv : gcra.advance 0 now = (max ((now + gcra.t) % 2 ^ 64) now + gcra.t) % 2 ^ 64 := rfl
  rw [replicate_succ, conforming_of_conforms hconf]
  congr 1
  rw [hadv]
  by_cases hnext : now + gcra.t < 2 ^ 64
  · rw [Nat.mod_eq_of_lt hnext, Nat.max_eq_left (by omega)]
    by_cases htwice : now + gcra.t + gcra.t < 2 ^ 64
    · rw [Nat.mod_eq_of_lt htwice]
      obtain ⟨n, rfl⟩ := Nat.exists_eq_succ_of_ne_zero hb.ne'
      exact conforming_replicate_of_wraps htau htlt hwraps n 1 (by omega) (by omega) (by omega)
        htwice
    · rw [Nat.mod_eq_sub_mod (by omega), Nat.mod_eq_of_lt (by omega)]
      exact conforming_replicate_of_restart htau (by omega) le_rfl
  · rw [Nat.mod_eq_sub_mod (by omega), Nat.mod_eq_of_lt (by omega), Nat.max_eq_right (by omega)]
    exact conforming_replicate_of_restart htau (by omega) le_rfl

theorem of_new {quota : Quota} (h : Gcra.new quota = some gcra) :
    gcra.t = quota.replenish1Per ∧ gcra.tau = gcra.t * quota.maxBurst.val ∧ gcra.t < 2 ^ 64 := by
  unfold new Nanos.ofDuration at h
  simp only [bind_eq_bind, bind_eq_some_iff, ite_none_right_eq_some,
    Option.pure_def, some.injEq] at h
  obtain ⟨tau, ⟨-, rfl⟩, t, ⟨ht, rfl⟩, rfl⟩ := h
  exact ⟨rfl, rfl, ht⟩

end Gcra

/-! ## Windows -/

/-- The calls in the window of length `w` that opens at `now`. -/
def inWindow (now w : Nat) (times : List Nat) : Nat := times.countP fun a => now ≤ a ∧ a ≤ now + w

namespace RateLimiter

variable {K : Type} [DecidableEq K]

/-- Calls in order of time, from `now` up to `horizon`. -/
def Between (now horizon : Nat) (calls : List (Call K)) : Prop :=
  calls.Pairwise (·.2 ≤ ·.2) ∧ ∀ call ∈ calls, now ≤ call.2 ∧ call.2 ≤ horizon

/-- Every window that opens at `now` has at most the calls of the quota, for all calls up to
`horizon`. -/
def KeepsQuota (limiter : RateLimiter K) (key : K) (quota : Quota) (now horizon : Nat) : Prop :=
  ∀ calls, Between now horizon calls → ∀ w,
    inWindow now w (limiter.admitted key calls) ≤ quota.maxBurst.val + w / quota.replenish1Per

variable {limiter : RateLimiter K} {key : K} {gcra : Gcra}

/-- Calls of one key are decided one after another on its number. -/
theorem admitted_of_times (h : limiter.gcraFor key = some gcra) (times : List Nat) :
    limiter.admitted key (times.map (key, ·)) = gcra.conforming (limiter.stored key) times := by
  rw [admitted_eq h]
  congr 1
  rw [filter_eq_self.mpr (by simp), List.map_map]
  exact map_id' times

/-- Calls of one key that are all let through, in the window they fill, break a quota they exceed. -/
theorem not_keepsQuota_of_times {quota : Quota} (times : List Nat) (w : Nat)
    (h : limiter.gcraFor key = some gcra) (hsorted : times.Pairwise (· ≤ ·))
    (htimes : ∀ a ∈ times, now ≤ a ∧ a ≤ now + w) (hw : now + w ≤ horizon)
    (hall : gcra.conforming (limiter.stored key) times = times)
    (hmany : quota.maxBurst.val + w / quota.replenish1Per < times.length) :
    ¬ limiter.KeepsQuota key quota now horizon := by
  intro hkeeps
  have hbetween : Between now horizon (times.map (key, ·)) := by
    refine ⟨pairwise_map.mpr hsorted, fun call hcall => ?_⟩
    obtain ⟨a, ha, rfl⟩ := mem_map.mp hcall
    exact ⟨(htimes a ha).1, (htimes a ha).2.trans hw⟩
  have hcount := hkeeps _ hbetween w
  rw [admitted_of_times h, hall] at hcount
  have hlength : inWindow now w times = times.length :=
    countP_eq_length.mpr fun a ha => decide_eq_true (htimes a ha)
  omega

/-- **When the quota is kept**, in any state. As long as the additions do not wrap, the windows that
open at `now` are kept for every sequence of calls iff the key has nothing stored or its number is
at least one interval ahead (or beyond the last call). Where they wrap, not even a fresh key is kept
to its burst size. -/
theorem quota_kept_iff (limiter : RateLimiter K) (key : K) (quota : Quota) (gcra : Gcra)
    (hgcra : Gcra.new quota = some gcra) (hkey : limiter.gcraFor key = some gcra)
    (ht : 0 < quota.replenish1Per) (horizon : Nat) (hhorizon : horizon < 2 ^ 64) :
    (gcra.Fits horizon → ∀ now ≤ horizon,
      (limiter.KeepsQuota key quota now horizon ↔
        limiter.stored key = 0 ∨ now + quota.replenish1Per ≤ limiter.stored key ∨
          horizon < limiter.stored key)) ∧
      (¬ gcra.Fits horizon → limiter.stored key = 0 →
        ¬ limiter.KeepsQuota key quota horizon horizon) := by
  obtain ⟨hinterval, htau, htlt⟩ := Gcra.of_new hgcra
  obtain ⟨hb, -⟩ := quota.maxBurst.property
  rw [← hinterval] at ht ⊢
  constructor
  · intro hfits now hnow
    constructor
    · intro hkeeps
      by_contra hnot
      obtain ⟨hstored, hbehind, hlast⟩ : limiter.stored key ≠ 0 ∧
          limiter.stored key < now + gcra.t ∧ max (limiter.stored key) now ≤ horizon := by
        omega
      -- the burst at once, and the next call when the stored time comes
      refine not_keepsQuota_of_times
        (replicate quota.maxBurst.val now ++ [max (limiter.stored key) now])
        (max (limiter.stored key) now - now) hkey ?_ ?_ (by omega)
        (Gcra.conforming_overrun hb htau hfits hstored hbehind hlast) ?_ hkeeps
      · refine pairwise_append.mpr ⟨pairwise_replicate.mpr (.inr le_rfl),
          pairwise_singleton .., fun a ha c hc => ?_⟩
        rw [eq_of_mem_replicate ha, mem_singleton.mp hc]
        exact le_max_right _ _
      · intro a ha
        rcases mem_append.mp ha with ha | ha
        · rw [eq_of_mem_replicate ha]
          omega
        · rw [mem_singleton.mp ha]
          omega
      · rw [← hinterval, Nat.div_eq_of_lt (by omega), length_append, length_replicate]
        exact Nat.lt_succ_self _
    · intro hcond calls hcalls w
      have htimes : ∀ a ∈ (calls.filter (·.1 = key)).map (·.2), now ≤ a ∧ a ≤ horizon := by
        intro a ha
        obtain ⟨call, hcall, rfl⟩ := mem_map.mp ha
        exact hcalls.2 call (mem_filter.mp hcall).1
      rw [admitted_eq hkey, ← hinterval]
      refine le_trans (countP_mono_left fun _ _ h => decide_eq_true (of_decide_eq_true h).2) ?_
      rcases hcond with hfresh | hahead | hbeyond
      · rw [hfresh]
        exact Gcra.countUpTo_le_of_fresh ht hb htau hfits htimes
      · have hbound := Gcra.countUpTo_mul_le (now + w) hfits (fun a ha => (htimes a ha).2)
          (show limiter.stored key ≠ 0 by omega)
        show Gcra.countUpTo (now + w) _ ≤ _
        exact Gcra.le_burst_add ht htau (by omega)
      · exact Nat.le_add_right_of_le
          (Gcra.countUpTo_le_of_beyond ht htau hfits (fun a ha => (htimes a ha).2) hbeyond)
  · intro hwraps hfresh
    unfold Gcra.Fits at hwraps
    refine not_keepsQuota_of_times (replicate (quota.maxBurst.val + 1) horizon) 0 hkey
      (pairwise_replicate.mpr (.inr le_rfl)) ?_ le_rfl ?_ ?_
    · intro a ha
      rw [eq_of_mem_replicate ha]
      exact ⟨le_rfl, le_rfl⟩
    · rw [hfresh]
      exact Gcra.conforming_fresh_of_wraps hb htau ht htlt hhorizon (by omega)
    · rw [Nat.zero_div, length_replicate]
      exact Nat.lt_succ_self _

/-! ## Rejected calls -/

/-- Calls that are not let through leave the number of their key as it is. -/
theorem afterCalls_frame (h : limiter.gcraFor key = some gcra) {calls : List (Call K)}
    (hnone : limiter.admitted key calls = []) :
    (limiter.afterCalls calls).gcraFor key = some gcra ∧
      (limiter.afterCalls calls).start = limiter.start ∧
      (limiter.afterCalls calls).stored key = limiter.stored key := by
  induction calls generalizing limiter with
  | nil => exact ⟨h, rfl, rfl⟩
  | cons call calls ih =>
    obtain ⟨hstart, hgcra, hother⟩ := limiter.checkKey_frame call.1 (limiter.start + call.2)
    unfold admitted at hnone
    dsimp only at hnone
    split at hnone
    case isTrue => nomatch hnone
    case isFalse hrejected =>
      obtain ⟨hgcra', hstart', hstored⟩ := ih (hgcra ▸ h) hnone
      refine ⟨hgcra', hstart'.trans hstart, hstored.trans ?_⟩
      by_cases hkey : call.1 = key
      · subst hkey
        obtain ⟨hself, hok⟩ := checkKey_self h call.2
        rw [hself, if_neg fun hconf => hrejected ⟨rfl, hok.mpr hconf⟩]
      · exact hother key (Ne.symm hkey)

theorem earliestPossible_of_checkKey (h : limiter.gcraFor key = some gcra) {t0 : Nat}
    {notUntil : NotUntil} (herr : (limiter.checkKey key (limiter.start + t0)).2 = .error notUntil) :
    notUntil.earliestPossible =
      limiter.start + (gcra.tatAt (limiter.stored key) t0 - gcra.tau) := by
  rw [checkKey_eq h] at herr
  unfold testAndUpdate StateStore.measureAndReplace measureAndReplaceOne Gcra.decision at herr
  simp only [Nat.add_sub_cancel_left] at herr
  grind [stored, Gcra.tatAt, NotUntil.earliestPossible]

/-- The time a rejected call is given is exact: as long as no call of the key is let through, one
at that time or later would be and an earlier one would not. -/
theorem earliestPossible_exact {quota : Quota} (h : limiter.gcraFor key = some gcra)
    (hquota : Gcra.new quota = some gcra) {t0 : Nat} {notUntil : NotUntil}
    (herr : (limiter.checkKey key (limiter.start + t0)).2 = .error notUntil)
    {calls : List (Call K)} (hnone : limiter.admitted key ((key, t0) :: calls) = []) (t1 : Nat) :
    (((limiter.afterCalls ((key, t0) :: calls)).checkKey key (limiter.start + t1)).2.isOk ↔
        notUntil.earliestPossible ≤ limiter.start + t1) ∧
      (notUntil.waitTimeFrom (limiter.start + t1) : Int) =
        max (notUntil.earliestPossible - (limiter.start + t1 : Nat)) 0 := by
  obtain ⟨hlater, hstart, hkept⟩ := afterCalls_frame h hnone
  have hretry := (checkKey_self hlater t1).2
  have hrejected := (checkKey_self h t0).2
  -- a key with nothing stored is not rejected: the burst is at least one interval
  have hpos : limiter.stored key ≠ 0 := by
    intro hzero
    obtain ⟨-, htau, -⟩ := Gcra.of_new hquota
    have hstart : gcra.startingState t0 ≤ t0 + gcra.t := Nat.mod_le ..
    have hburst : gcra.t ≤ gcra.tau := htau ▸ Nat.le_mul_of_pos_right _ quota.maxBurst.2.1
    have hconf : gcra.Conforms (limiter.stored key) t0 := by
      rw [Gcra.Conforms, Gcra.tatAt, if_pos hzero]
      omega
    rw [herr, iff_true_right hconf] at hrejected
    nomatch hrejected
  have hearliest := earliestPossible_of_checkKey h herr
  rw [Gcra.tatAt, if_neg hpos] at hearliest
  rw [hkept, hstart, Gcra.conforms_iff hpos] at hretry
  rw [Gcra.conforms_iff hpos, herr] at hrejected
  rw [hretry, NotUntil.waitTimeFrom]
  have : ¬ limiter.stored key ≤ t0 + gcra.tau := fun hle => nomatch hrejected.mpr hle
  omega

end RateLimiter

/-! A quota of two calls a second for the only key there is. -/

def Sample.quota : Quota := ⟨⟨2, by decide⟩, 500000000⟩

def Sample.gcra : Gcra := ⟨500000000, 1000000000⟩

def Sample.limiter : RateLimiter Unit := ⟨some Sample.gcra, fun _ => none, fun _ => none, 0⟩

open Sample

theorem quota_kept_iff_fresh :
    Quota.perSecond ⟨2, by decide⟩ = some quota ∧
      RateLimiter.newWithQuota (some quota) [] 0 = some Sample.limiter ∧
      Sample.limiter.KeepsQuota () quota 0 (2 ^ 63) :=
  ⟨rfl, rfl, ((RateLimiter.quota_kept_iff Sample.limiter () quota Sample.gcra rfl rfl
    (by decide) (2 ^ 63) (by decide)).1 (show _ < _ by decide) 0 (by decide)).mpr (.inl rfl)⟩

/-- A key that has been idle for ten seconds: three calls at one instant. -/
theorem not_quota_kept_idle :
    inWindow 10000000000 0 (Sample.limiter.admitted ()
        [((), 0), ((), 10000000000), ((), 10000000000), ((), 10000000000)]) = 3 ∧
      ¬ 3 ≤ quota.maxBurst.val + 0 / quota.replenish1Per := by
  decide +kernel

/-- After two calls at once. -/
def Sample.spent : RateLimiter Unit := { Sample.limiter with state := fun _ => some 1500000000 }

def Sample.notUntil : NotUntil := ⟨⟨500000000, 1000000000, 500000000, 500000000⟩, 0⟩

theorem earliestPossible_exact_spent :
    (Sample.limiter.afterCalls [((), 0), ((), 0)]).stored () = spent.stored () ∧
      (spent.checkKey () 0).2 = .error notUntil ∧
      ((spent.afterCalls [((), 0)]).checkKey () 500000000).2.isOk := by
  have herr : (spent.checkKey () 0).2 = .error notUntil := by decide +kernel
  have hexact := RateLimiter.earliestPossible_exact (K := Unit) rfl (rfl : Gcra.new quota = _) herr
    (show spent.admitted () [((), 0)] = [] by decide +kernel) 500000000
  exact ⟨by decide +kernel, herr, hexact.1.mpr (by decide +kernel)⟩

end Nautilus
