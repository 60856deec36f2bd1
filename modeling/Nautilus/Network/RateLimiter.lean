import Nautilus.Lib.Word

/-!
# The rate limiter

The keyed limiter of the network clients (`ratelimiter/`). Each key stores the theoretical arrival
time of its next call in nanoseconds since the limiter was created; a call is let through when it is
no earlier than that time less the burst capacity.

Times are `u64` nanoseconds and `Nanos + Nanos` wraps. The compare-and-swap loop around a decision
is one atomic step, as its retries have no effect.
-/

namespace Nautilus

open Lib

/-! ## Quotas -/

abbrev NonZeroU32 : Type := { n : Nat // 0 < n ∧ n < 2 ^ 32 }

/-- `quota.rs:52`; a `Duration` is its nanoseconds. -/
structure Quota where
  maxBurst : NonZeroU32
  replenish1Per : Nat

/-- `Quota::per_second`: no quota when the interval rounds to zero. -/
def Quota.perSecond (maxBurst : NonZeroU32) : Option Quota :=
  let replenishIntervalNs := 1000000000 / maxBurst.val
  if replenishIntervalNs = 0 then none else some ⟨maxBurst, replenishIntervalNs⟩

/-! ## The decision -/

/-- `Nanos::from(Duration)`, which panics beyond `u64`. -/
def Nanos.ofDuration (duration : Nat) : Option Nat :=
  if duration < 2 ^ 64 then some duration else none

def Nanos.add (a b : Nat) : Nat := Word.add 64 a b

structure StateSnapshot where
  t : Nat
  tau : Nat
  timeOfMeasurement : Nat
  tat : Nat
deriving DecidableEq

/-- `gcra.rs:75`: a call that is not let through, and when the next one may be. -/
structure NotUntil where
  state : StateSnapshot
  start : Nat
deriving DecidableEq

/-- `gcra.rs:94` for the `Instant`s of the one constructor, which do not wrap. -/
def NotUntil.earliestPossible (notUntil : NotUntil) : Nat := notUntil.start + notUntil.state.tat

def NotUntil.waitTimeFrom (notUntil : NotUntil) (now : Nat) : Nat :=
  notUntil.earliestPossible - min notUntil.earliestPossible now

/-- `gcra.rs:120`: the weight of one call in units of time and the burst capacity. -/
structure Gcra where
  t : Nat
  tau : Nat

namespace Gcra

def new (quota : Quota) : Option Gcra := do
  let tau ← Nanos.ofDuration (quota.replenish1Per * quota.maxBurst.val)
  let t ← Nanos.ofDuration quota.replenish1Per
  pure { t, tau }

def startingState (gcra : Gcra) (t0 : Nat) : Nat := Nanos.add t0 gcra.t

/-- The closure of `Gcra::test_and_update` (`gcra.rs:151`): what to answer and to store. -/
def decision (gcra : Gcra) (start t0 : Nat) (tat : Option Nat) : Except NotUntil (Unit × Nat) :=
  let tat := tat.getD (gcra.startingState t0)
  let earliestTime := tat - gcra.tau
  if t0 < earliestTime then
    .error ⟨⟨gcra.t, gcra.tau, earliestTime, earliestTime⟩, start⟩
  else .ok ((), Nanos.add (max tat t0) gcra.t)

end Gcra

/-! ## The state store -/

/-- `mod.rs:58`: the atomic number of a key is zero as long as nothing is stored. -/
def measureAndReplaceOne {α ε : Type} (prev : Nat) (f : Option Nat → Except ε (α × Nat)) :
    Nat × Except ε α :=
  match f (if prev = 0 then none else some prev) with
  | .ok (result, newData) => (newData, .ok result)
  | .error e => (prev, .error e)

/-- `DashMapStateStore`, as its lookup. -/
abbrev StateStore (K : Type) : Type := K → Option Nat

/-- `mod.rs:121`: a missing entry is made first. -/
def StateStore.measureAndReplace {K α ε : Type} [DecidableEq K] (state : StateStore K) (key : K)
    (f : Option Nat → Except ε (α × Nat)) : StateStore K × Except ε α :=
  let (value, result) := measureAndReplaceOne ((state key).getD 0) f
  (Function.update state key (some value), result)

/-! ## The limiter -/

/-- `mod.rs:143`; the clock is read by the caller. -/
structure RateLimiter (K : Type) where
  defaultGcra : Option Gcra
  state : StateStore K
  gcra : K → Option Gcra
  start : Nat

namespace RateLimiter

variable {K : Type} [DecidableEq K] (limiter : RateLimiter K)

def addQuotaForKey (key : K) (value : Quota) : Option (RateLimiter K) := do
  let gcra ← Gcra.new value
  pure { limiter with gcra := Function.update limiter.gcra key (some gcra) }

def newWithQuota (baseQuota : Option Quota) (keyedQuotas : List (K × Quota)) (start : Nat) :
    Option (RateLimiter K) := do
  let defaultGcra ← baseQuota.mapM Gcra.new
  keyedQuotas.foldlM (fun limiter (key, quota) => limiter.addQuotaForKey key quota)
    { defaultGcra, state := fun _ => none, gcra := fun _ => none, start }

/-- `Gcra::test_and_update` (`gcra.rs:141`) on the limiter's store. -/
def testAndUpdate (gcra : Gcra) (key : K) (now : Nat) : RateLimiter K × Except NotUntil Unit :=
  let (state, result) :=
    limiter.state.measureAndReplace key (gcra.decision limiter.start (now - limiter.start))
  ({ limiter with state }, result)

/-- `RateLimiter::check_key` (`mod.rs:219`) when the clock shows `now`. -/
def checkKey (key : K) (now : Nat) : RateLimiter K × Except NotUntil Unit :=
  match limiter.gcra key with
  | some gcra => limiter.testAndUpdate gcra key now
  | none =>
    match limiter.defaultGcra with
    | some gcra => limiter.testAndUpdate gcra key now
    | none => (limiter, .ok ())

/-- The cell a key is checked with. -/
def gcraFor (key : K) : Option Gcra :=
  (limiter.gcra key).or limiter.defaultGcra

/-- The time stored for a key, zero for none. -/
def stored (key : K) : Nat := (limiter.state key).getD 0

/-- A call: a key, and the time since the limiter was created. -/
abbrev Call (K : Type) : Type := K × Nat

/-- The times of the calls for `key` that are let through in a sequence of calls. -/
def admitted (key : K) : RateLimiter K → List (Call K) → List Nat
  | _, [] => []
  | limiter, call :: calls =>
    let (next, result) := limiter.checkKey call.1 (limiter.start + call.2)
    if call.1 = key ∧ result.isOk then call.2 :: next.admitted key calls
    else next.admitted key calls

/-- The limiter after a sequence of calls. -/
def afterCalls (calls : List (Call K)) : RateLimiter K :=
  calls.foldl (fun limiter call => (limiter.checkKey call.1 (limiter.start + call.2)).1) limiter

end RateLimiter

end Nautilus
