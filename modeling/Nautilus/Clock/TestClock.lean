import Nautilus.Lib.IndexMap
import Nautilus.Lib.OrdMap
import Nautilus.Correctness
import Nautilus.Types

/-!
# The test clock

The clock of a backtest (`common/src/clock.rs`) and its timers (`common/src/timer.rs`).
`advance_time` asks every timer, by name, for the events up to the target, drops the expired timers
and sorts the events by time with a stable sort.

A timer is an iterator: `advance` divides to find how many events are due and takes that many; the
iterator stops earlier at the stop time.

A `UnixNanos` is its number. Adding beyond `u64` panics (`none`), and so does writing one later than
`i64` into a text. The random event ids and the log lines are left out.
-/

namespace Nautilus

open Lib

namespace UnixNanos

/-- `UnixNanos + u64` (`nanos.rs:455, 490`). -/
def add (ts delta : Nat) : Option Nat :=
  if ts + delta < 2 ^ 64 then some (ts + delta) else none

/-- `nanos.rs:163`; the value stands for its text. -/
def toRfc3339 (ts : Nat) : Option Nat := if ts < 2 ^ 63 then some ts else none

end UnixNanos

/-- Why a clock refuses a timer; the four last are the texts of `anyhow::bail!`. -/
inductive ClockError where
  | correctness (error : ParamError)
  | alertInPast (name : String) (alertTime tsNow : Nat)
  | nextEventInPast (name : String) (nextEventTime tsNow : Nat)
  | stopNotAfterStart (name : String) (stopTime startTime : Nat)
  | stopInPast (name : String) (stopTime tsNow : Nat)
deriving DecidableEq

variable (name : String)

def validateAndPrepareTimeAlert (alertTimeNs : Nat) (allowPast : Option Bool)
    (tsNow : Nat) : Option (Except ClockError (String × Nat)) :=
  match checkValidStringUtf8 name "name" with
  | .error e => some (.error (.correctness e))
  | .ok () =>
    if alertTimeNs < tsNow then
      if allowPast.getD true then some (.ok (name, tsNow))
      else do
        let alertTime ← UnixNanos.toRfc3339 alertTimeNs
        some (.error (.alertInPast name alertTime tsNow))
    else some (.ok (name, alertTimeNs))

/-- The time of a timer's first event (`timer.rs:385`). -/
def firstEventTime (startTimeNs intervalNs : Nat) (fireImmediately : Bool) : Option Nat :=
  if fireImmediately then some startTimeNs else UnixNanos.add startTimeNs intervalNs

variable (intervalNs : Nat)

/-- The start time of `validate_and_prepare_timer`: zero or none is the current time. -/
def prepareStartTime (startTimeNs : Option Nat) (allowPast fireImmediately : Bool) (tsNow : Nat) :
    Option (Except ClockError UnixNanos) :=
  let startTimeNs := startTimeNs.getD 0
  if startTimeNs = 0 then some (.ok tsNow)
  else if allowPast then some (.ok startTimeNs)
  else do
    let nextEventTime ← firstEventTime startTimeNs intervalNs fireImmediately
    if nextEventTime < tsNow then do
      let nextEventTime ← UnixNanos.toRfc3339 nextEventTime
      some (.error (.nextEventInPast name nextEventTime tsNow))
    else some (.ok startTimeNs)

/-- The stop time checks of `validate_and_prepare_timer`. -/
def validateStopTime (startTimeNs : Nat) (allowPast : Bool)
    (tsNow : Nat) : Option Nat → Option (Except ClockError Unit)
  | none => some (.ok ())
  | some stopTime =>
    if stopTime ≤ startTimeNs then do
      let stop ← UnixNanos.toRfc3339 stopTime
      let start ← UnixNanos.toRfc3339 startTimeNs
      some (.error (.stopNotAfterStart name stop start))
    else if !allowPast && stopTime ≤ tsNow then do
      let stop ← UnixNanos.toRfc3339 stopTime
      some (.error (.stopInPast name stop tsNow))
    else some (.ok ())

/-- The name, the start and stop times, and the two flags with their defaults. -/
def validateAndPrepareTimer
    (startTimeNs stopTimeNs : Option Nat) (allowPast fireImmediately : Option Bool) (tsNow : Nat) :
    Option (Except ClockError (String × Nat × Option Nat × Bool × Bool)) :=
  match checkValidStringUtf8 name "name" with
  | .error e => some (.error (.correctness e))
  | .ok () =>
    match checkPositiveU64 intervalNs "interval_ns" with
    | .error e => some (.error (.correctness e))
    | .ok () => do
      let allowPast := allowPast.getD true
      let fireImmediately := fireImmediately.getD false
      match ← prepareStartTime name intervalNs startTimeNs allowPast fireImmediately tsNow with
      | .error e => some (.error e)
      | .ok startTimeNs =>
        match ← validateStopTime name startTimeNs allowPast tsNow stopTimeNs with
        | .error e => some (.error e)
        | .ok () => some (.ok (name, startTimeNs, stopTimeNs, allowPast, fireImmediately))

/-! ## Timers -/

abbrev NonZeroU64 : Type := { n : Nat // 0 < n }

def createValidInterval : NonZeroU64 :=
  ⟨max intervalNs 1, Nat.lt_of_lt_of_le Nat.zero_lt_one (Nat.le_max_right _ _)⟩

structure TimeEvent where
  name : String
  tsEvent : Nat
  tsInit : Nat
deriving DecidableEq

structure TestTimer where
  name : String
  intervalNs : NonZeroU64
  startTimeNs : Nat
  stopTimeNs : Option Nat
  fireImmediately : Bool
  nextTimeNs : Nat
  isExpired : Bool
deriving DecidableEq

namespace TestTimer

def new (name : String) (intervalNs : NonZeroU64) (startTimeNs : Nat)
    (stopTimeNs : Option Nat) (fireImmediately : Bool) : Option TestTimer :=
  match checkValidStringUtf8 name "name" with
  | .error _ => none
  | .ok () => do
    let nextTimeNs ← firstEventTime startTimeNs intervalNs.val fireImmediately
    some ⟨name, intervalNs, startTimeNs, stopTimeNs, fireImmediately, nextTimeNs, false⟩

variable (timer : TestTimer)

/-- `timer.rs:455`: the timer after the call, and the item. -/
def next : Option (TestTimer × Option (TimeEvent × Nat)) :=
  if timer.isExpired then some (timer, none)
  else if timer.stopTimeNs.any (· < timer.nextTimeNs) then
    some ({ timer with isExpired := true }, none)
  else do
    let nextTimeNs ← UnixNanos.add timer.nextTimeNs timer.intervalNs.val
    let item := (⟨timer.name, timer.nextTimeNs, timer.nextTimeNs⟩, timer.nextTimeNs)
    -- the last event is the one at the stop time
    let isExpired := decide (timer.stopTimeNs = some timer.nextTimeNs)
    some ({ timer with isExpired, nextTimeNs }, some item)

/-- The events of `Iterator::take` on a timer: at most the given number. -/
def take : Nat → TestTimer → Option (TestTimer × List TimeEvent)
  | 0, timer => some (timer, [])
  | n + 1, timer => do
    match ← timer.next with
    | (timer, none) => some (timer, [])
    | (timer, some (event, _)) => do
      let (timer, events) ← take n timer
      some (timer, event :: events)

/-- How many events `advance` asks for: the division of `timer.rs:421`. -/
def advances (toTimeNs : Nat) : Nat :=
  if timer.nextTimeNs ≤ toTimeNs then
    min ((toTimeNs - timer.nextTimeNs) / timer.intervalNs.val + 1) (2 ^ 64 - 1)
  else 0

def advance (toTimeNs : Nat) : Option (TestTimer × List TimeEvent) :=
  timer.take (timer.advances toTimeNs)

end TestTimer

/-! ## The clock -/

variable {Callback : Type}

structure CallbackRegistry (Callback : Type) where
  defaultCallback : Option Callback
  callbacks : IndexMap String Callback

namespace CallbackRegistry

def registerCallback (self : CallbackRegistry Callback) (name : String) (callback : Callback) :
    CallbackRegistry Callback :=
  { self with callbacks := self.callbacks.insert name callback }

def cancelDefaultHandler (self : CallbackRegistry Callback) : CallbackRegistry Callback :=
  { self with defaultCallback := none }

def hasAnyCallback (self : CallbackRegistry Callback) (name : String) : Bool :=
  self.callbacks.containsKey name || self.defaultCallback.isSome

end CallbackRegistry

structure TestClock (Callback : Type) where
  time : Nat
  timers : OrdMap (compare : String → String → Ordering) TestTimer
  callbacks : CallbackRegistry Callback

namespace TestClock

def new : TestClock Callback := ⟨0, .empty, ⟨none, .empty⟩⟩

variable (self : TestClock Callback)

/-- `AtomicTime::set_time`, which the clock derefs to. -/
def setTime (time : Nat) : TestClock Callback :=
  { self with time }

def registerDefaultHandler (callback : Callback) : TestClock Callback :=
  { self with callbacks := { self.callbacks with defaultCallback := some callback } }

def cancelDefaultHandler : TestClock Callback :=
  { self with callbacks := self.callbacks.cancelDefaultHandler }

/-- The `retain` of `advance_time`: timers are advanced, expired ones dropped, events collected. -/
def advanceTimers (toTimeNs : Nat) :
    List (String × TestTimer) → Option (List (String × TestTimer) × List TimeEvent)
  | [] => some ([], [])
  | (name, timer) :: rest => do
    let (timer, events) ← timer.advance toTimeNs
    let (kept, later) ← advanceTimers toTimeNs rest
    some (if timer.isExpired then kept else (name, timer) :: kept, events ++ later)

def advanceTime (toTimeNs : Nat) (setTime : Bool) : Option (TestClock Callback × List TimeEvent) :=
  if toTimeNs < self.time then none
  else do
    let time := if setTime then toTimeNs else self.time
    let (kept, events) ← advanceTimers toTimeNs self.timers.entries
    some ({ self with time, timers := OrdMap.collect kept },
      events.insertionSort fun a b => a.tsEvent ≤ b.tsEvent)

/-- `replace_existing_timer`. -/
def replaceExistingTimerIfNeeded (name : String) : TestClock Callback :=
  { self with timers := self.timers.remove name }

/-- The registration that both setters make before they build the timer. -/
def registerCallback (name : String) :
    Option Callback → TestClock Callback
  | some callback => { self with callbacks := self.callbacks.registerCallback name callback }
  | none => self

/-- The last step of both setters: the timer, unless building it panics, under its name. -/
def insertTimer (timer : Option TestTimer) : Outcome ClockError (TestClock Callback) :=
  timer.map fun timer => ({ self with timers := self.timers.insert timer.name timer }, .ok ())

/-- The existing timer goes before the callback is checked. -/
def setTimeAlertNs (name : String) (alertTimeNs : Nat)
    (callback : Option Callback) (allowPast : Option Bool) :
    Outcome ClockError (TestClock Callback) :=
  let tsNow := self.time
  match validateAndPrepareTimeAlert name alertTimeNs allowPast tsNow with
  | none => none
  | some (.error e) => some (self, .error e)
  | some (.ok (name, alertTimeNs)) =>
    let self := self.replaceExistingTimerIfNeeded name
    match checkPredicateTrue (callback.isSome || self.callbacks.hasAnyCallback name)
        "No callbacks provided" with
    | .error e => some (self, .error (.correctness e))
    | .ok () =>
      (self.registerCallback name callback).insertTimer
        (TestTimer.new name (createValidInterval (alertTimeNs - tsNow)) tsNow (some alertTimeNs)
          (decide (alertTimeNs = tsNow)))

def setTimerNs (name : String) (intervalNs : Nat)
    (startTimeNs stopTimeNs : Option Nat) (callback : Option Callback)
    (allowPast fireImmediately : Option Bool) : Outcome ClockError (TestClock Callback) :=
  let tsNow := self.time
  match validateAndPrepareTimer name intervalNs startTimeNs stopTimeNs allowPast fireImmediately
      tsNow with
  | none => none
  | some (.error e) => some (self, .error e)
  | some (.ok (name, startTimeNs, stopTimeNs, _, fireImmediately)) =>
    match checkPredicateTrue (callback.isSome || self.callbacks.hasAnyCallback name)
        "No callbacks provided" with
    | .error e => some (self, .error (.correctness e))
    | .ok () =>
      ((self.replaceExistingTimerIfNeeded name).registerCallback name callback).insertTimer
        (TestTimer.new name (createValidInterval intervalNs) startTimeNs stopTimeNs fireImmediately)

end TestClock

end Nautilus
