import Nautilus.Clock.TestClock

/-!
# The throttler

`Throttler` of `common/src/throttler.rs`: at most `limit` messages per interval go out, the others
are buffered, or dropped when a drop callback is given. The times of the last `limit` sends are kept
latest first; a message may go when the oldest is an interval ago.

The clock is its time and the alert of the throttler's timer. A step is a `send` or the passing of
time; when the alert falls due its callback runs first.
-/

namespace Nautilus

variable {T : Type}

/-- Registered as an actor. Messages to the output callbacks stand latest first.
-/
structure Throttler (T : Type) where
  recvCount : Nat
  sentCount : Nat
  isLimiting : Bool
  limit : Nat
  limit_pos : 0 < limit
  /-- A `VecDeque`, front first. -/
  buffer : List T
  timestamps : List Nat
  interval : Nat
  /-- Whether `output_drop` is given. -/
  outputDrop : Bool
  /-- The time of the clock. -/
  now : Nat
  /-- The alert of the throttler's timer, while it is pending. -/
  alert : Option Nat
  sent : List (Nat × T)
  dropped : List T

namespace Throttler

def new (limit : Nat) (limit_pos : 0 < limit) (interval : Nat) (outputDrop : Bool) (now : Nat) :
    Throttler T :=
  ⟨0, 0, false, limit, limit_pos, [], [], interval, outputDrop, now, none, [], []⟩

variable (self : Throttler T)

def deltaNext : Nat :=
  match self.timestamps[self.limit - 1]? with
  | some ts => self.interval - (self.now - ts)
  | none => 0

/-- The old timer is cancelled, the new alert must fit. -/
def setTimer : Option (Throttler T) :=
  (UnixNanos.add self.now self.deltaNext).map fun alertTs => { self with alert := some alertTs }

def sendMsg (msg : T) : Throttler T :=
  let timestamps :=
    if self.limit ≤ self.timestamps.length then self.timestamps.dropLast else self.timestamps
  { self with
    timestamps := self.now :: timestamps
    sentCount := self.sentCount + 1
    sent := (self.now, msg) :: self.sent }

def limitMsg (msg : T) : Option (Throttler T) :=
  let self :=
    if self.outputDrop then { self with dropped := msg :: self.dropped }
    else { self with buffer := msg :: self.buffer }
  if self.isLimiting then some self
  else self.setTimer.map fun self => { self with isLimiting := true }

def send (msg : T) : Option (Throttler T) :=
  let self := { self with recvCount := self.recvCount + 1 }
  let delta := self.deltaNext
  let self :=
    if self.isLimiting ∧ delta = 0 ∧ self.buffer.isEmpty then { self with isLimiting := false }
    else self
  if self.isLimiting ∨ 0 < delta then self.limitMsg msg else some (self.sendMsg msg)

/-- The loop of `ThrottlerProcess::handle`, over the buffer from its back. -/
def drain : List T → Throttler T → Option (Throttler T)
  | [], self => some { self with isLimiting := false }
  | msg :: rest, self =>
    let self := ({ self with buffer := rest.reverse } : Throttler T).sendMsg msg
    if rest ≠ [] ∧ 0 < self.deltaNext then ({ self with isLimiting := true } : Throttler T).setTimer
    else drain rest self

def handle : Option (Throttler T) := drain self.buffer.reverse self

/-- `throttler_resume`. -/
def resume : Throttler T := { self with isLimiting := false }

/-- Time passes, and the callback of an alert that has fallen due runs. -/
def advance (elapsed : Nat) : Option (Throttler T) :=
  let self := { self with now := self.now + elapsed }
  if self.alert.any (· ≤ self.now) then
    let self := { self with alert := none }
    if self.outputDrop then some self.resume else self.handle
  else some self

/-- What can happen to a throttler. -/
inductive Event (T : Type) where
  | send (msg : T)
  | advance (elapsed : Nat)

def step : Event T → Option (Throttler T)
  | .send msg => self.send msg
  | .advance elapsed => self.advance elapsed

end Throttler

end Nautilus
