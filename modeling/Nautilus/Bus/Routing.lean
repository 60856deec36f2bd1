import Nautilus.Bus.Matching
import Nautilus.Lib.IndexMap

/-!
# Publish and subscribe

The two routes to the subscribers: the `TopicRouter` of one message type (`msgbus/typed_router.rs`)
and the bus for any type (`msgbus/core.rs`, `msgbus/api.rs`). Both remember the subscribers of a
topic once it was published to. The router keeps its subscriptions sorted, remembers indices and
forgets them on a change; the bus keeps a hash set, remembers sorted copies and patches each.

`TypedSubscription` and `Subscription` are one type here: same fields, equal by pattern and handler
id, ordered by priority, pattern and handler id. Publishing returns the handlers in the order of
their calls. Indexing beyond the subscriptions panics (`none`).
-/

namespace Nautilus

open Lib

variable {C : Type}

/-- `TypedHandler` and `ShareableMessageHandler`. -/
structure Handler (C : Type) where
  id : String
  callback : C

/-- `TypedSubscription` and `Subscription` (`core.rs:133`). -/
structure Subscription (C : Type) where
  handler : Handler C
  handlerId : String
  pattern : Pattern
  priority : Nat

namespace Subscription

def new (pattern : Pattern) (handler : Handler C) (priority : Option Nat) : Subscription C :=
  ⟨handler, handler.id, pattern, priority.getD 0⟩

/-- `pattern == .. && handler_id == ..`: the test of `eq`, and of both ways to unsubscribe. -/
def isFor (self : Subscription C) (pattern : Pattern) (handlerId : String) : Bool :=
  self.pattern == pattern && self.handlerId == handlerId

def eq (self other : Subscription C) : Bool := self.isFor other.pattern other.handlerId

/-- `Subscription::cmp`: higher priority first. -/
def cmp (self other : Subscription C) : Ordering :=
  (compare other.priority self.priority).then
    ((compare self.pattern other.pattern).then (compare self.handlerId other.handlerId))

def sort (subs : List (Subscription C)) : List (Subscription C) :=
  subs.insertionSort fun a b => (a.cmp b).isLE = true

end Subscription

/-! ## The typed router -/

structure TopicRouter (C : Type) where
  subscriptions : List (Subscription C)
  topicCache : IndexMap Topic (List Nat)

namespace TopicRouter

def new : TopicRouter C := ⟨[], .empty⟩

variable (self : TopicRouter C)

def subscribe (pattern : Pattern) (handler : Handler C) (priority : Nat) : TopicRouter C :=
  let sub := Subscription.new pattern handler (some priority)
  if self.subscriptions.any fun s => s.eq sub then self
  else ⟨Subscription.sort (self.subscriptions ++ [sub]), .empty⟩

def unsubscribe (pattern : Pattern) (handler : Handler C) : TopicRouter C :=
  match self.subscriptions.findIdx? fun s => s.isFor pattern handler.id with
  | some idx => ⟨self.subscriptions.eraseIdx idx, .empty⟩
  | none => self

variable (topic : Topic)

def findMatches : List Nat :=
  self.subscriptions.zipIdx.filterMap fun entry =>
    if isMatchingBacktracking topic entry.1.pattern then some entry.2 else none

/-- The indices of a topic, remembered or found and then remembered. -/
def matchingIndices : TopicRouter C × List Nat :=
  match self.topicCache.get? topic with
  | some indices => (self, indices)
  | none =>
    let indices := self.findMatches topic
    ({ self with topicCache := self.topicCache.insert topic indices }, indices)

/-- `TopicRouter::publish` and `fill_matching_handlers`. -/
def publish : Option (TopicRouter C × List (Handler C)) := do
  let found := self.matchingIndices topic
  let called ← found.2.mapM fun idx => found.1.subscriptions[idx]?.map Subscription.handler
  some (found.1, called)

def hasSubscribers : Bool :=
  match self.topicCache.get? topic with
  | some indices => !indices.isEmpty
  | none => !(self.findMatches topic).isEmpty

def subscriberCount : Nat :=
  match self.topicCache.get? topic with
  | some indices => indices.length
  | none => (self.findMatches topic).length

end TopicRouter

/-! ## The bus -/

/-- An order in which a hash set may happen to be iterated. -/
structure Iteration (C : Type) where
  run : List (Subscription C) → List (Subscription C)
  perm : ∀ subs, (run subs).Perm subs

/-- `core.rs:223`, as far as subscriptions of any type go. -/
structure MessageBus (C : Type) where
  /-- A hash set; no two subscriptions are `eq`. -/
  subscriptions : List (Subscription C)
  topics : IndexMap Topic (List (Subscription C))

namespace MessageBus

def new : MessageBus C := ⟨[], .empty⟩

variable (self : MessageBus C)

def subscribeAny (pattern : Pattern) (handler : Handler C) (priority : Option Nat) : MessageBus C :=
  let sub := Subscription.new pattern handler priority
  if self.subscriptions.any fun s => s.eq sub then self
  else
    { subscriptions := self.subscriptions ++ [sub]
      topics := self.topics.filterMap fun topic subs =>
        some (if isMatchingBacktracking topic sub.pattern then Subscription.sort (subs ++ [sub])
          else subs) }

def unsubscribeAny (pattern : Pattern) (handler : Handler C) : MessageBus C :=
  { subscriptions := self.subscriptions.filter fun s => !s.isFor pattern handler.id
    topics := self.topics.filterMap fun _ subs =>
      some (subs.filter fun s => !s.isFor pattern handler.id) }

def findTopicMatches (iteration : Iteration C) (topic : Topic) : List (Subscription C) :=
  (iteration.run self.subscriptions).filter fun sub => isMatchingBacktracking topic sub.pattern

/-- `api.rs:918`, with `fill_matching_any_handlers` (`core.rs:622`). -/
def publishAny (iteration : Iteration C) (topic : Topic) : MessageBus C × List (Handler C) :=
  match self.topics.get? topic with
  | some subs => (self, subs.map Subscription.handler)
  | none =>
    let subs := Subscription.sort (self.findTopicMatches iteration topic)
    ({ self with topics := self.topics.insert topic subs }, subs.map Subscription.handler)

def subscriptionsCount (iteration : Iteration C) (topic : Topic) : Nat :=
  match self.topics.get? topic with
  | some subs => subs.length
  | none => (self.findTopicMatches iteration topic).length

def hasSubscribers (iteration : Iteration C) (topic : Topic) : Bool :=
  self.subscriptionsCount iteration topic > 0

end MessageBus

end Nautilus
