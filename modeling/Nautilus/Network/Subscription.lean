import Nautilus.Lib.IndexMap

/-!
# Subscription tracking of a websocket client

`websocket/subscription.rs`: three maps from channels to sets of symbols record which subscriptions
are confirmed, requested and being cancelled. A topic is a channel, or a channel and a symbol around
a delimiter; a channel alone is kept under the empty symbol. A text is the list of its characters,
and nobody relies on the order of the maps.
-/

namespace Nautilus

open Lib

/-- `Ustr` and `&str`. -/
abbrev Ustr : Type := List Char

/-- `AHashSet<Ustr>`. -/
abbrev SymbolSet : Type := IndexMap Ustr Unit

/-- `DashMap<Ustr, AHashSet<Ustr>>`. -/
abbrev TopicMap : Type := IndexMap Ustr SymbolSet

def channelLevelMarker : Ustr := []

/-- Around the first delimiter. -/
def splitTopic (topic : Ustr) (delimiter : Char) : Ustr × Option Ustr :=
  match topic.dropWhile (· ≠ delimiter) with
  | [] => (topic, none)
  | _ :: symbol => (topic.takeWhile (· ≠ delimiter), some symbol)

namespace TopicMap

def trackTopic (map : TopicMap) (channel : Ustr) (symbol : Option Ustr) : TopicMap :=
  map.insert channel (((map.get? channel).getD .empty).insert (symbol.getD channelLevelMarker) ())

/-- `untrack_topic`: a channel with no symbol left is removed. -/
def untrackTopic (map : TopicMap) (channel : Ustr) (symbol : Option Ustr) : TopicMap :=
  match map.get? channel with
  | none => map
  | some symbols =>
    let symbols := symbols.remove (symbol.getD channelLevelMarker)
    if symbols.isEmpty then map.remove channel else map.insert channel symbols

def isTracked (map : TopicMap) (channel : Ustr) (symbol : Option Ustr) : Bool :=
  match map.get? channel with
  | some symbols => symbols.containsKey (symbol.getD channelLevelMarker)
  | none => false

end TopicMap

/-- Without the reference counts. -/
structure SubscriptionState where
  confirmed : TopicMap
  pendingSubscribe : TopicMap
  pendingUnsubscribe : TopicMap
  delimiter : Char

namespace SubscriptionState

variable (delimiter : Char)

def new : SubscriptionState := ⟨.empty, .empty, .empty, delimiter⟩

variable (s : SubscriptionState)

def isSubscribed (channel symbol : Ustr) : Bool :=
  s.confirmed.isTracked channel (some symbol) || s.pendingSubscribe.isTracked channel (some symbol)

/-! ## User requests -/

variable (topic : Ustr)

def markSubscribe : SubscriptionState :=
  let (channel, symbol) := splitTopic topic s.delimiter
  if s.confirmed.isTracked channel symbol then s
  else
    { s with
      pendingUnsubscribe := s.pendingUnsubscribe.untrackTopic channel symbol
      pendingSubscribe := s.pendingSubscribe.trackTopic channel symbol }

/-- Whether a request has to be sent. -/
def tryMarkSubscribe : SubscriptionState × Bool :=
  let (channel, symbol) := splitTopic topic s.delimiter
  if s.confirmed.isTracked channel symbol then (s, false)
  else
    let inserted := !s.pendingSubscribe.isTracked channel symbol
    ({ s with
        pendingSubscribe := s.pendingSubscribe.trackTopic channel symbol
        pendingUnsubscribe :=
          if inserted then s.pendingUnsubscribe.untrackTopic channel symbol
          else s.pendingUnsubscribe },
      inserted)

def markUnsubscribe : SubscriptionState :=
  let (channel, symbol) := splitTopic topic s.delimiter
  { s with
    pendingUnsubscribe := s.pendingUnsubscribe.trackTopic channel symbol
    confirmed := s.confirmed.untrackTopic channel symbol
    pendingSubscribe := s.pendingSubscribe.untrackTopic channel symbol }

/-! ## Acknowledgements of the venue -/

def confirmSubscribe : SubscriptionState :=
  let (channel, symbol) := splitTopic topic s.delimiter
  -- a late confirmation while an unsubscription is pending
  if s.pendingUnsubscribe.isTracked channel symbol then s
  else
    { s with
      pendingSubscribe := s.pendingSubscribe.untrackTopic channel symbol
      confirmed := s.confirmed.trackTopic channel symbol }

def confirmUnsubscribe : SubscriptionState :=
  let (channel, symbol) := splitTopic topic s.delimiter
  -- a stale acknowledgement after the user has subscribed again
  if s.pendingUnsubscribe.isTracked channel symbol then
    { s with
      pendingUnsubscribe := s.pendingUnsubscribe.untrackTopic channel symbol
      confirmed := s.confirmed.untrackTopic channel symbol }
  else s

def markFailure : SubscriptionState :=
  let (channel, symbol) := splitTopic topic s.delimiter
  if s.pendingUnsubscribe.isTracked channel symbol then s
  else
    { s with
      confirmed := s.confirmed.untrackTopic channel symbol
      pendingSubscribe := s.pendingSubscribe.trackTopic channel symbol }

/-! ## What to subscribe again after a reconnect -/

/-- The topics of one channel. -/
def topicsOfChannel (channel : Ustr) (symbols : SymbolSet) : List Ustr :=
  (if symbols.containsKey channelLevelMarker then [channel] else []) ++
    (symbols.keys.filter (· ≠ channelLevelMarker)).map fun symbol => channel ++ delimiter :: symbol

def topicsFromMap (map : TopicMap) : List Ustr :=
  map.entries.flatMap fun (channel, symbols) => topicsOfChannel s.delimiter channel symbols

def allTopics : List Ustr :=
  s.topicsFromMap s.confirmed ++ s.topicsFromMap s.pendingSubscribe

/-! ## Sequences of requests and acknowledgements -/

/-- What reaches the tracker. -/
inductive Message where
  | markSubscribe (topic : Ustr)
  | tryMarkSubscribe (topic : Ustr)
  | markUnsubscribe (topic : Ustr)
  | confirmSubscribe (topic : Ustr)
  | confirmUnsubscribe (topic : Ustr)
  | markFailure (topic : Ustr)

/-- The tracker after a message. -/
def receive : Message → SubscriptionState
  | .markSubscribe topic => s.markSubscribe topic
  | .tryMarkSubscribe topic => (s.tryMarkSubscribe topic).1
  | .markUnsubscribe topic => s.markUnsubscribe topic
  | .confirmSubscribe topic => s.confirmSubscribe topic
  | .confirmUnsubscribe topic => s.confirmUnsubscribe topic
  | .markFailure topic => s.markFailure topic

def after (messages : List Message) : SubscriptionState :=
  messages.foldl receive (new delimiter)

end SubscriptionState

end Nautilus
