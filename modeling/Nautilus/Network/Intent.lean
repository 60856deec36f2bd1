import Nautilus.Network.Subscription

/-!
# Subscriptions follow the user's intent

Each (channel, symbol) pair goes through a machine of four standings: `Represents` says that the
three maps are such an assignment, and a message moves only its own pair, by `Standing.next`
(`represents_receive`). So a pair is in at most one map.

`follows_intent_iff`: the topics to subscribe again are those the user last asked for **iff no
confirmation or failure arrives for a pair the tracker no longer knows**, and no topic ends in a
bare delimiter. The acknowledgements look at the pending unsubscriptions only, so one that comes
after the unsubscription was confirmed brings the topic back.
-/

namespace Nautilus

open Lib List IndexMap
open Function (update update_apply update_self)

/-- A channel and a symbol. -/
abbrev Pair : Type := Ustr × Ustr

/-! ## The maps as sets of pairs -/

namespace TopicMap

def Has (map : TopicMap) (p : Pair) : Prop := map.isTracked p.1 (some p.2) = true

instance (map : TopicMap) (p : Pair) : Decidable (map.Has p) :=
  inferInstanceAs (Decidable (_ = true))

variable {map : TopicMap} {channel : Ustr} {symbol : Option Ustr} {p : Pair}

theorem has_iff : map.Has p ↔ ∃ symbols, map.get? p.1 = some symbols ∧ p.2 ∈ symbols.keys := by
  unfold Has isTracked
  split
  · rename_i symbols hget
    rw [containsKey_iff, ← mem_keys_iff]
    constructor
    · exact fun h => ⟨symbols, hget, h⟩
    rintro ⟨_, hget', h⟩
    rw [hget] at hget'
    cases hget'
    exact h
  · rename_i hget
    constructor
    · rintro ⟨⟩
    · rintro ⟨symbols, hget', -⟩
      rw [hget] at hget'
      cases hget'

@[simp] theorem not_has_empty : ¬ TopicMap.Has .empty p := by
  rw [has_iff]
  rintro ⟨_, hget, -⟩
  cases hget

theorem has_trackTopic :
    (map.trackTopic channel symbol).Has p ↔
      p = (channel, symbol.getD channelLevelMarker) ∨ map.Has p := by
  obtain ⟨c, y⟩ := p
  rw [has_iff, has_iff]
  unfold trackTopic
  simp only [get?_insert, mem_keys_iff, Prod.mk.injEq]
  by_cases hc : c = channel
  · subst hc
    simp only [if_true, true_and, Option.some.injEq, exists_eq_left']
    simp only [get?_insert]
    by_cases hy : y = symbol.getD channelLevelMarker
    · simp [hy]
    · cases hget : map.get? c <;> simp [hy]
  · simp [hc]

theorem has_untrackTopic :
    (map.untrackTopic channel symbol).Has p ↔
      map.Has p ∧ p ≠ (channel, symbol.getD channelLevelMarker) := by
  obtain ⟨c, y⟩ := p
  rw [has_iff, has_iff]
  unfold untrackTopic
  generalize symbol.getD channelLevelMarker = removed
  have hremove : ∀ symbols : SymbolSet, y ∈ (symbols.remove removed).keys ↔
      y ∈ symbols.keys ∧ y ≠ removed := by
    intro symbols
    simp only [mem_keys_iff, get?_remove]
    by_cases hy : y = removed <;> simp [hy]
  cases hget : map.get? channel with
  | none =>
    have hne : (∃ symbols, map.get? c = some symbols ∧ y ∈ symbols.keys) →
        (c, y) ≠ (channel, removed) := by
      rintro ⟨symbols, hc, -⟩ heq
      obtain ⟨rfl, -⟩ := Prod.mk.inj heq
      rw [hget] at hc
      cases hc
    exact ⟨fun h => ⟨h, hne h⟩, fun h => h.1⟩
  | some symbols =>
    dsimp only
    by_cases hc : c = channel
    · subst hc
      have hself : (∃ found, map.get? c = some found ∧ y ∈ found.keys) ↔ y ∈ symbols.keys := by
        rw [hget]
        simp
      have hpair : (c, y) ≠ (c, removed) ↔ y ≠ removed := by simp
      rw [hself, hpair, ← hremove symbols]
      split_ifs with hempty
      · rw [IndexMap.get?_remove, if_pos rfl, IndexMap.isEmpty_iff.mp hempty]
        simp
      · rw [get?_insert_self]
        simp
    · have hpair : (c, y) ≠ (channel, removed) := fun heq => hc (congrArg Prod.fst heq)
      split
      · rw [get?_remove, if_neg hc]
        exact (and_iff_left hpair).symm
      · rw [get?_insert, if_neg hc]
        exact (and_iff_left hpair).symm

end TopicMap

/-! ## Topics and pairs -/

variable (delimiter : Char)

def pairOf (topic : Ustr) : Pair :=
  ((splitTopic topic delimiter).1, (splitTopic topic delimiter).2.getD channelLevelMarker)

def label (p : Pair) : Ustr :=
  if p.2 = channelLevelMarker then p.1 else p.1 ++ delimiter :: p.2

/-- The topic ends in a bare delimiter: it is kept as the channel. -/
def Bare (topic : Ustr) : Prop := (splitTopic topic delimiter).2 = some []

instance (topic : Ustr) : Decidable (Bare delimiter topic) :=
  inferInstanceAs (Decidable (_ = _))

variable {delimiter} {channel : Ustr}

theorem splitTopic_of_not_mem (h : delimiter ∉ channel) :
    splitTopic channel delimiter = (channel, none) := by
  have hdrop : channel.dropWhile (· ≠ delimiter) = [] :=
    dropWhile_eq_nil_iff.mpr fun c hc => decide_eq_true fun heq => h (heq ▸ hc)
  unfold splitTopic
  rw [hdrop]

theorem splitTopic_append {symbol : Ustr} (h : delimiter ∉ channel) :
    splitTopic (channel ++ delimiter :: symbol) delimiter = (channel, some symbol) := by
  have hall : ∀ c ∈ channel, decide (c ≠ delimiter) = true :=
    fun c hc => decide_eq_true fun heq => h (heq ▸ hc)
  rw [splitTopic, dropWhile_append_of_pos hall, dropWhile_cons_of_neg (by simp),
    takeWhile_append_of_pos hall, takeWhile_cons_of_neg (by simp), append_nil]

theorem splitTopic_cases (delimiter : Char) (topic : Ustr) :
    (delimiter ∉ topic ∧ splitTopic topic delimiter = (topic, none)) ∨
      ∃ channel symbol, delimiter ∉ channel ∧ topic = channel ++ delimiter :: symbol ∧
        splitTopic topic delimiter = (channel, some symbol) := by
  by_cases hmem : delimiter ∈ topic
  · obtain ⟨channel, symbol, rfl, hnot⟩ := eq_append_cons_of_mem hmem
    exact .inr ⟨channel, symbol, hnot, rfl, splitTopic_append hnot⟩
  · exact .inl ⟨hmem, splitTopic_of_not_mem hmem⟩

theorem not_mem_pairOf (delimiter : Char) (topic : Ustr) :
    delimiter ∉ (pairOf delimiter topic).1 := by
  unfold pairOf
  obtain ⟨h, hsplit⟩ | ⟨_, _, h, -, hsplit⟩ := splitTopic_cases delimiter topic
  · rwa [hsplit]
  · rwa [hsplit]

theorem label_pairOf {topic : Ustr} (h : ¬ Bare delimiter topic) :
    label delimiter (pairOf delimiter topic) = topic := by
  unfold Bare at h
  unfold label pairOf
  obtain ⟨-, hsplit⟩ | ⟨_, _, -, rfl, hsplit⟩ := splitTopic_cases delimiter topic
  · rw [hsplit]
    exact if_pos rfl
  · rw [hsplit] at h ⊢
    exact if_neg fun heq => h (congrArg some heq)

theorem pairOf_label {p : Pair} (h : delimiter ∉ p.1) :
    pairOf delimiter (label delimiter p) = p ∧ ¬ Bare delimiter (label delimiter p) := by
  unfold label pairOf Bare
  split_ifs with hmarker
  · rw [splitTopic_of_not_mem h]
    exact ⟨Prod.ext rfl hmarker.symm, nofun⟩
  · rw [splitTopic_append h]
    exact ⟨rfl, fun heq => hmarker (Option.some.inj heq)⟩

namespace SubscriptionState

/-! ## The topics of the maps -/

theorem mem_topicsOfChannel {symbols : SymbolSet} {topic : Ustr} :
    topic ∈ topicsOfChannel delimiter channel symbols ↔
      ∃ y ∈ symbols.keys, label delimiter (channel, y) = topic := by
  unfold topicsOfChannel label
  simp only [mem_append, mem_map, mem_filter, decide_eq_true_eq]
  constructor
  · rintro (h | ⟨y, ⟨hy, hne⟩, rfl⟩)
    · split_ifs at h with hmarker
      · rw [mem_singleton.mp h]
        exact ⟨channelLevelMarker, mem_keys_iff.mpr (containsKey_iff.mp hmarker), if_pos rfl⟩
      · cases h
    · exact ⟨y, hy, if_neg hne⟩
  · rintro ⟨y, hy, rfl⟩
    by_cases hne : y = channelLevelMarker
    · subst hne
      left
      rw [if_pos (containsKey_iff.mpr (mem_keys_iff.mp hy)), if_pos rfl]
      exact mem_singleton_self _
    · exact .inr ⟨y, ⟨hy, hne⟩, (if_neg hne).symm⟩

theorem mem_topicsFromMap {s : SubscriptionState} {map : TopicMap} {topic : Ustr} :
    topic ∈ s.topicsFromMap map ↔ ∃ p, map.Has p ∧ label s.delimiter p = topic := by
  unfold topicsFromMap
  simp only [mem_flatMap, mem_topicsOfChannel, Prod.exists, TopicMap.has_iff, get?_eq_some_iff]
  constructor
  · rintro ⟨channel, symbols, hentry, y, hy, rfl⟩
    exact ⟨channel, y, ⟨symbols, hentry, hy⟩, rfl⟩
  · rintro ⟨channel, y, ⟨symbols, hentry, hy⟩, rfl⟩
    exact ⟨channel, symbols, hentry, y, hy, rfl⟩

theorem nodup_topicsOfChannel (delimiter : Char) (channel : Ustr) (symbols : SymbolSet) :
    (topicsOfChannel delimiter channel symbols).Nodup := by
  unfold topicsOfChannel
  refine nodup_append.mpr ⟨?_, ?_, ?_⟩
  · split
    · exact nodup_singleton _
    · exact nodup_nil
  · refine (symbols.nodup.filter _).map fun y y' heq => ?_
    exact (cons.inj (append_cancel_left heq)).2
  intro topic htopic topic' htopic' heq
  split at htopic
  · obtain ⟨y, -, rfl⟩ := mem_map.mp htopic'
    rw [mem_singleton.mp htopic] at heq
    exact absurd (congrArg length heq) (by simp)
  · cases htopic

theorem nodup_topicsFromMap {s : SubscriptionState} {map : TopicMap}
    (hclean : ∀ p, map.Has p → s.delimiter ∉ p.1) : (s.topicsFromMap map).Nodup := by
  unfold topicsFromMap
  refine nodup_flatMap.mpr ⟨fun e _ => nodup_topicsOfChannel _ _ _, ?_⟩
  refine Pairwise.imp_of_mem ?_ (pairwise_map.mp map.nodup)
  intro e e' he he' hne topic htopic htopic'
  obtain ⟨y, hy, rfl⟩ := mem_topicsOfChannel.mp htopic
  obtain ⟨y', hy', heq⟩ := mem_topicsOfChannel.mp htopic'
  have hclean' := hclean (e'.1, y') (TopicMap.has_iff.mpr ⟨e'.2, get?_eq_some_iff.mpr he', hy'⟩)
  have hclean := hclean (e.1, y) (TopicMap.has_iff.mpr ⟨e.2, get?_eq_some_iff.mpr he, hy⟩)
  have hpair := (pairOf_label hclean').1
  rw [heq, (pairOf_label hclean).1] at hpair
  exact hne (Prod.mk.inj hpair).1

end SubscriptionState

/-! ## The machine of one pair -/

inductive Standing where
  | absent
  | confirmed
  | subscribing
  | unsubscribing
deriving DecidableEq

/-- The pair is to be subscribed again after a reconnect. -/
def Standing.active : Standing → Bool
  | .confirmed | .subscribing => true
  | .absent | .unsubscribing => false

namespace SubscriptionState

namespace Message

def topic : Message → Ustr
  | markSubscribe topic | tryMarkSubscribe topic | markUnsubscribe topic
  | confirmSubscribe topic | confirmUnsubscribe topic | markFailure topic => topic

/-- What the user asks for; an acknowledgement asks for nothing. -/
def request : Message → Option Bool
  | markSubscribe _ | tryMarkSubscribe _ => some true
  | markUnsubscribe _ => some false
  | confirmSubscribe _ | confirmUnsubscribe _ | markFailure _ => none

end Message

end SubscriptionState

open SubscriptionState in
def Standing.next : Message → Standing → Standing
  | .markSubscribe _, .confirmed | .tryMarkSubscribe _, .confirmed => .confirmed
  | .markSubscribe _, _ | .tryMarkSubscribe _, _ => .subscribing
  | .markUnsubscribe _, _ => .unsubscribing
  | .confirmSubscribe _, .unsubscribing | .markFailure _, .unsubscribing => .unsubscribing
  | .confirmSubscribe _, _ => .confirmed
  | .markFailure _, _ => .subscribing
  | .confirmUnsubscribe _, .unsubscribing => .absent
  | .confirmUnsubscribe _, standing => standing

namespace Standing

variable {standing : Standing} {topic : Ustr}

theorem next_of_ne_confirmed (h : standing ≠ .confirmed) :
    next (.markSubscribe topic) standing = .subscribing ∧
      next (.tryMarkSubscribe topic) standing = .subscribing := by
  cases standing <;> first | exact ⟨rfl, rfl⟩ | exact absurd rfl h

theorem next_of_ne_unsubscribing (h : standing ≠ .unsubscribing) :
    next (.confirmSubscribe topic) standing = .confirmed ∧
      next (.markFailure topic) standing = .subscribing ∧
      next (.confirmUnsubscribe topic) standing = standing := by
  cases standing <;> first | exact ⟨rfl, rfl, rfl⟩ | exact absurd rfl h

end Standing

open Standing (next next_of_ne_confirmed next_of_ne_unsubscribing active)

namespace SubscriptionState

/-- The three maps are an assignment of standings. -/
structure Represents (s : SubscriptionState) (standing : Pair → Standing) : Prop where
  confirmed : ∀ p, s.confirmed.Has p ↔ standing p = .confirmed
  subscribing : ∀ p, s.pendingSubscribe.Has p ↔ standing p = .subscribing
  unsubscribing : ∀ p, s.pendingUnsubscribe.Has p ↔ standing p = .unsubscribing

theorem represents_new (delimiter : Char) : (new delimiter).Represents fun _ => .absent :=
  ⟨fun _ => iff_of_false TopicMap.not_has_empty nofun,
    fun _ => iff_of_false TopicMap.not_has_empty nofun,
    fun _ => iff_of_false TopicMap.not_has_empty nofun⟩

variable (s : SubscriptionState)

theorem delimiter_receive (m : Message) : (s.receive m).delimiter = s.delimiter := by
  cases m <;> simp only [receive, markSubscribe, tryMarkSubscribe, markUnsubscribe,
    confirmSubscribe, confirmUnsubscribe, markFailure] <;> split <;> rfl

section Update

variable {map : TopicMap} {standing : Pair → Standing} {a x : Standing}
  {symbol : Option Ustr} (h : ∀ p, map.Has p ↔ standing p = a)

include h

theorem has_track_update (p : Pair) :
    (map.trackTopic channel symbol).Has p ↔
      update standing (channel, symbol.getD channelLevelMarker) a p = a := by
  rw [TopicMap.has_trackTopic, h, update_apply]
  split_ifs with hp
  · exact iff_of_true (.inl hp) rfl
  · exact or_iff_right hp

theorem has_untrack_update (hx : x ≠ a) (p : Pair) :
    (map.untrackTopic channel symbol).Has p ↔
      update standing (channel, symbol.getD channelLevelMarker) x p = a := by
  rw [TopicMap.has_untrackTopic, h, update_apply]
  split_ifs with hp
  · exact iff_of_false (fun hand => hand.2 hp) hx
  · exact and_iff_left hp

theorem has_keep_update {q : Pair} (hq : standing q ≠ a)
    (hx : x ≠ a) (p : Pair) : map.Has p ↔ update standing q x p = a := by
  rw [h, update_apply]
  split
  · rename_i hp
    subst hp
    exact iff_of_false hq hx
  · exact Iff.rfl

end Update

/-- Two states to choose from by what one of the maps has. -/
theorem represents_ite {x y : SubscriptionState} {standing standing' : Pair → Standing} {q : Pair}
    {a : Standing} {c : Prop} [Decidable c] (hc : c ↔ standing q = a)
    (hthen : standing q = a → x.Represents standing')
    (helse : standing q ≠ a → y.Represents standing') :
    (if c then x else y).Represents standing' := by
  split_ifs with htracked
  · exact hthen (hc.mp htracked)
  · exact helse fun heq => htracked (hc.mpr heq)

/-- A message moves the standing of its own pair and no other. -/
theorem represents_receive {s : SubscriptionState} {standing : Pair → Standing}
    (h : s.Represents standing) (m : Message) :
    (s.receive m).Represents (update standing (pairOf s.delimiter m.topic)
      (next m (standing (pairOf s.delimiter m.topic)))) := by
  -- nothing moves where the standing stays
  have hstay : ∀ q, next m (standing q) = standing q →
      s.Represents (update standing q (next m (standing q))) := by
    intro q hq
    rw [hq, Function.update_eq_self]
    exact h
  obtain ⟨hconf, hsub, hunsub⟩ := h
  cases m <;> dsimp only [Message.topic]
  case markSubscribe topic =>
    refine represents_ite (hconf (pairOf s.delimiter topic))
      (fun hq => hstay _ (by rw [hq]; rfl)) fun hq => ?_
    rw [(next_of_ne_confirmed hq).1]
    exact ⟨has_keep_update hconf hq nofun, has_track_update hsub, has_untrack_update hunsub nofun⟩
  case tryMarkSubscribe topic =>
    simp only [receive, tryMarkSubscribe, apply_ite Prod.fst]
    refine represents_ite (hconf (pairOf s.delimiter topic))
      (fun hq => hstay _ (by rw [hq]; rfl)) fun hq => ?_
    rw [(next_of_ne_confirmed hq).2]
    refine ⟨has_keep_update hconf hq nofun, has_track_update hsub, ?_⟩
    split
    · exact has_untrack_update hunsub nofun
    · -- already requested, so no unsubscription is pending
      rename_i hinserted
      have htracked := Eq.mp (Bool.not_eq_false' _) (Bool.of_not_eq_true hinserted)
      have hpending := (hsub (pairOf s.delimiter topic)).mp htracked
      exact has_keep_update hunsub (by rw [hpending]; nofun) nofun
  case markUnsubscribe topic =>
    exact ⟨has_untrack_update hconf nofun, has_untrack_update hsub nofun, has_track_update hunsub⟩
  case confirmSubscribe topic =>
    refine represents_ite (hunsub (pairOf s.delimiter topic))
      (fun hq => hstay _ (by rw [hq]; rfl)) fun hq => ?_
    rw [(next_of_ne_unsubscribing hq).1]
    exact ⟨has_track_update hconf, has_untrack_update hsub nofun, has_keep_update hunsub hq nofun⟩
  case confirmUnsubscribe topic =>
    refine represents_ite (hunsub (pairOf s.delimiter topic)) (fun hq => ?_)
      fun hq => hstay _ (next_of_ne_unsubscribing hq).2.2
    rw [hq]
    exact ⟨has_untrack_update hconf nofun, has_keep_update hsub (by rw [hq]; nofun) nofun,
      has_untrack_update hunsub nofun⟩
  case markFailure topic =>
    refine represents_ite (hunsub (pairOf s.delimiter topic))
      (fun hq => hstay _ (by rw [hq]; rfl)) fun hq => ?_
    rw [(next_of_ne_unsubscribing hq).2.1]
    exact ⟨has_untrack_update hconf nofun, has_track_update hsub, has_keep_update hunsub hq nofun⟩

/-! ## Following the intent -/

/-- No pair is in two of the maps. -/
def AtMostOnce : Prop :=
  ∀ p, ¬ (s.confirmed.Has p ∧ s.pendingSubscribe.Has p) ∧
    ¬ (s.confirmed.Has p ∧ s.pendingUnsubscribe.Has p) ∧
    ¬ (s.pendingSubscribe.Has p ∧ s.pendingUnsubscribe.Has p)

/-- The last user request on the topic was to subscribe. -/
def wanted (topic : Ustr) (messages : List Message) : Bool :=
  messages.foldl (fun w m => if m.topic = topic then m.request.getD w else w) false

variable (delimiter)

/-- The topics to subscribe again are, without duplicates, those that are wanted. -/
def FollowsIntent (messages : List Message) : Prop :=
  (after delimiter messages).allTopics.Nodup ∧
    ∀ topic, topic ∈ (after delimiter messages).allTopics ↔ wanted topic messages = true

/-- A request for a topic that does not end in a bare delimiter (an unsubscription of such a topic
is harmless while its channel is not subscribed), or an acknowledgement for a pair in one of the
maps. -/
def Accepts : Message → Prop
  | .markSubscribe topic | .tryMarkSubscribe topic => ¬ Bare s.delimiter topic
  | .markUnsubscribe topic =>
    ¬ Bare s.delimiter topic ∨ s.isSubscribed (splitTopic topic s.delimiter).1 [] = false
  | .confirmSubscribe topic | .markFailure topic =>
    s.isSubscribed (pairOf s.delimiter topic).1 (pairOf s.delimiter topic).2 = true ∨
      s.pendingUnsubscribe.Has (pairOf s.delimiter topic)
  | .confirmUnsubscribe _ => True

section

variable {s} {standing : Pair → Standing} (h : s.Represents standing)

include h

theorem Represents.atMostOnce : s.AtMostOnce := by
  intro p
  rw [h.confirmed, h.subscribing, h.unsubscribing]
  cases standing p <;> simp

theorem Represents.isSubscribed_iff (p : Pair) :
    s.isSubscribed p.1 p.2 = true ↔ (standing p).active = true := by
  have hor : s.isSubscribed p.1 p.2 = true ↔ s.confirmed.Has p ∨ s.pendingSubscribe.Has p := by
    unfold isSubscribed
    exact Bool.or_eq_true_iff
  rw [hor, h.confirmed, h.subscribing]
  cases standing p <;> simp [active]

end

def standingAfter (messages : List Message) : Pair → Standing :=
  messages.foldl (fun standing m => update standing (pairOf delimiter m.topic)
    (next m (standing (pairOf delimiter m.topic)))) fun _ => .absent

theorem delimiter_after (messages : List Message) :
    (after delimiter messages).delimiter = delimiter := by
  induction messages using reverseRecOn with
  | nil => rfl
  | append_singleton messages m ih =>
    unfold after at ih ⊢
    rw [foldl_concat, delimiter_receive, ih]

theorem represents_after (messages : List Message) :
    (after delimiter messages).Represents (standingAfter delimiter messages) := by
  induction messages using reverseRecOn with
  | nil => exact represents_new delimiter
  | append_singleton messages m ih =>
    have hstep := represents_receive ih m
    rw [delimiter_after] at hstep
    unfold after standingAfter at hstep ⊢
    rw [foldl_concat, foldl_concat]
    exact hstep

variable {delimiter}

theorem not_mem_of_standingAfter (messages : List Message) {p : Pair}
    (h : standingAfter delimiter messages p ≠ .absent) : delimiter ∉ p.1 := by
  induction messages using reverseRecOn with
  | nil => exact absurd rfl h
  | append_singleton messages m ih =>
    unfold standingAfter at h
    rw [foldl_concat, update_apply] at h
    split at h
    · rename_i hp
      rw [hp]
      exact not_mem_pairOf delimiter m.topic
    · exact ih h

theorem mem_allTopics {messages : List Message} {topic : Ustr} :
    topic ∈ (after delimiter messages).allTopics ↔ ¬ Bare delimiter topic ∧
      (standingAfter delimiter messages (pairOf delimiter topic)).active = true := by
  have hrep := represents_after delimiter messages
  have hmem : topic ∈ (after delimiter messages).allTopics ↔
      ∃ p, (standingAfter delimiter messages p).active = true ∧ label delimiter p = topic := by
    unfold allTopics
    rw [mem_append, mem_topicsFromMap, mem_topicsFromMap, ← exists_or, delimiter_after]
    refine exists_congr fun p => ?_
    rw [hrep.confirmed, hrep.subscribing]
    cases standingAfter delimiter messages p <;> simp [active]
  rw [hmem]
  constructor
  · rintro ⟨p, hactive, rfl⟩
    have hclean : delimiter ∉ p.1 :=
      not_mem_of_standingAfter messages fun habsent => by rw [habsent] at hactive; cases hactive
    obtain ⟨hpair, hbare⟩ := pairOf_label hclean
    rw [hpair]
    exact ⟨hbare, hactive⟩
  · rintro ⟨hbare, hactive⟩
    exact ⟨_, hactive, label_pairOf hbare⟩

theorem nodup_allTopics (delimiter : Char) (messages : List Message) :
    (after delimiter messages).allTopics.Nodup := by
  have hrep := represents_after delimiter messages
  have hclean : ∀ p, (after delimiter messages).confirmed.Has p ∨
      (after delimiter messages).pendingSubscribe.Has p → delimiter ∉ p.1 := by
    intro p hp
    refine not_mem_of_standingAfter messages fun habsent => ?_
    rw [hrep.confirmed, hrep.subscribing, habsent] at hp
    rcases hp with hp | hp <;> cases hp
  have hdelimiter := delimiter_after delimiter messages
  unfold allTopics
  refine nodup_append.mpr ⟨nodup_topicsFromMap fun p hp => ?_,
    nodup_topicsFromMap fun p hp => ?_, ?_⟩
  · rw [hdelimiter]
    exact hclean p (.inl hp)
  · rw [hdelimiter]
    exact hclean p (.inr hp)
  intro topic htopic topic' htopic' heq
  obtain ⟨p, hp, rfl⟩ := mem_topicsFromMap.mp htopic
  obtain ⟨p', hp', rfl⟩ := mem_topicsFromMap.mp htopic'
  rw [hdelimiter] at heq
  have hpair := (pairOf_label (hclean p (.inl hp))).1
  rw [heq, (pairOf_label (hclean p' (.inr hp'))).1] at hpair
  subst hpair
  exact (hrep.atMostOnce p').1 ⟨hp, hp'⟩

theorem wanted_concat (topic : Ustr) (messages : List Message) (m : Message) :
    wanted topic (messages ++ [m]) =
      if m.topic = topic then m.request.getD (wanted topic messages)
      else wanted topic messages := by
  unfold wanted
  rw [foldl_concat]

section Concat

variable {messages : List Message}

/-- Two topics of one pair that do not end in a bare delimiter are the same. -/
theorem eq_of_pairOf_eq {topic topic' : Ustr} (h : pairOf delimiter topic = pairOf delimiter topic')
    (hbare : ¬ Bare delimiter topic) (hbare' : ¬ Bare delimiter topic') : topic = topic' := by
  rw [← label_pairOf hbare, h, label_pairOf hbare']

variable (h : FollowsIntent delimiter messages)

include h

theorem FollowsIntent.active_iff (topic : Ustr) :
    wanted topic messages = true ↔ ¬ Bare delimiter topic ∧
      (standingAfter delimiter messages (pairOf delimiter topic)).active = true := by
  rw [← h.2 topic, mem_allTopics]

/-- Only the topics of the message's own pair are in question. -/
theorem FollowsIntent.concat_iff (m : Message) :
    FollowsIntent delimiter (messages ++ [m]) ↔
      ∀ topic, pairOf delimiter topic = pairOf delimiter m.topic →
        ((¬ Bare delimiter topic ∧ (next m
            (standingAfter delimiter messages (pairOf delimiter m.topic))).active = true) ↔
          wanted topic (messages ++ [m]) = true) := by
  have hmem : ∀ topic, topic ∈ (after delimiter (messages ++ [m])).allTopics ↔
      ¬ Bare delimiter topic ∧ (update (standingAfter delimiter messages)
        (pairOf delimiter m.topic) (next m (standingAfter delimiter messages
          (pairOf delimiter m.topic))) (pairOf delimiter topic)).active = true := by
    intro topic
    rw [mem_allTopics, standingAfter, foldl_concat]
    rfl
  constructor
  · rintro ⟨-, hiff⟩ topic hpair
    rw [← hiff topic, hmem topic, hpair, update_self]
  intro hclass
  refine ⟨nodup_allTopics _ _, fun topic => ?_⟩
  rw [hmem topic]
  by_cases hpair : pairOf delimiter topic = pairOf delimiter m.topic
  · rw [← hclass topic hpair, hpair, update_self]
  · have hne : m.topic ≠ topic := fun heq => hpair (heq ▸ rfl)
    rw [Function.update_of_ne hpair, wanted_concat, if_neg hne, h.active_iff]

/-- A request to subscribe is followed iff its topic does not end in a bare delimiter. -/
theorem FollowsIntent.subscribe_iff {m : Message} (hrequest : m.request = some true)
    (hnext : ∀ standing, (next m standing).active = true) :
    FollowsIntent delimiter (messages ++ [m]) ↔ ¬ Bare delimiter m.topic := by
  rw [h.concat_iff]
  constructor
  · intro hclass
    have hself := hclass m.topic rfl
    rw [wanted_concat, if_pos rfl, hrequest] at hself
    exact (hself.mpr rfl).1
  · intro hbare topic hpair
    rw [wanted_concat, hrequest]
    by_cases htopic : m.topic = topic
    · subst htopic
      rw [if_pos rfl]
      exact iff_of_true ⟨hbare, hnext _⟩ rfl
    · have htopicBare : Bare delimiter topic :=
        not_not.mp fun hnot => htopic (eq_of_pairOf_eq hpair hnot hbare).symm
      rw [if_neg htopic, h.active_iff]
      exact iff_of_false (fun hand => hand.1 htopicBare) (fun hand => hand.1 htopicBare)

/-- An unsubscription is followed unless it takes a subscribed channel for its topic. -/
theorem FollowsIntent.unsubscribe_iff (topic : Ustr) :
    FollowsIntent delimiter (messages ++ [.markUnsubscribe topic]) ↔
      ¬ Bare delimiter topic ∨
        (standingAfter delimiter messages (pairOf delimiter topic)).active = false := by
  rw [h.concat_iff]
  dsimp only [Message.topic]
  have hnext : ∀ standing, (next (.markUnsubscribe topic) standing).active = false :=
    fun standing => by cases standing <;> rfl
  have hwanted : ∀ other, wanted other (messages ++ [.markUnsubscribe topic]) =
      if topic = other then false else wanted other messages :=
    fun other => wanted_concat other messages _
  have hlabel := pairOf_label (not_mem_pairOf delimiter topic)
  constructor
  · intro hclass
    by_contra hnot
    rw [not_or, not_not] at hnot
    obtain ⟨hbare, hactive⟩ := hnot
    have hne : topic ≠ label delimiter (pairOf delimiter topic) := fun heq => hlabel.2 (heq ▸ hbare)
    have hchannel := hclass (label delimiter (pairOf delimiter topic)) hlabel.1
    rw [hwanted, if_neg hne, h.active_iff, hlabel.1, hnext] at hchannel
    have hlost := hchannel.mpr ⟨hlabel.2, by simpa using hactive⟩
    cases hlost.2
  · intro hcond topic' hpair
    rw [hwanted, hnext]
    refine iff_of_false (fun hand => nomatch hand.2) ?_
    split
    · nofun
    rename_i hne
    rw [h.active_iff, hpair]
    rintro ⟨hbare', hactive⟩
    rcases hcond with hbare | hinactive
    · exact hne (eq_of_pairOf_eq hpair hbare' hbare).symm
    · rw [hinactive] at hactive
      cases hactive

/-- An acknowledgement is followed iff it does not change whether its pair is active. -/
theorem FollowsIntent.acknowledge_iff {m : Message} (hrequest : m.request = none) :
    FollowsIntent delimiter (messages ++ [m]) ↔
      ((next m (standingAfter delimiter messages (pairOf delimiter m.topic))).active = true
        ↔ (standingAfter delimiter messages (pairOf delimiter m.topic)).active = true) := by
  have hwanted : ∀ topic, wanted topic (messages ++ [m]) = wanted topic messages := by
    intro topic
    rw [wanted_concat, hrequest]
    split <;> rfl
  rw [h.concat_iff]
  constructor
  · intro hclass
    obtain ⟨hpair, hbare⟩ := pairOf_label (not_mem_pairOf delimiter m.topic)
    have hlabel := hclass _ hpair
    rw [hwanted, h.active_iff, hpair] at hlabel
    exact ⟨fun hact => (hlabel.mp ⟨hbare, hact⟩).2, fun hact => (hlabel.mpr ⟨hbare, hact⟩).2⟩
  · intro hsame topic hpair
    rw [hwanted, h.active_iff, hpair, hsame]

/-- One message: the topics stay what the user wants iff the tracker can take it. -/
theorem FollowsIntent.concat_iff_accepts (m : Message) :
    FollowsIntent delimiter (messages ++ [m]) ↔ (after delimiter messages).Accepts m := by
  have hrep := represents_after delimiter messages
  have hdelimiter := delimiter_after delimiter messages
  cases m with
  | markSubscribe topic | tryMarkSubscribe topic =>
    rw [h.subscribe_iff rfl fun standing => by cases standing <;> rfl, Accepts, hdelimiter]
    exact Iff.rfl
  | markUnsubscribe topic =>
    rw [h.unsubscribe_iff, Accepts, hdelimiter]
    refine or_congr_right' fun hbare => ?_
    rw [not_not] at hbare
    have hpair : pairOf delimiter topic = ((splitTopic topic delimiter).1, []) := by
      unfold pairOf
      rw [show (splitTopic topic delimiter).2 = some [] from hbare]
      rfl
    have hiff := hrep.isSubscribed_iff ((splitTopic topic delimiter).1, [])
    rw [hpair, ← Bool.not_eq_true, ← Bool.not_eq_true, hiff]
  | confirmUnsubscribe topic =>
    rw [h.acknowledge_iff rfl, Accepts]
    cases standingAfter delimiter messages (pairOf delimiter _) <;> simp [active, Standing.next]
  | confirmSubscribe topic | markFailure topic =>
    rw [h.acknowledge_iff rfl, Accepts, hdelimiter, hrep.isSubscribed_iff, hrep.unsubscribing]
    dsimp only [Message.topic]
    cases standingAfter delimiter messages (pairOf delimiter topic) <;> simp [active, Standing.next]

end Concat

/-- **Subscriptions follow the user's intent** over every sequence of requests and acknowledgements:
a pair is never in two maps, and the topics to subscribe again are always those last asked for iff
the tracker can take every message. -/
theorem follows_intent_iff (delimiter : Char) (messages : List Message) :
    (∀ seen, seen <+: messages → (after delimiter seen).AtMostOnce) ∧
      ((∀ seen, seen <+: messages → FollowsIntent delimiter seen) ↔
        ∀ seen m, seen ++ [m] <+: messages → (after delimiter seen).Accepts m) := by
  refine ⟨fun seen _ => (represents_after delimiter seen).atMostOnce, ?_⟩
  induction messages using reverseRecOn with
  | nil =>
    refine iff_of_true ?_ ?_
    · intro seen hseen
      rw [prefix_nil.mp hseen]
      exact ⟨nodup_nil, fun topic => iff_of_false not_mem_nil Bool.false_ne_true⟩
    · intro seen m hseen
      exact absurd (prefix_nil.mp hseen) (by simp)
  | append_singleton messages last ih =>
    constructor
    · intro hall seen m hseen
      have hbefore : seen <+: messages ++ [last] := (prefix_append seen [m]).trans hseen
      exact ((hall seen hbefore).concat_iff_accepts m).mp (hall _ hseen)
    intro hall seen hseen
    have hbefore := ih.mpr fun seen' m hseen' =>
      hall seen' m (hseen'.trans (prefix_append messages [last]))
    rcases prefix_concat_iff.mp hseen with rfl | hseen
    · have hmessages := hbefore messages prefix_rfl
      exact (hmessages.concat_iff_accepts last).mpr (hall messages last prefix_rfl)
    · exact hbefore seen hseen

/-- A confirmation delivered again, after the unsubscription was confirmed, brings the topic back.
-/
theorem not_follows_intent_late :
    (after '.' [.markSubscribe ['t'], .confirmSubscribe ['t'], .markUnsubscribe ['t'],
        .confirmUnsubscribe ['t'], .confirmSubscribe ['t']]).allTopics = [['t']] ∧
      wanted ['t'] [.markSubscribe ['t'], .confirmSubscribe ['t'], .markUnsubscribe ['t'],
        .confirmUnsubscribe ['t'], .confirmSubscribe ['t']] = false := by
  decide +kernel

end SubscriptionState

end Nautilus
