import Nautilus.Bus.Routing
import Nautilus.Lib.Positions
import Nautilus.Lib.Run
import Nautilus.Lib.StableSort

/-!
# Both routes deliver the same

`Live`: the subscriptions made and not withdrawn. A message goes to those whose pattern matches, by
priority, pattern and handler id. No two live ones share both pattern and handler id, so that order
leaves no choice: a list sorted once equals one kept sorted while it is patched.

`Coherent`: the router remembers the indices it would find, the bus the list it would sort.
-/

namespace Nautilus

open Lib List Bool IndexMap

variable {C : Type}

/-! ## The order of subscriptions -/

namespace Subscription

instance : Std.TransCmp (cmp : Subscription C → Subscription C → Ordering) :=
  have : Std.TransCmp fun a b : Subscription C => compare b.priority a.priority :=
    { eq_swap := Std.OrientedCmp.eq_swap
      isLE_trans := fun h h' => Std.TransCmp.isLE_trans h' h }
  inferInstanceAs (Std.TransCmp (compareLex (fun a b : Subscription C =>
    compare b.priority a.priority) (compareLex (compareOn pattern) (compareOn handlerId))))

instance : IsTrans (Subscription C) fun a b => (a.cmp b).isLE = true :=
  ⟨fun _ _ _ => Std.TransCmp.isLE_trans⟩

instance : Std.Total fun a b : Subscription C => (a.cmp b).isLE = true :=
  ⟨fun a b => by
    have hswap : b.cmp a = (a.cmp b).swap := Std.OrientedCmp.eq_swap
    rw [hswap]
    cases a.cmp b <;> simp⟩

theorem eq_iff {a b : Subscription C} :
    a.eq b = true ↔ a.pattern = b.pattern ∧ a.handlerId = b.handlerId := by
  simp [eq, isFor]

theorem eq_of_cmp {a b : Subscription C} (h : a.cmp b = .eq) : a.eq b = true := by
  obtain ⟨-, hrest⟩ := Ordering.then_eq_eq.mp h
  obtain ⟨hpattern, hid⟩ := Ordering.then_eq_eq.mp hrest
  exact eq_iff.mpr ⟨Std.LawfulEqCmp.eq_of_compare hpattern, Std.LawfulEqCmp.eq_of_compare hid⟩

/-- No two subscriptions have both pattern and handler id in common. -/
def Distinct (subs : List (Subscription C)) : Prop := subs.Pairwise fun a b => a.eq b = false

variable {subs subs' : List (Subscription C)} {a b : Subscription C}

theorem eq_swap : a.eq b = b.eq a := by
  rw [Bool.eq_iff_iff, eq_iff, eq_iff]
  exact ⟨fun ⟨h, h'⟩ => ⟨h.symm, h'.symm⟩, fun ⟨h, h'⟩ => ⟨h.symm, h'.symm⟩⟩

instance : Std.Symm fun a b : Subscription C => a.eq b = false := ⟨fun _ _ h => eq_swap.trans h⟩

theorem Distinct.perm (h : Distinct subs) (hperm : subs.Perm subs') : Distinct subs' :=
  (Perm.pairwise_iff (fun hab => eq_swap.trans hab) hperm).mp h

theorem Distinct.eq_of_mem (h : Distinct subs) (ha : a ∈ subs) (hb : b ∈ subs)
    (hab : a.eq b = true) : a = b := by
  by_contra hne
  rw [Pairwise.forall h ha hb hne] at hab
  nomatch hab

theorem sort_perm (subs : List (Subscription C)) : (sort subs).Perm subs :=
  perm_insertionSort _ subs

theorem pairwise_sort (subs : List (Subscription C)) :
    (sort subs).Pairwise fun a b => (a.cmp b).isLE = true :=
  pairwise_insertionSort _ subs

/-- Distinct subscriptions have one order. -/
theorem sort_eq_of_perm (h : Distinct subs) (hperm : subs.Perm subs') : sort subs = sort subs' := by
  refine (((sort_perm subs).trans hperm).trans (sort_perm subs').symm).eq_of_pairwise
    (fun a b ha hb hab hba => ?_) (pairwise_sort subs) (pairwise_sort subs')
  have ha : a ∈ subs := (sort_perm subs).mem_iff.mp ha
  have hb : b ∈ subs := hperm.mem_iff.mpr ((sort_perm subs').mem_iff.mp hb)
  refine h.eq_of_mem ha hb (eq_of_cmp ?_)
  have hswap : b.cmp a = (a.cmp b).swap := Std.OrientedCmp.eq_swap
  cases hcmp : a.cmp b <;> simp_all

theorem pairwise_sort_lt (h : Distinct subs) : (sort subs).Pairwise fun a b => a.cmp b = .lt := by
  have hdistinct : Distinct (sort subs) := h.perm (sort_perm subs).symm
  refine ((pairwise_sort subs).and hdistinct).imp fun ⟨hle, hne⟩ => ?_
  cases hcmp : Subscription.cmp _ _ with
  | lt => rfl
  | eq =>
    rw [eq_of_cmp hcmp] at hne
    nomatch hne
  | gt =>
    rw [hcmp] at hle
    nomatch hle

theorem filter_sort (p : Subscription C → Bool) (subs : List (Subscription C)) :
    (sort subs).filter p = sort (subs.filter p) :=
  filter_insertionSort p subs

theorem Distinct.filter (h : Distinct subs) (p : Subscription C → Bool) :
    Distinct (subs.filter p) :=
  Pairwise.sublist filter_sublist h

theorem Distinct.concat (h : Distinct subs) (hnew : (subs.any fun s => s.eq a) = false) :
    Distinct (subs ++ [a]) := by
  refine pairwise_append.mpr ⟨h, pairwise_singleton _ _, fun s hs b hb => ?_⟩
  rw [mem_singleton.mp hb]
  simpa using any_eq_false.mp hnew s hs

theorem Distinct.pairwise_isFor (h : Distinct subs) (pattern : Pattern) (handlerId : String) :
    subs.Pairwise fun a b => ¬ (a.isFor pattern handlerId = true ∧
      b.isFor pattern handlerId = true) := by
  refine h.imp fun {a b} hne ⟨ha, hb⟩ => ?_
  simp only [isFor, and_eq_true, beq_iff_eq] at ha hb
  rw [eq_iff.mpr ⟨ha.1.trans hb.1.symm, ha.2.trans hb.2.symm⟩] at hne
  nomatch hne

end Subscription

/-! ## What is live -/

open Subscription

/-- The live subscriptions, in the order they were made. -/
abbrev Live (C : Type) := List (Subscription C)

namespace Live

variable (live : Live C)

/-- A repeated subscription of a live pair is ignored. -/
def subscribe (pattern : Pattern) (handler : Handler C) (priority : Nat) : Live C :=
  let sub := Subscription.new pattern handler (some priority)
  if live.any fun s => s.eq sub then live else live ++ [sub]

def unsubscribe (pattern : Pattern) (handler : Handler C) : Live C :=
  live.filter fun s => !s.isFor pattern handler.id

def matching (topic : Topic) : List (Subscription C) :=
  live.filter fun s => isMatchingBacktracking topic s.pattern

theorem matching_concat (sub : Subscription C) (topic : Topic) :
    Live.matching (live ++ [sub]) topic =
      if isMatchingBacktracking topic sub.pattern then live.matching topic ++ [sub]
      else live.matching topic := by
  rw [Live.matching, filter_append, filter_singleton]
  cases isMatchingBacktracking topic sub.pattern <;> simp [Live.matching]

end Live

inductive BusOp (C : Type) where
  | subscribe (pattern : Pattern) (handler : Handler C) (priority : Nat)
  | unsubscribe (pattern : Pattern) (handler : Handler C)
  | publish (topic : Topic) (iteration : Iteration C)

def Live.apply (live : Live C) : BusOp C → Live C
  | .subscribe pattern handler priority => Live.subscribe live pattern handler priority
  | .unsubscribe pattern handler => Live.unsubscribe live pattern handler
  | .publish _ _ => live

def TopicRouter.apply (router : TopicRouter C) : BusOp C → Option (TopicRouter C)
  | .subscribe pattern handler priority => some (router.subscribe pattern handler priority)
  | .unsubscribe pattern handler => some (router.unsubscribe pattern handler)
  | .publish topic _ => (router.publish topic).map Prod.fst

def MessageBus.apply (bus : MessageBus C) : BusOp C → MessageBus C
  | .subscribe pattern handler priority => bus.subscribeAny pattern handler (some priority)
  | .unsubscribe pattern handler => bus.unsubscribeAny pattern handler
  | .publish topic iteration => (bus.publishAny iteration topic).1

/-! ## The typed router -/

/-- The router holds the live subscriptions sorted, and remembers what it would find. -/
structure TopicRouter.Coherent (live : Live C) (router : TopicRouter C) : Prop where
  subscriptions_eq : router.subscriptions = sort live
  cache_eq : ∀ topic indices, router.topicCache.get? topic = some indices →
    indices = router.findMatches topic

namespace TopicRouter

variable {live : Live C} {router : TopicRouter C}

/-- Remembered or not, the indices of a topic are the ones to be found. -/
theorem Coherent.matchingIndices (h : Coherent live router) (topic : Topic) :
    (router.matchingIndices topic).2 = router.findMatches topic ∧
      Coherent live (router.matchingIndices topic).1 := by
  rw [TopicRouter.matchingIndices]
  split
  · rename_i indices hget
    exact ⟨h.cache_eq topic indices hget, h⟩
  refine ⟨rfl, h.subscriptions_eq, fun topic' indices hget => ?_⟩
  rw [get?_insert] at hget
  split at hget
  · rename_i heq
    cases hget
    rw [heq]
    rfl
  · exact h.cache_eq topic' indices hget

theorem subscriptions_matchingIndices (router : TopicRouter C) (topic : Topic) :
    (router.matchingIndices topic).1.subscriptions = router.subscriptions := by
  rw [TopicRouter.matchingIndices]
  split <;> rfl

section

variable (h : Coherent live router)

include h

/-- Publishing reaches the matching live subscriptions in their order. -/
theorem Coherent.publish (topic : Topic) :
    ∃ router', router.publish topic =
        some (router', (sort (live.matching topic)).map Subscription.handler) ∧
      Coherent live router' := by
  obtain ⟨hindices, hcoherent⟩ := h.matchingIndices topic
  refine ⟨_, ?_, hcoherent⟩
  have hcalled := mapM_getElem_filterMap (fun s => isMatchingBacktracking topic s.pattern)
    Subscription.handler [] router.subscriptions
  rw [nil_append, length_nil] at hcalled
  rw [TopicRouter.publish, subscriptions_matchingIndices, hindices, findMatches, hcalled,
    h.subscriptions_eq, filter_sort]
  rfl

theorem Coherent.length_findMatches (topic : Topic) :
    (router.findMatches topic).length = (live.matching topic).length := by
  have hlen := length_filterMap_zipIdx (fun s => isMatchingBacktracking topic s.pattern)
    router.subscriptions 0
  rw [h.subscriptions_eq, filter_sort] at hlen
  rw [findMatches, h.subscriptions_eq, hlen]
  exact (sort_perm _).length_eq

theorem Coherent.subscriberCount (topic : Topic) :
    router.subscriberCount topic = (live.matching topic).length := by
  rw [TopicRouter.subscriberCount]
  split
  · rename_i indices hget
    rw [h.cache_eq topic indices hget, h.length_findMatches]
  · exact h.length_findMatches topic

theorem Coherent.hasSubscribers (topic : Topic) :
    router.hasSubscribers topic = !(live.matching topic).isEmpty := by
  have hempty : (router.findMatches topic).isEmpty = (live.matching topic).isEmpty := by
    rw [Bool.eq_iff_iff, isEmpty_iff_length_eq_zero, isEmpty_iff_length_eq_zero,
      h.length_findMatches]
  rw [TopicRouter.hasSubscribers]
  split
  · rename_i indices hget
    rw [h.cache_eq topic indices hget, hempty]
  · rw [hempty]

theorem Coherent.index_lt {topic : Topic} {indices : List Nat}
    (hget : router.topicCache.get? topic = some indices) {i : Nat} (hi : i ∈ indices) :
    i < router.subscriptions.length := by
  rw [h.cache_eq topic indices hget] at hi
  exact lt_of_mem_filterMap_zipIdx
    (p := fun s : Subscription C => isMatchingBacktracking topic s.pattern) hi

theorem Coherent.subscribe (hdistinct : Distinct live)
    (pattern : Pattern) (handler : Handler C) (priority : Nat) :
    Coherent (live.subscribe pattern handler priority)
      (router.subscribe pattern handler priority) := by
  rw [Live.subscribe, TopicRouter.subscribe, h.subscriptions_eq, (sort_perm live).any_eq]
  split
  · exact h
  rename_i hnew
  refine ⟨?_, nofun⟩
  have hperm : (sort live ++ [Subscription.new pattern handler (some priority)]).Perm
      (live ++ [Subscription.new pattern handler (some priority)]) :=
    (sort_perm live).append_right _
  exact sort_eq_of_perm ((hdistinct.concat (eq_false_iff.mpr hnew)).perm hperm.symm) hperm

theorem Coherent.unsubscribe (hdistinct : Distinct live) (pattern : Pattern) (handler : Handler C) :
    Coherent (live.unsubscribe pattern handler) (router.unsubscribe pattern handler) := by
  have hone := (hdistinct.perm (sort_perm live).symm).pairwise_isFor pattern handler.id
  have hfilter : (sort live).filter (fun s => !s.isFor pattern handler.id) =
      sort (live.unsubscribe pattern handler) := filter_sort _ live
  rw [TopicRouter.unsubscribe]
  split
  · rename_i hfind
    refine ⟨?_, nofun⟩
    rw [h.subscriptions_eq] at hfind ⊢
    rw [eraseIdx_findIdx?_eq_filter hone hfind, hfilter]
  · -- nothing to withdraw: the live subscriptions stay as they are
    rename_i hfind
    refine ⟨?_, h.cache_eq⟩
    rw [h.subscriptions_eq] at hfind ⊢
    have hnone := findIdx?_eq_none_iff.mp hfind
    rw [← hfilter, filter_eq_self.mpr fun s hs => by rw [hnone s hs]; rfl]

end

end TopicRouter

/-! ## The bus -/

/-- The bus holds the live subscriptions, and remembers what it would sort. -/
structure MessageBus.Coherent (live : Live C) (bus : MessageBus C) : Prop where
  subscriptions_eq : bus.subscriptions = live
  topics_eq : ∀ topic subs, bus.topics.get? topic = some subs → subs = sort (live.matching topic)

namespace MessageBus

variable {live : Live C} {bus : MessageBus C}

section

variable (h : Coherent live bus)

include h

theorem Coherent.findTopicMatches_perm (iteration : Iteration C)
    (topic : Topic) : (bus.findTopicMatches iteration topic).Perm (live.matching topic) := by
  rw [findTopicMatches, h.subscriptions_eq]
  exact (iteration.perm live).filter _

/-- Whatever order the set is iterated in, publishing reaches the matching live subscriptions in
theirs. -/
theorem Coherent.publishAny (hdistinct : Distinct live) (iteration : Iteration C) (topic : Topic) :
    (bus.publishAny iteration topic).2 = (sort (live.matching topic)).map Subscription.handler ∧
      Coherent live (bus.publishAny iteration topic).1 := by
  rw [MessageBus.publishAny]
  split
  · rename_i subs hget
    rw [h.topics_eq topic subs hget]
    exact ⟨rfl, h⟩
  have hperm := h.findTopicMatches_perm iteration topic
  have hsort : sort (bus.findTopicMatches iteration topic) = sort (live.matching topic) :=
    sort_eq_of_perm ((hdistinct.filter _).perm hperm.symm) hperm
  refine ⟨by rw [hsort], h.subscriptions_eq, fun topic' subs hget => ?_⟩
  rw [get?_insert] at hget
  split at hget
  · rename_i heq
    cases hget
    rw [hsort, heq]
  · exact h.topics_eq topic' subs hget

theorem Coherent.subscriptionsCount (iteration : Iteration C)
    (topic : Topic) : bus.subscriptionsCount iteration topic = (live.matching topic).length := by
  rw [MessageBus.subscriptionsCount]
  split
  · rename_i subs hget
    rw [h.topics_eq topic subs hget]
    exact (sort_perm _).length_eq
  · exact (h.findTopicMatches_perm iteration topic).length_eq

theorem Coherent.hasSubscribers (iteration : Iteration C)
    (topic : Topic) : bus.hasSubscribers iteration topic = !(live.matching topic).isEmpty := by
  rw [MessageBus.hasSubscribers, h.subscriptionsCount]
  cases live.matching topic <;> simp

theorem Coherent.subscribeAny (hdistinct : Distinct live)
    (pattern : Pattern) (handler : Handler C) (priority : Nat) :
    Coherent (live.subscribe pattern handler priority)
      (bus.subscribeAny pattern handler (some priority)) := by
  rw [Live.subscribe, MessageBus.subscribeAny, h.subscriptions_eq]
  split
  · exact h
  rename_i hnew
  have hdistinct' := hdistinct.concat (eq_false_iff.mpr hnew)
  refine ⟨rfl, fun topic subs hget => ?_⟩
  rw [get?_filterMap] at hget
  obtain ⟨old, hold, hsubs⟩ := Option.bind_eq_some_iff.mp hget
  obtain rfl := h.topics_eq topic old hold
  cases hsubs
  -- the new subscription is sorted into the copies of the topics it matches
  rw [Live.matching_concat]
  split
  · rename_i hmatch
    have hperm : (sort (live.matching topic) ++
        [Subscription.new pattern handler (some priority)]).Perm
        (live.matching topic ++ [Subscription.new pattern handler (some priority)]) :=
      (sort_perm _).append_right _
    have hsub : Distinct (Live.matching _ topic) := hdistinct'.filter _
    rw [Live.matching_concat, if_pos hmatch] at hsub
    exact sort_eq_of_perm (hsub.perm hperm.symm) hperm
  · rfl

theorem Coherent.unsubscribeAny (pattern : Pattern) (handler : Handler C) :
    Coherent (live.unsubscribe pattern handler) (bus.unsubscribeAny pattern handler) := by
  refine ⟨congrArg (filter _) h.subscriptions_eq, fun topic subs hget => ?_⟩
  rw [MessageBus.unsubscribeAny, get?_filterMap] at hget
  obtain ⟨old, hold, hsubs⟩ := Option.bind_eq_some_iff.mp hget
  obtain rfl := h.topics_eq topic old hold
  cases hsubs
  rw [filter_sort, Live.matching, Live.matching, Live.unsubscribe, filter_filter, filter_filter]
  simp [Bool.and_comm]

end

end MessageBus

/-! ## Runs -/

/-- What holds after any calls. -/
structure Coherent (live : Live C) (router : TopicRouter C) (bus : MessageBus C) : Prop where
  distinct : Distinct live
  router : TopicRouter.Coherent live router
  bus : MessageBus.Coherent live bus

variable {live : Live C} {router : TopicRouter C} {bus : MessageBus C}

theorem Coherent.apply (h : Coherent live router bus) (op : BusOp C) :
    ∃ router', router.apply op = some router' ∧
      Coherent (live.apply op) router' (bus.apply op) := by
  cases op with
  | subscribe pattern handler priority =>
    refine ⟨_, rfl, ?_, h.router.subscribe h.distinct pattern handler priority,
      h.bus.subscribeAny h.distinct pattern handler priority⟩
    rw [Live.apply, Live.subscribe]
    split
    · exact h.distinct
    · rename_i hnew
      exact h.distinct.concat (eq_false_iff.mpr hnew)
  | unsubscribe pattern handler =>
    exact ⟨_, rfl, h.distinct.filter _, h.router.unsubscribe h.distinct pattern handler,
      h.bus.unsubscribeAny pattern handler⟩
  | publish topic iteration =>
    obtain ⟨router', hrun, hrouter⟩ := h.router.publish topic
    refine ⟨router', ?_, h.distinct, hrouter, (h.bus.publishAny h.distinct iteration topic).2⟩
    rw [TopicRouter.apply, hrun]
    rfl

/-- The run lemma: the router completes every run, coherent with the bus. -/
theorem coherent_of_runs (h : Coherent live router bus) (ops : List (BusOp C)) :
    ∃ router', runs TopicRouter.apply router ops = some router' ∧
      Coherent (ops.foldl Live.apply live) router' (ops.foldl MessageBus.apply bus) := by
  induction ops generalizing live router bus with
  | nil => exact ⟨router, rfl, h⟩
  | cons op ops ih =>
    obtain ⟨_, hrun, h₁⟩ := h.apply op
    obtain ⟨router', hrest, h'⟩ := ih h₁
    refine ⟨router', ?_, h'⟩
    rw [runs_cons, hrun]
    exact hrest

theorem coherent_new : Coherent ([] : Live C) .new .new where
  distinct := .nil
  router := ⟨rfl, nofun⟩
  bus := ⟨rfl, nofun⟩

/-- **Both routes deliver the same.** After any calls, publishing a topic calls, on router and bus,
the handlers of exactly the live subscriptions that match it, by priority, pattern and handler id;
the queries count those, and every remembered index is in range. -/
theorem routing_exact (ops : List (BusOp C)) (topic : Topic) (iteration : Iteration C) :
    ∃ (router : TopicRouter C) (subs : List (Subscription C)),
      runs TopicRouter.apply .new ops = some router ∧
      subs.Perm ((ops.foldl Live.apply []).matching topic) ∧
      (subs.Pairwise fun a b => a.cmp b = .lt) ∧
      (router.publish topic).map Prod.snd = some (subs.map Subscription.handler) ∧
      ((ops.foldl MessageBus.apply .new).publishAny iteration topic).2 =
        subs.map Subscription.handler ∧
      router.subscriberCount topic = subs.length ∧
      router.hasSubscribers topic = !subs.isEmpty ∧
      (ops.foldl MessageBus.apply .new).subscriptionsCount iteration topic = subs.length ∧
      (ops.foldl MessageBus.apply .new).hasSubscribers iteration topic = !subs.isEmpty ∧
      ∀ topic' indices, router.topicCache.get? topic' = some indices →
        ∀ i ∈ indices, i < router.subscriptions.length := by
  obtain ⟨router, hrun, h⟩ := coherent_of_runs coherent_new ops
  generalize ops.foldl Live.apply [] = live at h ⊢
  have hperm := sort_perm (live.matching topic)
  have hempty : (sort (live.matching topic)).isEmpty = (live.matching topic).isEmpty := by
    rw [Bool.eq_iff_iff, isEmpty_iff_length_eq_zero, isEmpty_iff_length_eq_zero, hperm.length_eq]
  refine ⟨router, sort (live.matching topic), hrun, hperm,
    pairwise_sort_lt (h.distinct.filter _), ?_, (h.bus.publishAny h.distinct iteration topic).1,
    ?_, ?_, ?_, ?_, fun _ _ hget i hi => h.router.index_lt hget hi⟩
  · obtain ⟨_, hpublish, -⟩ := h.router.publish topic
    rw [hpublish]
    rfl
  · rw [h.router.subscriberCount, hperm.length_eq]
  · rw [h.router.hasSubscribers, hempty]
  · rw [h.bus.subscriptionsCount, hperm.length_eq]
  · rw [h.bus.hasSubscribers, hempty]

end Nautilus
