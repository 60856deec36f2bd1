import Nautilus.Orders.Step

/-!
# The pending phase

While a request to modify or to cancel is outstanding the order is `PendingUpdate` or
`PendingCancel`, and `previous_status` is where it returns to if the request is rejected. Almost
every event writes `previous_status`, even when it is then refused, but none while the order is
pending.

`Remembers`, that a pending order has a working status to return to, holds in every reachable order
(`remembers_of_runs`); the results on quantities and closing times rest on it as well.
-/

namespace Nautilus

open Lib OrderCore OrderAny OrderStatus

/-- A pending order knows a working status to return to. -/
def Remembers (c : OrderCore) : Prop :=
  c.status.isPending = true → ∃ p, c.previousStatus = some p ∧ p.isWorking = true

theorem remembers_of_not_pending {c : OrderCore} (h : c.status.isPending = false) : Remembers c :=
  fun hp => nomatch h.symm.trans hp

/-- The status after an accepted update of a remembering order is neither pending nor closed. -/
theorem Remembers.statusAfterUpdate {c : OrderCore} {update : OrderUpdated} (h : Remembers c)
    (hrow : c.status.transition (.updated update) = .ok c.status) :
    c.statusAfterUpdate.isPending = false ∧ c.statusAfterUpdate.isClosed = false := by
  unfold OrderCore.statusAfterUpdate
  by_cases hs : c.status = .pendingUpdate
  · obtain ⟨p, hp, hw⟩ := h (by rw [hs]; rfl)
    rw [if_pos hs, hp]
    exact ⟨isPending_of_isWorking hw, isClosed_of_isWorking hw⟩
  · rw [if_neg hs]
    obtain ⟨-, hclosed, hcancel⟩ := transition_updated hrow
    refine ⟨?_, hclosed⟩
    cases hst : c.status <;> first | rfl | exact absurd hst hs | exact absurd hst hcancel

theorem Restored.working {c c' : OrderCore} {event : OrderEventAny} {p : OrderStatus}
    (hm : Restored c event p c') (hr : Remembers c) :
    p.isWorking = true := by
  obtain ⟨q, hq, hw⟩ := hr hm.pending
  cases hm.previous.symm.trans hq
  exact hw

section

variable [Build] {c c' : OrderCore} {event : OrderEventAny} {r : Except OrderError Unit}

theorem FilledBy.not_pending {fill : OrderFilled} (h : FilledBy c fill c') :
    c'.status.isPending = false := by
  rw [h.status]
  split <;> rfl

/-- What an event does to a pending order that stays pending: it keeps the status to
return to. -/
theorem Effect.keeps_previous (he : Effect c event c' r) (hr : Remembers c)
    (hp : c.status.isPending = true) (hp' : c'.status.isPending = true) :
    c'.previousStatus = c.previousStatus := by
  cases he with
  | refused e h =>
    obtain rfl | ⟨hn, -⟩ := h.core
    · rfl
    · nomatch hn.symm.trans hp
  | moved n h =>
    rw [h.previousStatus, saved, if_pos hp]
  | restored p h =>
    rw [h.previousStatus, h.previous]
  | requantified update hev h =>
    rw [h.status, (hr.statusAfterUpdate h.row).1] at hp'
    nomatch hp'
  | filled fill hev h =>
    nomatch h.not_pending.symm.trans hp'

/-- What an event does that makes a working order pending: it saves the status. -/
theorem Effect.saves_status (he : Effect c event c' r) (hp : c.status.isPending = false)
    (hp' : c'.status.isPending = true) :
    c'.previousStatus = some c.status ∧ c.status.isWorking = true := by
  cases he with
  | refused e h =>
    have hsame : c'.status = c.status := by
      obtain rfl | ⟨-, rfl⟩ := h.core <;> rfl
    rw [hsame] at hp'
    nomatch hp.symm.trans hp'
  | moved n h =>
    rw [h.status] at hp'
    refine ⟨by rw [h.previousStatus, saved, hp]; rfl, ?_⟩
    exact (transition_pending h.target hp' h.row).resolve_left
      fun hpend => nomatch hp.symm.trans hpend
  | restored p h =>
    nomatch hp.symm.trans h.pending
  | requantified update hev h =>
    rw [h.status, ((remembers_of_not_pending hp).statusAfterUpdate h.row).1] at hp'
    nomatch hp'
  | filled fill hev h =>
    nomatch h.not_pending.symm.trans hp'

/-- **Step lemma**: every event keeps a status to return to. -/
theorem Remembers.effect (hr : Remembers c) (he : Effect c event c' r) : Remembers c' := by
  intro hp'
  cases hp : c.status.isPending with
  | true =>
    rw [he.keeps_previous hr hp hp']
    exact hr hp
  | false =>
    obtain ⟨hprev, hw⟩ := he.saves_status hp hp'
    exact ⟨c.status, hprev, hw⟩

theorem OrderCore.new_status {init : OrderInitialized} (h : new init = some c) :
    c.status = .initialized := by
  obtain ⟨_, -, rfl⟩ := Option.map_eq_some_iff.mp h
  rfl

end

section

variable [Build] {o₀ o : OrderAny} {events : List OrderEventAny} {init : OrderInitialized}

theorem remembers_step (o : OrderAny) (event : OrderEventAny) (o' : OrderAny)
    (hr : Remembers o.core) (h : o.step event = some o') : Remembers o'.core := by
  obtain ⟨r, he⟩ := step_effect h
  exact hr.effect he

section

variable (h₀ : (tryFrom init).run = some (.ok o₀))
  (hrun : runs step o₀ events = some o)

include h₀ hrun

/-- **Run lemma**: every reachable order remembers. -/
theorem remembers_of_runs : Remembers o.core := by
  obtain ⟨_, hnew, -⟩ := new_of_tryFrom h₀
  have hstart : Remembers o₀.core := remembers_of_not_pending (by rw [new_status hnew]; rfl)
  exact (runs_inv remembers_step hstart hrun :)

/-- A pending order has saved the status it had when it became pending. -/
theorem entered_pending (hp : o.core.status.isPending = true) :
    ∃ before event,
      Entered step (fun o => o.core.status.isPending = true) o₀ events before event ∧
      o.core.previousStatus = some before.core.status ∧ before.core.status.isWorking = true := by
  obtain ⟨_, hnew, -⟩ := new_of_tryFrom h₀
  have hinit : o₀.core.status.isPending = false := by rw [new_status hnew]; rfl
  refine entered_of_runs (fun o => Remembers o.core) (fun o => o.core.status.isPending = true)
    (fun before _ o =>
      o.core.previousStatus = some before.core.status ∧ before.core.status.isWorking = true)
    remembers_step ?_ ?_ (remembers_of_not_pending hinit) (ne_true_of_eq_false hinit) hrun hp
  · intro o event o' hr hn hstep hp'
    obtain ⟨r, he⟩ := step_effect hstep
    exact he.saves_status (eq_false_of_ne_true hn) hp'
  · intro before event o event' o' hr hb hp hstep hp'
    obtain ⟨r, he⟩ := step_effect hstep
    rw [he.keeps_previous hr hp hp']
    exact hb

end

/-! ## The answers -/

/-- The events that end the pending phase by restoring a status. -/
def OrderEventAny.isAnswer : OrderEventAny → Bool
  | .modifyRejected _ | .cancelRejected _ | .updated _ => true
  | _ => false

/-- The answers the pending order `o` takes put it back to `s`, and it takes the answers to its
request. An update may still fail the assertions of the type, but is never refused. -/
structure Returns (o : OrderAny) (s : OrderStatus) : Prop where
  status : ∀ event o', event.isAnswer = true → o.apply event = some (o', .ok ()) →
    o'.core.status = s
  modifyRejected : o.core.status = .pendingUpdate → ∀ e, o.core.matchesIds (.modifyRejected e) →
    ∃ o', o.apply (.modifyRejected e) = some (o', .ok ())
  cancelRejected : o.core.status = .pendingCancel → ∀ e, o.core.matchesIds (.cancelRejected e) →
    ∃ o', o.apply (.cancelRejected e) = some (o', .ok ())
  updated : o.core.status = .pendingUpdate → ∀ u o' r, o.core.matchesIds (.updated u) →
    o.apply (.updated u) = some (o', r) → r = .ok ()

variable {s : OrderStatus} {event : OrderEventAny}

/-- A rejected request is always taken when there is a status to restore. -/
theorem apply_restoring (hr : event.isRestoring = true) (hm : o.core.matchesIds event)
    (hn : o.core.newStatus event = .ok o.core.status) (hprev : o.core.previousStatus = some s) :
    ∃ o', o.apply event = some (o', .ok ()) := by
  obtain ⟨τ, impl, _, self, rfl, hcore, -, happly⟩ := o.exists_impl
  rw [hcore] at hm hn hprev
  obtain ⟨hnone, -⟩ | ⟨p, -, hrestore⟩ := (impl.core self).restorePrevious_cases
  · nomatch hnone.symm.trans hprev
  have happlied := apply_of_newStatus hm hn
  rw [savePrevious_of_keeps (keepsPrevious_of_restoring hr), handle_restoring hr] at happlied
  have hok : (impl.core self).apply event =
      some ({ impl.core self with status := p }.record event, .ok ()) := by
    rw [happlied]
    exact congrArg (fun out => some (recordIfOk event out)) hrestore
  have hfinish : ∀ x, impl.finish x event = some x := by
    intro x
    cases event <;> first | rfl | nomatch hr
  rw [happly, impl.apply_of_core_ok hok, hfinish]
  exact ⟨_, rfl⟩

/-- An accepted answer restores what is in `previous_status`. -/
theorem status_of_answer {o' : OrderAny} (hp : o.core.status.isPending = true)
    (hprev : o.core.previousStatus = some s) (ha : event.isAnswer = true)
    (h : o.apply event = some (o', .ok ())) : o'.core.status = s := by
  cases apply_effect h with
  | moved n hmoved =>
    have ht := hmoved.target
    cases event <;> cases ht <;> nomatch ha
  | restored p hrestored =>
    cases hprev.symm.trans hrestored.previous
    exact hrestored.status
  | requantified update hev hupdate =>
    obtain ⟨-, -, hcancel⟩ := transition_updated hupdate.row
    have hst : o.core.status = .pendingUpdate := by
      cases hs : o.core.status <;> rw [hs] at hp hcancel <;>
        first | rfl | exact absurd rfl hcancel | nomatch hp
    rw [hupdate.status, statusAfterUpdate, if_pos hst, hprev]
    rfl
  | filled fill hev hfill =>
    cases hev
    nomatch ha

theorem returns_of_pending (hp : o.core.status.isPending = true)
    (hprev : o.core.previousStatus = some s) : Returns o s where
  status _ _ ha h := status_of_answer hp hprev ha h
  modifyRejected hst e hm := by
    have hn : o.core.newStatus (.modifyRejected e) = .ok o.core.status := by
      unfold newStatus
      rw [hst]
      rfl
    exact apply_restoring rfl hm hn hprev
  cancelRejected hst e hm := by
    have hn : o.core.newStatus (.cancelRejected e) = .ok o.core.status := by
      unfold newStatus
      rw [hst]
      rfl
    exact apply_restoring rfl hm hn hprev
  updated hst u o' r hm h := by
    have hn : o.core.newStatus (.updated u) = .ok o.core.status := by
      unfold newStatus
      rw [hst]
      rfl
    cases apply_effect h with
    | refused e hrefused => exact absurd ⟨hm, _, hn⟩ (hrefused.notUpdate u rfl)
    | _ => rfl

/-- A remembering order always has a status to restore when it is asked for one. -/
theorem not_noPreviousState {o' : OrderAny} (hr : Remembers o.core) :
    o.apply event ≠ some (o', .error .noPreviousState) := by
  intro h
  obtain ⟨c, hc, -⟩ := core_error h
  rcases apply_cases hc with ⟨-, -, _, he⟩ | ⟨e, -, hn, -, he⟩ | ⟨n, _, -, hn, hh, hout⟩
  · nomatch he
  · cases he
    rcases error_of_newStatus hn with he | he | ⟨_, he⟩ <;> nomatch he
  · rw [recordIfOk_error hout] at hh
    obtain ⟨hrestoring, hnone, -, -⟩ := handle_error_eq hn hh
    obtain ⟨-, hpending⟩ := newStatus_restoring hrestoring hn
    obtain ⟨p, hp, -⟩ := hr hpending
    nomatch hnone.symm.trans hp

/-- **The pending phase.** In every run from a new order: a pending order was made pending in a
submitted, accepted, triggered or partially filled status, has been pending since, and returns to
that status; and `NoPreviousState` is not returned, whatever is applied next. -/
theorem pending_returns (h₀ : (OrderAny.tryFrom init).run = some (.ok o₀))
    (hrun : runs OrderAny.step o₀ events = some o) :
    (o.core.status.isPending = true →
      ∃ before event,
        Entered OrderAny.step (fun o => o.core.status.isPending = true) o₀ events before event ∧
        before.core.status ∈ [OrderStatus.submitted, .accepted, .triggered, .partiallyFilled] ∧
        o.core.previousStatus = some before.core.status ∧
        Returns o before.core.status) ∧
    ∀ event o', o.apply event ≠ some (o', .error .noPreviousState) := by
  refine ⟨fun hp => ?_, fun event o' => not_noPreviousState (remembers_of_runs h₀ hrun)⟩
  obtain ⟨before, event, hentered, hprev, hw⟩ := entered_pending h₀ hrun hp
  refine ⟨before, event, hentered, ?_, hprev, returns_of_pending hp hprev⟩
  cases hs : before.core.status <;> rw [hs] at hw <;> first | decide | nomatch hw

end

attribute [local instance] Build.standard

open Sample

/-- A partially filled order with two requests outstanding, after an event it refused. -/
theorem pending_returns_partiallyFilled :
    ∃ o₀ o,
      (OrderAny.tryFrom Sample.init).run = some (.ok o₀) ∧
      runs OrderAny.step o₀
        [submitted 2, Sample.accepted 3, filled "T-1" 4 4,
          .pendingUpdate (Sample.event 5), .released (Sample.event 6),
          .pendingCancel (Sample.event 7)] = some o ∧
      o.core.status = .pendingCancel ∧ o.core.previousStatus = some .partiallyFilled ∧
      Returns o .partiallyFilled := by
  obtain ⟨o₀, o, h₀, hrun, ho⟩ := ran_cases
    [submitted 2, Sample.accepted 3, filled "T-1" 4 4,
      .pendingUpdate (Sample.event 5), .released (Sample.event 6),
      .pendingCancel (Sample.event 7)]
    (f := fun o => (o.core.status, o.core.previousStatus))
    (a := (.pendingCancel, some .partiallyFilled)) (by decide)
  obtain ⟨hs, hp⟩ := Prod.mk.inj ho
  obtain ⟨_, _, -, -, hprev, hreturns⟩ := (pending_returns h₀ hrun).1 (by rw [hs]; rfl)
  rw [← Option.some.inj (hp.symm.trans hprev)] at hreturns
  exact ⟨o₀, o, h₀, hrun, hs, hp, hreturns⟩

end Nautilus
