import Nautilus.Orders.Pending

/-!
# The closing time of an order

`ts_closed` is set by the five events that close an order. Closing is not final: a canceled order
takes fills that were under way. A fill that completes it closes it again; one that does not
re-opens it, and `ts_closed` stays.
-/

namespace Nautilus

open Lib OrderStatus
open OrderAny (step new_of_tryFrom step_effect)

def ClosedIff (c : OrderCore) : Prop := c.tsClosed.isSome = true ↔ c.status.isClosed = true

theorem ClosedIff.none_of_open {c : OrderCore} (h : ClosedIff c)
    (hopen : c.status.isClosed = false) : c.tsClosed = none := by
  cases ht : c.tsClosed with
  | none => rfl
  | some t =>
    have := h.mp (by rw [ht]; rfl)
    nomatch hopen.symm.trans this

theorem closedIff_of_open {c : OrderCore} (hopen : c.status.isClosed = false)
    (hnone : c.tsClosed = none) : ClosedIff c := by
  unfold ClosedIff
  rw [hopen, hnone]
  simp

theorem closedIff_of_closed {c : OrderCore} {t : UnixNanos} (hclosed : c.status.isClosed = true)
    (hsome : c.tsClosed = some t) : ClosedIff c := by
  unfold ClosedIff
  rw [hclosed, hsome]
  simp

section

variable [Build]

/-- A fill taken by a canceled order completes it. -/
def Completes (c : OrderCore) : OrderEventAny → Prop
  | .filled fill =>
    c.accepts (.filled fill) → c.status = .canceled → c.quantity.raw ≤ c.filledAfter fill
  | _ => True

instance (c : OrderCore) (event : OrderEventAny) : Decidable (Completes c event) :=
  match event with
  | .filled _ => inferInstanceAs (Decidable (_ → _ → _))
  | .initialized _ | .denied _ | .emulated _ | .released _ | .submitted _ | .accepted _
  | .rejected _ | .canceled _ | .expired _ | .triggered _ | .pendingUpdate _
  | .pendingCancel _ | .modifyRejected _ | .cancelRejected _ | .updated _ => .isTrue trivial

/-- After the run `events`: the time is set iff the order is closed, to that of the event that put
it into its status. -/
def Stamped (o₀ : OrderAny) (events : List OrderEventAny) (o : OrderAny) : Prop :=
  ClosedIff o.core ∧
    ∀ t, o.core.tsClosed = some t →
      ∃ before event,
        Entered step (fun x => x.core.status = o.core.status) o₀ events before event ∧
        t = event.tsEvent

variable {c c' : OrderCore} {event : OrderEventAny} {r : Except OrderError Unit}

/-! ## One event -/

/-- A fill keeps the stamp iff it completes the order where that was canceled. -/
theorem FilledBy.closedIff_iff {fill : OrderFilled} (hm : FilledBy c fill c') (h : ClosedIff c) :
    ClosedIff c' ↔ Completes c (.filled fill) := by
  obtain ⟨-, hcanceled⟩ := transition_filled hm.row
  by_cases hlt : c.filledAfter fill < c.quantity.raw
  · have hstatus : c'.status = .partiallyFilled := by rw [hm.status, if_pos hlt]
    have hclosed : c'.tsClosed = c.tsClosed := by rw [hm.tsClosed, if_pos hlt]
    -- the order is open after the fill, so it has to have been open before
    constructor
    · intro h' _ hs
      have hnone := h'.none_of_open (by rw [hstatus]; rfl)
      rw [hclosed] at hnone
      have hsome := h.mpr (by rw [hs]; rfl)
      rw [hnone] at hsome
      nomatch hsome
    · intro hcompletes
      refine closedIff_of_open (by rw [hstatus]; rfl) ?_
      rw [hclosed]
      cases hcl : c.status.isClosed with
      | false => exact h.none_of_open hcl
      | true => exact absurd (hcompletes hm.accepts (hcanceled hcl)) (Nat.not_le.mpr hlt)
  · have hstatus : c'.status = .filled := by rw [hm.status, if_neg hlt]
    have hclosed : c'.tsClosed = some fill.tsEvent := by rw [hm.tsClosed, if_neg hlt]
    constructor
    · intro _ _ _
      exact Nat.not_lt.mp hlt
    · intro _
      exact closedIff_of_closed (by rw [hstatus]; rfl) hclosed

/-- **Step lemma**: from a correctly stamped order, an event leaves one iff it completes
what it fills. -/
theorem Effect.closedIff_iff (he : Effect c event c' r) (hr : Remembers c) (h : ClosedIff c) :
    ClosedIff c' ↔ Completes c event := by
  cases he with
  | refused e hm =>
    -- a refused event may still overwrite the remembered status, which is not read here
    have hsame : c'.status = c.status ∧ c'.tsClosed = c.tsClosed := by
      obtain rfl | ⟨-, rfl⟩ := hm.core <;> exact ⟨rfl, rfl⟩
    have h' : ClosedIff c' := by
      unfold ClosedIff
      rw [hsame.1, hsame.2]
      exact h
    have hc : Completes c event := by
      cases event with
      | filled fill => exact fun ha => absurd ha (hm.notFill fill rfl)
      | _ => trivial
    exact ⟨fun _ => hc, fun _ => h'⟩
  | moved n hm =>
    obtain ⟨-, hopen⟩ := transition_target hm.target hm.row
    have hc : Completes c event := by
      have ht := hm.target
      cases event <;> trivial
    refine ⟨fun _ => hc, fun _ => ?_⟩
    have hts := hm.tsClosed
    -- `closeAt` stamps the closing events, the others find the order open
    cases hn : n.isClosed with
    | true =>
      rw [hn] at hts
      exact closedIff_of_closed (by rw [hm.status]; exact hn) hts
    | false =>
      rw [hn] at hts
      exact closedIff_of_open (by rw [hm.status]; exact hn) (hts.trans (h.none_of_open hopen))
  | restored p hm =>
    have hc : Completes c event := by
      have ht := hm.restoring
      cases event <;> trivial
    refine ⟨fun _ => hc, fun _ => closedIff_of_open ?_ ?_⟩
    · rw [hm.status]
      exact isClosed_of_isWorking (hm.working hr)
    · rw [hm.tsClosed]
      exact h.none_of_open (isClosed_of_isPending hm.pending)
  | requantified update hev hm =>
    subst hev
    refine ⟨fun _ => trivial, fun _ => closedIff_of_open ?_ ?_⟩
    · rw [hm.status]
      exact (hr.statusAfterUpdate hm.row).2
    · rw [hm.tsClosed]
      exact h.none_of_open (transition_updated hm.row).2.1
  | filled fill hev hm =>
    subst hev
    exact hm.closedIff_iff h

/-- The event that puts an order into a closed status stamps it. -/
theorem Effect.stamps (he : Effect c event c' r) (hr : Remembers c)
    (hne : c.status ≠ c'.status) (hclosed : c'.status.isClosed = true) :
    c'.tsClosed = some event.tsEvent := by
  cases he with
  | refused e hm =>
    obtain rfl | ⟨-, rfl⟩ := hm.core <;> exact absurd rfl hne
  | moved n hm =>
    rw [hm.status] at hclosed
    rw [hm.tsClosed, hclosed]
    rfl
  | restored p hm =>
    rw [hm.status, isClosed_of_isWorking (hm.working hr)] at hclosed
    cases hclosed
  | requantified update hev hm =>
    rw [hm.status, (hr.statusAfterUpdate hm.row).2] at hclosed
    cases hclosed
  | filled fill hev hm =>
    subst hev
    have hstatus := hm.status
    rw [hm.tsClosed]
    split at hstatus
    · rw [hstatus] at hclosed
      cases hclosed
    · rename_i hlt
      rw [if_neg hlt]
      rfl

/-- In a closed order nothing touches the stamp but an event that changes the status. -/
theorem Effect.keeps_stamp (he : Effect c event c' r) (hclosed : c.status.isClosed = true)
    (hsame : c'.status = c.status) : c'.tsClosed = c.tsClosed := by
  cases he with
  | refused e hm =>
    obtain rfl | ⟨-, rfl⟩ := hm.core <;> rfl
  | moved n hm =>
    obtain ⟨-, hopen⟩ := transition_target hm.target hm.row
    cases hopen.symm.trans hclosed
  | restored p hm => exact hm.tsClosed
  | requantified update hev hm => exact hm.tsClosed
  | filled fill hev hm =>
    obtain ⟨-, hcanceled⟩ := transition_filled hm.row
    rw [hm.status, hcanceled hclosed] at hsame
    split at hsame <;> cases hsame

/-! ## Any run -/

variable {o₀ o : OrderAny} {events : List OrderEventAny} {init : OrderInitialized}

/-- **Run lemma**: a closed order is stamped with the time of the event that put it into its status.
-/
theorem stamp_of_runs (h₀ : (OrderAny.tryFrom init).run = some (.ok o₀))
    (hrun : runs step o₀ events = some o) (hclosed : o.core.status.isClosed = true) :
    ∃ before event,
      Entered step (fun x => x.core.status = o.core.status) o₀ events before event ∧
      o.core.tsClosed = some event.tsEvent := by
  obtain ⟨_, hnew, -⟩ := new_of_tryFrom h₀
  have hinit := OrderCore.new_status hnew
  refine entered_of_runs (fun x => Remembers x.core) (fun x => x.core.status = o.core.status)
    (fun _ event x => x.core.tsClosed = some event.tsEvent) remembers_step ?_ ?_
    (remembers_of_not_pending (by rw [hinit]; rfl)) ?_ hrun rfl
  · intro x event x' hr hne hstep hs
    obtain ⟨r, he⟩ := step_effect hstep
    exact he.stamps hr (by rw [hs]; exact hne) (by rw [hs]; exact hclosed)
  · intro before event x event' x' _ hstamp hs hstep hs'
    obtain ⟨r, he⟩ := step_effect hstep
    rw [he.keeps_stamp (by rw [hs]; exact hclosed) (hs'.trans hs.symm)]
    exact hstamp
  · rw [hinit]
    intro hs
    rw [← hs] at hclosed
    nomatch hclosed

/-- **The closing time.** In a run from a new order, `ts_closed` is set exactly while the order is
closed, to the time of the event that put it into its status, iff every fill taken after a
cancellation completes it. -/
theorem stamped_iff_completing (h₀ : (OrderAny.tryFrom init).run = some (.ok o₀)) :
    (∀ pre o, pre <+: events → runs OrderAny.step o₀ pre = some o → Stamped o₀ pre o) ↔
      Along OrderAny.step (fun o event _ => Completes o.core event) o₀ events := by
  obtain ⟨_, hnew, -⟩ := new_of_tryFrom h₀
  have hinit := OrderCore.new_status hnew
  have hstart : ClosedIff o₀.core := by
    obtain ⟨_, -, hcore⟩ := Option.map_eq_some_iff.mp hnew
    exact closedIff_of_open (by rw [hinit]; rfl) (by rw [← hcore])
  -- set or not is decided step by step; which time it is comes from `stamp_of_runs`
  have hstates : Throughout step (fun o => ClosedIff o.core) o₀ events ↔
      Along step (fun o event _ => Completes o.core event) o₀ events := by
    rw [throughout_iff_along, and_iff_right hstart]
    refine along_iff (fun o => Remembers o.core ∧ ClosedIff o.core) ?_ ?_
      ⟨remembers_of_not_pending (by rw [hinit]; rfl), hstart⟩
    · rintro o event o' ⟨hr, hc⟩ hstep hcompletes
      obtain ⟨r, he⟩ := step_effect hstep
      exact ⟨hr.effect he, (he.closedIff_iff hr hc).mpr hcompletes⟩
    · rintro o event o' ⟨hr, hc⟩ hstep
      obtain ⟨r, he⟩ := step_effect hstep
      exact he.closedIff_iff hr hc
  rw [← hstates]
  constructor
  · intro h pre o hpre hrun
    exact (h pre o hpre hrun).1
  intro h pre o hpre hrun
  have hiff := h pre o hpre hrun
  refine ⟨hiff, fun t ht => ?_⟩
  obtain ⟨before, event, hentered, hstamp⟩ := stamp_of_runs h₀ hrun (hiff.mp (by rw [ht]; rfl))
  exact ⟨before, event, hentered, Option.some.inj (ht.symm.trans hstamp)⟩

end

attribute [local instance] Build.standard

open Sample

/-- A fill that completes a canceled order closes it again, with its own time. -/
theorem stamped_iff_completing_filled :
    ∃ o₀,
      (OrderAny.tryFrom Sample.init).run = some (.ok o₀) ∧
      ∀ pre o,
        pre <+: [submitted 2, .canceled (Sample.event 3), filled "T-1" 10 4] →
        runs OrderAny.step o₀ pre = some o → Stamped o₀ pre o := by
  obtain ⟨o₀, o, h₀, hrun, ho⟩ := ran_cases []
    (f := fun o =>
      decide (Along step (fun o event _ => Completes o.core event) o
        [submitted 2, .canceled (Sample.event 3), filled "T-1" 10 4]))
    (a := true) (by decide +kernel)
  cases hrun
  exact ⟨o₀, h₀, (stamped_iff_completing h₀).mpr (of_decide_eq_true ho)⟩

/-- A fill of four out of ten units re-opens a canceled order, which keeps the time of the
cancel. -/
theorem not_stamped_reopened :
    ∃ o₀ o,
      (OrderAny.tryFrom Sample.init).run = some (.ok o₀) ∧
      runs OrderAny.step o₀
        [submitted 2, .canceled (Sample.event 3), filled "T-1" 4 4] = some o ∧
      o.core.status = .partiallyFilled ∧ o.core.tsClosed = some 3 ∧ ¬ ClosedIff o.core := by
  obtain ⟨o₀, o, h₀, hrun, ho⟩ := ran_cases
    [submitted 2, .canceled (Sample.event 3), filled "T-1" 4 4]
    (f := fun o => (o.core.status, o.core.tsClosed)) (a := (.partiallyFilled, some 3)) (by decide)
  obtain ⟨hs, hts⟩ := Prod.mk.inj ho
  refine ⟨o₀, o, h₀, hrun, hs, hts, fun hiff => ?_⟩
  have hclosed := hiff.mp (by rw [hts]; rfl)
  rw [hs] at hclosed
  nomatch hclosed

end Nautilus
