import Nautilus.Orders.Forward
import Nautilus.Orders.Pending

/-!
# Refused events

A refused event should leave no trace in the order. `OrderCore::apply` checks the identifiers, then
overwrites `previous_status` with the current status, and then checks for a duplicate fill, for a
trigger the type does not have and the transition table.

**`unchanged_iff`** says exactly when a refused event leaves the order as it was; it never changes
more than that field. The errors raised after `status` was written, `AlreadyInitialized` and
`NoPreviousState`, do no harm: the first is shadowed by the transition table, the second finds
`status` rewritten with its own value (`OrderCore.handle_error_eq`).
-/

namespace Nautilus

open Lib OrderCore

namespace OrderCore

variable {c : OrderCore} {event : OrderEventAny}

/-- Saving the status is without effect in four situations. -/
theorem savePrevious_eq_iff :
    c.savePrevious event = c ↔
      keepsPrevious event = true ∨ c.status.isPending = true ∨
        c.previousStatus = some c.status := by
  cases hk : keepsPrevious event with
  | true => simp [savePrevious_of_keeps hk]
  | false =>
    rw [savePrevious_of_not_keeps hk, saved]
    cases hp : c.status.isPending with
    | true => simp
    | false =>
      constructor
      · intro h
        exact .inr (.inr (congrArg previousStatus h).symm)
      · rintro (h | h | h)
        · cases h
        · cases h
        · rw [← h]
          rfl

end OrderCore

namespace OrderAny

variable {o o' : OrderAny} {event : OrderEventAny} {e : OrderError}

theorem withCore_eq_self_iff {c : OrderCore} : o.withCore c = o ↔ c = o.core := by
  constructor
  · intro h
    rw [← o.core_withCore c, h]
  · rintro rfl
    exact o.withCore_core

variable [Build]

/-- **Refused events.** An error leaves the order unchanged iff it was for another order, or the
event keeps `previous_status`, or the order is pending, or `previous_status` already was the current
status. Otherwise only `previous_status` changed. -/
theorem unchanged_iff (h : o.apply event = some (o', .error e)) :
    (o' = o ↔
      ¬ o.core.matchesIds event ∨ OrderCore.keepsPrevious event = true ∨
        o.core.status.isPending = true ∨ o.core.previousStatus = some o.core.status) ∧
    (o' = o ∨ o' = o.withCore { o.core with previousStatus := some o.core.status }) := by
  obtain ⟨c, hc, rfl⟩ := core_error h
  rw [withCore_eq_self_iff]
  rcases apply_cases hc with
    ⟨hm, rfl, -⟩ | ⟨_, hm, -, rfl, -⟩ | ⟨n, out, hm, hn, hh, hout⟩
  · exact ⟨⟨fun _ => .inl hm, fun _ => rfl⟩, .inl rfl⟩
  · refine ⟨?_, ?_⟩
    · rw [savePrevious_eq_iff]
      exact ⟨.inr, fun hor => hor.resolve_left (not_not.mpr hm)⟩
    · obtain hs | ⟨-, hs⟩ := o.core.savePrevious_cases event
      · exact .inl hs
      · exact .inr (congrArg o.withCore hs)
  · rw [recordIfOk_error hout] at hh
    obtain ⟨hr, -, -, rfl⟩ := handle_error_eq hn hh
    exact ⟨⟨fun _ => .inr (.inl (keepsPrevious_of_restoring hr)), fun _ => rfl⟩, .inl rfl⟩

end OrderAny

/-- The error a call is refused with, and the order it leaves behind. -/
def Sample.refusal [Build] (o : OrderAny) (event : OrderEventAny) :
    Option (OrderAny × OrderError) :=
  match o.apply event with
  | some (o', .error e) => some (o', e)
  | _ => none

open Sample

theorem apply_of_refusal [Build] {o o' : OrderAny} {event : OrderEventAny}
    {e : OrderError} (h : refusal o event = some (o', e)) :
    o.apply event = some (o', .error e) := by
  unfold refusal at h
  split at h
  · cases h
    assumption
  · nomatch h

attribute [local instance] Build.standard

/-- A duplicate fill of a partially filled order with a request outstanding. -/
theorem unchanged_iff_pending :
    ∃ o₀ o o' e,
      (OrderAny.tryFrom init).run = some (.ok o₀) ∧
      runs OrderAny.step o₀
        [submitted 2, filled "T-1" 4 3, .pendingUpdate (Sample.event 4)] = some o ∧
      o.apply (filled "T-1" 4 5) = some (o', .error e) ∧ o' = o := by
  obtain ⟨o₀, o, h₀, hrun, ho⟩ := ran_cases
    [submitted 2, filled "T-1" 4 3, .pendingUpdate (Sample.event 4)]
    (f := fun o =>
      ((refusal o (filled "T-1" 4 5)).isSome, o.core.status.isPending))
    (a := (true, true)) (by decide)
  obtain ⟨hsome, hp⟩ := Prod.mk.inj ho
  obtain ⟨⟨o', e⟩, hrefusal⟩ := Option.isSome_iff_exists.mp hsome
  have happly := apply_of_refusal hrefusal
  exact ⟨o₀, o, o', e, h₀, hrun, happly,
    (OrderAny.unchanged_iff happly).1.mpr (.inr (.inr (.inl hp)))⟩

/-- The same duplicate fill without the request: `previous_status` was `Submitted`, and is
`PartiallyFilled` after the error. -/
theorem not_unchanged_duplicate_fill :
    ∃ o₀ o o',
      (OrderAny.tryFrom init).run = some (.ok o₀) ∧
      runs OrderAny.step o₀ [submitted 2, filled "T-1" 4 3] = some o ∧
      o.apply (filled "T-1" 4 5) = some (o', .error (.duplicateFill ⟨"T-1"⟩)) ∧
      o.core.previousStatus = some .submitted ∧
      o'.core.previousStatus = some .partiallyFilled ∧ o' ≠ o := by
  obtain ⟨o₀, o, h₀, hrun, ho⟩ := ran_cases
    [submitted 2, filled "T-1" 4 3]
    (f := fun o =>
      (o.core.previousStatus, (refusal o (filled "T-1" 4 5)).map fun out =>
        (out.1.core.previousStatus, out.2)))
    (a := (some .submitted, some (some .partiallyFilled, .duplicateFill ⟨"T-1"⟩))) (by decide)
  obtain ⟨hprev, hout⟩ := Prod.mk.inj ho
  obtain ⟨⟨o', e⟩, hrefusal, heq⟩ := Option.map_eq_some_iff.mp hout
  obtain ⟨hprev', rfl⟩ := Prod.mk.inj heq
  refine ⟨o₀, o, o', h₀, hrun, apply_of_refusal hrefusal, hprev, hprev', ?_⟩
  rintro rfl
  nomatch hprev.symm.trans hprev'

end Nautilus
