import Nautilus.Orders.Forward

/-!
# The type of an order

The wrapper an order is kept in and the type its core carries agree: the constructors set
both, and no event changes either (`OrderAny.Reachable.typed`).
-/

namespace Nautilus

open Lib Option OrderCore

namespace OrderCore

theorem orderType_savePrevious (c : OrderCore) (event : OrderEventAny) :
    (c.savePrevious event).orderType = c.orderType := by
  unfold savePrevious
  split <;> rfl

variable [Build] {c c' : OrderCore} {event : OrderEventAny} {r : Except OrderError Unit}

theorem orderType_handle {out : OrderCore × Except OrderError Unit}
    (h : c.handle event = some out) : out.1.orderType = c.orderType := by
  cases event with
  | filled fill =>
    obtain ⟨_, hfill, rfl⟩ := map_eq_some_iff.mp h
    obtain ⟨_, _, -, rfl⟩ := filled_eq hfill
    rfl
  | modifyRejected _ | cancelRejected _ =>
    obtain ⟨-, heq⟩ | ⟨p, -, heq⟩ := c.restorePrevious_cases <;>
      cases heq.symm.trans (some.inj h) <;> rfl
  | _ => cases h; rfl

theorem orderType_apply (h : c.apply event = some (c', r)) : c'.orderType = c.orderType := by
  obtain ⟨-, rfl, -⟩ | ⟨e, -, -, rfl, -⟩ | ⟨n, out, -, -, hout, heq⟩ := apply_cases h
  · rfl
  · exact orderType_savePrevious c event
  · have hhandle := orderType_handle hout
    obtain ⟨_, e | _⟩ := out <;> cases heq <;> exact hhandle.trans (orderType_savePrevious c event)

end OrderCore

namespace OrderAny

def Typed (o : OrderAny) : Prop := o.core.orderType = o.kind

variable [Build] {o o' : OrderAny} {event : OrderEventAny} {r : Except OrderError Unit}

/-- What the type adds to an accepted event leaves the type alone. -/
theorem typed_finish (h : o.finish event = some o') (ht : o.Typed) : o'.Typed := by
  unfold finish at h
  split at h
  · split at h
    · cases h
      rw [Typed, core_withCore, kind_withCore, kind_reprice]
      exact ht
    · nomatch h
  · cases h
    rw [Typed, core_triggered, kind_triggered]
    exact ht
  · split at h
    · obtain ⟨c, hc, rfl⟩ := map_eq_some_iff.mp h
      obtain ⟨_, rfl⟩ := setSlippage_eq hc
      rw [Typed, core_withCore, kind_withCore]
      exact ht
    · cases h
      exact ht
  · cases h
    exact ht

theorem typed_apply (h : o.apply event = some (o', r)) (ht : o.Typed) : o'.Typed := by
  rw [apply_eq] at h
  obtain ⟨⟨c, e | _⟩, hcore, hrest⟩ := bind_eq_some_iff.mp h
  · cases hrest
    rw [Typed, core_withCore, kind_withCore, orderType_apply hcore]
    exact ht
  · obtain ⟨_, hfinish, heq⟩ := map_eq_some_iff.mp hrest
    cases heq
    refine typed_finish hfinish ?_
    rw [Typed, core_withCore, kind_withCore, orderType_apply hcore]
    exact ht

theorem typed_tryFrom {init : OrderInitialized} (h : (tryFrom init).run = some (.ok o)) :
    o.Typed := by
  obtain ⟨_, hnew, -, hkind⟩ := new_of_tryFrom h
  obtain ⟨_, -, hcore⟩ := map_eq_some_iff.mp hnew
  rw [Typed, ← hcore]
  exact hkind

/-- Built from an initialisation event, then any number of events, accepted or not. -/
def Reachable (o : OrderAny) : Prop :=
  ∃ init o₀ events, (tryFrom init).run = some (.ok o₀) ∧ runs step o₀ events = some o

theorem Reachable.typed (h : o.Reachable) : o.Typed := by
  obtain ⟨_, _, _, h₀, hruns⟩ := h
  refine runs_inv (fun s event s' ht hstep => ?_) (typed_tryFrom h₀) hruns
  obtain ⟨⟨_, r⟩, happly, rfl⟩ := map_eq_some_iff.mp hstep
  exact typed_apply happly ht

end OrderAny

end Nautilus
