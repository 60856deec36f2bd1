import Nautilus.Orders.Any

/-!
# What one event does to an order

The inversion of `Order::apply`, once for all nine order types, for the statuses, the recorded
events, the quantities, the trade ids and the closing time. A call

- is **refused**, and then changes at most `previous_status` (`Refused`);
- **moves** the order to the status the event names (`Moved`);
- **restores** the status from before the pending phase (`Restored`);
- **requantifies** it, an update (`Requantified`);
- **fills** it (`FilledBy`).

The transition table and the kind of the event decide which.
-/

namespace Nautilus

open Lib Option Bool Quantity OrderAny

variable {e : OrderError} {fill : OrderFilled} {out : OrderCore × Except OrderError Unit}
  {c₂ : OrderCore}

/-! ## The transition table, by event -/

/-- The status named by an event whose handler does not touch the status again. -/
def OrderEventAny.target? : OrderEventAny → Option OrderStatus
  | .denied _ => some .denied
  | .emulated _ => some .emulated
  | .released _ => some .released
  | .submitted _ => some .submitted
  | .accepted _ => some .accepted
  | .rejected _ => some .rejected
  | .canceled _ => some .canceled
  | .expired _ => some .expired
  | .triggered _ => some .triggered
  | .pendingUpdate _ => some .pendingUpdate
  | .pendingCancel _ => some .pendingCancel
  | .initialized _ | .modifyRejected _ | .cancelRejected _ | .updated _ | .filled _ => none

/-- The events that put a status back. -/
def OrderEventAny.isRestoring : OrderEventAny → Bool
  | .modifyRejected _ | .cancelRejected _ => true
  | _ => false

/-- The statuses a request to the venue can be made from, and is undone to. -/
def OrderStatus.isWorking : OrderStatus → Bool
  | .submitted | .accepted | .triggered | .partiallyFilled => true
  | _ => false

namespace OrderStatus

theorem isPending_of_isWorking {s : OrderStatus} (h : s.isWorking = true) :
    s.isPending = false := by
  cases s <;> first | rfl | nomatch h

theorem isClosed_of_isWorking {s : OrderStatus} (h : s.isWorking = true) : s.isClosed = false := by
  cases s <;> first | rfl | nomatch h

theorem isClosed_of_isPending {s : OrderStatus} (h : s.isPending = true) : s.isClosed = false := by
  cases s <;> first | rfl | nomatch h

variable {s n : OrderStatus} {event : OrderEventAny}

theorem transition_error (h : s.transition event = .error e) : e = .invalidStateTransition := by
  cases s <;> cases event <;> cases h <;> rfl

theorem transition_initialized (s : OrderStatus) (init : OrderInitialized) :
    s.transition (.initialized init) = .error .invalidStateTransition := by
  cases s <;> rfl

/-- The table leads where the event says, and only from orders that are not closed. -/
theorem transition_target {t : OrderStatus} (ht : event.target? = some t)
    (h : s.transition event = .ok n) : n = t ∧ s.isClosed = false := by
  cases event <;> cases ht <;> cases s <;> cases h <;> exact ⟨rfl, rfl⟩

/-- A pending phase is entered from a working order or from a pending one. -/
theorem transition_pending {t : OrderStatus} (ht : event.target? = some t)
    (hp : t.isPending = true) (h : s.transition event = .ok n) :
    s.isPending = true ∨ s.isWorking = true := by
  cases event <;> cases ht <;> cases s <;> cases h <;>
    first | exact .inl rfl | exact .inr rfl | nomatch hp

/-- Updates are taken in place, by orders that are neither closed nor about to be
canceled. -/
theorem transition_updated {e : OrderUpdated} (h : s.transition (.updated e) = .ok n) :
    n = s ∧ s.isClosed = false ∧ s ≠ .pendingCancel := by
  cases s <;> cases h <;> exact ⟨rfl, rfl, nofun⟩

/-- Fills are taken by working and pending orders, and by canceled ones. -/
theorem transition_filled {e : OrderFilled} (h : s.transition (.filled e) = .ok n) :
    n = .filled ∧ (s.isClosed = true → s = .canceled) := by
  cases s <;> cases h <;> first | exact ⟨rfl, fun _ => rfl⟩ | exact ⟨rfl, nofun⟩

end OrderStatus

/-! ## The effects -/

variable (c : OrderCore)

def OrderCore.matchesIds (event : OrderEventAny) : Prop :=
  c.clientOrderId = event.clientOrderId ∧ c.strategyId = event.strategyId

/-- The identifiers match, a fill is new, a trigger suits the type, and the transition table has a
row. -/
def OrderCore.accepts (event : OrderEventAny) : Prop :=
  c.matchesIds event ∧ ∃ n, c.newStatus event = .ok n

instance (c : OrderCore) (event : OrderEventAny) : Decidable (c.accepts event) :=
  have : Decidable (c.matchesIds event) := inferInstanceAs (Decidable (_ ∧ _))
  have : Decidable (∃ n, c.newStatus event = .ok n) :=
    match c.newStatus event with
    | .ok n => .isTrue ⟨n, rfl⟩
    | .error _ => .isFalse fun ⟨_, hn⟩ => nomatch hn
  inferInstanceAs (Decidable (_ ∧ _))

/-- `previous_status` after an event that is not a restoring one. -/
def OrderCore.saved : Option OrderStatus :=
  if c.status.isPending then c.previousStatus else some c.status

/-- The fields that only fills and updates write. -/
structure SameBooks (c c' : OrderCore) : Prop where
  quantity : c'.quantity = c.quantity
  filledQty : c'.filledQty = c.filledQty
  leavesQty : c'.leavesQty = c.leavesQty
  overfillQty : c'.overfillQty = c.overfillQty
  tradeIds : c'.tradeIds = c.tradeIds

/-- An error was returned: at most `previous_status` was written. An accepted event only fails while
restoring a status that is not there. -/
structure Refused (c : OrderCore) (event : OrderEventAny) (c' : OrderCore) : Prop where
  notUpdate : ∀ update, event = .updated update → ¬ c.accepts event
  notFill : ∀ fill, event = .filled fill → ¬ c.accepts event
  core : c' = c ∨ c.status.isPending = false ∧ c' = { c with previousStatus := some c.status }

/-- The order went to the status `n` the event names. -/
structure Moved (c : OrderCore) (event : OrderEventAny) (n : OrderStatus)
    (c' : OrderCore) : Prop where
  target : event.target? = some n
  row : c.status.transition event = .ok n
  status : c'.status = n
  previousStatus : c'.previousStatus = c.saved
  tsClosed : c'.tsClosed = if n.isClosed then some event.tsEvent else c.tsClosed
  books : SameBooks c c'
  events : c'.events = c.events ++ [event]

/-- A request was rejected and the order is back in the status `p`. -/
structure Restored (c : OrderCore) (event : OrderEventAny) (p : OrderStatus)
    (c' : OrderCore) : Prop where
  restoring : event.isRestoring = true
  pending : c.status.isPending = true
  previous : c.previousStatus = some p
  status : c'.status = p
  previousStatus : c'.previousStatus = some p
  tsClosed : c'.tsClosed = c.tsClosed
  books : SameBooks c c'
  events : c'.events = c.events ++ [event]

/-- The update was taken. -/
structure Requantified (c : OrderCore) (update : OrderUpdated) (c' : OrderCore) : Prop where
  accepts : c.accepts (.updated update)
  row : c.status.transition (.updated update) = .ok c.status
  status : c'.status = c.statusAfterUpdate
  previousStatus : c'.previousStatus = c.saved
  tsClosed : c'.tsClosed = c.tsClosed
  quantity : c'.quantity = update.quantity
  filledQty : c'.filledQty = c.filledQty
  leavesQty : c'.leavesQty = update.quantity.saturatingSub c.filledQty
  overfillQty : c'.overfillQty = c.overfillQty
  tradeIds : c'.tradeIds = c.tradeIds
  events : c'.events = c.events ++ [.updated update]

def OrderCore.filledAfter [Build] (fill : OrderFilled) : Nat :=
  Quantity.saturatingAdd c.filledQty.raw fill.lastQty.raw

/-- The fill was taken. -/
structure FilledBy [Build] (c : OrderCore) (fill : OrderFilled) (c' : OrderCore) : Prop where
  accepts : c.accepts (.filled fill)
  row : c.status.transition (.filled fill) = .ok .filled
  fresh : fill.tradeId ∉ c.tradeIds
  status : c'.status =
    if c.filledAfter fill < c.quantity.raw then .partiallyFilled else .filled
  previousStatus : c'.previousStatus = c.saved
  tsClosed : c'.tsClosed =
    if c.filledAfter fill < c.quantity.raw then c.tsClosed else some fill.tsEvent
  quantity : c'.quantity = c.quantity
  filledQty : c'.filledQty.raw = c.filledAfter fill
  leavesQty : c'.leavesQty.raw = c.leavesQty.raw - fill.lastQty.raw
  overfillQty : c'.overfillQty.raw =
    if c.quantity.raw < c.filledAfter fill then
      Quantity.saturatingAdd c.overfillQty.raw (c.filledAfter fill - c.quantity.raw)
    else c.overfillQty.raw
  tradeIds : c'.tradeIds = c.tradeIds ++ [fill.tradeId]
  events : c'.events = c.events ++ [.filled fill]

/-- Everything a call can do, with the result it returns. -/
inductive Effect [Build] (c : OrderCore) (event : OrderEventAny) (c' : OrderCore) :
    Except OrderError Unit → Prop where
  | refused (e : OrderError) (h : Refused c event c') : Effect c event c' (.error e)
  | moved (n : OrderStatus) (h : Moved c event n c') : Effect c event c' (.ok ())
  | restored (p : OrderStatus) (h : Restored c event p c') : Effect c event c' (.ok ())
  | requantified (update : OrderUpdated) (hev : event = .updated update)
      (h : Requantified c update c') : Effect c event c' (.ok ())
  | filled (fill : OrderFilled) (hev : event = .filled fill) (h : FilledBy c fill c') :
      Effect c event c' (.ok ())

/-! ## The core -/

namespace OrderCore

variable {c c' : OrderCore} {event : OrderEventAny} {r : Except OrderError Unit} {n : OrderStatus}

theorem savePrevious_cases (c : OrderCore) (event : OrderEventAny) :
    c.savePrevious event = c ∨
      c.status.isPending = false ∧
        c.savePrevious event = { c with previousStatus := some c.status } := by
  unfold savePrevious
  split
  · rename_i h
    rw [and_eq_true, not_eq_true', not_eq_true'] at h
    exact .inr ⟨h.2, rfl⟩
  · exact .inl rfl

theorem savePrevious_of_keeps (h : keepsPrevious event = true) : c.savePrevious event = c := by
  unfold savePrevious
  rw [h]
  rfl

theorem savePrevious_of_not_keeps (h : keepsPrevious event = false) :
    c.savePrevious event = { c with previousStatus := c.saved } := by
  unfold savePrevious saved
  rw [h]
  cases c.status.isPending <;> rfl

theorem newStatus_savePrevious (c : OrderCore) (event : OrderEventAny) :
    (c.savePrevious event).newStatus event = c.newStatus event := by
  unfold savePrevious
  split <;> rfl

theorem transition_of_newStatus (h : c.newStatus event = .ok n) :
    c.status.transition event = .ok n := by
  unfold newStatus at h
  split at h
  · split at h
    · cases h
    · exact h
  · split at h
    · exact h
    · cases h
  · exact h

theorem error_of_newStatus (h : c.newStatus event = .error e) :
    e = .invalidStateTransition ∨ e = .invalidOrderEvent ∨ ∃ id, e = .duplicateFill id := by
  unfold newStatus at h
  split at h
  · split at h
    · cases h
      exact .inr (.inr ⟨_, rfl⟩)
    · exact .inl (OrderStatus.transition_error h)
  · split at h
    · exact .inl (OrderStatus.transition_error h)
    · cases h
      exact .inr (.inl rfl)
  · exact .inl (OrderStatus.transition_error h)

theorem fresh_of_newStatus (h : c.newStatus (.filled fill) = .ok n) :
    fill.tradeId ∉ c.tradeIds := by
  intro hmem
  simp only [newStatus, if_pos hmem] at h
  cases h

theorem restorePrevious_cases (c : OrderCore) :
    (c.previousStatus = none ∧ c.restorePrevious = (c, .error .noPreviousState)) ∨
    ∃ p, c.previousStatus = some p ∧ c.restorePrevious = ({ c with status := p }, .ok ()) := by
  unfold restorePrevious
  cases c.previousStatus with
  | none => exact .inl ⟨rfl, rfl⟩
  | some p => exact .inr ⟨p, rfl, rfl⟩

/-- Restoring events are taken in the pending phase only, and the table leaves the status alone. -/
theorem newStatus_restoring (hr : event.isRestoring = true)
    (h : c.newStatus event = .ok n) : n = c.status ∧ c.status.isPending = true := by
  have ht := transition_of_newStatus h
  cases event with
  | modifyRejected e | cancelRejected e =>
    generalize c.status = s at ht ⊢
    cases s <;> cases ht
    exact ⟨rfl, rfl⟩
  | _ => nomatch hr

theorem keepsPrevious_of_restoring (hr : event.isRestoring = true) :
    keepsPrevious event = true := by
  cases event <;> first | rfl | nomatch hr

theorem recordIfOk_error (h : (c', .error e) = recordIfOk event out) : out = (c', .error e) := by
  obtain ⟨c, _ | _⟩ := out
  · exact h.symm
  · cases h

variable [Build]

/-- An event for this order that passes the checks is handled and recorded. -/
theorem apply_of_newStatus (hm : c.matchesIds event) (hn : c.newStatus event = .ok n) :
    c.apply event =
      ({ c.savePrevious event with status := n }.handle event).map (recordIfOk event) := by
  unfold apply
  rw [if_neg (not_not.mpr hm.1), if_neg (not_not.mpr hm.2)]
  simp [newStatus_savePrevious, hn]

/-- The three ways through `apply`. -/
theorem apply_cases (h : c.apply event = some (c', r)) :
    (¬ c.matchesIds event ∧ c' = c ∧ ∃ e, r = .error (.invariant e)) ∨
    (∃ e, c.matchesIds event ∧ c.newStatus event = .error e ∧ c' = c.savePrevious event ∧
      r = .error e) ∨
    (∃ n out, c.matchesIds event ∧ c.newStatus event = .ok n ∧
      { c.savePrevious event with status := n }.handle event = some out ∧
      (c', r) = recordIfOk event out) := by
  unfold apply at h
  split at h
  · rename_i hne
    cases h
    exact .inl ⟨fun hm => hne hm.1, rfl, _, rfl⟩
  rename_i hcid
  split at h
  · rename_i hne
    cases h
    exact .inl ⟨fun hm => hne hm.2, rfl, _, rfl⟩
  rename_i hsid
  -- `previous_status` is saved before the new status is looked up, and survives a failure
  have hm : c.matchesIds event := ⟨not_not.mp hcid, not_not.mp hsid⟩
  simp only [newStatus_savePrevious] at h
  cases hn : c.newStatus event with
  | error e =>
    rw [hn] at h
    cases h
    exact .inr (.inl ⟨e, hm, rfl, rfl, rfl⟩)
  | ok n =>
    rw [hn] at h
    obtain ⟨out, hout, heq⟩ := map_eq_some_iff.mp h
    exact .inr (.inr ⟨n, out, hm, rfl, hout, heq.symm⟩)

theorem setAvgPx_eq {lastQty : Quantity} {lastPx : Price}
    (h : c.setAvgPx lastQty lastPx = some c') : ∃ px, c' = { c with avgPx := px } := by
  unfold setAvgPx at h
  split at h
  · simp only [bind_eq_bind, bind_eq_some_iff] at h
    obtain ⟨px, -, h⟩ := h
    cases h
    exact ⟨_, rfl⟩
  · simp only [bind_eq_bind, bind_eq_some_iff] at h
    obtain ⟨_, -, _, -, _, -, _, -, h⟩ := h
    cases h
    exact ⟨_, rfl⟩

theorem setSlippage_eq {price : Price} (h : c.setSlippage price = some c') :
    ∃ px, c' = { c with slippage := px } := by
  unfold setSlippage at h
  split at h
  · cases h
    exact ⟨_, rfl⟩
  · obtain ⟨px, -, rfl⟩ := map_eq_some_iff.mp h
    exact ⟨_, rfl⟩

/-- What `filled` writes, the average price left open. -/
theorem filled_eq (h : c.filled fill = some c') :
    ∃ (overfillQty : Quantity) (px : Option ℚ),
      overfillQty.raw =
        (if c.quantity.raw < c.filledAfter fill then
          saturatingAdd c.overfillQty.raw (c.filledAfter fill - c.quantity.raw)
        else c.overfillQty.raw) ∧
      c' =
        { c with
          overfillQty
          status := if c.filledAfter fill < c.quantity.raw then .partiallyFilled else .filled
          tsClosed :=
            if c.filledAfter fill < c.quantity.raw then c.tsClosed else some fill.tsEvent
          venueOrderId := some fill.venueOrderId
          positionId := fill.positionId
          tradeIds := c.tradeIds ++ [fill.tradeId]
          lastTradeId := some fill.tradeId
          liquiditySide := some fill.liquiditySide
          filledQty := ⟨c.filledAfter fill, c.filledQty.precision⟩
          leavesQty := c.leavesQty.saturatingSub fill.lastQty
          tsLast := fill.tsEvent
          tsAccepted := c.tsAccepted.or (some fill.tsEvent)
          avgPx := px } := by
  simp only [filled, bind_eq_bind, bind_eq_some_iff] at h
  obtain ⟨_, hnew, overfillQty, hover, h⟩ := h
  obtain ⟨px, rfl⟩ := setAvgPx_eq h
  have hq := fromRaw_eq_some hnew
  subst hq
  refine ⟨overfillQty, px, ?_, ?_⟩
  · unfold overfillAfter at hover
    split_ifs at hover with hlt
    · rw [fromRaw_eq_some hover]
      exact (if_pos (lt_iff.mp hlt)).symm
    · cases hover
      exact (if_neg fun hraw => hlt (lt_iff.mpr hraw)).symm
  · simp only [Quantity.lt_iff]
    rfl

theorem handle_restoring (hr : event.isRestoring = true) :
    c.handle event = some c.restorePrevious := by
  cases event <;> first | rfl | nomatch hr

theorem handle_error {c₁ : OrderCore} (h : c.handle event = some (c₁, .error e)) :
    (∃ init, event = .initialized init) ∨ event.isRestoring = true := by
  cases event with
  | initialized init => exact .inl ⟨init, rfl⟩
  | modifyRejected _ | cancelRejected _ => exact .inr rfl
  | filled fill =>
    obtain ⟨_, -, heq⟩ := map_eq_some_iff.mp h
    cases heq
  | _ => cases h

/-- An accepted event that fails: there is no status to restore, and nothing has been
written. -/
theorem handle_error_eq (hn : c.newStatus event = .ok n)
    (h : { c.savePrevious event with status := n }.handle event = some (c', .error e)) :
    event.isRestoring = true ∧ c.previousStatus = none ∧ e = .noPreviousState ∧ c' = c := by
  obtain ⟨init, rfl⟩ | hr := handle_error h
  · nomatch (c.status.transition_initialized init).symm.trans (transition_of_newStatus hn)
  obtain ⟨rfl, -⟩ := newStatus_restoring hr hn
  rw [savePrevious_of_keeps (keepsPrevious_of_restoring hr), handle_restoring hr] at h
  obtain ⟨hnone, heq⟩ | ⟨p, -, heq⟩ := c.restorePrevious_cases
  · cases heq.symm.trans (some.inj h)
    exact ⟨hr, hnone, rfl, rfl⟩
  · cases heq.symm.trans (some.inj h)

/-- What `apply` leaves behind when it returns an error. -/
theorem refused_of_apply (h : c.apply event = some (c', .error e)) : Refused c event c' := by
  rcases apply_cases h with ⟨hm, rfl, -⟩ | ⟨_, hm, hn, rfl, -⟩ | ⟨n, _, hm, hn, hh, hout⟩
  · exact ⟨fun _ _ ha => hm ha.1, fun _ _ ha => hm ha.1, .inl rfl⟩
  · have hna : ¬ c.accepts event := fun ⟨_, n, hok⟩ => nomatch hn.symm.trans hok
    exact ⟨fun _ _ => hna, fun _ _ => hna, c.savePrevious_cases event⟩
  rw [recordIfOk_error hout] at hh
  obtain ⟨hr, -, -, rfl⟩ := handle_error_eq hn hh
  refine ⟨?_, ?_, .inl rfl⟩
  · rintro update rfl
    cases hr
  · rintro fill rfl
    cases hr

theorem moved_of_handle (ht : event.target? = some n) (hn : c.newStatus event = .ok n)
    (h : { c.savePrevious event with status := n }.handle event = some (c₂, .ok ())) :
    Moved c event n (c₂.record event) := by
  have hk : keepsPrevious event = false := by
    cases event <;> first | rfl | nomatch ht
  rw [savePrevious_of_not_keeps hk] at h
  have hrow := transition_of_newStatus hn
  -- the handler sets the closing time when the status is a closed one
  cases event <;> cases ht <;> cases h <;>
    exact ⟨rfl, hrow, rfl, rfl, rfl, ⟨rfl, rfl, rfl, rfl, rfl⟩, rfl⟩

theorem restored_of_handle (hr : event.isRestoring = true) (hn : c.newStatus event = .ok n)
    (h : { c.savePrevious event with status := n }.handle event = some (c₂, .ok ())) :
    ∃ p, Restored c event p (c₂.record event) := by
  obtain ⟨rfl, hpending⟩ := newStatus_restoring hr hn
  rw [savePrevious_of_keeps (keepsPrevious_of_restoring hr), handle_restoring hr] at h
  obtain ⟨-, heq⟩ | ⟨p, hp, heq⟩ := c.restorePrevious_cases
  · cases heq.symm.trans (some.inj h)
  · cases heq.symm.trans (some.inj h)
    exact ⟨p, hr, hpending, hp, rfl, hp, rfl, ⟨rfl, rfl, rfl, rfl, rfl⟩, rfl⟩

omit [Build] in
/-- Saving the status does not change where an update leads: only the pending phase reads it. -/
theorem statusAfterUpdate_saved (c : OrderCore) :
    { c with previousStatus := c.saved }.statusAfterUpdate = c.statusAfterUpdate := by
  show (if c.status = .pendingUpdate then c.saved.getD c.status else c.status) = _
  unfold statusAfterUpdate saved
  by_cases hs : c.status = .pendingUpdate
  · rw [if_pos hs, if_pos hs, hs]
    rfl
  · rw [if_neg hs, if_neg hs]

/-- What an update comes to once the order type has requantified the core. -/
theorem requantified_of_handle {update : OrderUpdated}
    (hm : c.matchesIds (.updated update)) (hn : c.newStatus (.updated update) = .ok n)
    (h : { c.savePrevious (.updated update) with status := n }.handle (.updated update) =
      some (c₂, .ok ())) :
    Requantified c update ((c₂.record (.updated update)).requantify update.quantity) := by
  have hrow := transition_of_newStatus hn
  obtain ⟨rfl, -, -⟩ := OrderStatus.transition_updated hrow
  rw [savePrevious_of_not_keeps rfl] at h
  cases h
  refine ⟨⟨hm, _, hn⟩, hrow, ?_, rfl, rfl, rfl, rfl, rfl, rfl, rfl, rfl⟩
  exact statusAfterUpdate_saved c

/-- What a fill comes to, whatever slippage the order type notes. -/
theorem filledBy_of_handle (px : Option ℚ) (hm : c.matchesIds (.filled fill))
    (hn : c.newStatus (.filled fill) = .ok n)
    (h : { c.savePrevious (.filled fill) with status := n }.handle (.filled fill) =
      some (c₂, .ok ())) : FilledBy c fill { c₂.record (.filled fill) with slippage := px } := by
  have hrow := transition_of_newStatus hn
  obtain ⟨rfl, -⟩ := OrderStatus.transition_filled hrow
  rw [savePrevious_of_not_keeps rfl] at h
  obtain ⟨_, hfill, heq⟩ := map_eq_some_iff.mp h
  cases heq
  obtain ⟨_, _, hover, rfl⟩ := filled_eq hfill
  exact ⟨⟨hm, _, hn⟩, hrow, fresh_of_newStatus hn, rfl, rfl, rfl, rfl, rfl, rfl, hover, rfl, rfl⟩

end OrderCore

/-! ## The order types -/

namespace OrderImpl

variable {τ : Type} (impl : OrderImpl τ) {self self' : τ} {event : OrderEventAny}
  {r : Except OrderError Unit}

theorem update_core {update : OrderUpdated} (h : impl.update self update = some self') :
    impl.core self' = (impl.core self).requantify update.quantity := by
  unfold OrderImpl.update at h
  split at h
  · cases h
    exact impl.core_withCore _ _
  · cases h

variable [Build]

/-- An error stops after the core; an accepted event goes on to the type. -/
theorem apply_cases (h : impl.apply self event = some (self', r)) :
    (∃ c e, r = .error e ∧ (impl.core self).apply event = some (c, .error e) ∧
      self' = impl.withCore self c) ∨
    (∃ c, r = .ok () ∧ (impl.core self).apply event = some (c, .ok ()) ∧
      impl.finish (impl.withCore self c) event = some self') := by
  obtain ⟨⟨c, r₀⟩, hcore, h⟩ := bind_eq_some_iff.mp h
  cases r₀ with
  | error e =>
    cases h
    exact .inl ⟨c, e, rfl, hcore, rfl⟩
  | ok u =>
    obtain ⟨_, hfinish, heq⟩ := map_eq_some_iff.mp h
    cases heq
    exact .inr ⟨c, rfl, hcore, hfinish⟩

/-- A fill changes the slippage of the core, if anything. -/
theorem finish_filled (h : impl.finish self (.filled fill) = some self') :
    ∃ px, impl.core self' = { impl.core self with slippage := px } := by
  simp only [finish] at h
  split at h
  · obtain ⟨c, hc, rfl⟩ := map_eq_some_iff.mp h
    rw [impl.core_withCore]
    exact OrderCore.setSlippage_eq hc
  · cases h
    exact ⟨(impl.core self).slippage, rfl⟩

/-- Apart from updates and fills the types leave the core as it is. -/
theorem finish_core (hu : ∀ update, event ≠ .updated update) (hf : event.fill? = none)
    (h : impl.finish self event = some self') : impl.core self' = impl.core self := by
  cases event with
  | updated update => exact absurd rfl (hu update)
  | filled fill => nomatch hf
  | triggered e =>
    cases h
    exact impl.core_triggered self e.tsEvent
  | _ =>
    cases h
    rfl

/-- Once the core has accepted an event the type finishes it. -/
theorem apply_of_core_ok {c : OrderCore} (h : (impl.core self).apply event = some (c, .ok ())) :
    impl.apply self event = (impl.finish (impl.withCore self c) event).map (·, .ok ()) := by
  unfold OrderImpl.apply
  rw [h]
  rfl

theorem effect_of_ok {c : OrderCore} (h : (impl.core self).apply event = some (c, .ok ()))
    (hfinish : impl.finish (impl.withCore self c) event = some self') :
    Effect (impl.core self) event (impl.core self') (.ok ()) := by
  rcases OrderCore.apply_cases h with ⟨-, -, _, hr⟩ | ⟨_, -, -, -, hr⟩ | ⟨n, out, hm, hn, hh, hout⟩
  · cases hr
  · cases hr
  obtain ⟨_, _ | _⟩ := out
  · cases hout
  cases hout
  cases ht : event.target? with
  | some t =>
    obtain ⟨rfl, -⟩ := OrderStatus.transition_target ht (OrderCore.transition_of_newStatus hn)
    -- only updates and fills have work left for the order type
    have hcore := impl.finish_core (fun _ hu => by cases hu; nomatch ht)
      (by cases event <;> first | rfl | nomatch ht) hfinish
    rw [hcore, impl.core_withCore]
    exact .moved n (OrderCore.moved_of_handle ht hn hh)
  | none =>
    cases event with
    | initialized init =>
      nomatch ((impl.core self).status.transition_initialized init).symm.trans
        (OrderCore.transition_of_newStatus hn)
    | modifyRejected _ | cancelRejected _ =>
      have hcore := impl.finish_core (by rintro _ ⟨⟩) rfl hfinish
      rw [hcore, impl.core_withCore]
      obtain ⟨p, hp⟩ := OrderCore.restored_of_handle rfl hn hh
      exact .restored p hp
    | updated update =>
      rw [impl.update_core hfinish, impl.core_withCore]
      exact .requantified update rfl (OrderCore.requantified_of_handle hm hn hh)
    | filled fill =>
      obtain ⟨px, hcore⟩ := impl.finish_filled hfinish
      rw [hcore, impl.core_withCore]
      exact .filled fill rfl (OrderCore.filledBy_of_handle px hm hn hh)
    | _ => nomatch ht

/-- **Inversion**: whatever the call returns, it had one of the five effects. -/
theorem apply_effect (h : impl.apply self event = some (self', r)) :
    Effect (impl.core self) event (impl.core self') r := by
  obtain ⟨c, e, rfl, hc, rfl⟩ | ⟨c, rfl, hc, hfinish⟩ := impl.apply_cases h
  · rw [impl.core_withCore]
    exact .refused e (OrderCore.refused_of_apply hc)
  · exact impl.effect_of_ok hc hfinish

end OrderImpl

/-! ## Any order -/

namespace OrderAny

variable [Build] {o o' : OrderAny} {event : OrderEventAny} {r : Except OrderError Unit}

/-- Whatever its type, an order is an order of some implementation. -/
theorem exists_impl (o : OrderAny) :
    ∃ (τ : Type) (impl : OrderImpl τ) (wrap : τ → OrderAny) (self : τ),
      o = wrap self ∧ (∀ x, (wrap x).core = impl.core x) ∧
      (∀ x c, (wrap x).withCore c = wrap (impl.withCore x c)) ∧
      ∀ event, (wrap self).apply event = (impl.apply self event).map (Prod.map wrap id) := by
  cases o <;> exact ⟨_, _, _, _, rfl, fun _ => rfl, fun _ _ => rfl, fun _ => rfl⟩

/-- The inversion of `exists_impl` at a call that returned. -/
theorem apply_impl (h : o.apply event = some (o', r)) :
    ∃ (τ : Type) (impl : OrderImpl τ) (wrap : τ → OrderAny) (self self' : τ),
      o = wrap self ∧ o' = wrap self' ∧ (∀ x, (wrap x).core = impl.core x) ∧
      (∀ x c, (wrap x).withCore c = wrap (impl.withCore x c)) ∧
      impl.apply self event = some (self', r) := by
  obtain ⟨τ, impl, wrap, self, rfl, hcore, hwith, happly⟩ := exists_impl o
  rw [happly] at h
  obtain ⟨⟨self', _⟩, hself, heq⟩ := map_eq_some_iff.mp h
  cases heq
  exact ⟨τ, impl, wrap, self, self', rfl, rfl, hcore, hwith, hself⟩

theorem apply_effect (h : o.apply event = some (o', r)) : Effect o.core event o'.core r := by
  obtain ⟨τ, impl, _, _, _, rfl, rfl, hcore, -, hself⟩ := apply_impl h
  rw [hcore, hcore]
  exact impl.apply_effect hself

theorem core_error (h : o.apply event = some (o', .error e)) :
    ∃ c, o.core.apply event = some (c, .error e) ∧ o' = o.withCore c := by
  obtain ⟨τ, impl, _, self, _, rfl, rfl, hcore, hwith, hself⟩ := apply_impl h
  obtain ⟨c, _, he, hc, rfl⟩ | ⟨c, he, -, -⟩ := impl.apply_cases hself
  · cases he
    refine ⟨c, ?_, (hwith self c).symm⟩
    rw [hcore]
    exact hc
  · cases he

theorem step_effect (h : o.step event = some o') : ∃ r, Effect o.core event o'.core r := by
  obtain ⟨⟨_, r⟩, hr, rfl⟩ := map_eq_some_iff.mp h
  exact ⟨r, apply_effect hr⟩

end OrderAny

/-! ## A sample order -/

namespace Sample

variable (tsEvent : UnixNanos)

def event : OrderEvent := ⟨⟨"S-001"⟩, ⟨"O-1"⟩, tsEvent⟩

/-- Whole units in a build with nine decimals. -/
def units (n : Nat) : Quantity := ⟨n * 10 ^ 9, 0⟩

/-- A limit order to buy ten units. -/
def init : OrderInitialized :=
  { toOrderEvent := event 1
    orderSide := .buy
    orderType := .limit
    quantity := units 10
    timeInForce := .gtc
    quoteQuantity := false
    price := some ⟨100, 2⟩
    triggerPrice := none
    triggerType := none
    limitOffset := none
    trailingOffset := none
    trailingOffsetType := none
    expireTime := none
    displayQty := none
    emulationTrigger := none }

def submitted : OrderEventAny :=
  .submitted { toOrderEvent := event tsEvent, accountId := ⟨"A-1"⟩ }

def accepted : OrderEventAny :=
  .accepted { toOrderEvent := event tsEvent, venueOrderId := ⟨"V-1"⟩, accountId := ⟨"A-1"⟩ }

def updated (n : Nat) (tsEvent : UnixNanos) : OrderEventAny :=
  .updated
    { toOrderEvent := event tsEvent
      venueOrderId := none
      quantity := units n
      price := none
      triggerPrice := none
      protectionPrice := none
      isQuoteQuantity := false }

def filled (tradeId : String) (n : Nat) (tsEvent : UnixNanos) : OrderEventAny :=
  .filled
    { toOrderEvent := event tsEvent
      instrumentId := ⟨"X"⟩
      venueOrderId := ⟨"V-1"⟩
      tradeId := ⟨tradeId⟩
      orderSide := .buy
      lastQty := units n
      lastPx := ⟨100, 2⟩
      liquiditySide := .maker
      tsInit := tsEvent
      positionId := none
      commission := none }

def ran [Build] (events : List OrderEventAny) : Option OrderAny :=
  (OrderAny.tryFrom init).run.bind fun
    | .ok o₀ => runs OrderAny.step o₀ events
    | .error _ => none

theorem ran_cases [Build] {α : Type} (events : List OrderEventAny) {f : OrderAny → α} {a : α}
    (h : (ran events).map f = some a) :
    ∃ o₀ o, (tryFrom init).run = some (.ok o₀) ∧
      runs step o₀ events = some o ∧ f o = a := by
  obtain ⟨o, hran, ha⟩ := map_eq_some_iff.mp h
  obtain ⟨r, hr, hrun⟩ := bind_eq_some_iff.mp hran
  cases r with
  | ok o₀ => exact ⟨o₀, o, hr, hrun, ha⟩
  | error e => nomatch hrun

end Sample

end Nautilus
