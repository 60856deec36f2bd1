import Nautilus.Orders.Pending

/-!
# The quantities of an order

`filled_qty`, `leaves_qty`, `overfill_qty` and `trade_ids` are kept by two functions that do not
know of each other: `OrderCore::filled` raises what is filled and decides between `PartiallyFilled`
and `Filled`, and the `update` of an order type replaces the quantity without a look at the status.
`Exact` is what the fields should say of the recorded fills. Sums of raw quantities are assumed to
fit (`Fits`); `filled` would otherwise saturate.

An order left `PartiallyFilled` by an update to a quantity already filled, or by a first fill of
size zero, is not. **`exact_iff_proper`**: a run is exact throughout iff it has no such step.
-/

namespace Nautilus

open Lib List Quantity OrderAny OrderStatus

variable {n p : OrderStatus} {fill : OrderFilled} (c : OrderCore)

def OrderCore.fills : List OrderFilled := c.events.filterMap OrderEventAny.fill?

/-- Some of the quantity is filled, and not all of it. -/
def OrderCore.partlyFilled : Prop :=
  0 < c.filledQty.raw ∧ c.filledQty.raw < c.quantity.raw

/-- The totals are those of the recorded fills. -/
structure Books (c : OrderCore) : Prop where
  filledQty : c.filledQty.raw = (c.fills.map (·.lastQty.raw)).sum
  tradeIds : c.tradeIds = c.fills.map (·.tradeId)
  distinct : c.tradeIds.Nodup
  leavesQty : c.leavesQty.raw = c.quantity.raw - c.filledQty.raw
  whenFilled : c.status = .filled →
    c.quantity.raw ≤ c.filledQty.raw ∧ c.overfillQty.raw = c.filledQty.raw - c.quantity.raw

/-- The quantities and the status say what the recorded fills say. -/
structure Exact (c : OrderCore) : Prop extends Books c where
  whenPartial : c.status = .partiallyFilled → c.partlyFilled

/-- What carries the books from event to event. -/
structure SoundBooks (c : OrderCore) : Prop extends Books c where
  remembers : Remembers c
  noOverfill : c.status ≠ .filled → c.overfillQty.raw = 0

/-- A partially filled order is one, and so is an order that returns to that status. -/
structure Justified (c : OrderCore) : Prop where
  whenPartial : c.status = .partiallyFilled → c.partlyFilled
  whenPending : c.status.isPending = true → c.previousStatus = some .partiallyFilled →
    c.partlyFilled

/-- An accepted update leaves something to fill if the order is, or becomes again, partially filled;
the first accepted fill is not empty. -/
def Proper : OrderEventAny → Prop
  | .updated update =>
    c.accepts (.updated update) →
    (c.status = .partiallyFilled ∨
      c.status = .pendingUpdate ∧ c.previousStatus = some .partiallyFilled) →
    c.filledQty.raw < update.quantity.raw
  | .filled fill =>
    c.accepts (.filled fill) → c.filledQty.raw = 0 → fill.lastQty.raw = 0 → c.quantity.raw = 0
  | _ => True

/-- The filled quantity after an accepted fill is representable. -/
def Fits [Build] : OrderEventAny → Prop
  | .filled fill =>
    c.accepts (.filled fill) → c.filledQty.raw + fill.lastQty.raw ≤ quantityRawTypeMax
  | _ => True

instance (c : OrderCore) (event : OrderEventAny) : Decidable (Proper c event) :=
  match event with
  | .updated _ => inferInstanceAs (Decidable (_ → _ → _))
  | .filled _ => inferInstanceAs (Decidable (_ → _ → _ → _))
  | .initialized _ | .denied _ | .emulated _ | .released _ | .submitted _ | .accepted _
  | .rejected _ | .canceled _ | .expired _ | .triggered _ | .pendingUpdate _
  | .pendingCancel _ | .modifyRejected _ | .cancelRejected _ => .isTrue trivial

instance [Build] (c : OrderCore) (event : OrderEventAny) : Decidable (Fits c event) :=
  match event with
  | .filled _ => inferInstanceAs (Decidable (_ → _))
  | .initialized _ | .denied _ | .emulated _ | .released _ | .submitted _ | .accepted _
  | .rejected _ | .canceled _ | .expired _ | .triggered _ | .pendingUpdate _
  | .pendingCancel _ | .modifyRejected _ | .cancelRejected _ | .updated _ => .isTrue trivial

/-! ## Events that are neither fills nor updates -/

section

variable {c c' : OrderCore} {event : OrderEventAny}

theorem fills_concat (hev : c'.events = c.events ++ [event]) :
    c'.fills = c.fills ++ event.fill?.toList := by
  unfold OrderCore.fills
  rw [hev, filterMap_append, filterMap_cons]
  cases event.fill? <;> rfl

theorem fills_of_not_fill (hev : c'.events = c.events ++ [event]) (hf : event.fill? = none) :
    c'.fills = c.fills := by
  rw [fills_concat hev, hf]
  exact append_nil _

theorem partlyFilled_of_sameBooks (hb : SameBooks c c') (h : c.partlyFilled) : c'.partlyFilled := by
  unfold OrderCore.partlyFilled
  rw [hb.filledQty, hb.quantity]
  exact h

/-- The books are carried over when the order was not filled and is not now. -/
theorem SoundBooks.of_sameBooks (h : SoundBooks c) (hb : SameBooks c c')
    (hev : c'.events = c.events ++ [event]) (hf : event.fill? = none) (hr : Remembers c')
    (hold : c.status ≠ .filled) (hnew : c'.status ≠ .filled) : SoundBooks c' where
  filledQty := by rw [hb.filledQty, fills_of_not_fill hev hf, h.filledQty]
  tradeIds := by rw [hb.tradeIds, fills_of_not_fill hev hf, h.tradeIds]
  distinct := by rw [hb.tradeIds]; exact h.distinct
  leavesQty := by rw [hb.leavesQty, hb.quantity, hb.filledQty, h.leavesQty]
  whenFilled hs := absurd hs hnew
  remembers := hr
  noOverfill _ := by rw [hb.overfillQty]; exact h.noOverfill hold

theorem SoundBooks.refused (h : SoundBooks c) (hr : Remembers c') (hm : Refused c event c') :
    SoundBooks c' := by
  obtain rfl | ⟨-, rfl⟩ := hm.core
  · exact h
  exact
    { filledQty := h.filledQty
      tradeIds := h.tradeIds
      distinct := h.distinct
      leavesQty := h.leavesQty
      whenFilled := h.whenFilled
      remembers := hr
      noOverfill := h.noOverfill }

theorem ne_filled_of_not_closed {s : OrderStatus} (h : s.isClosed = false) : s ≠ .filled := by
  rintro rfl
  nomatch h

theorem Moved.not_fill (hm : Moved c event n c') : event.fill? = none := by
  have ht := hm.target
  cases event <;> first | rfl | nomatch ht

/-- No event names one of the two statuses that fills decide on. -/
theorem Moved.target_ne (hm : Moved c event n c') : n ≠ .filled ∧ n ≠ .partiallyFilled := by
  have ht := hm.target
  cases event <;> cases ht <;> exact ⟨nofun, nofun⟩

theorem SoundBooks.moved (h : SoundBooks c) (hr : Remembers c') (hm : Moved c event n c') :
    SoundBooks c' := by
  obtain ⟨-, hopen⟩ := transition_target hm.target hm.row
  refine h.of_sameBooks hm.books hm.events hm.not_fill hr (ne_filled_of_not_closed hopen) ?_
  rw [hm.status]
  exact hm.target_ne.1

theorem Restored.not_fill (hm : Restored c event p c') : event.fill? = none := by
  have hr := hm.restoring
  cases event <;> first | rfl | nomatch hr

theorem SoundBooks.restored (h : SoundBooks c) (hr : Remembers c') (hm : Restored c event p c') :
    SoundBooks c' := by
  have hold := isClosed_of_isPending hm.pending
  refine h.of_sameBooks hm.books hm.events hm.not_fill hr (ne_filled_of_not_closed hold) ?_
  rw [hm.status]
  exact ne_filled_of_not_closed (isClosed_of_isWorking (hm.working h.remembers))

theorem Justified.refused (h : Justified c) (hm : Refused c event c') : Justified c' := by
  obtain rfl | ⟨hn, rfl⟩ := hm.core
  · exact h
  · exact ⟨h.whenPartial, fun hp => nomatch hn.symm.trans hp⟩

theorem Justified.moved (h : Justified c) (hm : Moved c event n c') : Justified c' where
  whenPartial hs := absurd (hm.status.symm.trans hs) hm.target_ne.2
  whenPending _ hprev := by
    rw [hm.previousStatus, OrderCore.saved] at hprev
    apply partlyFilled_of_sameBooks hm.books
    -- what is saved is an older saved status, or the one just left
    split at hprev
    · rename_i hpend
      exact h.whenPending hpend hprev
    · exact h.whenPartial (Option.some.inj hprev)

theorem Justified.restored (h : Justified c) (hr : Remembers c) (hm : Restored c event p c') :
    Justified c' where
  whenPartial hs := by
    rw [hm.status] at hs
    exact partlyFilled_of_sameBooks hm.books (h.whenPending hm.pending (hs ▸ hm.previous))
  whenPending hp _ := by
    rw [hm.status, isPending_of_isWorking (hm.working hr)] at hp
    nomatch hp

/-! ## Updates -/

theorem SoundBooks.requantified {update : OrderUpdated} (h : SoundBooks c) (hr : Remembers c')
    (hm : Requantified c update c') : SoundBooks c' where
  filledQty := by rw [hm.filledQty, fills_of_not_fill hm.events rfl, h.filledQty]
  tradeIds := by rw [hm.tradeIds, fills_of_not_fill hm.events rfl, h.tradeIds]
  distinct := by rw [hm.tradeIds]; exact h.distinct
  leavesQty := by rw [hm.leavesQty, hm.quantity, hm.filledQty, saturatingSub_raw]
  whenFilled hs := by
    rw [hm.status] at hs
    exact absurd hs (ne_filled_of_not_closed (h.remembers.statusAfterUpdate hm.row).2)
  remembers := hr
  noOverfill _ := by
    rw [hm.overfillQty]
    exact h.noOverfill (ne_filled_of_not_closed (transition_updated hm.row).2.1)

/-- An update ends in `PartiallyFilled` where `Proper` says so. -/
theorem statusAfterUpdate_partiallyFilled (h : Remembers c) :
    c.statusAfterUpdate = .partiallyFilled ↔
      c.status = .partiallyFilled ∨
        c.status = .pendingUpdate ∧ c.previousStatus = some .partiallyFilled := by
  unfold OrderCore.statusAfterUpdate
  by_cases hs : c.status = .pendingUpdate
  · obtain ⟨p, hp, -⟩ := h (by rw [hs]; rfl)
    rw [if_pos hs, hp, hs]
    simp
  · rw [if_neg hs]
    simp [hs]

/-- After an update `PartiallyFilled` is right iff the update is proper. -/
theorem Justified.requantified_iff {update : OrderUpdated} (h : Justified c) (hr : Remembers c)
    (hm : Requantified c update c') :
    (c'.status = .partiallyFilled → c'.partlyFilled) ↔ Proper c (.updated update) := by
  unfold OrderCore.partlyFilled
  rw [hm.status, hm.filledQty, hm.quantity]
  constructor
  · intro hpart _ hs
    exact (hpart ((statusAfterUpdate_partiallyFilled hr).mpr hs)).2
  intro hproper hs
  have hpart := (statusAfterUpdate_partiallyFilled hr).mp hs
  refine ⟨?_, hproper hm.accepts hpart⟩
  rcases hpart with hp | ⟨hp, hprev⟩
  · exact (h.whenPartial hp).1
  · exact (h.whenPending (by rw [hp]; rfl) hprev).1

/-! ## Fills -/

variable [Build]

theorem filledAfter_of_fits (h : c.filledQty.raw + fill.lastQty.raw ≤ quantityRawTypeMax) :
    c.filledAfter fill = c.filledQty.raw + fill.lastQty.raw :=
  saturatingAdd_of_le h

section

variable (h : SoundBooks c) (hm : FilledBy c fill c')
  (hfits : c.filledQty.raw + fill.lastQty.raw ≤ quantityRawTypeMax)

include h hm hfits

/-- The overfill after a fill is what exceeds the quantity. -/
theorem SoundBooks.overfill_after :
    c'.overfillQty.raw = c.filledQty.raw + fill.lastQty.raw - c.quantity.raw := by
  have hrow := hm.row
  rw [hm.overfillQty, filledAfter_of_fits hfits,
    h.noOverfill fun hs => by rw [hs] at hrow; nomatch hrow]
  split
  · rw [saturatingAdd_of_le (by omega), Nat.zero_add]
  · omega

theorem SoundBooks.filled : SoundBooks c' := by
  have hfills : c'.fills = c.fills ++ [fill] := fills_concat hm.events
  -- where the sum fits, saturation plays no part and the sums can be compared
  have hover := h.overfill_after hm hfits
  have hstatus := hm.status
  have hfilled := hm.filledQty
  rw [filledAfter_of_fits hfits] at hstatus hfilled
  refine
    { filledQty := ?_, tradeIds := ?_, distinct := ?_, leavesQty := ?_, whenFilled := ?_
      remembers := remembers_of_not_pending hm.not_pending, noOverfill := ?_ }
  · rw [hfilled, hfills, map_append, sum_append, h.filledQty]
    rfl
  · rw [hm.tradeIds, hfills, map_append, h.tradeIds]
    rfl
  · rw [hm.tradeIds]
    refine nodup_append.mpr ⟨h.distinct, pairwise_singleton _ _, ?_⟩
    rintro a ha b hb rfl
    rw [mem_singleton] at hb
    exact hm.fresh (hb ▸ ha)
  · rw [hm.leavesQty, hm.quantity, hfilled, h.leavesQty]
    omega
  · intro hs
    rw [hstatus] at hs
    rw [hm.quantity, hfilled, hover]
    split at hs
    · nomatch hs
    · omega
  · intro hs
    rw [hstatus] at hs
    split at hs
    · omega
    · exact absurd rfl hs

end

/-- After a fill `PartiallyFilled` is right iff something has been filled. -/
theorem filled_iff (hm : FilledBy c fill c')
    (hfits : c.filledQty.raw + fill.lastQty.raw ≤ quantityRawTypeMax) :
    (c'.status = .partiallyFilled → c'.partlyFilled) ↔ Proper c (.filled fill) := by
  have hstatus := hm.status
  have hfilled := hm.filledQty
  rw [filledAfter_of_fits hfits] at hstatus hfilled
  unfold OrderCore.partlyFilled
  rw [hstatus, hm.quantity, hfilled]
  constructor
  · intro hpart _ hz hl
    -- a quantity left over would make the order partially filled with nothing
    by_contra hq
    have := (hpart (if_pos (by omega))).1
    omega
  · intro hproper hs
    have hz := hproper hm.accepts
    split at hs
    · omega
    · nomatch hs

/-! ## Any event -/

variable {r : Except OrderError Unit}

/-- **Step lemma**: every event keeps the books. -/
theorem SoundBooks.effect (h : SoundBooks c) (he : Effect c event c' r) (hfits : Fits c event) :
    SoundBooks c' := by
  have hr : Remembers c' := h.remembers.effect he
  cases he with
  | refused e hm => exact h.refused hr hm
  | moved n hm => exact h.moved hr hm
  | restored p hm => exact h.restored hr hm
  | requantified update hev hm => exact h.requantified hr hm
  | filled fill hev hm =>
    subst hev
    exact h.filled hm (hfits hm.accepts)

/-- **Step lemma**: from a justified order, `PartiallyFilled` is right after an event iff the event
is proper, and the order is then justified. -/
theorem Justified.effect (h : Justified c) (hr : Remembers c) (he : Effect c event c' r)
    (hfits : Fits c event) :
    ((c'.status = .partiallyFilled → c'.partlyFilled) ↔ Proper c event) ∧
      (Proper c event → Justified c') := by
  have hkept (hproper : Proper c event) (hj : Justified c') :
      ((c'.status = .partiallyFilled → c'.partlyFilled) ↔ Proper c event) ∧
        (Proper c event → Justified c') :=
    ⟨⟨fun _ => hproper, fun _ => hj.whenPartial⟩, fun _ => hj⟩
  cases he with
  | refused e hm =>
    -- a refused event is no accepted fill or update
    have hproper : Proper c event := by
      cases event with
      | updated update => exact fun ha => absurd ha (hm.notUpdate update rfl)
      | filled fill => exact fun ha => absurd ha (hm.notFill fill rfl)
      | _ => trivial
    exact hkept hproper (h.refused hm)
  | moved n hm =>
    have hproper : Proper c event := by
      have ht := hm.target
      cases event <;> trivial
    exact hkept hproper (h.moved hm)
  | restored p hm =>
    have hproper : Proper c event := by
      have ht := hm.restoring
      cases event <;> trivial
    exact hkept hproper (h.restored hr hm)
  | requantified update hev hm =>
    subst hev
    have hiff := h.requantified_iff hr hm
    refine ⟨hiff, fun hproper => ⟨hiff.mpr hproper, fun hp => ?_⟩⟩
    rw [hm.status, (hr.statusAfterUpdate hm.row).1] at hp
    nomatch hp
  | filled fill hev hm =>
    subst hev
    have hiff := filled_iff hm (hfits hm.accepts)
    exact ⟨hiff, fun hproper =>
      ⟨hiff.mpr hproper, fun hp => nomatch hm.not_pending.symm.trans hp⟩⟩

end

/-! ## Any run -/

section

variable [Build] {o₀ : OrderAny} {events : List OrderEventAny} {init : OrderInitialized}

theorem sound_new {c : OrderCore} (h : OrderCore.new init = some c) :
    SoundBooks c ∧ Justified c := by
  obtain ⟨_, hzero, rfl⟩ := Option.map_eq_some_iff.mp h
  cases zero_eq_some hzero
  refine ⟨?_, nofun, nofun⟩
  exact
    { filledQty := rfl
      tradeIds := rfl
      distinct := nodup_nil
      leavesQty := rfl
      whenFilled := nofun
      remembers := nofun
      noOverfill := fun _ => rfl }

/-- **Exact accounting.** In a run from a new order with representable filled quantities, quantities
and status are exact in every state iff no accepted update leaves a partially filled order nothing
to fill and no first fill is empty. -/
theorem exact_iff_proper (h₀ : (OrderAny.tryFrom init).run = some (.ok o₀))
    (hfits : Along OrderAny.step (fun o event _ => Fits o.core event) o₀ events) :
    Throughout OrderAny.step (fun o => Exact o.core) o₀ events ↔
      Along OrderAny.step (fun o event _ => Proper o.core event) o₀ events := by
  obtain ⟨_, hnew, -⟩ := new_of_tryFrom h₀
  obtain ⟨hbooks, hjust⟩ := sound_new hnew
  -- the two sides are compared step by step, with `Fits` carried on both
  have hiff :
      Along step (fun o event o' => Exact o'.core ∧ Fits o.core event) o₀ events ↔
        Along step (fun o event _ => Proper o.core event ∧ Fits o.core event) o₀
          events := by
    refine along_iff (fun o => SoundBooks o.core ∧ Justified o.core) ?_ ?_ ⟨hbooks, hjust⟩
    · rintro o event o' ⟨hb, hj⟩ hstep ⟨hproper, hf⟩
      obtain ⟨r, he⟩ := step_effect hstep
      exact ⟨hb.effect he hf, (hj.effect hb.remembers he hf).2 hproper⟩
    · rintro o event o' ⟨hb, hj⟩ hstep
      obtain ⟨r, he⟩ := step_effect hstep
      refine and_congr_left fun hf => ?_
      rw [← (hj.effect hb.remembers he hf).1]
      exact ⟨Exact.whenPartial, fun hp => ⟨(hb.effect he hf).toBooks, hp⟩⟩
  rw [along_and, along_and] at hiff
  rw [throughout_iff_along]
  constructor
  · rintro ⟨-, hexact⟩
    exact (hiff.mp ⟨hexact, hfits⟩).1
  · intro hproper
    exact ⟨⟨hbooks.toBooks, hjust.whenPartial⟩, (hiff.mpr ⟨hproper, hfits⟩).1⟩

end

attribute [local instance] Build.standard

open Sample

/-- An order that is filled after an update, each quantity exact on the way. -/
theorem exact_iff_proper_updated :
    ∃ o₀,
      (OrderAny.tryFrom Sample.init).run = some (.ok o₀) ∧
      Throughout OrderAny.step (fun o => Exact o.core) o₀
        [submitted 2, Sample.accepted 3, filled "T-1" 4 4, updated 6 5,
          filled "T-2" 2 6] := by
  obtain ⟨o₀, o, h₀, hrun, ho⟩ := ran_cases []
    (f := fun o =>
      decide (Along step (fun o event _ => Fits o.core event ∧ Proper o.core event) o
        [submitted 2, Sample.accepted 3, filled "T-1" 4 4, updated 6 5,
          filled "T-2" 2 6]))
    (a := true) (by decide +kernel)
  cases hrun
  obtain ⟨hfits, hproper⟩ := along_and.mp (of_decide_eq_true ho)
  exact ⟨o₀, h₀, (exact_iff_proper h₀ hfits).mpr hproper⟩

/-- Four of ten units are filled and the order is updated to four: it stays partially filled, as
after an empty fill. -/
theorem not_exact_updated_or_empty :
    (∃ o₀ o,
      (OrderAny.tryFrom Sample.init).run = some (.ok o₀) ∧
      runs OrderAny.step o₀
        [submitted 2, Sample.accepted 3, filled "T-1" 4 4, updated 4 5] =
          some o ∧
      o.core.status = .partiallyFilled ∧ o.core.filledQty.raw = o.core.quantity.raw ∧
      ¬ Exact o.core) ∧
    ∃ o₀ o,
      (OrderAny.tryFrom Sample.init).run = some (.ok o₀) ∧
      runs OrderAny.step o₀ [submitted 2, Sample.accepted 3, filled "T-1" 0 4] =
        some o ∧
      o.core.status = .partiallyFilled ∧ o.core.filledQty.raw = 0 ∧ ¬ Exact o.core := by
  constructor
  · obtain ⟨o₀, o, h₀, hrun, ho⟩ := ran_cases
      [submitted 2, Sample.accepted 3, filled "T-1" 4 4, updated 4 5]
      (f := fun o => decide
        (o.core.status = .partiallyFilled ∧ o.core.filledQty.raw = o.core.quantity.raw))
      (a := true) (by decide +kernel)
    obtain ⟨hs, hq⟩ := of_decide_eq_true ho
    refine ⟨o₀, o, h₀, hrun, hs, hq, fun hexact => ?_⟩
    exact absurd hq (Nat.ne_of_lt (hexact.whenPartial hs).2)
  · obtain ⟨o₀, o, h₀, hrun, ho⟩ := ran_cases
      [submitted 2, Sample.accepted 3, filled "T-1" 0 4]
      (f := fun o => decide (o.core.status = .partiallyFilled ∧ o.core.filledQty.raw = 0))
      (a := true) (by decide +kernel)
    obtain ⟨hs, hz⟩ := of_decide_eq_true ho
    refine ⟨o₀, o, h₀, hrun, hs, hz, fun hexact => ?_⟩
    exact absurd hz (Nat.ne_of_gt (hexact.whenPartial hs).1)

end Nautilus
