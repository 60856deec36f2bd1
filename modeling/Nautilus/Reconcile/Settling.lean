import Nautilus.Reconcile.Safety

/-!
# When reconciliation settles an order

`SettlesFrom` is a condition on the two sides before anything is applied: the order's status has a
row for the event that the report leads to, and nothing is left to differ after it. It is exact for
`reconcile_order_report` (`settles_reconcile_iff`); `settles_generate_iff` adds the acceptance and
the amendment in front of it.
-/

namespace Nautilus

open Option Quantity

/-- The row of the table for the event that follows a report with status `r`. -/
def OrderStatus.takes (s r : OrderStatus) : Bool :=
  match r with
  | .accepted => s.takesAccepted
  | .rejected => s.takesRejected
  | .triggered => s.takesTriggered
  | .canceled => s.takesCanceled
  | .expired => s.takesExpired
  | _ => false

/-- A status that comes with a filled quantity. -/
def OrderStatus.reportsFill (r : OrderStatus) : Prop := r = .partiallyFilled ∨ r = .filled

theorem OrderStatus.reportsFill.not_pending {r : OrderStatus} (h : r.reportsFill) :
    r.isPending = false := by
  rcases h with rfl | rfl <;> rfl

namespace OrderAny

variable {o o' : OrderAny} {accountId : AccountId} {event : OrderEventAny}
  {report : OrderStatusReport} {context : ReconcileContext}

/-! ## The events that follow the report -/

theorem not_follows_of_reportsFill (h : report.orderStatus.reportsFill) : ¬ Follows report o := by
  unfold Follows
  rcases h with hr | hr <;> rw [hr] <;> exact id

structure FollowedBy (report : OrderStatusReport) (o : OrderAny) (event : OrderEventAny) :
    Prop where
  follows : Follows report o
  kind : followsStatus event = true
  ids : o.core.matchesIds event
  accept : ∀ e, event = .accepted e → o.core.accountId = some e.accountId ∧
    e.venueOrderId = o.core.venueOrderId.getD report.venueOrderId
  row : o.core.newStatus event =
    if o.core.status.takes report.orderStatus then .ok report.orderStatus
    else .error .invalidStateTransition

theorem followedBy_accepted (hr : report.orderStatus = .accepted)
    (haccount : o.core.accountId = some accountId) :
    ∃ event, o.createReconciliationAccepted report = some event ∧ FollowedBy report o event := by
  refine ⟨_, by rw [createReconciliationAccepted, haccount]; rfl, ?_, rfl,
    matchesIds_eventAt o report.tsAccepted _ rfl, ?_, ?_⟩
  · unfold Follows
    rw [hr]
    trivial
  · rintro e ⟨⟩
    exact ⟨haccount, rfl⟩
  · rw [hr]
    show o.core.status.transition _ = _
    cases o.core.status <;> rfl

theorem followedBy_rejected (hr : report.orderStatus = .rejected)
    (haccount : o.core.accountId = some accountId) (tsNow : UnixNanos) :
    o.createReconciliationRejected tsNow = some (.rejected (o.eventAt tsNow)) ∧
      FollowedBy report o (.rejected (o.eventAt tsNow)) := by
  refine ⟨by rw [createReconciliationRejected, haccount]; rfl, ?_, rfl,
    matchesIds_eventAt o tsNow _ rfl, nofun, ?_⟩
  · unfold Follows
    rw [hr, haccount]
    rfl
  · rw [hr]
    show o.core.status.transition _ = _
    cases o.core.status <;> rfl

theorem followedBy_triggered (hr : report.orderStatus = .triggered)
    (htype : o.core.orderType ∈ triggerableOrderTypes) (tsNow : UnixNanos) :
    FollowedBy report o (o.createReconciliationTriggered report tsNow) := by
  refine ⟨?_, rfl, matchesIds_eventAt o _ _ rfl, nofun, ?_⟩
  · unfold Follows
    rw [hr]
    exact htype
  · rw [hr]
    show (if _ then _ else _) = _
    rw [if_pos htype]
    cases o.core.status <;> rfl

theorem followedBy_canceled (hr : report.orderStatus = .canceled) :
    FollowedBy report o (o.createReconciliationCanceled report) := by
  refine ⟨?_, rfl, matchesIds_eventAt o _ _ rfl, nofun, ?_⟩
  · unfold Follows
    rw [hr]
    trivial
  · rw [hr]
    show o.core.status.transition _ = _
    cases o.core.status <;> rfl

theorem followedBy_expired (hr : report.orderStatus = .expired) :
    FollowedBy report o (o.createReconciliationExpired report) := by
  refine ⟨?_, rfl, matchesIds_eventAt o _ _ rfl, nofun, ?_⟩
  · unfold Follows
    rw [hr]
    trivial
  · rw [hr]
    show o.core.status.transition _ = _
    cases o.core.status <;> rfl

theorem FollowedBy.target (h : FollowedBy report o event) {n : OrderStatus}
    (hn : o.core.newStatus event = .ok n) : n = report.orderStatus := by
  rw [h.row] at hn
  split at hn
  · exact (Except.ok.inj hn).symm
  · nomatch hn

variable [Build]

/-- An event that follows the report settles the order iff it has a row and only the status differs.
-/
theorem FollowedBy.settles_iff (h : FollowedBy report o event)
    (hR : o.reconcileOrderReport report context = some (some event)) :
    Settles (reconcileEvents report context) o ↔
      o.core.status.takes report.orderStatus = true ∧
        o.core.filledQty.raw = report.filledQty.raw ∧
        o.shouldReconciliationUpdate report = false := by
  rw [settles_follow_iff hR h.kind h.ids h.accept h.follows fun n => h.target, h.row]
  cases o.core.status.takes report.orderStatus <;> simp

/-! ## Amendments -/

/-- The status takes an update, and the type the prices of the report. -/
def Amendable (report : OrderStatusReport) (o : OrderAny) (s : OrderStatus) : Prop :=
  s.takesUpdated = true ∧ o.allows (o.createReconciliationUpdated report) = true

theorem settles_amend_iff (ht : o.Typed)
    (hR : o.reconcileOrderReport report context = some (some (o.amendment report)))
    (hquiet : ∀ o', Amended report o o' → o'.Quiet report context) :
    Settles (reconcileEvents report context) o ↔ Amendable report o o.core.status := by
  rw [settles_event_iff hR]
  have happly := apply_updated ht report
  split at happly
  · rename_i hamendable
    obtain ⟨o', hok, hamended⟩ := happly
    exact iff_of_true ⟨o', hok, hquiet o' hamended⟩ hamendable
  · rename_i hnot
    exact iff_of_false (fun ⟨o', hok, _⟩ => happly o' hok) hnot

/-- A report of fills is answered by comparing the quantities. -/
theorem report_of_reportsFill (hfill : report.orderStatus.reportsFill)
    (hdiffer : ¬ (o.core.status = report.orderStatus ∧
      o.core.filledQty.raw = report.filledQty.raw)) :
    o.reconcileOrderReport report context = o.reconcileFillQuantityMismatch report context := by
  rw [reconcileOrderReport, if_neg (by simp [hfill.not_pending]), if_neg hdiffer, reconcileStatus]
  rcases hfill with hr | hr <;> rw [hr]

section

variable (hp : report.orderStatus.isPending = false)
  (hstatus : o.core.status = report.orderStatus ∨ report.orderStatus.reportsFill)
  (hqty : o.core.filledQty.raw = report.filledQty.raw)

include hp hstatus hqty

/-- An order with the quantity of a report that has its status, or says how much is filled, is
amended where it differs and else left alone. -/
theorem report_of_settled :
    o.reconcileOrderReport report context =
      if o.shouldReconciliationUpdate report then
        some (some (o.amendment report))
      else some none := by
  by_cases hs : o.core.status = report.orderStatus
  · rw [reconcileOrderReport, if_neg (by simp [hp]), if_pos ⟨hs, hqty⟩]
  · rw [report_of_reportsFill (hstatus.resolve_left hs) fun h => hs h.1,
      reconcileFillQuantityMismatch, if_neg (by omega), if_neg (by omega)]
    simp [hs]

theorem quiet_iff_settled :
    o.Quiet report context ↔ o.shouldReconciliationUpdate report = false := by
  rw [Quiet, report_of_settled hp hstatus hqty]
  cases o.shouldReconciliationUpdate report <;> simp

end

/-! ## Fills -/

def missingFill (o : OrderAny) (report : OrderStatusReport) (context : ReconcileContext)
    (instrument : ReconcileInstrument) (accountId : AccountId) (px : Price) : OrderFilled :=
  o.inferredFill report context instrument accountId
    (report.filledQty.saturatingSub o.core.filledQty) px

theorem createIncrementalInferredFill_eq {instrument : ReconcileInstrument}
    (hmore : o.core.filledQty.raw < report.filledQty.raw) :
    o.createIncrementalInferredFill report context instrument accountId =
      (zero instrument.sizePrecision).map fun _ =>
        (o.calculateIncrementalFillPrice report instrument).map fun px =>
          .filled (o.missingFill report context instrument accountId px) := by
  have hsub : report.filledQty.sub o.core.filledQty =
      some (report.filledQty.saturatingSub o.core.filledQty) := by
    unfold sub
    rw [if_pos (Nat.le_of_lt hmore)]
    rfl
  unfold createIncrementalInferredFill
  rw [hsub]
  cases hzero : zero instrument.sizePrecision with
  | none => rfl
  | some zero =>
    have hpos : ¬ (report.filledQty.saturatingSub o.core.filledQty).raw ≤ zero.raw := by
      rw [zero_eq_some hzero]
      show ¬ report.filledQty.raw - o.core.filledQty.raw ≤ 0
      omega
    simp only [bind_eq_bind, bind_some, if_neg hpos, map_some]
    rfl

/-- The missing fill can be recorded: a row, a new trade, and conversions that do not panic. -/
structure Fillable (o : OrderAny) (s : OrderStatus) (fill : OrderFilled) : Prop where
  row : s.takesFilled = true
  fresh : fill.tradeId ∉ o.core.tradeIds
  records : o.core.Records fill
  slippage : o.SlippageDefined

section

variable {instrument : ReconcileInstrument} {px : Price}

/-- With the missing fill as much is filled as the report says. -/
theorem filledAfter_missingFill (hmore : o.core.filledQty.raw < report.filledQty.raw)
    (hmax : report.filledQty.raw ≤ quantityRawTypeMax) :
    o.core.filledAfter (o.missingFill report context instrument accountId px) =
      report.filledQty.raw := by
  show saturatingAdd o.core.filledQty.raw (report.filledQty.raw - o.core.filledQty.raw) = _
  rw [saturatingAdd_of_le (by omega)]
  omega

/-- A fill that the quantity of the report covers leaves the difference as it is. -/
theorem FilledTo.shouldReconciliationUpdate {fill : OrderFilled} (h : FilledTo fill o o')
    (hbefore : o.core.filledQty.raw ≤ report.quantity.raw)
    (hafter : o.core.filledAfter fill ≤ report.quantity.raw) :
    o'.shouldReconciliationUpdate report = o.shouldReconciliationUpdate report := by
  unfold OrderAny.shouldReconciliationUpdate
  rw [h.orderType, h.quantity, h.filledQty, h.price, h.triggerPrice]
  simp [hbefore, hafter]

theorem settles_fill_iff (hfill : report.orderStatus.reportsFill)
    (hmore : o.core.filledQty.raw < report.filledQty.raw)
    (hle : report.filledQty.raw ≤ report.quantity.raw)
    (hmax : report.filledQty.raw ≤ quantityRawTypeMax)
    (hR : o.reconcileOrderReport report context =
      some (some (.filled (o.missingFill report context instrument accountId px)))) :
    Settles (reconcileEvents report context) o ↔
      Fillable o o.core.status (o.missingFill report context instrument accountId px) ∧
        o.shouldReconciliationUpdate report = false := by
  rw [settles_event_iff hR]
  have hm := o.matchesIds_eventAt report.tsLast
    (.filled (o.missingFill report context instrument accountId px)) rfl
  have hafter : o.core.filledAfter (o.missingFill report context instrument accountId px) = _ :=
    filledAfter_missingFill hmore hmax
  have hp := hfill.not_pending
  have hquiet : ∀ o', FilledTo (o.missingFill report context instrument accountId px) o o' →
      (o'.Quiet report context ↔ o.shouldReconciliationUpdate report = false) := by
    intro o' hto
    rw [quiet_iff_settled hp (.inr hfill) (hto.filledQty.trans hafter),
      hto.shouldReconciliationUpdate (by omega) (by omega)]
  constructor
  · rintro ⟨o', hok, hq⟩
    obtain ⟨hrow, hfresh, hrecords, hslippage, hto, -⟩ := of_apply_filled hm hok
    exact ⟨⟨hrow, hfresh, hrecords, hslippage⟩, (hquiet o' hto).mp hq⟩
  rintro ⟨⟨hrow, hfresh, hrecords, hslippage⟩, hdrift⟩
  -- the quantities agree, so the fill that reaches the report's does not overfill
  have hqty : report.quantity.raw = o.core.quantity.raw := by
    by_contra hne
    unfold OrderAny.shouldReconciliationUpdate at hdrift
    rw [if_pos ⟨hne, by omega⟩] at hdrift
    nomatch hdrift
  obtain ⟨o', hok⟩ := apply_filled hm hrow hfresh hrecords hslippage (by omega)
    (by rw [hafter]; exact Nat.sub_le ..) (Nat.le_max_right ..)
  obtain ⟨-, -, -, -, hto, -⟩ := of_apply_filled hm hok
  exact ⟨o', hok, (hquiet o' hto).mpr hdrift⟩

end

/-! ## `reconcile_order_report` -/

/-- When the report settles an order with status `s`, by whether it differs from the report in
quantity or prices. -/
structure SettlesFrom (report : OrderStatusReport) (context : ReconcileContext) (o : OrderAny)
    (s : OrderStatus) (drift : Bool) : Prop where
  /-- Where only quantity or prices differ they can be amended. -/
  amend : s = report.orderStatus ∨ report.orderStatus.reportsFill →
    o.core.filledQty.raw = report.filledQty.raw → drift = true → Amendable report o s
  /-- Where an event follows the status there is a row for it and nothing else differs. -/
  follow : Follows report o →
    ¬ (s = report.orderStatus ∧ o.core.filledQty.raw = report.filledQty.raw) →
    (report.orderStatus = .accepted → o.core.accountId.isSome = true) ∧
      s.takes report.orderStatus = true ∧
      o.core.filledQty.raw = report.filledQty.raw ∧ drift = false
  /-- Where a fill is inferred it can be recorded, and quantity and prices agree. -/
  fill : report.orderStatus.reportsFill → o.core.filledQty.raw < report.filledQty.raw →
    s.isClosed = false → ∀ instrument accountId, context.instrument = some instrument →
      o.core.accountId = some accountId →
      (Quantity.zero instrument.sizePrecision).isSome = true ∧
        ∀ px, o.calculateIncrementalFillPrice report instrument = some px →
          Fillable o s (o.missingFill report context instrument accountId px) ∧ drift = false

theorem settles_iff_of_settled (ht : o.Typed) (hp : report.orderStatus.isPending = false)
    (hstatus : o.core.status = report.orderStatus ∨ report.orderStatus.reportsFill)
    (hqty : o.core.filledQty.raw = report.filledQty.raw) :
    Settles (reconcileEvents report context) o ↔
      SettlesFrom report context o o.core.status (o.shouldReconciliationUpdate report) := by
  have hfrom : SettlesFrom report context o o.core.status (o.shouldReconciliationUpdate report) ↔
      (o.shouldReconciliationUpdate report = true → Amendable report o o.core.status) := by
    refine ⟨fun h => h.amend hstatus hqty, fun h => ⟨fun _ _ => h, fun hfollows hdiffer => ?_,
      fun _ hmore => by omega⟩⟩
    rcases hstatus with hs | hfill
    · exact absurd ⟨hs, hqty⟩ hdiffer
    · exact absurd hfollows (not_follows_of_reportsFill hfill)
  rw [hfrom]
  cases hdrift : o.shouldReconciliationUpdate report with
  | false =>
    refine iff_of_true (settles_of_quiet ((quiet_iff_settled hp hstatus hqty).mpr hdrift)) ?_
    rintro ⟨⟩
  | true =>
    have hR : o.reconcileOrderReport report context = some (some (o.amendment report)) := by
      rw [report_of_settled hp hstatus hqty, if_pos hdrift]
    rw [settles_amend_iff ht hR]
    · simp
    intro o' hamended
    refine (quiet_iff_settled hp ?_
      ((congrArg raw hamended.ledger.filledQty).trans hqty)).mpr hamended.settled
    rcases hstatus with hs | hfill
    · -- the status is not `PendingUpdate`, so the amendment keeps it
      left
      rw [hamended.status, OrderCore.statusAfterUpdate, if_neg, hs]
      intro hpending
      rw [← hs, hpending] at hp
      cases hp
    · exact .inr hfill

/-- An accepted order with another quantity filled than an `Accepted` report says is amended and
then accepted again, which the table refuses. -/
theorem not_settles_accepted (ht : o.Typed) (hr : report.orderStatus = .accepted)
    (hs : o.core.status = .accepted) (hqty : o.core.filledQty.raw ≠ report.filledQty.raw)
    (hR : o.reconcileOrderReport report context = some (some (o.amendment report))) :
    ¬ Settles (reconcileEvents report context) o := by
  rw [settles_event_iff hR]
  rintro ⟨o', hok, hquiet⟩
  have happly := apply_updated ht report
  split at happly
  · obtain ⟨_, hok₁, hamended⟩ := happly
    cases hok₁.symm.trans hok
    have hstatus : o'.core.status = report.orderStatus := by
      rw [hamended.status, OrderCore.statusAfterUpdate, hs, hr]
      rfl
    have hfollows : Follows report o' := by
      unfold Follows
      rw [hr]
      trivial
    have hagree := ((quiet_iff hfollows hstatus).mp hquiet).1
    rw [hamended.ledger.filledQty] at hagree
    exact hqty hagree
  · exact happly o' hok

theorem settles_iff_of_follows (ht : o.Typed) (hfollows : Follows report o)
    (hdiffer : ¬ (o.core.status = report.orderStatus ∧
      o.core.filledQty.raw = report.filledQty.raw)) :
    Settles (reconcileEvents report context) o ↔
      (report.orderStatus = .accepted → o.core.accountId.isSome = true) ∧
        o.core.status.takes report.orderStatus = true ∧
        o.core.filledQty.raw = report.filledQty.raw ∧
        o.shouldReconciliationUpdate report = false := by
  have hR (hp : report.orderStatus.isPending = false) :
      o.reconcileOrderReport report context = o.reconcileStatus report context := by
    rw [reconcileOrderReport, if_neg (by simp [hp]), if_neg hdiffer]
  unfold reconcileStatus at hR
  unfold Follows at hfollows
  cases hr : report.orderStatus with
  | accepted =>
    simp only [hr] at hR hdiffer
    replace hR := hR rfl
    by_cases hamend : o.core.status = .accepted ∧ o.shouldReconciliationUpdate report = true
    · rw [if_pos hamend] at hR
      have hqty : o.core.filledQty.raw ≠ report.filledQty.raw := fun h => hdiffer ⟨hamend.1, h⟩
      exact iff_of_false (not_settles_accepted ht hr hamend.1 hqty hR) fun h => hqty h.2.2.1
    rw [if_neg hamend] at hR
    cases haccount : o.core.accountId with
    | none =>
      refine iff_of_false (not_settles_of_panic ?_) fun h => nomatch h.1 rfl
      rw [hR, createReconciliationAccepted, haccount]
      rfl
    | some accountId =>
      obtain ⟨_, hevent, hfollowed⟩ := followedBy_accepted hr haccount
      rw [hevent] at hR
      rw [hfollowed.settles_iff hR, hr]
      simp
  | rejected =>
    simp only [hr] at hR hfollows
    obtain ⟨accountId, haccount⟩ := isSome_iff_exists.mp hfollows
    obtain ⟨hevent, hfollowed⟩ := followedBy_rejected hr haccount context.tsNow
    rw [hfollowed.settles_iff ((hR rfl).trans (congrArg some hevent)), hr]
    simp
  | triggered =>
    simp only [hr] at hR hfollows
    rw [(followedBy_triggered hr hfollows context.tsNow).settles_iff
      ((hR rfl).trans (if_pos hfollows)), hr]
    simp
  | canceled =>
    simp only [hr] at hR
    rw [(followedBy_canceled hr).settles_iff (hR rfl), hr]
    simp
  | expired =>
    simp only [hr] at hR
    rw [(followedBy_expired hr).settles_iff (hR rfl), hr]
    simp
  | _ =>
    rw [hr] at hfollows
    exact hfollows.elim

section

variable (hfill : report.orderStatus.reportsFill)
  (hmore : o.core.filledQty.raw < report.filledQty.raw)

include hfill hmore

variable (hle : report.filledQty.raw ≤ report.quantity.raw)
  (hmax : report.filledQty.raw ≤ quantityRawTypeMax)

include hle hmax

/-- Where a fill is inferred, unless the price cannot be told. -/
theorem settles_iff_of_inferred {instrument : ReconcileInstrument}
    (hopen : o.core.status.isClosed = false) (hinstrument : context.instrument = some instrument)
    (haccount : o.core.accountId = some accountId)
    (hR : o.reconcileOrderReport report context =
      o.createIncrementalInferredFill report context instrument accountId) :
    Settles (reconcileEvents report context) o ↔
      SettlesFrom report context o o.core.status (o.shouldReconciliationUpdate report) := by
  have hfrom : SettlesFrom report context o o.core.status (o.shouldReconciliationUpdate report) ↔
      (zero instrument.sizePrecision).isSome = true ∧
        ∀ px, o.calculateIncrementalFillPrice report instrument = some px →
          Fillable o o.core.status (o.missingFill report context instrument accountId px) ∧
            o.shouldReconciliationUpdate report = false := by
    refine ⟨fun h => h.fill hfill hmore hopen _ _ hinstrument haccount, fun h =>
      ⟨fun _ heq => by omega, fun h => absurd h (not_follows_of_reportsFill hfill), ?_⟩⟩
    intro _ _ _ instrument' accountId' hinstrument' haccount'
    cases hinstrument.symm.trans hinstrument'
    cases haccount.symm.trans haccount'
    exact h
  rw [hfrom]
  rw [createIncrementalInferredFill_eq hmore] at hR
  cases hzero : zero instrument.sizePrecision with
  | none =>
    rw [hzero] at hR
    exact iff_of_false (not_settles_of_panic hR) fun h => nomatch h.1
  | some zero =>
    rw [hzero] at hR
    cases hpx : o.calculateIncrementalFillPrice report instrument with
    | none =>
      rw [hpx] at hR
      exact iff_of_true (settles_of_quiet hR) ⟨rfl, fun px => nofun⟩
    | some px =>
      rw [hpx] at hR
      rw [settles_fill_iff hfill hmore hle hmax hR]
      constructor
      · rintro hfillable
        refine ⟨rfl, ?_⟩
        rintro _ ⟨⟩
        exact hfillable
      · intro h
        exact h.2 px rfl

theorem settles_iff_of_more :
    Settles (reconcileEvents report context) o ↔
      SettlesFrom report context o o.core.status (o.shouldReconciliationUpdate report) := by
  have hfrom (hquiet : o.core.status.isClosed = true ∨ context.instrument = none ∨
      o.core.accountId = none) :
      SettlesFrom report context o o.core.status (o.shouldReconciliationUpdate report) := by
    refine ⟨fun _ heq => by omega, fun h => absurd h (not_follows_of_reportsFill hfill), ?_⟩
    intro _ _ hopen instrument accountId hinstrument haccount
    rcases hquiet with h | h | h
    · cases hopen.symm.trans h
    · cases hinstrument.symm.trans h
    · cases haccount.symm.trans h
  have hR : o.reconcileOrderReport report context = _ :=
    report_of_reportsFill hfill fun h => by omega
  rw [reconcileFillQuantityMismatch, if_neg (by omega), if_pos hmore] at hR
  cases hclosed : o.core.status.isClosed with
  | true =>
    rw [hclosed] at hR
    exact iff_of_true (settles_of_quiet hR) (hfrom (.inl hclosed))
  | false =>
    rw [hclosed] at hR
    cases hinstrument : context.instrument with
    | none =>
      rw [hinstrument] at hR
      exact iff_of_true (settles_of_quiet hR) (hfrom (.inr (.inl hinstrument)))
    | some instrument =>
      cases haccount : o.core.accountId with
      | none =>
        rw [hinstrument, haccount] at hR
        exact iff_of_true (settles_of_quiet hR) (hfrom (.inr (.inr haccount)))
      | some accountId =>
        rw [hinstrument, haccount] at hR
        exact settles_iff_of_inferred hfill hmore hle hmax hclosed hinstrument haccount hR

end

/-- Reports that nothing follows, of an order that is not in sync, are not answered. -/
theorem quiet_of_not_follows (hfollows : ¬ Follows report o)
    (hfill : ¬ report.orderStatus.reportsFill)
    (hdiffer : ¬ (o.core.status = report.orderStatus ∧
      o.core.filledQty.raw = report.filledQty.raw)) : o.Quiet report context := by
  rw [Quiet, reconcileOrderReport, if_neg hdiffer]
  split
  · rfl
  rw [reconcileStatus]
  unfold Follows at hfollows
  cases hr : report.orderStatus with
  | accepted | canceled | expired =>
    rw [hr] at hfollows
    exact absurd trivial hfollows
  | rejected =>
    simp only [hr, Bool.not_eq_true, isSome_eq_false_iff, isNone_iff_eq_none] at hfollows
    simp [createReconciliationRejected, hfollows]
  | triggered =>
    simp only [hr] at hfollows
    exact if_neg hfollows
  | partiallyFilled => exact absurd (.inl hr) hfill
  | filled => exact absurd (.inr hr) hfill
  | _ => rfl

/-- The answer to a report settles the order exactly under the condition; pending states have none.
-/
theorem settles_reconcile_iff (ht : o.Typed) (hle : report.filledQty.raw ≤ report.quantity.raw)
    (hmax : report.filledQty.raw ≤ quantityRawTypeMax) :
    Settles (reconcileEvents report context) o ↔
      (report.orderStatus.isPending = false →
        SettlesFrom report context o o.core.status (o.shouldReconciliationUpdate report)) := by
  cases hp : report.orderStatus.isPending with
  | true =>
    refine iff_of_true (settles_of_quiet ?_) nofun
    rw [Quiet, reconcileOrderReport, if_pos hp]
  | false =>
    simp only [forall_const]
    by_cases hfill : report.orderStatus.reportsFill
    · obtain hless | heq | hmore := Nat.lt_trichotomy report.filledQty.raw o.core.filledQty.raw
      · have hR : o.Quiet report context := by
          rw [Quiet, report_of_reportsFill hfill fun h => by omega, reconcileFillQuantityMismatch,
            if_pos hless]
        exact iff_of_true (settles_of_quiet hR) ⟨fun _ h => by omega,
          fun h => absurd h (not_follows_of_reportsFill hfill), fun _ h => by omega⟩
      · exact settles_iff_of_settled ht hp (.inr hfill) heq.symm
      · exact settles_iff_of_more hfill hmore hle hmax
    by_cases hsame : o.core.status = report.orderStatus ∧
        o.core.filledQty.raw = report.filledQty.raw
    · exact settles_iff_of_settled ht hp (.inl hsame.1) hsame.2
    have hfrom : SettlesFrom report context o o.core.status (o.shouldReconciliationUpdate report) ↔
        (Follows report o → (report.orderStatus = .accepted → o.core.accountId.isSome = true) ∧
          o.core.status.takes report.orderStatus = true ∧
          o.core.filledQty.raw = report.filledQty.raw ∧
          o.shouldReconciliationUpdate report = false) := by
      refine ⟨fun h hfollows => h.follow hfollows hsame, fun h => ⟨?_, fun hf _ => h hf,
        fun hf => absurd hf hfill⟩⟩
      rintro (hs | hf) hqty
      · exact absurd ⟨hs, hqty⟩ hsame
      · exact absurd hf hfill
    rw [hfrom]
    by_cases hfollows : Follows report o
    · rw [settles_iff_of_follows ht hfollows hsame]
      simp [hfollows]
    · exact iff_of_true (settles_of_quiet (quiet_of_not_follows hfollows hfill hsame))
        fun h => absurd h hfollows

end OrderAny

end Nautilus
