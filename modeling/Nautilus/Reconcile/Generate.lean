import Nautilus.Orders.Atomicity
import Nautilus.Reconcile.Settling

/-!
# The working copy of reconciliation

`generate_reconciliation_order_events` accepts and amends a working copy and then answers the report
for it. That copy (`Prepared`) can be told from the order: its status is `workingStatus`, its prices
are `workingPrices`, and it differs from the report only where it could not be amended.
`settles_generate_iff` is the condition of `Settling.lean` at that copy, with one case more: an
amendment that returns an order to `Submitted` makes the next call accept it.
-/

namespace Nautilus

open Lib Option OrderCore OrderAny

/-- The statuses of `local_accepts_amendment`. -/
def OrderStatus.isAmendable : OrderStatus → Bool
  | .accepted | .triggered | .partiallyFilled => true
  | _ => false

namespace OrderAny

variable {o o' w : OrderAny} {event : OrderEventAny} {report : OrderStatusReport}
  {events : List OrderEventAny}
  {context : ReconcileContext}

/-- The status of the copy once a submitted order has been accepted. -/
def workingStatus (o : OrderAny) (report : OrderStatusReport) : OrderStatus :=
  if o.shouldAcceptBeforeReconciliation report then .accepted else o.core.status

/-- Whether the copy is amended. -/
def amends (o : OrderAny) (report : OrderStatusReport) : Bool :=
  reportIsConfirmedState report && (o.workingStatus report).isAmendable &&
    o.shouldReconciliationUpdate report

def workingPrices (o : OrderAny) (report : OrderStatusReport) : OrderAny :=
  if o.amends report then o.reprice (o.createReconciliationUpdated report) else o

theorem amends_eq_false (h : o.shouldReconciliationUpdate report = false) :
    o.amends report = false := by
  rw [amends, h, Bool.and_false]

theorem core_workingPrices : (o.workingPrices report).core = o.core := by
  unfold workingPrices
  split
  · exact core_reprice ..
  · rfl

theorem workingStatus_of_not_accepts (h : o.shouldAcceptBeforeReconciliation report = false) :
    o.workingStatus report = o.core.status := by
  rw [workingStatus, h]
  rfl

theorem accepts_eq_false (h : o.core.status ≠ .submitted) :
    o.shouldAcceptBeforeReconciliation report = false :=
  decide_eq_false fun hyes => h hyes.1

theorem takesUpdated_of_isAmendable {s : OrderStatus} (h : s.isAmendable = true) :
    s.takesUpdated = true ∧ s ≠ .pendingUpdate := by
  cases s <;> simp_all [OrderStatus.isAmendable, OrderStatus.takesUpdated]

theorem takesUpdated_of_amends (hno : o.shouldAcceptBeforeReconciliation report = false)
    (h : o.amends report = true) :
    o.core.status.takesUpdated = true ∧ o.core.status ≠ .pendingUpdate := by
  simp only [amends, workingStatus_of_not_accepts hno, Bool.and_eq_true] at h
  exact takesUpdated_of_isAmendable h.1.2

/-! ## What amendments depend on -/

theorem allows_congr {u v : OrderUpdated} (hprice : u.price = v.price)
    (htrigger : u.triggerPrice = v.triggerPrice) : o.allows u = o.allows v := by
  cases u
  cases v
  subst hprice htrigger
  cases o <;> rfl

theorem reprice_congr {u v : OrderUpdated} (hprice : u.price = v.price)
    (htrigger : u.triggerPrice = v.triggerPrice)
    (hprotection : u.protectionPrice = v.protectionPrice) : o.reprice u = o.reprice v := by
  cases u
  cases v
  subst hprice htrigger hprotection
  cases o <;> rfl

theorem typed_withCore {c : OrderCore} (ht : o.Typed) (htype : c.orderType = o.core.orderType) :
    (o.withCore c).Typed := by
  unfold Typed at *
  rw [core_withCore, kind_withCore, htype, ht]

section

variable {c : OrderCore} (htype : c.orderType = o.core.orderType)

include htype

theorem triggerPrice_createUpdated :
    ((o.withCore c).createReconciliationUpdated report).triggerPrice =
      (o.createReconciliationUpdated report).triggerPrice := by
  simp [createReconciliationUpdated, htype]

theorem allows_createUpdated :
    (o.withCore c).allows ((o.withCore c).createReconciliationUpdated report) =
      o.allows (o.createReconciliationUpdated report) := by
  rw [allows_withCore]
  exact allows_congr rfl (triggerPrice_createUpdated htype)

theorem reprice_createUpdated :
    (o.withCore c).reprice ((o.withCore c).createReconciliationUpdated report) =
      (o.reprice (o.createReconciliationUpdated report)).withCore c := by
  rw [reprice_withCore]
  exact congrArg (withCore · c) (reprice_congr rfl (triggerPrice_createUpdated htype) rfl)

end

/-- An accepted copy is amended and priced as the order it was made from. -/
theorem working_of_accepted {c : OrderCore}
    (hyes : o.shouldAcceptBeforeReconciliation report = true) (hstatus : c.status = .accepted)
    (hsame : SameTerms report o (o.withCore c)) :
    (o.withCore c).shouldAcceptBeforeReconciliation report = false ∧
      (o.withCore c).amends report = o.amends report ∧
      (o.withCore c).workingPrices report = (o.workingPrices report).withCore c := by
  have hno : (o.withCore c).shouldAcceptBeforeReconciliation report = false := by
    simp [shouldAcceptBeforeReconciliation, hstatus]
  have hamends : (o.withCore c).amends report = o.amends report := by
    rw [amends, amends, workingStatus_of_not_accepts hno, core_withCore, hstatus, workingStatus,
      if_pos hyes, hsame.shouldReconciliationUpdate]
  refine ⟨hno, hamends, ?_⟩
  have htype := hsame.ledger.orderType
  rw [core_withCore] at htype
  rw [workingPrices, workingPrices, hamends, reprice_createUpdated htype]
  split <;> rfl

/-! ## Orders returned to `Submitted` -/

/-- An order that waits for an amendment since it was submitted, for a report with as much
filled and other terms: the amendment returns it to `Submitted`. -/
def Resubmits (report : OrderStatusReport) (o : OrderAny) : Prop :=
  o.core.status = .pendingUpdate ∧ o.core.previousStatus = some .submitted ∧
    report.orderStatus.reportsFill ∧ o.core.filledQty.raw = report.filledQty.raw ∧
    o.shouldReconciliationUpdate report = true

/-- An amended order is submitted only if it was when the amendment was requested. -/
theorem accepts_of_amended (hamended : Amended report o o')
    (hno : o.shouldAcceptBeforeReconciliation report = false)
    (h : o.core.status = report.orderStatus ∧ report.orderStatus.isPending = false ∨
      report.orderStatus.reportsFill ∧ o.core.filledQty.raw = report.filledQty.raw ∧
        o.shouldReconciliationUpdate report = true) :
    o'.shouldAcceptBeforeReconciliation report = false ↔ ¬ Resubmits report o := by
  have hstatus := hamended.status
  unfold statusAfterUpdate at hstatus
  by_cases hpending : o.core.status = .pendingUpdate
  · rw [if_pos hpending] at hstatus
    obtain ⟨hs, hp⟩ | ⟨hfill, hqty, hdrift⟩ := h
    · rw [← hs, hpending] at hp
      nomatch hp
    have hrejected : report.orderStatus ≠ .rejected := by
      rcases hfill with hr | hr <;> rw [hr] <;> nofun
    have hresubmits : Resubmits report o ↔ o.core.previousStatus = some .submitted :=
      ⟨fun h => h.2.1, fun h => ⟨hpending, h, hfill, hqty, hdrift⟩⟩
    rw [hresubmits, shouldAcceptBeforeReconciliation, decide_eq_false_iff_not, hstatus, hpending]
    cases o.core.previousStatus <;> simp [hrejected]
  · rw [if_neg hpending] at hstatus
    refine iff_of_true ?_ fun h => hpending h.1
    rw [shouldAcceptBeforeReconciliation, hstatus]
    exact hno

/-! ## The condition on a copy -/

variable [Build]

/-- The condition of `Settling.lean` does not see the rest of the core. -/
theorem settlesFrom_withCore {c : OrderCore} {s : OrderStatus} {drift : Bool}
    (hledger : SameLedger report o.core c) :
    SettlesFrom report context (o.withCore c) s drift ↔ SettlesFrom report context o s drift := by
  have hamendable : Amendable report (o.withCore c) s ↔ Amendable report o s := by
    unfold Amendable
    rw [allows_createUpdated hledger.orderType]
  have hfollows : Follows report (o.withCore c) ↔ Follows report o := by
    unfold Follows
    rw [core_withCore, hledger.accountId, hledger.orderType]
  have hpx (instrument : ReconcileInstrument) :
      (o.withCore c).calculateIncrementalFillPrice report instrument =
        o.calculateIncrementalFillPrice report instrument := by
    simp only [calculateIncrementalFillPrice, reportedPrice, core_withCore, price_withCore,
      hledger.filledQty, hledger.avgPx]
  have hmissing (instrument : ReconcileInstrument) (accountId : AccountId) (px : Price) :
      (o.withCore c).missingFill report context instrument accountId px =
        o.missingFill report context instrument accountId px := by
    simp only [missingFill, inferredFill, eventAt, inferredLiquiditySide, core_withCore,
      hledger.clientOrderId, hledger.strategyId, hledger.venueOrderId, hledger.side,
      hledger.orderType, hledger.filledQty]
  have hfillable (fill : OrderFilled) : Fillable (o.withCore c) s fill ↔ Fillable o s fill := by
    have hrecords : (o.withCore c).core.Records fill ↔ o.core.Records fill := by
      rw [core_withCore]
      constructor <;> rintro ⟨h₁, h₂, h₃⟩ <;> refine ⟨?_, h₂, ?_⟩ <;>
        simp only [filledAfter, hledger.filledQty, hledger.avgPx] at * <;> assumption
    have hslippage : (o.withCore c).SlippageDefined ↔ o.SlippageDefined := by
      unfold SlippageDefined
      rw [slippagePrice_withCore]
    constructor <;> rintro ⟨h₁, h₂, h₃, h₄⟩
    · exact ⟨h₁, by rwa [core_withCore, hledger.tradeIds] at h₂, hrecords.mp h₃, hslippage.mp h₄⟩
    · exact ⟨h₁, by rwa [core_withCore, hledger.tradeIds], hrecords.mpr h₃, hslippage.mpr h₄⟩
  have hqty : (o.withCore c).core.filledQty = o.core.filledQty := by
    rw [core_withCore, hledger.filledQty]
  have haccount : (o.withCore c).core.accountId = o.core.accountId := by
    rw [core_withCore, hledger.accountId]
  constructor <;> rintro ⟨h₁, h₂, h₃⟩ <;> refine ⟨?_, ?_, ?_⟩ <;>
    simp only [hamendable, hfollows, hpx, hmissing, hfillable, hqty, haccount] at h₁ h₂ h₃ ⊢ <;>
    assumption

/-! ## The working copy -/

/-- The copy that the report is answered for, and the events that lead to it. -/
structure Copied (report : OrderStatusReport) (o : OrderAny) (events : List OrderEventAny)
    (w : OrderAny) : Prop where
  applied : o.applyAll events = some w
  nil_iff : events = [] ↔
    o.shouldAcceptBeforeReconciliation report = false ∧ o.amends report = false
  shape : w = (o.workingPrices report).withCore w.core
  ledger : SameLedger report o.core w.core
  status : w.core.status = o.workingStatus report
  drift : w.shouldReconciliationUpdate report =
    (o.shouldReconciliationUpdate report && !o.amends report)

theorem Copied.typed (h : Copied report o events w) (ht : o.Typed) : w.Typed := by
  unfold Typed at *
  rw [h.ledger.orderType, ht, h.shape, kind_withCore]
  unfold workingPrices
  split
  · rw [kind_reprice]
  · rfl

theorem amendAndReconcile_eq {events before : List OrderEventAny}
    (h : o.amend report = some (events, w)) :
    o.amendAndReconcile report context before =
      (w.reconcileOrderReport report context).map fun event => before ++ events ++ event.toList := by
  unfold amendAndReconcile
  rw [h]
  cases hR : w.reconcileOrderReport report context <;>
    simp only [bind_eq_bind, bind_some, hR] <;> rfl

theorem amendAndReconcile_panics {before : List OrderEventAny} (h : o.amend report = none) :
    o.amendAndReconcile report context before = none := by
  unfold amendAndReconcile
  rw [h]
  rfl

section

variable (hno : o.shouldAcceptBeforeReconciliation report = false)

include hno

theorem amend_of_amends (h : o.amends report = true) :
    o.amend report =
      (o.apply (o.amendment report)).map fun
        | (w, .ok ()) => ([o.amendment report], w)
        | (w, .error _) => ([], w) := by
  rw [amends, workingStatus_of_not_accepts hno] at h
  exact if_pos h

theorem amend_of_not_amends (h : o.amends report = false) : o.amend report = some ([], o) := by
  rw [amends, workingStatus_of_not_accepts hno] at h
  exact if_neg (ne_true_of_eq_false h)

theorem amend_panics (ht : o.Typed) (h : o.amends report = true)
    (hnot : ¬ o.allows (o.createReconciliationUpdated report) = true) : o.amend report = none := by
  have happly := apply_updated_of_row ht report (takesUpdated_of_amends hno h).1
  rw [if_neg hnot] at happly
  rw [amend_of_amends hno h, happly]
  rfl

/-- The amendment of a copy that is not to be accepted. -/
theorem copied_amend (ht : o.Typed)
    (hallows : o.amends report = true → o.allows (o.createReconciliationUpdated report) = true) :
    ∃ events w, o.amend report = some (events, w) ∧ Copied report o events w := by
  have hstatus := workingStatus_of_not_accepts hno
  cases hamends : o.amends report with
  | false =>
    refine ⟨[], o, amend_of_not_amends hno hamends, rfl, by simp [hno, hamends], ?_,
      ⟨rfl, rfl, rfl, rfl, rfl, rfl, rfl, rfl, rfl⟩, hstatus.symm, by simp [hamends]⟩
    rw [workingPrices, hamends]
    exact (withCore_core o).symm
  | true =>
    obtain ⟨htakes, hpending⟩ := takesUpdated_of_amends hno hamends
    have happly := apply_updated_of_row ht report htakes
    rw [if_pos (hallows hamends)] at happly
    obtain ⟨w, hok, hamended⟩ := happly
    refine ⟨_, w, by rw [amend_of_amends hno hamends, hok]; rfl, ?_, by simp [hamends], ?_,
      hamended.ledger, ?_, by simp [hamends, hamended.settled]⟩
    · rw [applyAll, hok]
      rfl
    · rw [workingPrices, if_pos hamends]
      exact hamended.shape
    · rw [hamended.status, statusAfterUpdate, if_neg hpending, hstatus]

end

/-- The acceptance of a submitted order. -/
theorem accept_copy (hyes : o.shouldAcceptBeforeReconciliation report = true)
    (haccount : o.core.accountId.isSome = true) :
    ∃ accepted c, o.createReconciliationAccepted report = some accepted ∧
      o.apply accepted = some (o.withCore c, .ok ()) ∧ c.status = .accepted ∧
      SameTerms report o (o.withCore c) := by
  obtain ⟨accountId, haccount⟩ := isSome_iff_exists.mp haccount
  have hs : o.core.status = .submitted := (of_decide_eq_true hyes).1
  obtain ⟨e, hevent, hids, haccount', hvenue⟩ :
      ∃ e : OrderAccepted, o.createReconciliationAccepted report = some (.accepted e) ∧
        e.toOrderEvent = o.eventAt report.tsAccepted ∧ e.accountId = accountId ∧
        e.venueOrderId = o.core.venueOrderId.getD report.venueOrderId :=
    ⟨_, by rw [createReconciliationAccepted, haccount]; rfl, rfl, rfl, rfl⟩
  have hrow : o.core.newStatus (.accepted e) = .ok .accepted := by
    show o.core.status.transition (.accepted e) = _
    rw [hs]
    rfl
  obtain ⟨w, hok, hstatus, hsame⟩ := apply_follows rfl (by
    rintro _ ⟨⟩
    exact ⟨haccount.trans (congrArg some haccount'.symm), hvenue⟩)
    (o.matchesIds_eventAt report.tsAccepted (.accepted e) hids) hrow
  have hshape := apply_accepted_shape hok
  rw [hshape] at hok hsame
  exact ⟨_, _, hevent, hok, hstatus, hsame⟩

/-- What `generate_reconciliation_order_events` can panic on before the report is answered. -/
structure Prepares (report : OrderStatusReport) (o : OrderAny) : Prop where
  account : o.shouldAcceptBeforeReconciliation report = true → o.core.accountId.isSome = true
  allowed : o.amends report = true → o.allows (o.createReconciliationUpdated report) = true

theorem exists_copied (ht : o.Typed) (h : Prepares report o) :
    ∃ events w, Copied report o events w ∧ ∀ context,
      o.generateReconciliationOrderEvents report context =
        (w.reconcileOrderReport report context).map fun event => events ++ event.toList := by
  cases haccepts : o.shouldAcceptBeforeReconciliation report with
  | false =>
    obtain ⟨events, w, hamend, hcopied⟩ := copied_amend haccepts ht h.allowed
    refine ⟨events, w, hcopied, fun context => ?_⟩
    rw [generateReconciliationOrderEvents, haccepts, if_neg (by simp), amendAndReconcile_eq hamend]
    rfl
  | true =>
    obtain ⟨accepted, c, hevent, hok, hstatus, hsame⟩ := accept_copy haccepts (h.account haccepts)
    obtain ⟨hno, hamends, hprices⟩ := working_of_accepted haccepts hstatus hsame
    have htype := hsame.ledger.orderType
    rw [core_withCore] at htype
    obtain ⟨events, w, hamend, hcopied⟩ := copied_amend hno (typed_withCore ht htype) (by
      rw [hamends, allows_createUpdated htype]
      exact h.allowed)
    refine ⟨accepted :: events, w, ⟨?_, by simp [haccepts], ?_, ?_, ?_, ?_⟩, fun context => ?_⟩
    · rw [applyAll, hok]
      exact hcopied.applied
    · rw [hcopied.shape, hprices, withCore_withCore, core_withCore]
    · exact hsame.ledger.trans hcopied.ledger
    · rw [hcopied.status, workingStatus_of_not_accepts hno, core_withCore, hstatus, workingStatus,
        if_pos haccepts]
    · rw [hcopied.drift, hamends, hsame.shouldReconciliationUpdate]
    · rw [generateReconciliationOrderEvents, if_pos haccepts, hevent]
      simp only [bind_eq_bind, bind_some, hok, amendAndReconcile_eq hamend]
      rfl

theorem generate_panics (ht : o.Typed) (h : ¬ Prepares report o) (context : ReconcileContext) :
    o.generateReconciliationOrderEvents report context = none := by
  cases haccepts : o.shouldAcceptBeforeReconciliation report with
  | false =>
    rw [generateReconciliationOrderEvents, haccepts, if_neg (by simp)]
    by_cases hamends : o.amends report = true
    · refine amendAndReconcile_panics (amend_panics haccepts ht hamends fun hallows => h ⟨?_, ?_⟩)
      · rw [haccepts]
        nofun
      · exact fun _ => hallows
    · refine absurd ⟨?_, fun hyes => absurd hyes hamends⟩ h
      rw [haccepts]
      nofun
  | true =>
    rw [generateReconciliationOrderEvents, if_pos haccepts]
    cases haccount : o.core.accountId with
    | none => simp [createReconciliationAccepted, haccount]
    | some accountId =>
      have hsome : o.core.accountId.isSome = true := by
        rw [haccount]
        rfl
      obtain ⟨_, c, hevent, hok, hstatus, hsame⟩ := accept_copy haccepts hsome
      obtain ⟨hno, hamends, -⟩ := working_of_accepted haccepts hstatus hsame
      have htype := hsame.ledger.orderType
      rw [core_withCore] at htype
      simp only [hevent, bind_eq_bind, bind_some, hok]
      by_cases hyes : o.amends report = true
      · refine amendAndReconcile_panics (amend_panics hno (typed_withCore ht htype)
          (hamends.trans hyes) fun hallows => h ⟨fun _ => hsome, fun _ => ?_⟩)
        rwa [allows_createUpdated htype] at hallows
      · exact absurd ⟨fun _ => hsome, fun h => absurd h hyes⟩ h

/-! ## What is left for the next call -/

/-- The next call returns nothing iff there is nothing to accept, to amend or to answer. -/
theorem generate_eq_nil_iff (ht : o.Typed) :
    o.generateReconciliationOrderEvents report context = some [] ↔
      o.shouldAcceptBeforeReconciliation report = false ∧ o.amends report = false ∧
        o.Quiet report context := by
  by_cases hprepares : Prepares report o
  · obtain ⟨_, w, hcopied, hgenerate⟩ := exists_copied ht hprepares
    rw [hgenerate, map_eq_some_iff]
    constructor
    · rintro ⟨event, hR, hnil⟩
      obtain ⟨hevents, hevent⟩ := List.append_eq_nil_iff.mp hnil
      obtain ⟨haccepts, hamends⟩ := hcopied.nil_iff.mp hevents
      have happlied := hcopied.applied
      rw [hevents] at happlied
      cases happlied
      cases event with
      | none => exact ⟨haccepts, hamends, hR⟩
      | some event => nomatch hevent
    · rintro ⟨haccepts, hamends, hquiet⟩
      have hevents := hcopied.nil_iff.mpr ⟨haccepts, hamends⟩
      have happlied := hcopied.applied
      rw [hevents] at happlied
      cases happlied
      exact ⟨none, hquiet, by rw [hevents]; rfl⟩
  · rw [generate_panics ht hprepares]
    refine iff_of_false nofun fun h => hprepares ⟨?_, ?_⟩
    · rw [h.1]
      nofun
    · rw [h.2.1]
      nofun

/-- The three kinds of events that `reconcile_order_report` returns. -/
inductive Generates (report : OrderStatusReport) (context : ReconcileContext) (o : OrderAny) :
    OrderEventAny → Prop
  | follow {event : OrderEventAny} (h : FollowedBy report o event) :
      Generates report context o event
  | amend (h : o.core.status = report.orderStatus ∧ report.orderStatus.isPending = false ∨
        report.orderStatus.reportsFill ∧ o.core.filledQty.raw = report.filledQty.raw ∧
          o.shouldReconciliationUpdate report = true) :
      Generates report context o (.updated (o.createReconciliationUpdated report))
  | fill (instrument : ReconcileInstrument) (accountId : AccountId) (px : Price)
      (status : report.orderStatus.reportsFill)
      (more : o.core.filledQty.raw < report.filledQty.raw) :
      Generates report context o (.filled (o.missingFill report context instrument accountId px))

theorem generates_of_mismatch (hfill : report.orderStatus.reportsFill)
    (h : o.reconcileFillQuantityMismatch report context = some (some event)) :
    Generates report context o event := by
  unfold reconcileFillQuantityMismatch at h
  split at h
  · nomatch h
  split at h
  · rename_i hmore
    split at h
    · nomatch h
    split at h
    · rename_i instrument accountId _ _
      rw [createIncrementalInferredFill_eq hmore] at h
      obtain ⟨_, -, h⟩ := map_eq_some_iff.mp h
      obtain ⟨px, -, rfl⟩ := map_eq_some_iff.mp h
      exact .fill instrument accountId px hfill hmore
    · nomatch h
  split at h
  · rename_i hamend
    cases h
    exact .amend (.inr ⟨hfill, by omega, hamend.2⟩)
  · nomatch h

theorem generates_of_report (h : o.reconcileOrderReport report context = some (some event)) :
    Generates report context o event := by
  unfold reconcileOrderReport at h
  split at h
  · nomatch h
  rename_i hp
  rw [Bool.not_eq_true] at hp
  split at h
  · rename_i hsame
    split at h
    · cases h
      exact .amend (.inl ⟨hsame.1, hp⟩)
    · nomatch h
  unfold reconcileStatus at h
  split at h
  · rename_i hr
    split at h
    · rename_i hamend
      cases h
      exact .amend (.inl ⟨hamend.1.trans hr.symm, hp⟩)
    obtain ⟨event', hevent, heq⟩ := map_eq_some_iff.mp h
    cases heq
    obtain ⟨accountId, haccount, -⟩ := map_eq_some_iff.mp hevent
    obtain ⟨event', hevent', hfollowed⟩ := followedBy_accepted hr haccount
    cases hevent.symm.trans hevent'
    exact .follow hfollowed
  · rename_i hr
    have hevent := some.inj h
    obtain ⟨accountId, haccount, -⟩ := map_eq_some_iff.mp hevent
    obtain ⟨hevent', hfollowed⟩ := followedBy_rejected hr haccount context.tsNow
    cases hevent.symm.trans hevent'
    exact .follow hfollowed
  · rename_i hr
    split at h
    · rename_i htype
      cases h
      exact .follow (followedBy_triggered hr htype context.tsNow)
    · nomatch h
  · rename_i hr
    cases h
    exact .follow (followedBy_canceled hr)
  · rename_i hr
    cases h
    exact .follow (followedBy_expired hr)
  · rename_i hr
    exact generates_of_mismatch (.inl hr) h
  · rename_i hr
    exact generates_of_mismatch (.inr hr) h
  · nomatch h

/-- After an event that settles the report nothing is left to amend, or to accept unless the order
was returned to `Submitted`. -/
theorem left_of_settled (ht : o.Typed) (hmax : report.filledQty.raw ≤ quantityRawTypeMax)
    (hno : o.shouldAcceptBeforeReconciliation report = false)
    (hR : o.reconcileOrderReport report context = some (some event))
    (hok : o.apply event = some (o', .ok ())) (hquiet : o'.Quiet report context) :
    o'.shouldReconciliationUpdate report = false ∧
      (o'.shouldAcceptBeforeReconciliation report = false ↔ ¬ Resubmits report o) := by
  cases generates_of_report hR with
  | follow h =>
    cases hn : o.core.newStatus event with
    | error e =>
      obtain ⟨o₁, hrefused⟩ := apply_refused h.ids hn
      cases hrefused.symm.trans hok
    | ok n =>
      obtain ⟨o₁, hok₁, hstatus, hsame⟩ := apply_follows h.kind h.accept h.ids hn
      cases hok₁.symm.trans hok
      rw [h.target hn] at hstatus
      have hfollows : Follows report o' := by
        have := h.follows
        unfold Follows at this ⊢
        rwa [hsame.ledger.accountId, hsame.ledger.orderType]
      refine ⟨((quiet_iff hfollows hstatus).mp hquiet).2, iff_of_true (accepts_eq_false ?_) ?_⟩
      · rw [hstatus]
        exact fun hr => by rw [Follows, hr] at hfollows; exact hfollows
      · exact fun hre => not_follows_of_reportsFill hre.2.2.1 h.follows
  | amend h =>
    have happly := apply_updated ht report
    split at happly
    · obtain ⟨o₁, hok₁, hamended⟩ := happly
      cases hok₁.symm.trans hok
      exact ⟨hamended.settled, accepts_of_amended hamended hno h⟩
    · exact absurd hok (happly o')
  | fill instrument accountId px status more =>
    obtain ⟨-, -, -, -, hto, -⟩ := of_apply_filled
      (o.matchesIds_eventAt report.tsLast (.filled _) rfl) hok
    have hafter : o.core.filledAfter (o.missingFill report context instrument accountId px) = _ :=
      filledAfter_missingFill more hmax
    refine ⟨(quiet_iff_settled status.not_pending (.inr status)
      (hto.filledQty.trans hafter)).mp hquiet, iff_of_true (accepts_eq_false ?_) ?_⟩
    · rcases hto.status with hs | hs <;> rw [hs] <;> nofun
    · rintro ⟨-, -, -, _, -⟩
      omega

/-! ## `generate_reconciliation_order_events` -/

theorem applyAll_append (events more : List OrderEventAny) :
    o.applyAll (events ++ more) = (o.applyAll events).bind fun w => w.applyAll more := by
  induction events generalizing o with
  | nil => rfl
  | cons event events ih =>
    rw [List.cons_append, applyAll, applyAll]
    split
    · exact ih
    · rfl

theorem typed_applyAll (ht : o.Typed) (h : o.applyAll events = some o') : o'.Typed := by
  induction events generalizing o with
  | nil =>
    cases h
    exact ht
  | cons event events ih =>
    rw [applyAll] at h
    split at h
    · rename_i hok
      exact ih (typed_apply hok ht) h
    · cases h

namespace Copied

section

variable (h : Copied report o events w)

include h

theorem not_accepts : w.shouldAcceptBeforeReconciliation report = false := by
  cases haccepts : o.shouldAcceptBeforeReconciliation report with
  | true =>
    refine accepts_eq_false ?_
    rw [h.status, workingStatus, if_pos haccepts]
    nofun
  | false =>
    rw [shouldAcceptBeforeReconciliation, h.status, workingStatus_of_not_accepts haccepts]
    exact haccepts

theorem not_amends : w.amends report = false := by
  cases hamends : o.amends report with
  | true =>
    refine amends_eq_false ?_
    rw [h.drift, hamends]
    simp
  | false =>
    rw [amends, workingStatus_of_not_accepts h.not_accepts, h.status, h.drift, hamends]
    simpa [amends] using hamends

/-- An order that waits for an amendment is neither accepted nor amended. -/
theorem eq_of_pendingUpdate (hs : o.workingStatus report = .pendingUpdate) : w = o := by
  have haccepts : o.shouldAcceptBeforeReconciliation report = false := by
    cases haccepts : o.shouldAcceptBeforeReconciliation report with
    | true =>
      rw [workingStatus, if_pos haccepts] at hs
      nomatch hs
    | false => rfl
  have hamends : o.amends report = false := by
    rw [amends, hs]
    simp [OrderStatus.isAmendable]
  have hnil := h.nil_iff.mpr ⟨haccepts, hamends⟩
  subst hnil
  exact (some.inj h.applied).symm

theorem resubmits_iff : Resubmits report w ↔ Resubmits report o := by
  constructor
  · intro hre
    have heq := h.eq_of_pendingUpdate (h.status.symm.trans hre.1)
    rwa [heq] at hre
  · intro hre
    have hno : o.shouldAcceptBeforeReconciliation report = false := accepts_eq_false (by
      rw [hre.1]
      nofun)
    rwa [h.eq_of_pendingUpdate ((workingStatus_of_not_accepts hno).trans hre.1)]

theorem settlesFrom_iff :
    SettlesFrom report context w w.core.status (w.shouldReconciliationUpdate report) ↔
      SettlesFrom report context (o.workingPrices report) (o.workingStatus report)
        (o.shouldReconciliationUpdate report && !o.amends report) := by
  rw [h.status, h.drift]
  have hledger : SameLedger report (o.workingPrices report).core w.core := by
    rw [core_workingPrices]
    exact h.ledger
  conv_lhs => rw [h.shape]
  exact settlesFrom_withCore hledger

end

end Copied

/-- The generated events settle the order iff the answer settles the copy they lead to, and does not
return it to `Submitted`. -/
theorem Copied.settles_iff (h : Copied report o events w)
    (ht : o.Typed) (hmax : report.filledQty.raw ≤ quantityRawTypeMax)
    (hgenerate : o.generateReconciliationOrderEvents report context =
      (w.reconcileOrderReport report context).map fun event => events ++ event.toList) :
    Settles (generateReconciliationOrderEvents · report context) o ↔
      ¬ Resubmits report w ∧ Settles (reconcileEvents report context) w := by
  have htw := h.typed ht
  constructor
  · rintro ⟨all, o', hall, happly, hnil⟩
    obtain ⟨event, hR, rfl⟩ := map_eq_some_iff.mp (hgenerate.symm.trans hall)
    rw [applyAll_append, h.applied, bind_some] at happly
    obtain ⟨haccepts, -, hquiet⟩ := (generate_eq_nil_iff (typed_applyAll htw happly)).mp hnil
    have hsettles : Settles (reconcileEvents report context) w :=
      ⟨event.toList, o', by rw [reconcileEvents, hR]; rfl, happly,
        reconcileEvents_eq_nil_iff.mpr hquiet⟩
    refine ⟨fun hre => ?_, hsettles⟩
    cases event with
    | none =>
      -- the report would have been answered with an amendment
      rw [report_of_settled hre.2.2.1.not_pending (.inr hre.2.2.1) hre.2.2.2.1,
        if_pos hre.2.2.2.2] at hR
      cases hR
    | some event =>
      obtain ⟨o₁, hok, -⟩ := (settles_event_iff hR).mp hsettles
      have happly' : w.applyAll [event] = some o₁ := by
        rw [applyAll, hok]
        rfl
      cases happly'.symm.trans happly
      exact (left_of_settled htw hmax h.not_accepts hR hok hquiet).2.mp haccepts hre
  · rintro ⟨hre, all, o', hall, happly, hnil⟩
    obtain ⟨event, hR, rfl⟩ := map_eq_some_iff.mp hall
    have hquiet := reconcileEvents_eq_nil_iff.mp hnil
    refine ⟨events ++ event.toList, o', hgenerate.trans (by rw [hR]; rfl), ?_,
      (generate_eq_nil_iff (typed_applyAll htw happly)).mpr ?_⟩
    · rw [applyAll_append, h.applied]
      exact happly
    cases event with
    | none =>
      cases happly
      exact ⟨h.not_accepts, h.not_amends, hquiet⟩
    | some event =>
      have hok : w.apply event = some (o', .ok ()) := by
        rw [toList, applyAll] at happly
        split at happly
        · rename_i o₁ hok
          cases happly
          exact hok
        · cases happly
      obtain ⟨hdrift, hleft⟩ := left_of_settled htw hmax h.not_accepts hR hok hquiet
      exact ⟨hleft.mpr hre, amends_eq_false hdrift, hquiet⟩

/-- Nothing panics before the report is answered, and the answer settles the working copy for good.
-/
theorem settles_generate_iff (ht : o.Typed) (hle : report.filledQty.raw ≤ report.quantity.raw)
    (hmax : report.filledQty.raw ≤ quantityRawTypeMax) :
    Settles (generateReconciliationOrderEvents · report context) o ↔
      Prepares report o ∧ ¬ Resubmits report o ∧
        (report.orderStatus.isPending = false →
          SettlesFrom report context (o.workingPrices report) (o.workingStatus report)
            (o.shouldReconciliationUpdate report && !o.amends report)) := by
  by_cases hprepares : Prepares report o
  · obtain ⟨events, w, hcopied, hgenerate⟩ := exists_copied ht hprepares
    rw [hcopied.settles_iff ht hmax (hgenerate context), hcopied.resubmits_iff,
      settles_reconcile_iff (hcopied.typed ht) hle hmax, hcopied.settlesFrom_iff]
    simp [hprepares]
  · refine iff_of_false ?_ fun h => hprepares h.1
    rintro ⟨events, _, hgenerate, -⟩
    nomatch (generate_panics ht hprepares context).symm.trans hgenerate

/-- **The events of both functions are safe to apply exactly under these conditions**: each is
applied without an error, and the same report leads to nothing more. -/
theorem reconciliation_safe_iff (ho : o.Reachable) (report : OrderStatusReport)
    (context : ReconcileContext) (hle : report.filledQty.raw ≤ report.quantity.raw)
    (hmax : report.filledQty.raw ≤ quantityRawTypeMax) :
    (Settles (reconcileEvents report context) o ↔
      (report.orderStatus.isPending = false →
        SettlesFrom report context o o.core.status (o.shouldReconciliationUpdate report))) ∧
    (Settles (generateReconciliationOrderEvents · report context) o ↔
      Prepares report o ∧ ¬ Resubmits report o ∧
        (report.orderStatus.isPending = false →
          SettlesFrom report context (o.workingPrices report) (o.workingStatus report)
            (o.shouldReconciliationUpdate report && !o.amends report))) :=
  ⟨settles_reconcile_iff ho.typed hle hmax, settles_generate_iff ho.typed hle hmax⟩

end OrderAny

namespace Sample

/-- A report of the sample order with eight units left and nothing filled. -/
def report (orderStatus : OrderStatus) : OrderStatusReport :=
  { accountId := ⟨"A-1"⟩
    instrumentId := ⟨"ETHUSDT.BINANCE"⟩
    venueOrderId := ⟨"V-1"⟩
    orderSide := .buy
    orderType := .limit
    timeInForce := .gtc
    orderStatus
    quantity := units 8
    filledQty := units 0
    tsAccepted := 3
    tsLast := 9
    venuePositionId := none
    price := some ⟨101, 2⟩
    triggerPrice := none
    avgPx := none
    tsTriggered := none }

def reconcileContext : ReconcileContext :=
  { instrument := some ⟨⟨"ETHUSDT.BINANCE"⟩, 2, 0⟩
    terms := ⟨⟨"ETHUSDT.BINANCE"⟩, false⟩
    tsNow := 10
    inferredTradeId := fun fill => ⟨fill.clientOrderId.value ++ fill.venueOrderId.value⟩ }

end Sample

section

attribute [local instance] Build.standard

open Sample

/-- An accepted order whose venue reports another quantity and price. -/
theorem reconciliation_safe_iff_amended :
    ∃ o₀ o,
      (OrderAny.tryFrom init).run = some (.ok o₀) ∧
      runs OrderAny.step o₀ [submitted 2, Sample.accepted 3] = some o ∧
      OrderAny.Settles (OrderAny.reconcileEvents (Sample.report .accepted) reconcileContext)
        o ∧
      OrderAny.Settles (OrderAny.generateReconciliationOrderEvents · (Sample.report .accepted)
        reconcileContext) o := by
  obtain ⟨o₀, o, h₀, hrun, ho⟩ := ran_cases [submitted 2, Sample.accepted 3]
    (f := fun o => (o.core.status, o.core.filledQty.raw,
      o.shouldReconciliationUpdate (Sample.report .accepted),
      o.allows (o.createReconciliationUpdated (Sample.report .accepted))))
    (a := (.accepted, 0, true, true)) (by decide)
  obtain ⟨hstatus, hqty, hdrift, hallows⟩ :
      o.core.status = .accepted ∧ o.core.filledQty.raw = 0 ∧
        o.shouldReconciliationUpdate (Sample.report .accepted) = true ∧
        o.allows (o.createReconciliationUpdated (Sample.report .accepted)) = true := by
    simpa using ho
  have hno : o.shouldAcceptBeforeReconciliation (Sample.report .accepted) = false :=
    accepts_eq_false (by rw [hstatus]; decide)
  have hworking := workingStatus_of_not_accepts hno
  have hamends : o.amends (Sample.report .accepted) = true := by
    rw [amends, hworking, hstatus, hdrift]
    rfl
  have hfill : ¬ (Sample.report .accepted).orderStatus.reportsFill := by
    rintro (h | h) <;> cases h
  obtain ⟨hreconcile, hgenerate⟩ := reconciliation_safe_iff
    ⟨init, o₀, _, h₀, hrun⟩ (Sample.report .accepted) reconcileContext (by decide)
    (by decide)
  refine ⟨o₀, o, h₀, hrun, hreconcile.mpr fun _ => ?_, hgenerate.mpr ⟨?_, ?_, fun _ => ?_⟩⟩
  · refine ⟨fun _ _ _ => ⟨by rw [hstatus]; rfl, hallows⟩, fun _ h => ?_, fun h => absurd h hfill⟩
    exact absurd ⟨hstatus, hqty⟩ h
  · refine ⟨fun h => ?_, fun _ => hallows⟩
    cases hno.symm.trans h
  · exact fun h => by cases hstatus.symm.trans h.1
  · rw [hdrift, hamends, hworking]
    refine ⟨by rintro _ _ ⟨⟩, fun _ h => ?_, fun h => absurd h hfill⟩
    rw [core_workingPrices] at h
    exact absurd ⟨hstatus, hqty⟩ h

/-- A canceled order that the venue reports as accepted refuses the acceptance both functions
return. -/
theorem not_reconciliation_safe_canceled :
    ∃ o₀ o o' event,
      (OrderAny.tryFrom init).run = some (.ok o₀) ∧
      runs OrderAny.step o₀
        [submitted 2, Sample.accepted 3, .canceled (Sample.event 4)] = some o ∧
      o.reconcileOrderReport (Sample.report .accepted) reconcileContext = some (some event) ∧
      o.generateReconciliationOrderEvents (Sample.report .accepted) reconcileContext =
        some [event] ∧
      o.apply event = some (o', .error .invalidStateTransition) := by
  obtain ⟨o₀, o, h₀, hrun, ho⟩ := ran_cases
    [submitted 2, Sample.accepted 3, .canceled (Sample.event 4)]
    (f := fun o => (o.reconcileOrderReport (Sample.report .accepted) reconcileContext,
      o.generateReconciliationOrderEvents (Sample.report .accepted) reconcileContext,
      (refusal o (Sample.accepted 3)).map fun out => out.2))
    (a := (some (some (Sample.accepted 3)), some [Sample.accepted 3],
      some .invalidStateTransition)) (by decide)
  simp only [Prod.mk.injEq] at ho
  obtain ⟨hreconcile, hgenerate, hrefusal⟩ := ho
  obtain ⟨⟨o', e⟩, hrefusal, rfl⟩ := map_eq_some_iff.mp hrefusal
  exact ⟨o₀, o, o', _, h₀, hrun, hreconcile, hgenerate, apply_of_refusal hrefusal⟩

end

end Nautilus
