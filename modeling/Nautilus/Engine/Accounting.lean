import Nautilus.Engine.Inputs
import Nautilus.Engine.Pass

/-!
# What is filled, and what is counted

`fill_order` counts what it has filled of each order, beside the events it sends. A fill larger than
what is left is cut down for the count, but the event has the whole of it: the cut is a variable
that shadows `last_qty`. And the sizes come from the quantity of the order, not from what is left.

So the `OrderFilled` events of an order total at most its quantity, and the count, where the fills
of each pass fit into what the count leaves of the order.

* `Act.accounted_fill`: one fill that is not cut down keeps count and events together.
* `EngineM.applyFills_filledRaw`: a pass sends the fills it lists.
* `EngineM.perform_accounted`: the calls of a pass that fits keep count and events together.
* `books_kept`: so do runs of passes that fit, with anything but fills in between.
-/

namespace Nautilus

open Lib IndexMap Quantity Acting FillPass

variable {liquiditySide : LiquiditySide} {venuePositionId : Option PositionId} {u : Unit}
  {w w' : World}

/-! ## The books of the engine -/

def EngineEvent.filledRaw (clientOrderId : ClientOrderId) (e : EngineEvent) : Nat :=
  match e.event with
  | .filled event => if event.clientOrderId = clientOrderId then event.lastQty.raw else 0
  | _ => 0

/-- The total of the `OrderFilled` events sent for an order. -/
def World.filledRaw (w : World) (clientOrderId : ClientOrderId) : Nat :=
  (w.events.map (EngineEvent.filledRaw clientOrderId)).sum

/-- Every count that is kept is the total of the events. -/
def World.Accounted (w : World) : Prop :=
  ∀ clientOrderId filledQty, w.engine.cachedFilledQty.get? clientOrderId = some filledQty →
    filledQty.raw = w.filledRaw clientOrderId

/-- Nothing was filled or counted from the first world to the second. -/
def World.SameFills (w w' : World) : Prop :=
  (∀ id, w'.filledRaw id = w.filledRaw id) ∧
    w'.engine.cachedFilledQty = w.engine.cachedFilledQty

theorem World.SameFills.trans {w₁ w₂ w₃ : World} (h : w₁.SameFills w₂) (h' : w₂.SameFills w₃) :
    w₁.SameFills w₃ :=
  ⟨fun id => (h'.1 id).trans (h.1 id), h'.2.trans h.2⟩

theorem World.Accounted.congr (hsame : w.SameFills w') (h : w.Accounted) : w'.Accounted := by
  intro id filledQty hcount
  rw [hsame.2] at hcount
  rw [hsame.1]
  exact h id filledQty hcount

theorem World.filledRaw_send {event : OrderEventAny} {reason : Option Reason}
    (h : w'.events = w.events ++ [⟨event, reason⟩]) (clientOrderId : ClientOrderId) :
    w'.filledRaw clientOrderId =
      w.filledRaw clientOrderId + EngineEvent.filledRaw clientOrderId ⟨event, reason⟩ := by
  simp [World.filledRaw, h]

theorem EngineEvent.filledRaw_of_isFill_eq_false {event : OrderEventAny}
    (h : event.isFill = false) (clientOrderId : ClientOrderId) (reason : Option Reason) :
    EngineEvent.filledRaw clientOrderId ⟨event, reason⟩ = 0 := by
  cases event <;> first | rfl | nomatch h

/-! ## One fill -/

namespace Act

/-- After a fill an order that is done has no count, any other the counted quantity; all other
orders have the same as before. -/
theorem get?_countsAfter (counts : IndexMap ClientOrderId Quantity) (order : EngineOrder)
    (filledQty : Quantity) (id : ClientOrderId) :
    (countsAfter counts order filledQty).get? id =
      if id = order.clientOrderId then
        if order.isDone filledQty = true ∧ order.orderType ≠ .marketToLimit then none
        else some filledQty
      else counts.get? id := by
  unfold countsAfter
  split
  · rw [get?_remove, get?_insert]
    split <;> rfl
  · rw [get?_insert]

section Fill

variable {order : EngineOrder} {event : OrderFilled} {filledQty : Quantity}
  (hid : event.clientOrderId = order.clientOrderId)
  (hevents : w'.events = w.events ++ [⟨.filled event, none⟩])
  (hcounts : w'.engine.cachedFilledQty = countsAfter w.engine.cachedFilledQty order filledQty)

include hid hevents

theorem filledRaw_fill (id : ClientOrderId) :
    w'.filledRaw id =
      w.filledRaw id + if id = order.clientOrderId then event.lastQty.raw else 0 := by
  rw [World.filledRaw_send hevents]
  simp [EngineEvent.filledRaw, hid, eq_comm]

include hcounts

/-- **A fill of an open order keeps count and events together** that is not larger than what is left,
where the order was not filled before unless it is counted. -/
theorem accounted_fill [Build] (hopen : order.isClosed = false)
    (hcounted : w.engine.countedQty order event.lastQty = some filledQty)
    (hfits : w.filledRaw order.clientOrderId + event.lastQty.raw ≤ order.quantity.raw)
    (hcount : w.engine.cachedFilledQty.get? order.clientOrderId = none →
      w.filledRaw order.clientOrderId = 0)
    (hw : w.Accounted) :
    w'.Accounted ∧ (w'.engine.cachedFilledQty.get? order.clientOrderId = none →
      order.quantity.raw ≤ w'.filledRaw order.clientOrderId) := by
  have hfilled := filledRaw_fill hid hevents
  have hkept : filledQty.raw = w.filledRaw order.clientOrderId + event.lastQty.raw := by
    unfold OrderMatchingEngine.countedQty at hcounted
    cases hbefore : w.engine.cachedFilledQty.get? order.clientOrderId with
    | none =>
      rw [hbefore] at hcounted
      cases hcounted
      rw [hcount hbefore, Nat.zero_add]
    | some before =>
      have hsame := hw order.clientOrderId before hbefore
      rw [hbefore] at hcounted
      have hraw := raw_of_add_eq_some hcounted
      rw [minimum_raw, saturatingSub_raw] at hraw
      omega
  refine ⟨fun id counted hget => ?_, fun hnone => ?_⟩
  · rw [hcounts, get?_countsAfter] at hget
    rw [hfilled]
    split_ifs at hget with heq hdone
    · cases hget
      rw [heq, if_pos rfl]
      exact hkept
    · rw [if_neg heq]
      exact hw id counted hget
  · rw [hcounts, get?_countsAfter, if_pos rfl] at hnone
    split_ifs at hnone with hdone
    rw [hfilled, if_pos rfl, ← hkept]
    have hdone := hdone.1
    simp only [EngineOrder.isDone, hopen, Bool.and_eq_true, Bool.false_or,
      decide_eq_true_eq] at hdone
    exact hdone.2

end Fill

/-! ## One act -/

variable [Build] [BookCode] (env : EngineEnv)

def isFill : Act → Bool
  | .fill .. => true
  | _ => false

/-- An act that is no fill keeps count and events together. -/
theorem accounted_of_isFill_eq_false {act : Act} (hfill : act.isFill = false) (hw : w.Accounted)
    (h : step env w act = some w') : w'.Accounted := by
  cases act with
  | fill => cases hfill
  | drop clientOrderId =>
    obtain ⟨hevents, hcounts⟩ := (step_parts env h).2.2.2 rfl
    intro id filledQty hkept
    rw [hcounts, get?_remove] at hkept
    rw [World.filledRaw, hevents]
    split at hkept
    · cases hkept
    · exact hw id filledQty hkept
  | emit event reason =>
    simp only [step, Option.ite_none_left_eq_some, Option.some.injEq] at h
    obtain ⟨hevent, rfl⟩ := h
    refine World.Accounted.congr (w := w) ⟨fun id => ?_, rfl⟩ hw
    rw [World.filledRaw_send rfl,
      EngineEvent.filledRaw_of_isFill_eq_false (Bool.eq_false_iff.mpr hevent)]
    rfl
  | _ =>
    obtain ⟨hevents, hcounts⟩ := (step_parts env h).2.2.2 rfl
    exact hw.congr ⟨fun _ => by rw [World.filledRaw, hevents]; rfl, hcounts⟩

end Act

/-! ## What a pass sends

The fills that `fillCalls` lists are the fills that are sent. Handling the orders linked to
the order may send more, for those orders or, where the links lead back, for this one; so this
is about an order without contingencies. -/

namespace EngineM

variable [Build] [BookCode] {env : EngineEnv} {α β : Type}

/-- Whatever the program returns, it sends no fill and leaves the counts. -/
def FillsNothing (m : EngineM env α) : Prop :=
  ∀ w a w', m.run w = some (a, w') → w.SameFills w'

namespace FillsNothing

variable {m : EngineM env α}

theorem of_isQuiet (h : IsQuiet env m) : FillsNothing m := by
  intro w a w' hw
  obtain ⟨_, _, _, -, rfl⟩ := h w a w' hw
  exact ⟨fun _ => rfl, rfl⟩

theorem bind {f : α → EngineM env β} (hm : FillsNothing m) (hf : ∀ a, FillsNothing (f a)) :
    FillsNothing (m >>= f) := by
  intro w b w' hw
  obtain ⟨a, w₁, hfirst, hrest⟩ := bind_run_eq_some.mp hw
  exact (hm w a w₁ hfirst).trans (hf a w₁ b w' hrest)

theorem dispatch {event : OrderEventAny} (h : event.isFill = false) (reason : Option Reason) :
    FillsNothing (dispatchOrderEvent env event reason h) := by
  intro w a w' hw
  cases hw
  refine ⟨fun id => ?_, rfl⟩
  rw [World.filledRaw_send rfl, EngineEvent.filledRaw_of_isFill_eq_false h]
  rfl

theorem deleteResting (clientOrderId : ClientOrderId) :
    FillsNothing (deleteResting clientOrderId : EngineM env Unit) := by
  intro w a w' hw
  obtain ⟨_, rfl, -⟩ := deleteResting_cases env hw
  exact ⟨fun _ => rfl, rfl⟩

variable (order : EngineOrder)

theorem stamp : FillsNothing (stamp env order) :=
  of_isQuiet (.bind .read fun _ => .pure _)

variable (env)

theorem generateOrderRejected (reason : Reason) :
    FillsNothing (generateOrderRejected env order reason) :=
  (of_isQuiet (.accountIdOf env order)).bind fun _ => (stamp order).bind fun _ => dispatch rfl _

theorem generateOrderUpdated (quantity : Quantity) (price triggerPrice : Option Price) :
    FillsNothing (generateOrderUpdated env order quantity price triggerPrice) :=
  (stamp order).bind fun _ => dispatch rfl _

end FillsNothing

variable {handlers : Handlers env} {order : EngineOrder} {calls : List FillCall}
  {moved : Option Price} {lastPx : Price} {lastQty : Quantity}

theorem handleContingencies_eq_pure (h : env.handlesContingencies order = false) :
    handleContingencies env handlers order = pure () := by
  unfold handleContingencies
  rw [EngineEnv.handlesContingencies, Bool.and_eq_false_iff] at h
  rcases h with h | h
  · simp [h]
  unfold EngineOrder.isContingent at h
  split
  · rfl
  · split <;> simp_all

/-- **Run rule for a pass**: what each call hands on to the calls after it holds at the end. -/
theorem perform_inv {I : World → List FillCall → Prop}
    (hquiet : ∀ {w w' : World} {call : FillCall} {calls : List FillCall}, w.SameFills w' →
      filled (call :: calls) = filled calls → (Orderly (call :: calls) → Orderly calls) →
      I w (call :: calls) → I w' calls)
    (hfill : ∀ {w w' : World} {price lastPx : Price} {quantity : Quantity} {calls : List FillCall},
      (fillOrder env handlers order lastPx quantity liquiditySide venuePositionId).run w =
        some ((), w') → I w (.fill price quantity :: calls) → I w' calls)
    (hcancel : ∀ {w w' : World} {calls : List FillCall},
      (cancelOrder env order).run w = some ((), w') → I w (.cancel :: calls) → I w' calls)
    (h : I w calls)
    (hrun : (perform env handlers order liquiditySide venuePositionId moved calls).run w =
      some (u, w')) : I w' [] := by
  induction calls generalizing moved w with
  | nil =>
    cases hrun
    exact h
  | cons call calls ih =>
    cases call with
    | reject =>
      obtain ⟨_, w₁, hcall, hrest⟩ := bind_run_eq_some.mp hrun
      exact ih (hquiet (FillsNothing.generateOrderRejected env order _ w _ w₁ hcall) rfl id h) hrest
    | update quantity price =>
      obtain ⟨_, w₁, hcall, hrest⟩ := bind_run_eq_some.mp hrun
      have hsame := FillsNothing.generateOrderUpdated env order quantity price none w _ w₁ hcall
      exact ih (hquiet hsame rfl id h) hrest
    | slip price =>
      obtain ⟨_, w₁, hdraw, hrun⟩ := bind_run_eq_some.mp hrun
      obtain ⟨_, w₂, hmoved, hrest⟩ := bind_run_eq_some.mp hrun
      have hsame := (FillsNothing.of_isQuiet (.draw _) w _ w₁ hdraw).trans
        (FillsNothing.of_isQuiet (.ofOption _) w₁ _ w₂ hmoved)
      exact ih (hquiet hsame rfl id h) hrest
    | fill price quantity =>
      obtain ⟨_, w₁, hcall, hrest⟩ := bind_run_eq_some.mp hrun
      exact ih (hfill hcall h) hrest
    | cancel =>
      obtain ⟨_, w₁, hcall, hrest⟩ := bind_run_eq_some.mp hrun
      exact ih (hcancel hcall h) hrest
    | exhausted => cases hrun

/-- The calls that are left fit into the open order, which is counted unless it was not filled yet
or is not filled any more. -/
structure Fitting (w : World) (order : EngineOrder) (calls : List FillCall) : Prop where
  isOpen : order.isClosed = false
  orderly : Orderly calls
  accounted : w.Accounted
  fits : w.filledRaw order.clientOrderId + filled calls ≤ order.quantity.raw
  counted : w.engine.cachedFilledQty.get? order.clientOrderId = none →
    w.filledRaw order.clientOrderId = 0 ∨ filled calls = 0

section Plain

variable (hplain : env.handlesContingencies order = false)

include hplain

/-- A cancel sends no fill, and drops no count but that of the order. -/
theorem cancelOrder_cases (h : (cancelOrder env order).run w = some (u, w')) :
    (∀ id, w'.filledRaw id = w.filledRaw id) ∧
      (w'.engine.cachedFilledQty = w.engine.cachedFilledQty ∨
        w'.engine.cachedFilledQty = w.engine.cachedFilledQty.remove order.clientOrderId) := by
  obtain ⟨_, _, h, hrest⟩ := bind_run_eq_some.mp h
  rw [hplain, Bool.and_false, if_neg Bool.false_ne_true] at hrest
  cases hrest
  unfold cancelAlone at h
  split at h
  · cases h
    exact ⟨fun _ => rfl, .inl rfl⟩
  obtain ⟨_, w₁, hdelete, h⟩ := bind_run_eq_some.mp h
  obtain ⟨_, w₂, hdrop, h⟩ := bind_run_eq_some.mp h
  have hcanceled : FillsNothing (do
      let _ ← getVenueOrderId env order
      generateOrderCanceled env order) :=
    (FillsNothing.of_isQuiet (.getVenueOrderId env order)).bind fun _ =>
      (FillsNothing.stamp order).bind fun _ => FillsNothing.dispatch rfl _
  obtain ⟨hfilled, hcounts⟩ := FillsNothing.deleteResting _ w _ w₁ hdelete
  obtain ⟨hfilled', hcounts'⟩ := hcanceled w₂ _ w' h
  cases hdrop
  refine ⟨fun id => (hfilled' id).trans (hfilled id), .inr (hcounts'.trans ?_)⟩
  exact congrArg (·.remove order.clientOrderId) hcounts

/-- One call of `fill_order` is one fill, of the quantity it is called with. -/
theorem fillOrder_cases
    (h : (fillOrder env handlers order lastPx lastQty liquiditySide venuePositionId).run w =
      some (u, w')) :
    ∃ event filledQty, event.clientOrderId = order.clientOrderId ∧ event.lastQty = lastQty ∧
      w.engine.countedQty order event.lastQty = some filledQty ∧
      w'.events = w.events ++ [⟨.filled event, none⟩] ∧
      w'.engine.cachedFilledQty = Act.countsAfter w.engine.cachedFilledQty order filledQty := by
  obtain ⟨_, _, hfill, hrest⟩ := bind_run_eq_some.mp h
  rw [handleContingencies_eq_pure hplain] at hrest
  cases hrest
  obtain ⟨event, _, _, _, hqty, hstep⟩ := recordFill_cases env hfill
  obtain ⟨⟨hid, -⟩, filledQty, _, hcounted, -, rfl⟩ := (Act.step_fill_eq_some env).mp hstep
  exact ⟨event, filledQty, hid, hqty, hcounted, rfl, rfl⟩

theorem fillOrder_filledRaw
    (h : (fillOrder env handlers order lastPx lastQty liquiditySide venuePositionId).run w =
      some (u, w')) :
    w'.filledRaw order.clientOrderId = w.filledRaw order.clientOrderId + lastQty.raw := by
  obtain ⟨event, _, hid, rfl, -, hevents, -⟩ := fillOrder_cases hplain h
  rw [Act.filledRaw_fill hid hevents, if_pos rfl]

/-- **A pass sends the fills it lists.** -/
theorem perform_filledRaw
    (h : (perform env handlers order liquiditySide venuePositionId moved calls).run w =
      some (u, w')) :
    w'.filledRaw order.clientOrderId = w.filledRaw order.clientOrderId + filled calls := by
  refine perform_inv (fun hsame hfilled _ h => ?_) (fun hfill h => ?_) (fun hcancel h => ?_)
    (I := fun w' rest => w'.filledRaw order.clientOrderId + filled rest =
      w.filledRaw order.clientOrderId + filled calls) rfl h
  · rw [hsame.1, ← hfilled]
    exact h
  · rw [fillOrder_filledRaw hplain hfill, Nat.add_assoc]
    exact h
  · rw [(cancelOrder_cases hplain hcancel).1]
    exact h

/-- One call of `fill_order` leaves the rest of the pass fitting. -/
theorem Fitting.fill {price : Price} {quantity : Quantity}
    (h : Fitting w order (.fill price quantity :: calls))
    (hrun : (fillOrder env handlers order lastPx quantity liquiditySide venuePositionId).run w =
      some (u, w')) : Fitting w' order calls := by
  obtain ⟨hpos, horderly⟩ := h.orderly
  have hraw := fillOrder_filledRaw hplain hrun
  obtain ⟨event, filledQty, hid, rfl, hcounted, hevents, hcounts⟩ := fillOrder_cases hplain hrun
  have hfits := h.fits
  have hcount := h.counted
  rw [filled] at hfits hcount
  obtain ⟨haccounted, hnone⟩ := Act.accounted_fill hid hevents hcounts h.isOpen hcounted (by omega)
    (fun hnone => (hcount hnone).resolve_right (by omega)) h.accounted
  refine ⟨h.isOpen, horderly, haccounted, by omega, fun hdropped => .inr ?_⟩
  have hle := hnone hdropped
  omega

theorem Fitting.cancel (h : Fitting w order (.cancel :: calls))
    (hrun : (cancelOrder env order).run w = some (u, w')) : Fitting w' order calls := by
  obtain ⟨hraw, hcounts⟩ := cancelOrder_cases hplain hrun
  obtain ⟨hnone, horderly⟩ := h.orderly
  refine ⟨h.isOpen, horderly, fun id filledQty hkept => ?_, ?_, fun _ => .inr hnone⟩
  · rw [hraw]
    refine h.accounted id filledQty ?_
    rcases hcounts with hcounts | hcounts <;> rw [hcounts] at hkept
    · exact hkept
    · rw [get?_remove] at hkept
      exact ((Option.ite_none_left_eq_some).mp hkept).2
  · rw [hraw]
    exact h.fits

/-- **The calls of a pass that fits keep count and events together.** -/
theorem perform_accounted (h : Fitting w order calls)
    (hrun : (perform env handlers order liquiditySide venuePositionId moved calls).run w =
      some (u, w')) : w'.Accounted := by
  refine (perform_inv (I := fun w calls => Fitting w order calls) ?_
    (fun hfill h => h.fill hplain hfill) (fun hcancel h => h.cancel hplain hcancel) h hrun).accounted
  intro w w' call calls hsame hfilled horderly h
  refine ⟨h.isOpen, horderly h.orderly, h.accounted.congr hsame, ?_, ?_⟩
  · rw [hsame.1, ← hfilled]
    exact h.fits
  · rw [hsame.1, hsame.2, ← hfilled]
    exact h.counted

end Plain

/-- `apply_fills`, from the world before it to the world after it. -/
theorem applyFills_filledRaw {pass : FillPass}
    (hplain : env.handlesContingencies pass.order = false)
    (h : (applyFills env handlers pass liquiditySide venuePositionId).run w = some (u, w')) :
    ∃ calls, pass.fillCalls env = some calls ∧
      w'.filledRaw pass.order.clientOrderId =
        w.filledRaw pass.order.clientOrderId + filled calls := by
  obtain ⟨calls, _, hof, hrest⟩ := bind_run_eq_some.mp h
  obtain ⟨hcalls, rfl⟩ := Prog.ofOption_eq_some.mp hof
  exact ⟨calls, hcalls, perform_filledRaw hplain hrest⟩

end EngineM

/-- The calls of a pass are orderly, and take at most the total of its fills. -/
theorem FillPass.orderly_of_fillCalls [Build] {env : EngineEnv} {pass : FillPass}
    {calls : List FillCall} (h : pass.fillCalls env = some calls) :
    Orderly calls ∧ filled calls ≤ totalOf pass.fills := by
  obtain ⟨-, rfl⟩ | ⟨-, -, -, rfl⟩ | ⟨-, -, refused, hrefused, rfl⟩ := fillCalls_cases env pass h
  · exact ⟨⟨rfl, trivial⟩, Nat.zero_le _⟩
  · exact ⟨trivial, Nat.zero_le _⟩
  have hcompletion : Orderly (if (pass.loopCalls env pass.fills).2 then pass.completion env
      else []) := by
    unfold completion
    split_ifs <;> simp [Orderly, filled]
  refine ⟨?_, ?_⟩
  · rw [List.append_assoc]
    exact .append hrefused.2 (.append (pass.loopCalls_spec env pass.fills).2.2 hcompletion)
  · rw [filled_pass env pass hrefused]
    exact (taken_le_totalOf env pass _).trans (totalOf_compatible env pass.fills).1

/-! ## Runs -/

/-- A pass of `apply_fills`, or an act of the engine between two passes. -/
inductive Move where
  | pass (p : FillPass) (liquiditySide : LiquiditySide) (venuePositionId : Option PositionId)
  | act (other : Act)

namespace Move

variable [Build] [BookCode] (env : EngineEnv) (handlers : EngineM.Handlers env)

def step (w : World) : Move → Option World
  | .pass p liquiditySide venuePositionId =>
    ((EngineM.applyFills env handlers p liquiditySide venuePositionId).run w).map Prod.snd
  | .act other => if other.isFill then none else other.step env w

/-- The condition on a pass: the order is open and has no contingent orders to handle, no position
caps a fill (the order would be updated to less), the fills fit into what the count leaves of its
quantity, and without a count nothing was sent for it yet. -/
def Fits (w : World) : Move → Prop
  | .pass p _ _ =>
    p.order.isClosed = false ∧ env.handlesContingencies p.order = false ∧
      (∀ fill ∈ p.fills, p.cap env fill.2 = none) ∧
      ((w.engine.cachedFilledQty.get? p.order.clientOrderId).elim 0 Quantity.raw) +
        totalOf p.fills ≤ p.order.quantity.raw ∧
      (w.engine.cachedFilledQty.get? p.order.clientOrderId = none →
        w.filledRaw p.order.clientOrderId = 0)
  | .act _ => True

/-- Every count that is kept is the total of the events, which a pass leaves within the quantity of
its order. -/
def KeepsBooks (w' : World) : Move → Prop
  | .pass p _ _ =>
    w'.Accounted ∧ w'.filledRaw p.order.clientOrderId ≤ p.order.quantity.raw
  | .act _ => w'.Accounted

instance (w : World) (move : Move) : Decidable (move.Fits env w) := by
  unfold Fits
  split <;> infer_instance

variable {env handlers}

/-- **A move that fits keeps the books.** -/
theorem keepsBooks {move : Move} (hfits : move.Fits env w) (hw : w.Accounted)
    (h : move.step env handlers w = some w') : w'.Accounted ∧ move.KeepsBooks w' := by
  cases move with
  | act other =>
    obtain ⟨hfill, h⟩ := Option.ite_none_left_eq_some.mp h
    have haccounted := Act.accounted_of_isFill_eq_false env (Bool.eq_false_iff.mpr hfill) hw h
    exact ⟨haccounted, haccounted⟩
  | pass p liquiditySide venuePositionId =>
    obtain ⟨hopen, hplain, -, hfits, hcount⟩ := hfits
    obtain ⟨⟨_, w'⟩, hrun, rfl⟩ := Option.map_eq_some_iff.mp h
    obtain ⟨calls, w, hof, hrest⟩ := bind_run_eq_some.mp hrun
    obtain ⟨hcalls, rfl⟩ := Prog.ofOption_eq_some.mp hof
    obtain ⟨horderly, hle⟩ := orderly_of_fillCalls hcalls
    have hroom : w.filledRaw p.order.clientOrderId + filled calls ≤ p.order.quantity.raw := by
      cases hget : w.engine.cachedFilledQty.get? p.order.clientOrderId with
      | none =>
        rw [hget] at hfits
        have hzero := hcount hget
        simp only [Option.elim_none] at hfits
        omega
      | some counted =>
        rw [hget] at hfits
        have hsame := hw _ counted hget
        simp only [Option.elim_some] at hfits
        omega
    have haccounted := EngineM.perform_accounted hplain
      ⟨hopen, horderly, hw, hroom, fun hnone => .inl (hcount hnone)⟩ hrest
    refine ⟨haccounted, haccounted, ?_⟩
    rw [EngineM.perform_filledRaw hplain hrest]
    exact hroom

end Move

/-- **From a new engine, along every run of passes that fit, with anything but fills in between, the
events of an order stay within its quantity and agree with the count that is kept.** -/
theorem books_kept [Build] [BookCode] (env : EngineEnv) (handlers : EngineM.Handlers env)
    {moves : List Move} (hnew : w.engine = .new env)
    (hfits : Along (Move.step env handlers) (fun w move _ => move.Fits env w) w moves) :
    Along (Move.step env handlers) (fun _ move w' => move.KeepsBooks w') w moves := by
  have hw : w.Accounted := by
    intro id filledQty hkept
    rw [hnew] at hkept
    nomatch hkept
  exact hfits.of_inv World.Accounted (fun _ _ _ hw hstep hfits => Move.keepsBooks hfits hw hstep) hw

section Instances

attribute [local instance] Build.standard BookCode.truncating

namespace EngineM.Sample

def applyNow (event : OrderEventAny) (cache : Cache) : Cache :=
  cache.updateOrder event.clientOrderId fun order =>
    match order.base.apply event with
    | some (base, .ok ()) => { order with base }
    | _ => order

def limit : EngineOrder := order (.limit ⟨core "L" .buy .limit 10 .submitted, price 100⟩) false

def world (env : EngineEnv) (order : EngineOrder) : World where
  engine := .new env
  cache :=
    { orders := IndexMap.empty.insert order.clientOrderId order
      positions := .empty
      orderPosition := .empty
      venueOrderIds := .empty }
  events := []
  draws := 0
  now := 0

/-- An amount offered at a price. -/
def offer (action : BookAction) (at_ : Int) (size : Nat) : Input :=
  .delta
    { instrumentId := ⟨"AUD/USD.SIM"⟩
      action
      order := ⟨.sell, price at_, quantity size, 0⟩
      flags := 0
      sequence := 0
      tsEvent := 0
      tsInit := 0 }

def venue : EngineEnv := env .l2Mbp {} applyNow

/-- The account of the trader becomes known, and two passes fill ten in all. -/
def partialFills : List Move :=
  [.act (.data { (OrderMatchingEngine.new venue).toEngineData with
      accountIds := .insert .empty limit.traderId ⟨"SIM-001"⟩ }),
    .pass ⟨limit, [(price 100, quantity 4)], none⟩ .taker none,
    .pass ⟨limit, [(price 100, quantity 6)], none⟩ .taker none]

def fillFour :=
  applyFills venue (handlersAt venue 0) ⟨limit, [(price 100, quantity 4)], none⟩ .taker none

end EngineM.Sample

open EngineM

open Sample

/-- Four of ten. -/
theorem applyFills_four :
    ∃ w w', fillFour.run w = some ((), w') ∧
      w'.filledRaw ⟨"L"⟩ = w.filledRaw ⟨"L"⟩ + 4000000000 := by
  have h : ((feed venue 0 (world venue limit) (.submit limit ⟨"S-1"⟩)).bind
      fillFour.run).isSome := by decide +kernel
  obtain ⟨w, -, h⟩ := Option.bind_eq_some_iff.mp (Option.eq_some_of_isSome h)
  obtain ⟨_, ⟨⟩, hq⟩ := applyFills_filledRaw rfl h
  exact ⟨w, _, h, hq⟩

/-- An order that is filled by four and by six keeps the books. -/
theorem partialFills_keep_books :
    ((runs (Move.step venue (handlersAt venue 0)) (world venue limit)
        partialFills).map fun w => w.filledRaw ⟨"L"⟩) = some 10000000000 ∧
      Along (Move.step venue (handlersAt venue 0)) (fun _ move w' => move.KeepsBooks w')
        (world venue limit) partialFills :=
  ⟨by decide +kernel, books_kept venue (handlersAt venue 0) rfl (by decide +kernel)⟩

/-- Five are offered, and then ten: the order for ten is filled by five and by ten. -/
theorem limit_overfilled :
    ((runs (feed venue 0) (world venue limit)
        [offer .add 100 5, .submit limit ⟨"SIM-001"⟩,
          offer .update 100 10]).map fun w => w.filledRaw ⟨"L"⟩) = some 15000000000 ∧
      limit.quantity.raw = 10000000000 := by
  decide +kernel

end Instances

end Nautilus
