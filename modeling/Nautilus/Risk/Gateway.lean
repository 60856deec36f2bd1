import Nautilus.Lib.IndexMap
import Nautilus.Orders.Step

/-!
# Trading states of the risk engine

`RiskEngine` (`risk/src/engine/mod.rs`), from a submit or modify command to what it sends. What does
not read the trading state is arbitrary: `checks` says whether a command passes the checks of
instrument, prices, quantities, notional and balances, `withinRate` whether the throttler lets it
through.

While `Reducing`, the guards compare the side of an order with the direction of the net position and
do not read its quantity: `reducing_shrinks_iff` says when that is enough.
-/

namespace Nautilus

open Lib

inductive TradingState where
  | active
  | halted
  | reducing
deriving DecidableEq

inductive TradingCommand where
  | submitOrder (instrumentId : InstrumentId) (clientOrderId : ClientOrderId)
  | submitOrderList (instrumentId : InstrumentId) (clientOrderIds : List ClientOrderId)
  | modifyOrder (instrumentId : InstrumentId) (clientOrderId : ClientOrderId)
      (quantity : Option Quantity)
deriving DecidableEq

/-- What the engine sends. -/
inductive RiskAction where
  | toExecution (command : TradingCommand)
  | denied (clientOrderId : ClientOrderId) (reason : String)
  | modifyRejected (clientOrderId : ClientOrderId) (reason : String)
  /-- The denials or the rejection of a check, or of a throttler. -/
  | refused (command : TradingCommand)
deriving DecidableEq

structure RiskEngine where
  bypass : Bool
  tradingState : TradingState
  orders : IndexMap ClientOrderId OrderAny
  netPositions : IndexMap InstrumentId ℚ
  checks : TradingCommand → Bool
  withinRate : TradingCommand → Bool

namespace TradingCommand

def instrumentId : TradingCommand → InstrumentId
  | submitOrder instrumentId _ | submitOrderList instrumentId _ | modifyOrder instrumentId _ _ =>
    instrumentId

def isModify : TradingCommand → Bool
  | modifyOrder .. => true
  | _ => false

end TradingCommand

namespace RiskEngine

open TradingCommand

variable (self : RiskEngine) (command : TradingCommand)

def netPosition (instrumentId : InstrumentId) : ℚ := (self.netPositions.get? instrumentId).getD 0

def isNetLong (instrumentId : InstrumentId) : Bool :=
  (self.netPositions.get? instrumentId).any fun net => 0 < net

def isNetShort (instrumentId : InstrumentId) : Bool :=
  (self.netPositions.get? instrumentId).any fun net => net < 0

def ordersForIds (clientOrderIds : List ClientOrderId) : List OrderAny :=
  clientOrderIds.filterMap self.orders.get?

def denyOrder (order : OrderAny) (reason : String) : List RiskAction :=
  if order.core.status ≠ .initialized then [] else [.denied order.core.clientOrderId reason]

def denyOrderList (orders : List OrderAny) (reason : String) : List RiskAction :=
  orders.flatMap fun order => if order.core.status.isClosed then [] else denyOrder order reason

/-- The `send` of the two throttlers. -/
def throttled : List RiskAction :=
  if self.withinRate command then [.toExecution command] else [.refused command]

/-- Why an order is stopped while reducing (`mod.rs:1723-1744`): it goes with the net position. -/
def reducingDenial (instrumentId : InstrumentId) (order : OrderAny) : Option String :=
  if order.core.side = .buy ∧ self.isNetLong instrumentId then
    some ("BUY when TradingState::REDUCING and LONG " ++ instrumentId.value)
  else if order.core.side = .sell ∧ self.isNetShort instrumentId then
    some ("SELL when TradingState::REDUCING and SHORT " ++ instrumentId.value)
  else none

def executionGateway (instrumentId : InstrumentId) : List RiskAction :=
  match self.tradingState, command with
  | .halted, submitOrder _ clientOrderId =>
    (self.orders.get? clientOrderId).elim [] fun order => denyOrder order "TradingState::HALTED"
  | .halted, submitOrderList _ clientOrderIds =>
    denyOrderList (self.ordersForIds clientOrderIds) "TradingState::HALTED"
  | .reducing, submitOrder _ clientOrderId =>
    match self.orders.get? clientOrderId with
    | none => self.throttled command
    | some order =>
      (self.reducingDenial instrumentId order).elim (self.throttled command) (denyOrder order)
  | .reducing, submitOrderList _ clientOrderIds =>
    let orders := self.ordersForIds clientOrderIds
    (orders.findSome? (self.reducingDenial instrumentId)).elim (self.throttled command)
      (denyOrderList orders)
  | .halted, modifyOrder .. | .active, modifyOrder .. => []
  | .reducing, modifyOrder .. | .active, _ => self.throttled command

def handleSubmitOrder (instrumentId : InstrumentId) (clientOrderId : ClientOrderId) :
    List RiskAction :=
  let command := submitOrder instrumentId clientOrderId
  if self.bypass then [.toExecution command]
  else if (self.orders.get? clientOrderId).isNone then []
  else if !self.checks command then [.refused command]
  else self.executionGateway command instrumentId

def handleSubmitOrderList (instrumentId : InstrumentId) (clientOrderIds : List ClientOrderId) :
    List RiskAction :=
  let command := submitOrderList instrumentId clientOrderIds
  if self.bypass then [.toExecution command]
  else if !self.checks command then [.refused command]
  else self.executionGateway command instrumentId

def handleModifyOrder (instrumentId : InstrumentId) (clientOrderId : ClientOrderId)
    (quantity : Option Quantity) : List RiskAction :=
  let command := modifyOrder instrumentId clientOrderId quantity
  match self.orders.get? clientOrderId with
  | none => []
  | some order =>
    let reject reason := [.modifyRejected order.core.clientOrderId reason]
    if !self.checks command then [.refused command]
    else if self.tradingState = .halted then reject "TradingState is HALTED: Cannot modify order"
    else if self.tradingState = .reducing ∧
        (quantity.any fun quantity => order.core.quantity.raw < quantity.raw) ∧
        (self.reducingDenial instrumentId order).isSome then
      reject ("TradingState is REDUCING and update will increase exposure " ++ instrumentId.value)
    else self.throttled command

def handleCommand : List RiskAction :=
  match command with
  | submitOrder instrumentId clientOrderId => self.handleSubmitOrder instrumentId clientOrderId
  | submitOrderList instrumentId clientOrderIds =>
    self.handleSubmitOrderList instrumentId clientOrderIds
  | modifyOrder instrumentId clientOrderId quantity =>
    self.handleModifyOrder instrumentId clientOrderId quantity

/-! ## What is forwarded -/

/-- The cached orders of a command, each with the quantity that the command asks for. -/
def ordersOf : List (OrderAny × Quantity) :=
  match command with
  | submitOrder _ clientOrderId =>
    (self.orders.get? clientOrderId).toList.map fun order => (order, order.core.quantity)
  | submitOrderList _ clientOrderIds =>
    (self.ordersForIds clientOrderIds).map fun order => (order, order.core.quantity)
  | modifyOrder _ clientOrderId quantity =>
    (self.orders.get? clientOrderId).toList.map fun order =>
      (order, quantity.getD order.core.quantity)

/-- A BUY while the net position is long, or a SELL while it is short. -/
def GoesWith (net : ℚ) (order : OrderAny) : Prop :=
  order.core.side = .buy ∧ 0 < net ∨ order.core.side = .sell ∧ net < 0

/-- A side is named only with a quantity of at most twice the net position. -/
def WithinTwice [Build] (net : ℚ) (e : OrderAny × Quantity) : Prop :=
  e.1.core.side ≠ .noOrderSide → (e.2.raw : ℚ) / 10 ^ fixedPrecision ≤ 2 * |net|

instance (net : ℚ) (order : OrderAny) : Decidable (GoesWith net order) :=
  inferInstanceAs (Decidable (_ ∨ _))

instance [Build] (net : ℚ) (e : OrderAny × Quantity) : Decidable (WithinTwice net e) :=
  inferInstanceAs (Decidable (_ → _))

/-- An order of the command goes with the net position, and a modification asks for more. -/
def Stopped : Prop :=
  ∃ e ∈ self.ordersOf command, GoesWith (self.netPosition command.instrumentId) e.1 ∧
    (command.isModify → e.1.core.quantity.raw < e.2.raw)

/-- The command bypasses the checks, or passes them and the throttler and is not stopped. -/
def Cleared : Prop :=
  (self.bypass ∧ !command.isModify) ∨
    (self.checks command ∧ self.withinRate command ∧ ¬ self.Stopped command)

variable {self command}

theorem toExecution_throttled_iff :
    .toExecution command ∈ self.throttled command ↔ self.withinRate command := by
  unfold throttled
  split <;> simp_all

theorem isNetLong_iff {instrumentId : InstrumentId} :
    self.isNetLong instrumentId ↔ 0 < self.netPosition instrumentId := by
  unfold isNetLong netPosition
  cases self.netPositions.get? instrumentId <;> simp

theorem isNetShort_iff {instrumentId : InstrumentId} :
    self.isNetShort instrumentId ↔ self.netPosition instrumentId < 0 := by
  unfold isNetShort netPosition
  cases self.netPositions.get? instrumentId <;> simp

/-- The guard stops the orders that go with the net position. -/
theorem isSome_reducingDenial_iff {instrumentId : InstrumentId} {order : OrderAny} :
    (self.reducingDenial instrumentId order).isSome ↔
      GoesWith (self.netPosition instrumentId) order := by
  unfold reducingDenial GoesWith
  rw [← isNetLong_iff, ← isNetShort_iff]
  split_ifs <;> simp_all

/-- While reducing, a command with orders is forwarded iff it is cleared. -/
theorem forwards_iff (h : self.tradingState = .reducing) (hne : self.ordersOf command ≠ []) :
    .toExecution command ∈ self.handleCommand command ↔ self.Cleared command := by
  cases command with
  | submitOrder instrumentId clientOrderId =>
    cases horder : self.orders.get? clientOrderId with
    | none => simp [ordersOf, horder] at hne
    | some order =>
      simp only [handleCommand, handleSubmitOrder, executionGateway, h, Cleared, Stopped, ordersOf,
        horder, TradingCommand.instrumentId, isModify, ← isSome_reducingDenial_iff]
      cases self.bypass <;> cases self.checks (submitOrder instrumentId clientOrderId) <;>
        cases hdenial : self.reducingDenial instrumentId order <;>
          simp [hdenial, toExecution_throttled_iff, denyOrder]
  | submitOrderList instrumentId clientOrderIds =>
    have hstopped : self.Stopped (submitOrderList instrumentId clientOrderIds) ↔
        ((self.ordersForIds clientOrderIds).findSome?
          (self.reducingDenial instrumentId)).isSome := by
      simp [Stopped, ordersOf, TradingCommand.instrumentId, isModify, ← isSome_reducingDenial_iff]
    simp only [handleCommand, handleSubmitOrderList, executionGateway, h, Cleared, hstopped,
      isModify]
    cases self.bypass <;> cases self.checks (submitOrderList instrumentId clientOrderIds) <;>
      cases (self.ordersForIds clientOrderIds).findSome? (self.reducingDenial instrumentId) <;>
        simp [toExecution_throttled_iff, denyOrderList, denyOrder]
  | modifyOrder instrumentId clientOrderId quantity =>
    cases horder : self.orders.get? clientOrderId with
    | none => simp [ordersOf, horder] at hne
    | some order =>
      simp only [handleCommand, handleModifyOrder, h, Cleared, Stopped, ordersOf, horder,
        TradingCommand.instrumentId, isModify, ← isSome_reducingDenial_iff]
      cases self.checks (modifyOrder instrumentId clientOrderId quantity) <;> cases quantity <;>
        cases hdenial : self.reducingDenial instrumentId order <;>
          simp [hdenial, toExecution_throttled_iff]
      split <;> simp_all [toExecution_throttled_iff]

/-- The change of the net position when an order is executed at a quantity. -/
def exposure [Build] (e : OrderAny × Quantity) : ℚ :=
  match e.1.core.side with
  | .buy => e.2.raw / 10 ^ fixedPrecision
  | .sell => -(e.2.raw / 10 ^ fixedPrecision)
  | .noOrderSide => 0

/-- A step up keeps within the absolute value iff it is no step, or from below zero and at most twice
as long. -/
theorem abs_add_le_abs_iff {x q : ℚ} (hq : 0 ≤ q) :
    |x + q| ≤ |x| ↔ (0 < x → q ≤ 0) ∧ q ≤ 2 * |x| := by
  rcases le_or_gt x 0 with hx | hx
  · rw [abs_of_nonpos hx, abs_le]
    exact ⟨fun h => ⟨fun hpos => absurd hpos hx.not_gt, by linarith⟩,
      fun h => ⟨by linarith, by linarith [h.2]⟩⟩
  · rw [abs_of_pos hx, abs_of_pos (by linarith)]
    exact ⟨fun h => ⟨fun _ => by linarith, by linarith⟩, fun h => by linarith [h.1 hx]⟩

/-- An order lets the exposure only shrink iff it is empty or, against the net position, at most
twice its size. -/
theorem abs_add_exposure_le_iff [Build] {net : ℚ} {e : OrderAny × Quantity} :
    |net + exposure e| ≤ |net| ↔ (GoesWith net e.1 → e.2.raw = 0) ∧ WithinTwice net e := by
  have hq : 0 ≤ (e.2.raw : ℚ) / 10 ^ fixedPrecision := by positivity
  have hzero : e.2.raw = 0 ↔ (e.2.raw : ℚ) / 10 ^ fixedPrecision ≤ 0 := by
    rw [hq.ge_iff_eq, @eq_comm ℚ 0, div_eq_zero_iff, Nat.cast_eq_zero]
    simp
  have hsell : |net + -((e.2.raw : ℚ) / 10 ^ fixedPrecision)| =
      |-net + e.2.raw / 10 ^ fixedPrecision| := by
    rw [← abs_neg, neg_add, neg_neg]
  rw [hzero]
  unfold exposure GoesWith WithinTwice
  cases e.1.core.side with
  | buy => simp [abs_add_le_abs_iff hq]
  | sell =>
    have hstep := abs_add_le_abs_iff (x := -net) hq
    rw [abs_neg] at hstep
    simp [hsell, hstep]
  | noOrderSide => simp

/-- When a command lets the exposure only shrink. A submit behind the guard: one of its orders goes
with the net position, so that nothing is sent, or each asks for at most twice the net position. A
submit that bypasses the guard: no order goes with the net position either. A modification that
goes with the net position asks for more, which is rejected, or for nothing. -/
def Reduces [Build] (self : RiskEngine) (command : TradingCommand) : Prop :=
  let net := self.netPosition command.instrumentId
  let passes := self.checks command ∧ self.withinRate command
  if command.isModify then
    passes → ∀ e ∈ self.ordersOf command,
      (GoesWith net e.1 → e.1.core.quantity.raw < e.2.raw ∨ e.2.raw = 0) ∧
        (¬ GoesWith net e.1 → WithinTwice net e)
  else if self.bypass then
    ∀ e ∈ self.ordersOf command, (GoesWith net e.1 → e.2.raw = 0) ∧ WithinTwice net e
  else
    passes → (∃ e ∈ self.ordersOf command, GoesWith net e.1) ∨
      ∀ e ∈ self.ordersOf command, WithinTwice net e

theorem exists_ordersOf_of_isModify {self : RiskEngine} {command : TradingCommand}
    (hmodify : command.isModify) (hne : self.ordersOf command ≠ []) :
    ∃ e, self.ordersOf command = [e] := by
  cases command with
  | submitOrder | submitOrderList => cases hmodify
  | modifyOrder instrumentId clientOrderId quantity =>
    cases horder : self.orders.get? clientOrderId with
    | none => simp [ordersOf, horder] at hne
    | some order => exact ⟨(order, quantity.getD order.core.quantity), by simp [ordersOf, horder]⟩

/-- **While reducing, what is forwarded lets the exposure only shrink iff** the sides, the
quantities and the net position are as `Reduces` says: the guard reads the sides, and what decides
behind it is twice the net position. -/
theorem reducing_shrinks_iff [Build] (self : RiskEngine) (h : self.tradingState = .reducing)
    (command : TradingCommand) :
    (.toExecution command ∈ self.handleCommand command → ∀ e ∈ self.ordersOf command,
        |self.netPosition command.instrumentId + exposure e| ≤
          |self.netPosition command.instrumentId|) ↔
      self.Reduces command := by
  simp only [abs_add_exposure_le_iff]
  by_cases hne : self.ordersOf command = []
  · simp [Reduces, hne]
  rw [forwards_iff h hne]
  unfold Cleared Stopped Reduces
  cases hmodify : command.isModify with
  | true =>
    obtain ⟨e, he⟩ := exists_ordersOf_of_isModify hmodify hne
    have hempty : e.2.raw = 0 → WithinTwice (self.netPosition command.instrumentId) e := by
      intro hzero _
      rw [hzero, Nat.cast_zero, zero_div]
      positivity
    simp only [he, List.mem_singleton, exists_eq_left, forall_eq, Bool.not_true, and_false,
      Bool.false_eq_true, false_or, forall_const, if_true]
    tauto
  | false =>
    cases hbypass : self.bypass with
    | true => simp
    | false =>
      simp only [Bool.false_eq_true, false_and, false_or, false_implies, and_true, if_false]
      rw [← and_assoc, and_imp]
      refine imp_congr_right fun _ => ?_
      by_cases hwith : ∃ e ∈ self.ordersOf command,
          GoesWith (self.netPosition command.instrumentId) e.1
      · simp [hwith]
      · have hagainst := fun e he hgoes => hwith ⟨e, he, hgoes⟩
        simp only [hwith, not_false_eq_true, forall_const, false_or]
        exact forall₂_congr fun e he => and_iff_right fun hgoes => (hagainst e he hgoes).elim

attribute [local instance] Build.standard

/-- A reducing engine whose cache has the sample order, to buy ten units. -/
def Sample.engine (net : ℚ) : RiskEngine where
  bypass := false
  tradingState := .reducing
  orders := (Nautilus.Sample.ran []).elim .empty fun order => .insert .empty ⟨"O-1"⟩ order
  netPositions := .insert .empty ⟨"X"⟩ net
  checks _ := true
  withinRate _ := true

def Sample.submit : TradingCommand := .submitOrder ⟨"X"⟩ ⟨"O-1"⟩

open RiskEngine.Sample

/-- Ten units bought while twenty are short. -/
theorem reducing_shrinks_iff_short : (engine (-20)).tradingState = .reducing ∧
    ∀ e ∈ (engine (-20)).ordersOf submit, |-20 + exposure e| ≤ |(-20 : ℚ)| :=
  ⟨rfl, (reducing_shrinks_iff (engine (-20)) rfl submit).mpr
    (fun _ => .inr (by decide +kernel)) (by decide +kernel)⟩

/-- A flat net position stops nothing, and the first order forwarded opens a new one. -/
theorem not_reducing_shrinks_flat :
    .toExecution submit ∈ (engine 0).handleCommand submit ∧
      ∃ e ∈ (engine 0).ordersOf submit,
        ¬ |(engine 0).netPosition ⟨"X"⟩ + exposure e| ≤
          |(engine 0).netPosition ⟨"X"⟩| := by
  decide +kernel

end RiskEngine

end Nautilus
