import Nautilus.Engine.Fills

/-!
# One pass over a fill list

What a pass of `apply_fills` does is decided before it starts (`fillCalls`), from a clone of the
order and a snapshot of the position. So a reduce-only order is cut down to the position **fill by
fill**, against the same snapshot, and two fills can take more than the position holds; and an order
that the fills complete is cancelled, or runs into the `todo!()`, when its clone is open.
-/

namespace Nautilus

/-! ## Capping every element -/

theorem sum_map_min_le (q : Nat) (xs : List Nat) : (xs.map (min q)).sum ≤ xs.sum := by
  induction xs with
  | nil => exact Nat.le_refl 0
  | cons x xs ih =>
    rw [List.map_cons, List.sum_cons, List.sum_cons]
    omega

theorem sum_eq_of_sum_map_min_lt {q : Nat} {xs : List Nat} (h : (xs.map (min q)).sum < q) :
    xs.sum = (xs.map (min q)).sum := by
  induction xs with
  | nil => rfl
  | cons x xs ih =>
    rw [List.map_cons, List.sum_cons] at h
    have htail := ih (by omega)
    rw [List.map_cons, List.sum_cons, List.sum_cons, htail]
    omega

/-- Positive numbers, each capped at `q`, add up to at most `q` in three cases only. -/
theorem sum_map_min_le_iff {q : Nat} {xs : List Nat} (hpos : ∀ x ∈ xs, 0 < x) :
    (xs.map (min q)).sum ≤ q ↔ q = 0 ∨ xs.length ≤ 1 ∨ xs.sum ≤ q := by
  match xs, hpos with
  | [], _ => simp
  | [x], _ => simp
  | x :: y :: ys, hpos =>
    have hx : 0 < x := hpos x (by simp)
    have hy : 0 < y := hpos y (by simp)
    have hle := sum_map_min_le q (x :: y :: ys)
    constructor
    · intro hcapped
      rcases Nat.eq_zero_or_pos q with hq | hq
      · exact .inl hq
      -- the head and the tail each leave room for the other, so neither was capped
      rw [List.map_cons, List.sum_cons] at hcapped
      have htail : ((y :: ys).map (min q)).sum < q := by omega
      have htotal := sum_eq_of_sum_map_min_lt htail
      have hpositive : 0 < ((y :: ys).map (min q)).sum := by
        rw [List.map_cons, List.sum_cons]
        omega
      refine .inr (.inr ?_)
      rw [List.sum_cons, htotal]
      omega
    · rintro (hq | hlen | hsum)
      · subst hq
        exact Nat.le_of_eq (List.sum_eq_zero (by simp))
      · simp at hlen
      · omega

/-! ## A venue

One instrument whose prices and sizes are whole numbers, for the runs below. -/

namespace EngineM.Sample

def price (n : Int) : Price := ⟨n * 10 ^ 9, 0⟩

def quantity (n : Nat) : Quantity := ⟨n * 10 ^ 9, 0⟩

def instrument : EngineInstrument where
  id := ⟨"AUD/USD.SIM"⟩
  venue := "SIM"
  priceIncrement := price 1
  pricePrecision := 0
  sizePrecision := 0
  quoteCurrency := ⟨"USD", 2⟩
  isInverse := false
  isEquity := false
  hasExpiration := false
  activationNs := none
  expirationNs := none
  calculateBaseQuantity quantity _ := quantity

def env (bookType : BookType) (config : OrderMatchingEngineConfig)
    (receive : OrderEventAny → Cache → Cache) : EngineEnv where
  instrument := instrument
  rawId := 1
  bookType := bookType
  omsType := .netting
  accountType := .margin
  config := config
  fillModel := ⟨true, fun _ => true, fun _ => false, fun _ _ _ _ => none⟩
  feeModel _ _ _ := some ⟨0, ⟨"USD", 2⟩⟩
  trailingStopCalculate _ _ _ _ := none
  timedelta _ _ := some 60
  acceptsQuote _ := true
  acceptsTrade _ := true
  uuid n := toString n
  receive := receive

def core (id : String) (side : OrderSide) (orderType : OrderType) (size : Nat)
    (status : OrderStatus) : OrderCore where
  events := []
  venueOrderIds := []
  tradeIds := []
  previousStatus := none
  status := status
  strategyId := ⟨"S-001"⟩
  clientOrderId := ⟨id⟩
  venueOrderId := none
  positionId := none
  accountId := some ⟨"SIM-001"⟩
  lastTradeId := none
  side := side
  orderType := orderType
  quantity := quantity size
  liquiditySide := some .noLiquiditySide
  isQuoteQuantity := false
  emulationTrigger := none
  filledQty := quantity 0
  leavesQty := quantity size
  overfillQty := quantity 0
  avgPx := none
  slippage := none
  tsInit := 0
  tsSubmitted := none
  tsAccepted := none
  tsClosed := none
  tsLast := 0

def order (base : OrderAny) (isReduceOnly : Bool) : EngineOrder where
  base := base
  traderId := ⟨"T-001"⟩
  instrumentId := ⟨"AUD/USD.SIM"⟩
  timeInForce := .gtc
  expireTime := none
  isPostOnly := false
  isReduceOnly := isReduceOnly
  contingencyType := none
  linkedOrderIds := none
  parentOrderId := none
  triggerType := .default
  activationPrice := none
  isActivated := true

/-- A market order of size ten; the venue acknowledges it if it is configured to. -/
def market (status : OrderStatus) : EngineOrder :=
  order (.market ⟨core "M" .buy .market 10 status, none⟩) false

def marketPass (status : OrderStatus) : FillPass :=
  ⟨market status, [(price 100, quantity 10)], none⟩

/-- A resting reduce-only order of size ten. -/
def reducing : EngineOrder := order (.limit ⟨core "R" .sell .limit 10 .accepted, price 100⟩) true

def longPosition (size : Nat) : HeldPosition where
  events := []
  adjustments := []
  instrumentId := ⟨"AUD/USD.SIM"⟩
  id := ⟨"P-1"⟩
  openingOrderId := ⟨"O-1"⟩
  closingOrderId := none
  entry := .buy
  side := .long
  signedQty := size
  quantity := quantity size
  peakQty := quantity size
  sizePrecision := 0
  multiplier := quantity 1
  isInverse := false
  isCurrencyPair := true
  baseCurrency := none
  settlementCurrency := ⟨"USD", 2⟩
  tsInit := 0
  tsOpened := 0
  tsLast := 0
  tsClosed := none
  durationNs := 0
  avgPxOpen := 100
  avgPxClose := none
  realizedReturn := 0
  realizedPnl := none
  tradeIds := []
  buyQty := quantity size
  sellQty := quantity 0
  commissions := .empty
  traderId := ⟨"T-001"⟩
  strategyId := ⟨"S-001"⟩

/-- A pass of the reduce-only order while six are held. -/
def reducingPass (sizes : List Nat) : FillPass :=
  ⟨reducing, sizes.map fun size => (price 100, quantity size), some (longPosition 6)⟩

end EngineM.Sample

/-! ## The calls for one fill -/

namespace FillPass

def filled : List FillCall → Nat
  | [] => 0
  | .fill _ quantity :: calls => quantity.raw + filled calls
  | _ :: calls => filled calls

@[simp] theorem filled_append (calls calls' : List FillCall) :
    filled (calls ++ calls') = filled calls + filled calls' := by
  induction calls with
  | nil => simp [filled]
  | cons call calls ih => cases call <;> simp [filled, ih, Nat.add_assoc]

/-- The calls a fill can lead to. -/
def isOfFill : FillCall → Bool
  | .cancel | .exhausted => false
  | .fill _ quantity => 0 < quantity.raw
  | _ => true

/-- Calls of a fill around `fill_order`. -/
def Aside (calls : List FillCall) : Prop := filled calls = 0 ∧ calls.all isOfFill

variable {calls calls' : List FillCall}

theorem Aside.append (h : Aside calls) (h' : Aside calls') :
    Aside (calls ++ calls') := by
  refine ⟨?_, ?_⟩
  · rw [filled_append, h.1, h'.1]
  · rw [List.all_append, h.2, h'.2]
    rfl

theorem Aside.ite {p : Prop} [Decidable p] {call : FillCall} (h : Aside [call]) :
    Aside (if p then [call] else []) := by
  split
  · exact h
  · exact ⟨rfl, rfl⟩

variable (env : EngineEnv) (pass : FillPass)

/-- What one fill takes. -/
def amount (quantity : Quantity) : Nat :=
  (pass.cap env quantity).elim quantity.raw fun held => min quantity.raw held.raw

/-- The pass ends with a fill: it fixes a price, it is empty, or there is nothing to reduce. -/
def ends (quantity : Quantity) : Bool :=
  pass.fixesPrice || quantity.isZero || (pass.cap env quantity).any fun held => held.isZero

theorem raw_lt_of_cap {quantity held : Quantity} (h : pass.cap env quantity = some held) :
    held.raw < quantity.raw := by
  unfold cap at h
  split at h
  · obtain ⟨p, -, hp⟩ := Option.bind_eq_some_iff.mp h
    split at hp
    · cases hp
      exact Quantity.lt_iff.mp ‹_›
    · nomatch hp
  · nomatch h

theorem aside_before (price : Price) : Aside (pass.before env price) :=
  (Aside.ite ⟨rfl, rfl⟩).append (.ite ⟨rfl, rfl⟩)

/-- The calls for a fill take its amount, say whether the pass ends, and neither cancel nor give up.
-/
theorem callsFor_spec (price : Price) (quantity : Quantity) :
    filled (pass.callsFor env price quantity).1 = pass.amount env quantity ∧
      (pass.callsFor env price quantity).2 = pass.ends env quantity ∧
      (pass.callsFor env price quantity).1.all isOfFill := by
  have haside := pass.aside_before env price
  unfold callsFor amount ends
  cases hcap : pass.cap env quantity with
  | none =>
    by_cases hzero : quantity.isZero
    · have hraw : quantity.raw = 0 := beq_iff_eq.mp hzero
      have hrefused : Aside
          (if pass.fills.length = 1 ∧ pass.order.status = .submitted then [.reject] else []) :=
        .ite ⟨rfl, rfl⟩
      obtain ⟨hnone, hall⟩ := haside.append hrefused
      simp only [hzero, if_true, Option.elim_none, hraw]
      exact ⟨hnone, by simp, hall⟩
    · have hpos : 0 < quantity.raw := Nat.pos_of_ne_zero fun h => hzero (beq_iff_eq.mpr h)
      simp [hzero, haside.1, haside.2, filled, isOfFill, hpos]
  | some held =>
    have hlt := pass.raw_lt_of_cap env hcap
    have hpos : quantity.isZero = false := by
      rw [Quantity.isZero, beq_eq_false_iff_ne]
      omega
    by_cases hzero : held.isZero
    · have hraw : held.raw = 0 := beq_iff_eq.mp hzero
      simp [hzero, hraw, haside.1, haside.2]
    have hadjust : Aside (if pass.order.quantity.raw ≠ held.raw then
        [.update ⟨held.raw, quantity.precision⟩ none] else []) := .ite ⟨rfl, rfl⟩
    obtain ⟨hnone, hall⟩ := haside.append hadjust
    simp only [hzero, Bool.false_eq_true, if_false]
    refine ⟨?_, ?_, ?_⟩
    · rw [filled_append, hnone]
      simp [filled]
    · simp [hpos, hzero]
    · have hpos : 0 < held.raw := Nat.pos_of_ne_zero fun h => hzero (beq_iff_eq.mpr h)
      rw [List.all_append, hall]
      simp [isOfFill, hpos]
      omega

/-- What the fills take, up to the one that ends the pass. -/
def taken : List (Price × Quantity) → Nat
  | [] => 0
  | (_, quantity) :: fills =>
    pass.amount env quantity + if pass.ends env quantity then 0 else taken fills

section ReduceOnly

variable {env} {pass} {position : HeldPosition} (huse : env.config.useReduceOnly = true)
  (hreduce : pass.order.isReduceOnly = true) (hposition : pass.position = some position)

include huse hreduce hposition

variable (quantity : Quantity)

theorem cap_of_reduceOnly :
    pass.cap env quantity =
      if position.quantity.lt quantity then some position.quantity else none := by
  rw [cap, huse, hreduce, hposition]
  rfl

/-- Each fill takes at most the position as it was before the pass. -/
theorem amount_of_reduceOnly :
    pass.amount env quantity = min position.quantity.raw quantity.raw := by
  rw [amount, cap_of_reduceOnly huse hreduce hposition]
  split
  · exact Nat.min_comm _ _
  · have hle := mt Quantity.lt_iff.mpr ‹_›
    exact (Nat.min_eq_right (Nat.le_of_not_lt hle)).symm

/-- A fill ends the pass if it is empty, or fixes a price, or there is no position. -/
theorem ends_of_reduceOnly :
    pass.ends env quantity = true ↔
      pass.fixesPrice = true ∨ quantity.raw = 0 ∨ position.quantity.raw = 0 := by
  rw [ends, cap_of_reduceOnly huse hreduce hposition, Bool.or_eq_true, Bool.or_eq_true,
    Quantity.isZero, beq_iff_eq, or_assoc]
  refine or_congr_right ⟨?_, ?_⟩
  · rintro (hzero | hheld)
    · exact .inl hzero
    · split at hheld
      · exact .inr (beq_iff_eq.mp hheld)
      · nomatch hheld
  · rintro (hzero | hheld)
    · exact .inl hzero
    by_cases hquantity : quantity.raw = 0
    · exact .inl hquantity
    have hlt : position.quantity.lt quantity := Quantity.lt_iff.mpr (by omega)
    refine .inr ?_
    rw [if_pos hlt]
    exact beq_iff_eq.mpr hheld

/-- A pass that fixes the price makes one fill at most. -/
theorem taken_le_of_fixesPrice (hfixes : pass.fixesPrice = true)
    (fills : List (Price × Quantity)) : pass.taken env fills ≤ position.quantity.raw := by
  cases fills with
  | nil => exact Nat.zero_le _
  | cons fill fills =>
    have hends : pass.ends env fill.2 = true :=
      (ends_of_reduceOnly huse hreduce hposition fill.2).mpr (.inl hfixes)
    rw [taken, hends, amount_of_reduceOnly huse hreduce hposition, if_pos rfl]
    exact Nat.min_le_left _ _

/-- Any other pass caps every fill at the whole position. -/
theorem taken_eq_of_reduceOnly (hfixes : pass.fixesPrice = false)
    (fills : List (Price × Quantity)) :
    pass.taken env fills =
      (((fills.map fun fill => fill.2.raw).takeWhile (· ≠ 0)).map
        (min position.quantity.raw)).sum := by
  induction fills with
  | nil => rfl
  | cons fill fills ih =>
    have hends := ends_of_reduceOnly huse hreduce hposition fill.2
    rw [hfixes] at hends
    rw [taken, amount_of_reduceOnly huse hreduce hposition, List.map_cons]
    by_cases hzero : fill.2.raw = 0
    · rw [if_pos (hends.mpr (.inr (.inl hzero))), List.takeWhile_cons_of_neg (by simp [hzero])]
      simp [hzero]
    rw [List.takeWhile_cons_of_pos (by simp [hzero]), List.map_cons, List.sum_cons]
    by_cases hheld : position.quantity.raw = 0
    · -- nothing is held: this fill ends the pass, and the others count for nothing
      rw [if_pos (hends.mpr (.inr (.inr hheld))), hheld]
      simp [List.sum_eq_zero]
    · rw [if_neg (by simp [hends, hzero, hheld]), ih]

end ReduceOnly

/-- What follows the loop needs an open order that is immediate or aggressive. -/
theorem completion_eq_nil_iff (hbook : env.bookType = .l1Mbp) :
    pass.completion env = [] ↔
      pass.order.isOpen = false ∨
        (pass.order.timeInForce ≠ .ioc ∧ isAggressiveType pass.order.orderType = false) := by
  unfold completion
  rw [hbook]
  cases hopen : pass.order.isOpen with
  | false => simp
  | true =>
    by_cases hioc : pass.order.timeInForce = .ioc
    · simp [hioc]
    · cases haggressive : isAggressiveType pass.order.orderType <;> simp [hioc]

theorem completion_eq_nil (h : .cancel ∉ pass.completion env ∧ .exhausted ∉ pass.completion env) :
    pass.completion env = [] := by
  unfold completion at h ⊢
  split at h
  · simp at h
  · split at h
    · simp at h
    · rw [if_neg ‹_›, if_neg ‹_›]

variable (fills : List (Price × Quantity))

/-- The sizes of some fills, added up. -/
def totalOf : Nat := (fills.map fun fill => fill.2.raw).sum

theorem totalOf_cons (fill : Price × Quantity) (fills : List (Price × Quantity)) :
    totalOf (fill :: fills) = fill.2.raw + totalOf fills := by
  simp [totalOf]

/-- Every fill has a size, and none follows a cancel. -/
def Orderly : List FillCall → Prop
  | [] => True
  | .fill _ quantity :: calls => 0 < quantity.raw ∧ Orderly calls
  | .cancel :: calls => filled calls = 0 ∧ Orderly calls
  | _ :: calls => Orderly calls

theorem Orderly.append (hcalls : calls.all isOfFill)
    (h : Orderly calls') : Orderly (calls ++ calls') := by
  induction calls with
  | nil => exact h
  | cons call calls ih =>
    rw [List.all_cons, Bool.and_eq_true] at hcalls
    cases call with
    | cancel | exhausted => cases hcalls.1
    | fill price quantity => exact ⟨of_decide_eq_true hcalls.1, ih hcalls.2⟩
    | _ => exact ih hcalls.2

/-- What the fills take is at most their total. -/
theorem taken_le_totalOf : pass.taken env fills ≤ totalOf fills := by
  induction fills with
  | nil => exact Nat.le_refl 0
  | cons fill fills ih =>
    have hamount : pass.amount env fill.2 ≤ fill.2.raw := by
      unfold amount
      cases pass.cap env fill.2 <;> simp
    rw [taken, totalOf_cons]
    split <;> omega

/-! ## The loop -/

variable [Build]

/-- The fills the loop does not skip. -/
def compatible : List (Price × Quantity) :=
  fills.filterMap env.normalizeFill

/-- The loop takes that much, runs through if no fill ends it, and neither cancels nor gives
up. -/
theorem loopCalls_spec :
    filled (pass.loopCalls env fills).1 = pass.taken env (compatible env fills) ∧
      ((pass.loopCalls env fills).2 = true ↔
        ∀ fill ∈ compatible env fills, pass.ends env fill.2 = false) ∧
      (pass.loopCalls env fills).1.all isOfFill := by
  unfold compatible
  induction fills with
  | nil => simp [loopCalls, filled, taken]
  | cons fill fills ih =>
    obtain ⟨htaken, hthrough, hall⟩ := ih
    unfold loopCalls
    cases hnorm : env.normalizeFill fill with
    | none =>
      rw [List.filterMap_cons_none hnorm]
      exact ⟨htaken, hthrough, hall⟩
    | some normal =>
      obtain ⟨price, quantity⟩ := normal
      rw [List.filterMap_cons_some hnorm]
      obtain ⟨hamount, hends, hfill⟩ := pass.callsFor_spec env price quantity
      dsimp only
      cases hcalls : pass.callsFor env price quantity with
      | mk calls last =>
        rw [hcalls] at hamount hends hfill
        cases last with
        | true => simp [taken, hamount, ← hends, hfill]
        | false =>
          refine ⟨?_, ?_, ?_⟩
          · simp [taken, hamount, ← hends, htaken]
          · simp [← hends, hthrough]
          · rw [List.all_append, hfill, hall]
            rfl

/-- None if the pass is killed, else those of the loop, and the completion behind a loop that ran
through. -/
theorem fillCalls_cases (h : pass.fillCalls env = some calls) :
    (pass.isKilled env = some true ∧ calls = [.cancel]) ∨
      (pass.isKilled env = some false ∧ pass.fills = [] ∧ pass.order.status ≠ .submitted ∧
        calls = []) ∨
      (pass.isKilled env = some false ∧ (pass.fills = [] → pass.order.status = .submitted) ∧
        ∃ refused, Aside refused ∧
          calls = refused ++ (pass.loopCalls env pass.fills).1 ++
            if (pass.loopCalls env pass.fills).2 then pass.completion env else []) := by
  unfold fillCalls at h
  obtain ⟨killed, hkilled, hcalls⟩ := Option.map_eq_some_iff.mp h
  cases killed with
  | true => exact .inl ⟨hkilled, hcalls.symm⟩
  | false =>
    by_cases hempty : pass.fills.isEmpty ∧ pass.order.status ≠ .submitted
    · rw [if_neg Bool.false_ne_true, if_pos hempty] at hcalls
      exact .inr (.inl ⟨hkilled, List.isEmpty_iff.mp hempty.1, hempty.2, hcalls.symm⟩)
    rw [if_neg Bool.false_ne_true, if_neg hempty] at hcalls
    refine .inr (.inr ⟨hkilled, ?_, (if pass.fills.isEmpty then [.reject] else []),
      .ite ⟨rfl, rfl⟩, ?_⟩)
    · intro hnil
      by_contra hstatus
      exact hempty ⟨List.isEmpty_iff.mpr hnil, hstatus⟩
    · rw [← hcalls]
      cases pass.loopCalls env pass.fills with
      | mk calls through => cases through <;> simp

/-- A pass that is not killed takes what its loop takes. -/
theorem filled_pass {refused : List FillCall} (hrefused : Aside refused) :
    filled (refused ++ (pass.loopCalls env pass.fills).1 ++
      if (pass.loopCalls env pass.fills).2 then pass.completion env else []) =
      pass.taken env (compatible env pass.fills) := by
  have hcompletion : filled (if (pass.loopCalls env pass.fills).2 then pass.completion env
      else []) = 0 := by
    split
    · unfold completion
      split
      · rfl
      · split <;> rfl
    · rfl
  rw [filled_append, filled_append, hrefused.1, hcompletion, (pass.loopCalls_spec env pass.fills).1,
    Nat.zero_add, Nat.add_zero]

/-! ## Reduce-only orders -/

/-- The sizes of the compatible fills, up to the first that is empty. -/
def reachedSizes : List Nat :=
  ((compatible env pass.fills).map fun fill => fill.2.raw).takeWhile (· ≠ 0)

variable {env pass} in
/-- **The fills of a reduce-only pass stay within the position iff** the pass is killed, makes at
most one fill, or was not going to take more than the position. -/
theorem reduceOnly_filled_le_iff {position : HeldPosition} (huse : env.config.useReduceOnly = true)
    (hreduce : pass.order.isReduceOnly = true) (hposition : pass.position = some position)
    (h : pass.fillCalls env = some calls) :
    filled calls ≤ position.quantity.raw ↔
      pass.isKilled env = some true ∨ pass.fixesPrice = true ∨ position.quantity.raw = 0 ∨
        (pass.reachedSizes env).length ≤ 1 ∨
        (pass.reachedSizes env).sum ≤ position.quantity.raw := by
  have hpos : ∀ x ∈ pass.reachedSizes env, 0 < x := by
    intro x hx
    have hne := List.mem_takeWhile_imp hx
    exact Nat.pos_of_ne_zero (of_decide_eq_true hne)
  rcases pass.fillCalls_cases env h with ⟨hkilled, rfl⟩ | ⟨-, hempty, -, rfl⟩ |
    ⟨hkilled, -, refused, hrefused, rfl⟩
  · exact iff_of_true (Nat.zero_le _) (.inl hkilled)
  · refine iff_of_true (Nat.zero_le _) (.inr (.inr (.inr (.inl ?_))))
    rw [reachedSizes, compatible, hempty]
    exact Nat.zero_le 1
  have htotal := pass.filled_pass env hrefused
  rw [htotal, hkilled]
  cases hfixes : pass.fixesPrice with
  | true =>
    have hle := taken_le_of_fixesPrice huse hreduce hposition hfixes (compatible env pass.fills)
    exact iff_of_true hle (.inr (.inl rfl))
  | false =>
    rw [taken_eq_of_reduceOnly huse hreduce hposition hfixes]
    have hiff := sum_map_min_le_iff (q := position.quantity.raw) hpos
    constructor
    · intro hle
      exact .inr (.inr (hiff.mp hle))
    · rintro (hcontra | hcontra | hrest)
      · nomatch hcontra
      · nomatch hcontra
      · exact hiff.mpr hrest

end FillPass

section Instances

attribute [local instance] Build.standard

open FillPass EngineM

/-- Six are held, and two fills of three reduce the position to nothing. -/
theorem reducingPass_within_position :
    ∃ calls, (Sample.reducingPass [3, 3]).fillCalls (Sample.env .l2Mbp {} fun _ c => c) =
        some calls ∧
      filled calls ≤ (Sample.longPosition 6).quantity.raw := by
  have hcalls : (Sample.reducingPass [3, 3]).fillCalls (Sample.env .l2Mbp {} fun _ c => c) =
      some [.fill (Sample.price 100) (Sample.quantity 3),
        .fill (Sample.price 100) (Sample.quantity 3)] := by decide +kernel
  exact ⟨_, hcalls, (reduceOnly_filled_le_iff rfl rfl rfl hcalls).mpr (by decide +kernel)⟩

/-- Six are held, and the two fills take ten. -/
theorem reducingPass_flips_position :
    (Sample.reducingPass [5, 5]).fillCalls (Sample.env .l2Mbp {} fun _ c => c) =
        some [.fill (Sample.price 100) (Sample.quantity 5),
          .fill (Sample.price 100) (Sample.quantity 5)] ∧
      (Sample.longPosition 6).quantity.raw <
        filled [.fill (Sample.price 100) (Sample.quantity 5),
          .fill (Sample.price 100) (Sample.quantity 5)] := by
  decide +kernel

end Instances

namespace FillPass

variable [Build] (env : EngineEnv) (pass : FillPass)

/-! ## Completed orders -/

theorem normalizeFill_raw {fill normal : Price × Quantity}
    (h : env.normalizeFill fill = some normal) : normal.2.raw = fill.2.raw := by
  unfold EngineEnv.normalizeFill at h
  split at h
  · rename_i hquantity
    cases h
    unfold EngineEnv.normalizeQuantity at hquantity
    split at hquantity
    · cases hquantity
      rfl
    · nomatch hquantity
  · nomatch h

/-- Compatible fills are at most all the fills, and equal only if no fill with a size is skipped. -/
theorem totalOf_compatible (fills : List (Price × Quantity)) :
    totalOf (compatible env fills) ≤ totalOf fills ∧
      (totalOf fills ≤ totalOf (compatible env fills) ↔
        ∀ fill ∈ fills, fill.2.raw ≠ 0 → (env.normalizeFill fill).isSome) := by
  unfold compatible
  induction fills with
  | nil => simp [totalOf]
  | cons fill fills ih =>
    obtain ⟨_, hiff⟩ := ih
    rw [totalOf_cons, List.forall_mem_cons, ← hiff]
    cases hnorm : env.normalizeFill fill with
    | none =>
      rw [List.filterMap_cons_none hnorm]
      refine ⟨by omega, ?_⟩
      simp
      omega
    | some normal =>
      rw [List.filterMap_cons_some hnorm, totalOf_cons, normalizeFill_raw env hnorm]
      refine ⟨by omega, ?_⟩
      simp

theorem foldlM_add_raw {fills : List (Price × Quantity)} {start total : Quantity}
    (h : fills.foldlM (fun total fill => total.add fill.2) start = some total) :
    total.raw = start.raw + totalOf fills := by
  induction fills generalizing start with
  | nil =>
    cases h
    rfl
  | cons fill fills ih =>
    rw [List.foldlM_cons, Option.bind_eq_bind, Option.bind_eq_some_iff] at h
    obtain ⟨_, hadd, hrest⟩ := h
    rw [ih hrest, Quantity.raw_of_add_eq_some hadd, totalOf_cons, Nat.add_assoc]

theorem totalSize_raw {total : Quantity} (h : pass.totalSize env = some total) :
    total.raw = totalOf (compatible env pass.fills) := by
  unfold totalSize at h
  obtain ⟨_, hzero, hfold⟩ := Option.bind_eq_some_iff.mp h
  rw [foldlM_add_raw hfold, Quantity.zero_eq_some hzero, Nat.zero_add]
  rfl

/-- A pass with fills for all that is left is killed only for what is skipped of them. -/
theorem isKilled_eq_some_false_iff (hsum : totalOf pass.fills = pass.order.leavesQty.raw) :
    pass.isKilled env = some false ↔
      (pass.order.timeInForce = .fok → (pass.totalSize env).isSome ∧
        ∀ fill ∈ pass.fills, fill.2.raw ≠ 0 → (env.normalizeFill fill).isSome) := by
  rw [isKilled, ← (totalOf_compatible env pass.fills).2, hsum]
  split_ifs with hfok
  · cases htotal : pass.totalSize env with
    | none => simp [hfok]
    | some total =>
      have hraw := pass.totalSize_raw env htotal
      simp [hfok, Quantity.lt, ← hraw]
  · simp [hfok]

/-- **A pass over fills for all that is left neither cancels the order nor reaches the `todo!()`
iff** it is not killed for a fill it skips, and the order was not open before, or is neither
immediate nor aggressive, or a fill ends the pass early. -/
theorem completes_iff (hbook : env.bookType = .l1Mbp)
    (hsum : totalOf pass.fills = pass.order.leavesQty.raw) :
    (∃ calls, pass.fillCalls env = some calls ∧ .cancel ∉ calls ∧ .exhausted ∉ calls) ↔
      (pass.order.timeInForce = .fok → (pass.totalSize env).isSome ∧
        ∀ fill ∈ pass.fills, fill.2.raw ≠ 0 → (env.normalizeFill fill).isSome) ∧
      (pass.order.isOpen = false ∨
        (pass.order.timeInForce ≠ .ioc ∧ isAggressiveType pass.order.orderType = false) ∨
        pass.fills = [] ∨ ∃ fill ∈ compatible env pass.fills, pass.ends env fill.2 = true) := by
  rw [← pass.isKilled_eq_some_false_iff env hsum]
  obtain ⟨-, hthrough, hloop⟩ := pass.loopCalls_spec env pass.fills
  constructor
  · rintro ⟨calls, hcalls, hcancel, hexhausted⟩
    rcases pass.fillCalls_cases env hcalls with ⟨-, rfl⟩ | ⟨hkilled, hempty, -, -⟩ |
      ⟨hkilled, -, refused, -, rfl⟩
    · exact absurd List.mem_cons_self hcancel
    · exact ⟨hkilled, .inr (.inr (.inl hempty))⟩
    refine ⟨hkilled, ?_⟩
    by_cases hrun : (pass.loopCalls env pass.fills).2 = true
    · rw [if_pos hrun] at hcancel hexhausted
      have hnil := pass.completion_eq_nil env
        ⟨fun h => hcancel (List.mem_append_right _ h),
          fun h => hexhausted (List.mem_append_right _ h)⟩
      rcases (pass.completion_eq_nil_iff env hbook).mp hnil with hclosed | hpatient
      · exact .inl hclosed
      · exact .inr (.inl hpatient)
    · refine .inr (.inr (.inr ?_))
      rw [hthrough] at hrun
      simpa using hrun
  · rintro ⟨hkilled, hrest⟩
    obtain ⟨calls, hcalls⟩ : ∃ calls, pass.fillCalls env = some calls := by
      rw [fillCalls, hkilled]
      exact ⟨_, rfl⟩
    refine ⟨calls, hcalls, ?_⟩
    rcases pass.fillCalls_cases env hcalls with ⟨htrue, -⟩ | ⟨-, -, -, rfl⟩ |
      ⟨-, hsubmitted, refused, hrefused, rfl⟩
    · rw [hkilled] at htrue
      nomatch htrue
    · exact ⟨List.not_mem_nil, List.not_mem_nil⟩
    -- whatever the reason, nothing follows the loop
    have hend : (if (pass.loopCalls env pass.fills).2 then pass.completion env else []) = [] := by
      split_ifs with hrun
      · refine (pass.completion_eq_nil_iff env hbook).mpr ?_
        rcases hrest with hclosed | hpatient | hempty | ⟨fill, hfill, hends⟩
        · exact .inl hclosed
        · exact .inr hpatient
        · refine .inl ?_
          simp [EngineOrder.isOpen, hsubmitted hempty]
        · rw [hthrough.mp hrun fill hfill] at hends
          nomatch hends
      · rfl
    have hall : (refused ++ (pass.loopCalls env pass.fills).1).all isOfFill := by
      rw [List.all_append, hrefused.2, hloop]
      rfl
    rw [hend, List.append_nil]
    rw [List.all_eq_true] at hall
    constructor
    · intro hmem
      exact Bool.false_ne_true (hall _ hmem)
    · intro hmem
      exact Bool.false_ne_true (hall _ hmem)

end FillPass

section Instances

attribute [local instance] Build.standard

open FillPass EngineM

/-- A submitted order is not open, so the fills that complete it end the pass. -/
theorem submitted_market_completes :
    ∃ calls, (Sample.marketPass .submitted).fillCalls (Sample.env .l1Mbp {} fun _ c => c) =
        some calls ∧ .cancel ∉ calls ∧ .exhausted ∉ calls :=
  (completes_iff (Sample.env .l1Mbp {} fun _ c => c) (Sample.marketPass .submitted) rfl
    (by decide +kernel)).mpr (by decide +kernel)

/-- The same fills complete an acknowledged market order, and the pass runs into the
`todo!()`. -/
theorem accepted_market_exhausts :
    totalOf (Sample.marketPass .accepted).fills =
        (Sample.marketPass .accepted).order.leavesQty.raw ∧
      (Sample.marketPass .accepted).fillCalls (Sample.env .l1Mbp {} fun _ c => c) =
        some [.slip (Sample.price 100), .fill (Sample.price 100) (Sample.quantity 10),
          .exhausted] := by
  decide +kernel

end Instances

end Nautilus
