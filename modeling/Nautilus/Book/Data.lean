import Nautilus.Lib.IndexMap
import Nautilus.Lib.OrdMap
import Nautilus.Types
import Nautilus.Enums

/-!
# Book data

`BookOrder`, `BookPrice`, deltas, depth snapshots and ticks, and `pre_process_order`, which rewrites
order ids before an order reaches a ladder.

The `data` module of the crate and `ahash` are not part of the repository; `BookCode` is what the
book needs of them: `to_book_price`, with the one law the code relies on, and the hash from raw
prices to ids.
-/

namespace Nautilus

open Lib

abbrev OrderId := UInt64

structure BookOrder where
  side : OrderSide
  price : Price
  size : Quantity
  orderId : OrderId
deriving DecidableEq

/-! ## Book prices -/

structure BookPrice where
  value : Price
  side : OrderSideSpecified
deriving DecidableEq

namespace BookPrice

/-- The raw price, signed so that a better price is smaller. -/
def rank (p : BookPrice) : Int :=
  match p.side with
  | .buy => -p.value.raw
  | .sell => p.value.raw

/-- `Ord for BookPrice` (`ladder.rs:74–90`): bids descend, asks ascend. The assertion that both
sides agree cannot fire: a ladder holds prices of its own side only. -/
def cmp (a b : BookPrice) : Ordering :=
  match compare a.side.toNat b.side.toNat with
  | .eq =>
    match a.side with
    | .buy => compare b.value.raw a.value.raw
    | .sell => compare a.value.raw b.value.raw
  | o => o

/-- `PartialEq for BookPrice`. -/
def eq (a b : BookPrice) : Bool := a.side = b.side && a.value.eq b.value

theorem cmp_of_side_eq {a b : BookPrice} (h : a.side = b.side) :
    a.cmp b = compare a.rank b.rank := by
  obtain ⟨va, sa⟩ := a
  obtain ⟨vb, _⟩ := b
  cases h
  cases sa with
  | buy =>
    show compare vb.raw va.raw = compare (-va.raw) (-vb.raw)
    simp [Int.compare_eq_ite_lt, Int.neg_lt_neg_iff]
  | sell => rfl

theorem cmp_eq_lex : cmp = compareLex (compareOn fun p => p.side.toNat) (compareOn rank) := by
  funext a b
  by_cases h : a.side = b.side
  · rw [cmp_of_side_eq h]
    simp [compareLex, compareOn, h]
  have hne : compare a.side.toNat b.side.toNat ≠ .eq := fun he =>
    h (OrderSideSpecified.toNat_inj (Std.LawfulEqOrd.eq_of_compare he))
  unfold cmp compareLex compareOn
  cases hc : compare a.side.toNat b.side.toNat with
  | eq => exact absurd hc hne
  | lt => rfl
  | gt => rfl

instance : Std.TransCmp cmp := by
  rw [cmp_eq_lex]
  infer_instance

theorem cmp_eq_iff {a b : BookPrice} :
    a.cmp b = .eq ↔ a.side = b.side ∧ a.value.raw = b.value.raw := by
  constructor
  · intro h
    have hs : a.side = b.side := by
      by_contra hne
      have hc : compare a.side.toNat b.side.toNat ≠ .eq := fun he =>
        hne (OrderSideSpecified.toNat_inj (Std.LawfulEqOrd.eq_of_compare he))
      unfold cmp at h
      split at h
      · exact hc ‹_›
      · exact hc h
    refine ⟨hs, ?_⟩
    rw [cmp_of_side_eq hs] at h
    have hr : a.rank = b.rank := Std.LawfulEqOrd.eq_of_compare h
    unfold rank at hr
    rw [← hs] at hr
    split at hr
    · omega
    · exact hr
  · rintro ⟨hs, hv⟩
    rw [cmp_of_side_eq hs]
    have hr : a.rank = b.rank := by
      unfold rank
      rw [hs, hv]
    rw [hr]
    exact Std.ReflOrd.compare_self

theorem eq_iff_cmp {a b : BookPrice} : a.eq b = true ↔ a.cmp b = .eq := by
  rw [cmp_eq_iff]
  simp [eq]

end BookPrice

/-! ## The code outside the repository -/

/-- What the book uses of the crate's `data` module and of `ahash`.

- `toBookPrice` is `BookOrder::to_book_price`; the law says what `BookLevel::from_order`
  documents, that it uses the order's own price and side.
- `hashOne` is `RandomState::with_seeds(0, 0, 0, 0).hash_one`. -/
class BookCode where
  toBookPrice : BookOrder → BookPrice
  toBookPrice_eq : ∀ (order : BookOrder) (s : OrderSideSpecified),
    order.side.asSpecified = some s → toBookPrice order = ⟨order.price, s⟩
  hashOne : Int → OrderId

/-- The conversion the law asks for, and raw prices truncated to 64 bits for a hash. -/
abbrev BookCode.truncating : BookCode where
  toBookPrice order := ⟨order.price, order.side.asSpecified.getD .buy⟩
  toBookPrice_eq order s h := by rw [h]; rfl
  hashOne raw := UInt64.ofNat raw.toNat

/-- The truncating hash tells non-negative 64-bit raw prices apart. -/
theorem BookCode.truncating_injOn {raws : Set Int} (h : ∀ raw ∈ raws, 0 ≤ raw ∧ raw < 2 ^ 64) :
    Set.InjOn (@BookCode.hashOne BookCode.truncating) raws := by
  intro x hx y hy hxy
  obtain ⟨_, _⟩ := h x hx
  obtain ⟨_, _⟩ := h y hy
  have hnat : x.toNat = y.toNat := by
    have hmod : x.toNat % 2 ^ 64 = y.toNat % 2 ^ 64 := congrArg UInt64.toNat hxy
    rw [Nat.mod_eq_of_lt (by omega), Nat.mod_eq_of_lt (by omega)] at hmod
    exact hmod
  omega

/-! ## Deltas, depths and ticks -/

structure OrderBookDelta where
  instrumentId : InstrumentId
  action : BookAction
  order : BookOrder
  flags : UInt8
  sequence : Nat
  tsEvent : UnixNanos
  tsInit : UnixNanos
deriving DecidableEq

/-- `OrderBookDeltas`: the fields `apply_deltas` reads. -/
structure OrderBookDeltas where
  instrumentId : InstrumentId
  deltas : List OrderBookDelta
deriving DecidableEq

/-- `OrderBookDepth10`: the fields `apply_depth` reads. Nothing depends on the
arrays having ten places. -/
structure OrderBookDepth10 where
  instrumentId : InstrumentId
  bids : List BookOrder
  asks : List BookOrder
  flags : UInt8
  sequence : Nat
  tsEvent : UnixNanos
deriving DecidableEq

/-- `QuoteTick`: the fields `update_quote_tick` reads. -/
structure QuoteTick where
  bidPrice : Price
  askPrice : Price
  bidSize : Quantity
  askSize : Quantity
  tsEvent : UnixNanos
deriving DecidableEq

/-- `TradeTick`: the fields `update_trade_tick` reads. -/
structure TradeTick where
  price : Price
  size : Quantity
  tsEvent : UnixNanos
deriving DecidableEq

/-- The constructors of deltas that `to_deltas` uses, as the repository documents them: an added
order has a positive size, a list of deltas is non-empty (`nautilus_trader/model/data.pyx:2470,
3085`), and a clear delta has the sequence it is given and is not the last of a batch
(`orderbook/tests.rs:7908`). A panic is `none`. -/
class DeltaCode [Build] where
  newDelta : InstrumentId → BookAction → BookOrder → UInt8 → Nat → UnixNanos → UnixNanos →
    Option OrderBookDelta
  newDelta_add : ∀ instrumentId order flags sequence tsEvent tsInit,
    order.size.isPositive = true →
      newDelta instrumentId .add order flags sequence tsEvent tsInit =
        some ⟨instrumentId, .add, order, flags, sequence, tsEvent, tsInit⟩
  clearDelta : InstrumentId → Nat → UnixNanos → UnixNanos → OrderBookDelta
  clearDelta_action : ∀ instrumentId sequence tsEvent tsInit,
    (clearDelta instrumentId sequence tsEvent tsInit).action = .clear
  clearDelta_sequence : ∀ instrumentId sequence tsEvent tsInit,
    (clearDelta instrumentId sequence tsEvent tsInit).sequence = sequence
  clearDelta_flags : ∀ instrumentId sequence tsEvent tsInit,
    RecordFlag.fLast.matches (clearDelta instrumentId sequence tsEvent tsInit).flags = false
  newDeltas : InstrumentId → List OrderBookDelta → Option OrderBookDeltas
  newDeltas_of_ne_nil : ∀ instrumentId deltas, deltas ≠ [] →
    newDeltas instrumentId deltas = some ⟨instrumentId, deltas⟩

/-- A computable instance that checks what the documentation asks for. -/
abbrev DeltaCode.checked [Build] : DeltaCode where
  newDelta instrumentId action order flags sequence tsEvent tsInit :=
    if (action = .add ∨ action = .update) ∧ order.size.isPositive = false then none
    else some ⟨instrumentId, action, order, flags, sequence, tsEvent, tsInit⟩
  newDelta_add _ _ _ _ _ _ h := if_neg fun hc => Bool.false_ne_true (hc.2.symm.trans h)
  clearDelta instrumentId sequence tsEvent tsInit :=
    ⟨instrumentId, .clear, ⟨.noOrderSide, ⟨0, 0⟩, ⟨0, 0⟩, 0⟩, RecordFlag.fSnapshot.toUInt8,
      sequence, tsEvent, tsInit⟩
  clearDelta_action _ _ _ _ := rfl
  clearDelta_sequence _ _ _ _ := rfl
  clearDelta_flags _ _ _ _ := by
    show RecordFlag.fLast.matches RecordFlag.fSnapshot.toUInt8 = false
    decide
  newDeltas instrumentId deltas := if deltas = [] then none else some ⟨instrumentId, deltas⟩
  newDeltas_of_ne_nil _ _ h := if_neg h

/-! ## Preprocessing (`orderbook/aggregation.rs`) -/

section

variable [BookCode]

def priceBasedOrderId (order : BookOrder) : OrderId := BookCode.hashOne order.price.raw

def preProcessOrder (bookType : BookType) (order : BookOrder) (flags : UInt8) : BookOrder :=
  match bookType with
  | .l1Mbp => { order with orderId := order.side.toUInt64 }
  | .l2Mbp => { order with orderId := priceBasedOrderId order }
  | .l3Mbo =>
    if RecordFlag.fTob.matches flags then
      { order with orderId := order.side.toUInt64 }
    else if RecordFlag.fMbp.matches flags then
      { order with orderId := priceBasedOrderId order }
    else
      order

variable (bookType : BookType) (order : BookOrder) (flags : UInt8)

theorem preProcessOrder_eq :
    preProcessOrder bookType order flags =
      { order with orderId := (preProcessOrder bookType order flags).orderId } := by
  unfold preProcessOrder
  split
  · rfl
  · rfl
  · split
    · rfl
    · split <;> rfl

@[simp] theorem preProcessOrder_side :
    (preProcessOrder bookType order flags).side = order.side := by
  rw [preProcessOrder_eq]

@[simp] theorem preProcessOrder_price :
    (preProcessOrder bookType order flags).price = order.price := by
  rw [preProcessOrder_eq]

@[simp] theorem preProcessOrder_size :
    (preProcessOrder bookType order flags).size = order.size := by
  rw [preProcessOrder_eq]

end

end Nautilus
