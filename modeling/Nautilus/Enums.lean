import Mathlib

/-!
# Enumerations of the order book

`OrderSide`, `OrderSideSpecified`, `BookType`, `BookAction` and `RecordFlag` of
`enums.rs`.
-/

namespace Nautilus

inductive OrderSide where
  | noOrderSide
  | buy
  | sell
deriving DecidableEq

inductive OrderSideSpecified where
  | buy
  | sell
deriving DecidableEq

/-- `self as u64`. -/
def OrderSide.toUInt64 : OrderSide → UInt64
  | .noOrderSide => 0
  | .buy => 1
  | .sell => 2

/-- `enums.rs:1270`; panics on `NoOrderSide`. -/
def OrderSide.asSpecified : OrderSide → Option OrderSideSpecified
  | .noOrderSide => none
  | .buy => some .buy
  | .sell => some .sell

def OrderSideSpecified.asOrderSide : OrderSideSpecified → OrderSide
  | .buy => .buy
  | .sell => .sell

/-- The derived order: `Buy = 1`, `Sell = 2`. -/
def OrderSideSpecified.toNat : OrderSideSpecified → Nat
  | .buy => 1
  | .sell => 2

theorem OrderSide.eq_asOrderSide {side : OrderSide} {s : OrderSideSpecified}
    (h : side.asSpecified = some s) : side = s.asOrderSide := by
  cases side <;> cases h <;> rfl

theorem OrderSideSpecified.toNat_inj {a b : OrderSideSpecified} (h : a.toNat = b.toNat) :
    a = b := by
  cases a <;> cases b <;> first | rfl | nomatch h

inductive BookType where
  | l1Mbp
  | l2Mbp
  | l3Mbo
deriving DecidableEq

inductive BookAction where
  | add
  | update
  | delete
  | clear
deriving DecidableEq

/-! ## Record flags -/

/-- `enums.rs:1794`; a record carries any set of them in one byte. -/
inductive RecordFlag where
  | fLast
  | fTob
  | fSnapshot
  | fMbp
deriving DecidableEq

def RecordFlag.toUInt8 : RecordFlag → UInt8
  | .fLast => 128
  | .fTob => 64
  | .fSnapshot => 32
  | .fMbp => 16

def RecordFlag.matches (self : RecordFlag) (value : UInt8) : Bool :=
  self.toUInt8 &&& value != 0

theorem RecordFlag.matches_or_self (flag : RecordFlag) (value : UInt8) :
    flag.matches (value ||| flag.toUInt8) = true := by
  have hand : flag.toUInt8 &&& (value ||| flag.toUInt8) = flag.toUInt8 := by
    apply UInt8.toBitVec_inj.mp
    ext i
    simp only [UInt8.toBitVec_and, UInt8.toBitVec_or, BitVec.getElem_and, BitVec.getElem_or]
    grind
  unfold RecordFlag.matches
  rw [hand]
  cases flag <;> decide

end Nautilus
