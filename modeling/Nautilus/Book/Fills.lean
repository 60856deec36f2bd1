import Nautilus.Book.Book
import Nautilus.Fixed

/-!
# What a book would fill

The questions the matching engine asks a book: which levels an order would take
(`simulate_fills`, `get_all_crossed_levels`), how much is displayed at a price
(`get_quantity_at_level`), and the sizes at the top. None of them changes the book.
-/

namespace Nautilus

open Lib Quantity

variable [Build]

/-- `level.rs:112`; the sum wraps. -/
def BookLevel.sizeRaw (level : BookLevel) : Nat :=
  (level.orders.values.map fun o => o.size.raw).sum % (quantityRawTypeMax + 1)

/-- The inner loop of `simulate_fills` (`ladder.rs:469-483`) over the orders of the levels reached;
the order that completes the target ends it. -/
def takeUntilFilled (target : Quantity) :
    Quantity → List BookOrder → Option (List (Price × Quantity))
  | _, [] => some []
  | cumulative, o :: orders => do
    let reached ← cumulative.add o.size
    if target.raw ≤ reached.raw then
      let remainder ← target.sub cumulative
      return if remainder.isPositive then [(o.price, remainder)] else []
    else
      let fills ← takeUntilFilled target reached orders
      return (o.price, o.size) :: fills

def BookLadder.simulateFills (l : BookLadder) (order : BookOrder) :
    Option (List (Price × Quantity)) := do
  let zero ← Quantity.zero order.size.precision
  let reached := l.levels.values.takeWhile fun level =>
    match l.side with
    | .buy => order.price.raw ≤ level.price.value.raw
    | .sell => level.price.value.raw ≤ order.price.raw
  takeUntilFilled order.size zero (reached.flatMap fun level => level.orders.values)

namespace OrderBook

variable (b : OrderBook)

def bestBidSize : Option Quantity :=
  (b.bids.top.bind BookLevel.first).map fun o => o.size

def bestAskSize : Option Quantity :=
  (b.asks.top.bind BookLevel.first).map fun o => o.size

/-- The ladder an order of a side takes from; panics on no side. -/
def oppositeLadder (side : OrderSide) : Option BookLadder :=
  side.asSpecified.map fun
    | .buy => b.asks
    | .sell => b.bids

def simulateFills (order : BookOrder) : Option (List (Price × Quantity)) := do
  let ladder ← b.oppositeLadder order.side
  ladder.simulateFills order

/-- `book.rs:932`: a buy reads the asks, a sell the bids. -/
def getQuantityAtLevel (price : Price) (side : OrderSide) (sizePrecision : Nat) :
    Option Quantity := do
  let ladder ← b.oppositeLadder side
  match ladder.levels.get? ⟨price, ladder.side⟩ with
  | none => Quantity.zero sizePrecision
  | some level => Quantity.fromRaw level.sizeRaw sizePrecision

/-- `get_all_crossed_levels` (`book.rs:971`, `analysis.rs:62`): every level up to the price. -/
def getAllCrossedLevels (side : OrderSide) (price : Price)
    (sizePrecision : Nat) : Option (List (Price × Quantity)) := do
  let ladder ← b.oppositeLadder side
  let crossed := ladder.levels.entries.takeWhile fun (bookPrice, _) =>
    match side with
    | .buy => bookPrice.value.raw ≤ price.raw
    | _ => price.raw ≤ bookPrice.value.raw
  crossed.mapM fun (_, level) => do
    let size ← Quantity.new (level.sizeRaw / 10 ^ fixedPrecision) sizePrecision
    return (level.price.value, size)

end OrderBook

end Nautilus
