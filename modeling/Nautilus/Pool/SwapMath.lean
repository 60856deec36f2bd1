import Nautilus.Pool.TickMath

/-!
# One step of a swap

`sqrt_price_math.rs` and `compute_swap_step` (`pool_analysis/swap_math.rs:51`). A step moves the
price from the current one towards a target, as far as the remaining amount carries it at the
liquidity given. Which way it moves is read off the two prices, not passed.
-/

namespace Nautilus

open Lib U256
open FullMath (mulDiv mulDivRoundingUp divRoundingUp)

/-- `unwrap_or(U256::ZERO)`. -/
def orZero (result : Except PoolError Nat) : Nat := result.toOption.getD 0

/-- `expect`, which panics on an error. -/
def expectOk (result : Except PoolError Nat) : Option Nat := result.toOption

/-- Division of `U256`, which panics on a zero divisor. -/
def divU256 (a b : Nat) : Option Nat := if b = 0 then none else some (a / b)

/-! ## The next price -/

def getNextSqrtPriceFromAmount0RoundingUp (sqrtPriceX96 liquidity amount : Nat) (add : Bool) :
    Option Nat :=
  if amount = 0 then some sqrtPriceX96
  else
    let numerator := liquidity <<< 96
    let product := U256.mul amount sqrtPriceX96
    if add then
      if product / amount = sqrtPriceX96 ∧ numerator ≤ U256.add numerator product then
        (expectOk (mulDivRoundingUp numerator sqrtPriceX96
          (U256.add numerator product))).bind U256.toU160
      else do
        let quotient ← divU256 numerator sqrtPriceX96
        let result ← expectOk (divRoundingUp numerator (U256.add quotient amount))
        U256.toU160 result
    else if product / amount = sqrtPriceX96 ∧ product < numerator then
      (expectOk (mulDivRoundingUp numerator sqrtPriceX96
        (U256.sub numerator product))).bind U256.toU160
    else none

def getNextSqrtPriceFromAmount1RoundingDown (sqrtPriceX96 liquidity amount : Nat) (add : Bool) :
    Option Nat :=
  if add then do
    let quotient ← (if amount ≤ 2 ^ 160 - 1 then divU256 (amount <<< 96) liquidity
      else some (orZero (mulDiv amount (2 ^ 96) liquidity)))
    U256.toU160 (U256.add sqrtPriceX96 quotient)
  else
    let quotient :=
      if amount ≤ 2 ^ 160 - 1 then orZero (divRoundingUp (amount <<< 96) liquidity)
      else orZero (mulDivRoundingUp amount (2 ^ 96) liquidity)
    if quotient < sqrtPriceX96 then U256.toU160 (U256.sub sqrtPriceX96 quotient) else none

def getNextSqrtPriceFromInput (sqrtPriceX96 liquidity amountIn : Nat) (zeroForOne : Bool) :
    Option Nat :=
  if 0 < sqrtPriceX96 ∧ 0 < liquidity then
    if zeroForOne then getNextSqrtPriceFromAmount0RoundingUp sqrtPriceX96 liquidity amountIn true
    else getNextSqrtPriceFromAmount1RoundingDown sqrtPriceX96 liquidity amountIn true
  else none

def getNextSqrtPriceFromOutput (sqrtPriceX96 liquidity amountOut : Nat) (zeroForOne : Bool) :
    Option Nat :=
  if 0 < sqrtPriceX96 ∧ 0 < liquidity then
    if zeroForOne then getNextSqrtPriceFromAmount1RoundingDown sqrtPriceX96 liquidity amountOut false
    else getNextSqrtPriceFromAmount0RoundingUp sqrtPriceX96 liquidity amountOut false
  else none

/-! ## The amounts -/

def getAmount0Delta (sqrtRatioA sqrtRatioB liquidity : Nat) (roundUp : Bool) : Option Nat :=
  let (a, b) := if sqrtRatioB < sqrtRatioA then (sqrtRatioB, sqrtRatioA)
    else (sqrtRatioA, sqrtRatioB)
  let numerator1 := liquidity <<< 96
  let numerator2 := b - a
  if roundUp then
    some (orZero (divRoundingUp (orZero (mulDivRoundingUp numerator1 numerator2 b)) a))
  else divU256 (orZero (mulDiv numerator1 numerator2 b)) a

def getAmount1Delta (sqrtRatioA sqrtRatioB liquidity : Nat) (roundUp : Bool) : Nat :=
  let (a, b) := if sqrtRatioB < sqrtRatioA then (sqrtRatioB, sqrtRatioA)
    else (sqrtRatioA, sqrtRatioB)
  if roundUp then orZero (mulDivRoundingUp liquidity (b - a) (2 ^ 96))
  else orZero (mulDiv liquidity (b - a) (2 ^ 96))

def getAmountsForLiquidity (sqrtRatioX96 : Nat) (tickLower tickUpper : Int) (liquidity : Nat)
    (roundUp : Bool) : Option (Nat × Nat) := do
  let lower ← getSqrtRatioAtTick tickLower
  let upper ← getSqrtRatioAtTick tickUpper
  let a := min lower upper
  let b := max lower upper
  let amount0 ← (if sqrtRatioX96 ≤ a then getAmount0Delta a b liquidity roundUp
    else if sqrtRatioX96 < b then getAmount0Delta sqrtRatioX96 b liquidity roundUp
    else some 0)
  let amount1 :=
    if sqrtRatioX96 < a then 0
    else if sqrtRatioX96 < b then getAmount1Delta a sqrtRatioX96 liquidity roundUp
    else getAmount1Delta a b liquidity roundUp
  return (amount0, amount1)

/-! ## The step -/

structure SwapStepResult where
  sqrtRatioNextX96 : Nat
  amountIn : Nat
  amountOut : Nat
  feeAmount : Nat
deriving DecidableEq

def maxFee : Nat := 1000000

/-- The amount of the token put in over a price move, rounded up. -/
def amountInDelta (current next liquidity : Nat) (zeroForOne : Bool) : Option Nat :=
  if zeroForOne then getAmount0Delta next current liquidity true
  else some (getAmount1Delta current next liquidity true)

/-- The amount of the token taken out over a price move, rounded down. -/
def amountOutDelta (current next liquidity : Nat) (zeroForOne : Bool) : Option Nat :=
  if zeroForOne then some (getAmount1Delta next current liquidity false)
  else getAmount0Delta current next liquidity false

/-- The amount that would move the price to the target and the price reached
(`swap_math.rs:79-136`): the input for a remaining amount that is not negative, else the output. -/
def reach (current target liquidity : Nat) (amountRemaining : Int) (feePips : Nat)
    (zeroForOne : Bool) : PoolM (Nat × Nat) :=
  if 0 ≤ amountRemaining then do
    let lessFee ← .fails (mulDiv amountRemaining.toNat (U256.sub maxFee feePips) maxFee)
    let amountIn ← .panics (amountInDelta current target liquidity zeroForOne)
    let next ← .panics (if amountIn ≤ lessFee then some target
      else getNextSqrtPriceFromInput current liquidity lessFee zeroForOne)
    pure (amountIn, next)
  else do
    let amountOut ← .panics (amountOutDelta current target liquidity zeroForOne)
    let next ← .panics (if amountOut ≤ amountRemaining.natAbs then some target
      else getNextSqrtPriceFromOutput current liquidity amountRemaining.natAbs zeroForOne)
    pure (amountOut, next)

def computeSwapStep (current target liquidity : Nat) (amountRemaining : Int) (feePips : Nat) :
    PoolM SwapStepResult := do
  let zeroForOne : Bool := target ≤ current
  let exactIn : Bool := 0 ≤ amountRemaining
  let reached ← reach current target liquidity amountRemaining feePips zeroForOne
  let next := reached.2
  let max : Bool := target = next
  let amountIn ← .panics (if max && exactIn then some reached.1
    else amountInDelta current next liquidity zeroForOne)
  let amountOut ← .panics (if max && !exactIn then some reached.1
    else amountOutDelta current next liquidity zeroForOne)
  let feeAmount ← .fails (if exactIn && !max then .ok (U256.sub amountRemaining.natAbs amountIn)
    else mulDivRoundingUp amountIn feePips (U256.sub maxFee feePips))
  pure ⟨next, amountIn, if exactIn then amountOut else min amountOut amountRemaining.natAbs,
    feeAmount⟩

end Nautilus
