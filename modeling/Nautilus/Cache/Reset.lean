import Nautilus.Lib.IndexMap

/-!
# Resetting the cache

`Cache` (`cache/mod.rs:185`) as the maps it keeps, each with its own types of keys and values; a
set is a map to nothing. `reset` clears them one by one and leaves out the option greeks, so
`reset_asNew_iff` tells when a cache that was reset answers like a new one.
-/

namespace Nautilus.Common

open Lib

/-- The fields of `CacheIndex` (`index.rs:25`). -/
inductive CacheIndexField where
  | venueAccount | venueOrders | venuePositions | venueOrderIds | clientOrderIds | orderPosition
  | orderStrategy | orderClient | positionStrategy | positionOrders | instrumentOrders
  | instrumentPositions | strategyOrders | strategyPositions | accountOrders | accountPositions
  | execAlgorithmOrders | execSpawnOrders | orders | ordersActiveLocal | ordersOpen | ordersClosed
  | ordersEmulated | ordersInflight | ordersPendingCancel | positions | positionsOpen
  | positionsClosed | actors | strategies | execAlgorithms
deriving DecidableEq

/-- The maps of a `Cache`, with those of its index and of its `DefiCache`. -/
inductive CacheField where
  | general | currencies | instruments | synthetics | books | ownBooks | quotes | trades
  | markXrates | markPrices | indexPrices | fundingRates | instrumentStatuses | bars | greeks
  | optionGreeks | yieldCurves | accounts | orders | orderLists | positions | positionSnapshots
  | pools | poolProfilers
  | index (field : CacheIndexField)
deriving DecidableEq

structure Cache (κ ν : CacheField → Type) where
  dropInstrumentsOnReset : Bool
  maps : (field : CacheField) → IndexMap (κ field) (ν field)

namespace Cache

variable {κ ν : CacheField → Type} (self : Cache κ ν)

def new (dropInstrumentsOnReset : Bool) : Cache κ ν := ⟨dropInstrumentsOnReset, fun _ => .empty⟩

def clear (field : CacheField) : Cache κ ν :=
  { self with maps := Function.update self.maps field .empty }

/-- What `CacheIndex::clear` (`index.rs:99`) clears. -/
def indexFields : List CacheIndexField :=
  [.venueAccount, .venueOrders, .venuePositions, .venueOrderIds, .clientOrderIds, .orderPosition,
    .orderStrategy, .orderClient, .positionStrategy, .positionOrders, .instrumentOrders,
    .instrumentPositions, .strategyOrders, .strategyPositions, .accountOrders, .accountPositions,
    .execAlgorithmOrders, .execSpawnOrders, .orders, .ordersActiveLocal, .ordersOpen, .ordersClosed,
    .ordersEmulated, .ordersInflight, .ordersPendingCancel, .positions, .positionsOpen,
    .positionsClosed, .actors, .strategies, .execAlgorithms]

def instrumentFields : List CacheField := [.currencies, .instruments, .synthetics]

/-- What `reset` clears. -/
def resetFields (dropInstrumentsOnReset : Bool) : List CacheField :=
  [.general, .books, .ownBooks, .quotes, .trades, .markXrates, .markPrices, .indexPrices,
    .fundingRates, .instrumentStatuses, .bars, .accounts, .orders, .orderLists, .positions,
    .positionSnapshots, .greeks, .yieldCurves] ++
    (if dropInstrumentsOnReset then instrumentFields else []) ++ [.pools, .poolProfilers] ++
    indexFields.map .index

def reset : Cache κ ν := (resetFields self.dropInstrumentsOnReset).foldl clear self

/-- A new cache with the instruments that a reset is to keep. -/
def renewed : Cache κ ν :=
  { self with
    maps := fun field =>
      if field ∈ instrumentFields ∧ self.dropInstrumentsOnReset = false then self.maps field
      else (new self.dropInstrumentsOnReset).maps field }

def addOptionGreeks [DecidableEq (κ .optionGreeks)] (instrumentId : κ .optionGreeks)
    (greeks : ν .optionGreeks) : Cache κ ν :=
  { self with
    maps := Function.update self.maps .optionGreeks
      ((self.maps .optionGreeks).insert instrumentId greeks) }

theorem foldl_clear (fields : List CacheField) :
    fields.foldl clear self =
      { self with maps := fun field => if field ∈ fields then .empty else self.maps field } := by
  induction fields generalizing self with
  | nil => rfl
  | cons first fields ih =>
    rw [List.foldl_cons, ih, clear]
    congr 1
    funext field
    by_cases h : field = first
    · subst h
      simp
    · simp [h]

/-- Every map is cleared or to be kept, the option greeks apart. -/
theorem mem_resetFields {drop : Bool} {field : CacheField} : field ∈ resetFields drop ↔
    ¬ (field ∈ instrumentFields ∧ drop = false) ∧ field ≠ .optionGreeks := by
  cases field with
  | index field => cases drop <;> cases field <;> decide
  | _ => cases drop <;> decide

theorem reset_eq_renewed_iff : self.reset = self.renewed ↔ self.maps .optionGreeks = .empty := by
  rw [reset, foldl_clear]
  constructor
  · intro h
    have hmap := congrArg (fun cache => cache.maps .optionGreeks) h
    simpa [mem_resetFields, renewed, instrumentFields, new] using hmap
  intro h
  unfold renewed
  congr 1
  funext field
  by_cases hgreeks : field = .optionGreeks
  · subst hgreeks
    simpa [mem_resetFields, instrumentFields, new] using h
  · simp only [mem_resetFields, ne_eq, hgreeks, not_false_eq_true, and_true, ite_not, new]

/-- **A cache that was reset answers like a new one from then on iff** it had no option greeks. -/
theorem reset_asNew_iff :
    (∀ (ops : List (Cache κ ν → Cache κ ν)) {α : Type} (query : Cache κ ν → α),
      query (ops.foldl (fun cache op => op cache) self.reset) =
        query (ops.foldl (fun cache op => op cache) self.renewed)) ↔
      self.maps .optionGreeks = .empty := by
  rw [← reset_eq_renewed_iff]
  exact ⟨fun h => h [] id, fun h ops α query => by rw [h]⟩

/-- The greeks of an option survive. -/
theorem not_reset_asNew_greeks :
    let cache : Cache (fun _ => String) fun _ => Nat := (new true).addOptionGreeks "X" 1
    (cache.reset.maps .optionGreeks).get? "X" = some 1 ∧
      (cache.renewed.maps .optionGreeks).get? "X" = none := by
  decide +kernel

end Cache

end Nautilus.Common
