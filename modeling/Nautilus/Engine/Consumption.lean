import Nautilus.Book.Calls
import Nautilus.Engine.Accounting

/-!
# What is taken from a level

Orders and trades share one counter for each displayed price. While the book stays as it is a counter
only grows, and not beyond the displayed size.
-/

namespace Nautilus

open Lib List

/-- By price: the displayed size, and what was taken of it. -/
abbrev Counters := IndexMap Int (Nat × Nat)

namespace EngineM

variable {size : Int → Nat} {counters counters' : Counters} {r : Int}

/-- What is recorded as taken at a price, where `size` is displayed. -/
def usedAt (size : Int → Nat) (counters : Counters) (r : Int) : Nat :=
  (consumptionEntry counters r (size r)).2

theorem consumptionEntry_eq :
    consumptionEntry counters r (size r) = (size r, usedAt size counters r) := by
  unfold usedAt consumptionEntry
  split
  · rfl
  split
  · rfl
  · rename_i h
    rw [not_not.mp h]

theorem usedAt_insert (k : Int) (used : Nat) : usedAt size (counters.insert k (size k, used)) r =
    if r = k then used else usedAt size counters r := by
  unfold usedAt consumptionEntry
  rw [IndexMap.get?_insert]
  by_cases hk : r = k
  · subst hk
    simp
  · rw [if_neg hk, if_neg hk]

/-- More was taken, within what is displayed. -/
def Draws (size : Int → Nat) (counters counters' : Counters) : Prop :=
  ∀ r, usedAt size counters r ≤ usedAt size counters' r ∧
    usedAt size counters' r ≤ max (size r) (usedAt size counters r)

theorem Draws.refl : Draws size counters counters := fun _ => ⟨le_rfl, le_max_right _ _⟩

theorem Draws.trans {last : Counters} (h : Draws size counters counters')
    (h' : Draws size counters' last) : Draws size counters last := by
  intro r
  have := h r
  have := h' r
  omega

theorem draws_insert (k : Int) {taken : Nat} (h : taken ≤ size k - usedAt size counters k) :
    Draws size counters (counters.insert k (size k, usedAt size counters k + taken)) := by
  intro r
  rw [usedAt_insert]
  split
  · subst r
    omega
  · omega

/-- A fill granted for a fill asked for: of the same level, at the same price, and no larger. -/
def CutDown (granted asked : Price × Price × Quantity) : Prop :=
  granted.1 = asked.1 ∧ granted.2.1 = asked.2.1 ∧ granted.2.2.raw ≤ asked.2.2.raw

/-- What the fills take from the level at a price. -/
def takenAt (r : Int) (grants : List (Price × Price × Quantity)) : Nat :=
  (grants.map fun grant => if r = grant.1.raw then grant.2.2.raw else 0).sum

section

variable [Build] {book : OrderBook} {side : OrderSide} {s : OrderSideSpecified}

/-- The loop of an order: the fills are cut down within what is left of the order and of each level.
-/
theorem of_consume {fills : List (Price × Price × Quantity)} {remaining : Nat}
    {granted : List (Price × Quantity)}
    (hsize : ∀ {price precision q}, book.getQuantityAtLevel price side precision = some q →
      q.raw = size price.raw)
    (h : consume book side counters remaining fills = some (counters', granted)) :
    Draws size counters counters' ∧
      ∃ grants, granted = grants.map Prod.snd ∧ SublistForall₂ CutDown grants fills ∧
        (grants.map (·.2.2.raw)).sum ≤ remaining ∧
        ∀ r, usedAt size counters' r = usedAt size counters r + takenAt r grants := by
  induction fills generalizing counters remaining granted with
  | nil =>
    cases h
    exact ⟨.refl, [], rfl, .nil, Nat.zero_le _, fun r => rfl⟩
  | cons fill fills ih =>
    obtain ⟨bookPrice, price, qty⟩ := fill
    unfold consume at h
    split at h
    · cases h
      exact ⟨.refl, [], rfl, .nil, Nat.zero_le _, fun r => rfl⟩
    obtain ⟨_, hlevel, h⟩ := Option.bind_eq_some_iff.mp h
    rw [hsize hlevel] at h
    simp only [consumptionEntry_eq] at h
    generalize hadjusted : min (min qty.raw (size bookPrice.raw -
      usedAt size counters bookPrice.raw)) remaining = adjusted at h
    have hdraws := draws_insert bookPrice.raw
      (show adjusted ≤ size bookPrice.raw - usedAt size counters bookPrice.raw by omega)
    split at h
    · -- nothing is left of the level
      obtain ⟨hrest, grants, hgranted, hcut, hsum, hused⟩ := ih h
      refine ⟨hdraws.trans hrest, grants, hgranted, .cons_right hcut, hsum, fun r => ?_⟩
      rw [hused, usedAt_insert]
      split
      · subst r
        omega
      · rfl
    · obtain ⟨_, hqty, h⟩ := Option.bind_eq_some_iff.mp h
      obtain ⟨⟨_, _⟩, hconsume, h⟩ := Option.bind_eq_some_iff.mp h
      cases h
      obtain ⟨hrest, grants, rfl, hcut, hsum, hused⟩ := ih hconsume
      obtain rfl := Quantity.fromRaw_eq_some hqty
      refine ⟨hdraws.trans hrest, (bookPrice, price, ⟨adjusted, qty.precision⟩) :: grants, rfl,
        .cons ⟨rfl, rfl, show adjusted ≤ qty.raw by omega⟩ hcut, ?_, fun r => ?_⟩
      · rw [map_cons, sum_cons]
        dsimp only
        omega
      rw [hused, usedAt_insert, takenAt, takenAt, map_cons, sum_cons]
      dsimp only
      split
      · subst r
        omega
      · omega

/-- The loop of a trade. -/
theorem draws_seed {levels : List BookLevel} {remaining : Nat}
    (hlevels : ∀ level ∈ levels, size level.price.value.raw = level.sizeRaw) :
    Draws size counters (seed counters remaining levels) := by
  induction levels generalizing counters remaining with
  | nil => exact .refl
  | cons level levels ih =>
    obtain ⟨hlevel, hlevels⟩ := forall_mem_cons.mp hlevels
    unfold seed
    split
    · exact .refl
    · simp only [← hlevel, consumptionEntry_eq]
      exact (draws_insert _ (by omega)).trans (ih hlevels)

end

end EngineM

section

variable [Build] {book : OrderBook} {s : OrderSideSpecified}

/-- The size that a ladder shows at a price. -/
def BookLadder.displayed (l : BookLadder) (priceRaw : Int) : Nat :=
  ((l.levels.get? ⟨⟨priceRaw, 0⟩, l.side⟩).map BookLevel.sizeRaw).getD 0

theorem BookLadder.displayed_eq (l : BookLadder) (price : Price) :
    l.displayed price.raw = ((l.levels.get? ⟨price, l.side⟩).map BookLevel.sizeRaw).getD 0 := by
  have hp : BookPrice.cmp ⟨⟨price.raw, 0⟩, l.side⟩ ⟨price, l.side⟩ = .eq :=
    BookPrice.cmp_eq_iff.mpr ⟨rfl, rfl⟩
  rw [displayed, OrdMap.get?_congr _ hp]

namespace OrderBook

theorem getQuantityAtLevel_raw {price : Price} {precision : Nat} {q : Quantity}
    (h : book.getQuantityAtLevel price (EngineM.oppositeSide s.asOrderSide) precision = some q) :
    q.raw = (book.ladder s).displayed price.raw := by
  have hladder : book.oppositeLadder (EngineM.oppositeSide s.asOrderSide) =
      some (book.ladder s) := by
    cases s <;> rfl
  unfold getQuantityAtLevel at h
  rw [hladder, Option.bind_eq_bind, Option.bind_some] at h
  rw [BookLadder.displayed_eq]
  split at h
  · rename_i hget
    rw [hget, Quantity.zero_eq_some h]
    rfl
  · rename_i hget
    rw [hget, Quantity.fromRaw_eq_some h]
    rfl

theorem WellFormed.displayed_of_mem (hbook : book.WellFormed) {level : BookLevel}
    (h : level ∈ (book.ladder s).levels.values) :
    (book.ladder s).displayed level.price.value.raw = level.sizeRaw := by
  obtain ⟨⟨⟨price, _⟩, _⟩, hmem, rfl⟩ := mem_map.mp h
  have hget := OrdMap.get?_of_mem hmem
  obtain ⟨rfl, hprice, -⟩ := (hbook.levelsOk s _ _ hget).1
  rw [(BookPrice.cmp_eq_iff.mp hprice).2, BookLadder.displayed_eq, hget]
  rfl

end OrderBook

variable [BookCode]

open EngineM

/-- A call that takes from the book: of an order that takes from the side `s`, or of a trade. -/
inductive ConsumptionCall where
  | apply (s : OrderSideSpecified) (fills : List (Price × Quantity)) (leavesQty : Quantity)
      (bookPrices : List Price)
  | seed (tradePriceRaw : Int) (tradeSizeRaw : Nat) (tsEvent : UnixNanos)
      (aggressorSide : AggressorSide)

namespace World

def counters (w : World) : OrderSideSpecified → Counters
  | .buy => w.engine.bidConsumption
  | .sell => w.engine.askConsumption

def setCounters (w : World) (s : OrderSideSpecified) (counters : Counters) : World :=
  { w with
    engine :=
      match s with
      | .buy => { w.engine with bidConsumption := counters }
      | .sell => { w.engine with askConsumption := counters } }

def usedAt (w : World) (s : OrderSideSpecified) (r : Int) : Nat :=
  EngineM.usedAt (w.engine.book.ladder s).displayed (w.counters s) r

end World

namespace ConsumptionCall

def step (env : EngineEnv) (w : World) : ConsumptionCall → Option World
  | apply s fills leavesQty bookPrices =>
    ((applyLiquidityConsumption env fills (oppositeSide s.asOrderSide) leavesQty
      bookPrices).run w).map Prod.snd
  | seed tradePriceRaw tradeSizeRaw tsEvent aggressorSide =>
    ((seedTradeConsumption tradePriceRaw tradeSizeRaw tsEvent aggressorSide :
      EngineM env Unit).run w).map Prod.snd

/-- What a run of calls takes from a side at a price. -/
def takenOver (env : EngineEnv) (s : OrderSideSpecified) (r : Int) :
    World → List ConsumptionCall → Nat
  | _, [] => 0
  | w, call :: calls =>
    (call.step env w).elim 0 fun w' => (w'.usedAt s r - w.usedAt s r) + takenOver env s r w' calls

/-- An order is granted a part of what it asked for, in that order, and within its leaves. -/
def Fair (env : EngineEnv) (w : World) (call : ConsumptionCall) (w' : World) : Prop :=
  match call with
  | apply s fills leavesQty bookPrices => ∃ grants,
    (applyLiquidityConsumption env fills (oppositeSide s.asOrderSide) leavesQty bookPrices).run w =
      some (grants.map Prod.snd, w') ∧
    SublistForall₂ CutDown grants
      (fills.zipIdx.map fun (fill, i) => (bookPrices.getD i fill.1, fill)) ∧
    (grants.map (·.2.2.raw)).sum ≤ leavesQty.raw ∧
    ∀ r, w'.usedAt s r = w.usedAt s r + takenAt r grants
  | seed .. => True

variable {env : EngineEnv} {w w' : World} {call : ConsumptionCall} {calls : List ConsumptionCall}

theorem run_apply (henv : env.config.liquidityConsumption = true) (s : OrderSideSpecified)
    (fills : List (Price × Quantity)) (leavesQty : Quantity) (bookPrices : List Price) :
    (applyLiquidityConsumption env fills (oppositeSide s.asOrderSide) leavesQty bookPrices).run w =
      (consume w.engine.book (oppositeSide s.asOrderSide) (w.counters s) leavesQty.raw
        (fills.zipIdx.map fun (fill, i) => (bookPrices.getD i fill.1, fill))).map
        fun x => (x.2, w.setCounters s x.1) := by
  unfold applyLiquidityConsumption
  rw [henv]
  cases s <;>
  · show Option.bind (Option.map _ _) _ = _
    rw [Option.bind_map, Option.map_eq_bind]
    rfl

/-- A trade is passed over, or seeds the counters of levels of one side. -/
theorem of_seed {tradePriceRaw : Int} {tradeSizeRaw : Nat} {tsEvent : UnixNanos}
    {aggressorSide : AggressorSide}
    (h : (seed tradePriceRaw tradeSizeRaw tsEvent aggressorSide).step env w = some w') :
    w' = w ∨ ∃ s, ∃ levels ⊆ (w.engine.book.ladder s).levels.values,
      w' = w.setCounters s (EngineM.seed (w.counters s) tradeSizeRaw levels) := by
  obtain ⟨⟨_, _⟩, hseed, rfl⟩ := Option.map_eq_some_iff.mp h
  by_cases hskip : tradeSizeRaw = 0 ∨ tsEvent < w.engine.book.tsLast
  · cases (congrArg (Acting.run · w) (if_pos hskip)).symm.trans hseed
    exact .inl rfl
  replace hseed := (congrArg (Acting.run · w) (if_neg hskip)).symm.trans hseed
  cases aggressorSide <;> cases hseed
  · exact .inl rfl
  · exact .inr ⟨.sell, _, fun _ => (takeWhile_sublist _).mem, rfl⟩
  · exact .inr ⟨.buy, _, fun _ => (takeWhile_sublist _).mem, rfl⟩

theorem of_step (henv : env.config.liquidityConsumption = true) (hbook : w.engine.book.WellFormed)
    (h : call.step env w = some w') :
    w'.engine.book = w.engine.book ∧
    (∀ s, Draws (w.engine.book.ladder s).displayed (w.counters s) (w'.counters s)) ∧
    call.Fair env w w' := by
  -- the counters of the other side stay
  have hset : ∀ {s counters}, Draws (w.engine.book.ladder s).displayed (w.counters s) counters →
      ∀ t, Draws (w.engine.book.ladder t).displayed (w.counters t)
        ((w.setCounters s counters).counters t) := by
    intro s counters h t
    cases s <;> cases t <;> first | exact h | exact .refl
  cases call with
  | apply s fills leavesQty bookPrices =>
    obtain ⟨⟨_, _⟩, hrun, rfl⟩ := Option.map_eq_some_iff.mp h
    obtain ⟨⟨counters, _⟩, hconsume, heq⟩ :=
      Option.map_eq_some_iff.mp ((run_apply henv ..).symm.trans hrun)
    cases heq
    obtain ⟨hdraws, grants, rfl, hcut, hsum, hused⟩ :=
      of_consume OrderBook.getQuantityAtLevel_raw hconsume
    refine ⟨by cases s <;> rfl, hset hdraws, grants, hrun, hcut, hsum, ?_⟩
    cases s <;> exact hused
  | seed tradePriceRaw tradeSizeRaw tsEvent aggressorSide =>
    obtain rfl | ⟨s, _, hlevels, rfl⟩ := of_seed h
    · exact ⟨rfl, fun s => .refl, trivial⟩
    · refine ⟨by cases s <;> rfl, hset (draws_seed fun level hlevel => ?_), trivial⟩
      exact hbook.displayed_of_mem (hlevels hlevel)

/-- What is taken comes on top of what is recorded, within what is displayed. -/
theorem takenOver_le (henv : env.config.liquidityConsumption = true)
    (hbook : w.engine.book.WellFormed) (s : OrderSideSpecified) (r : Int) :
    takenOver env s r w calls + w.usedAt s r ≤
      max ((w.engine.book.ladder s).displayed r) (w.usedAt s r) := by
  induction calls generalizing w with
  | nil => exact (Nat.zero_add _).trans_le (le_max_right _ _)
  | cons call calls ih =>
    unfold takenOver
    cases hstep : call.step env w with
    | none => exact (Nat.zero_add _).trans_le (le_max_right _ _)
    | some w' =>
      obtain ⟨hsame, hdraws, -⟩ := of_step henv hbook hstep
      have hrest := ih (hsame ▸ hbook)
      have hcall := hdraws s r
      unfold World.usedAt at hrest ⊢
      rw [hsame] at hrest
      rw [Option.elim_some, hsame]
      omega

/-- **Over any orders and trades no more is taken from a level than it shows**, and an order is
granted what it is recorded to take. -/
theorem taken_within_displayed {instrumentId : InstrumentId} {bookType : BookType}
    {ops : List BookOp} (henv : env.config.liquidityConsumption = true)
    (hbook : runs OrderBook.step (.new instrumentId bookType) ops = some w.engine.book) :
    (∀ s r, takenOver env s r w calls ≤ (w.engine.book.ladder s).displayed r) ∧
      Along (step env) (Fair env) w calls := by
  have hwell := OrderBook.wellFormed_of_runs hbook
  refine ⟨fun s r => ?_, along_of_inv (·.engine.book = w.engine.book) ?_ rfl⟩
  · have hle : takenOver env s r w calls + _ ≤ _ := takenOver_le henv hwell s r
    omega
  · intro w₁ call w₂ _ hsame hstep
    obtain ⟨hbook', -, hfair⟩ := of_step henv (hsame ▸ hwell) hstep
    exact ⟨hbook'.trans hsame, hfair⟩

end ConsumptionCall

end

section Instances

attribute [local instance] Build.standard BookCode.truncating

open EngineM.Sample ConsumptionCall

def EngineM.Sample.consumingVenue : EngineEnv :=
  env .l2Mbp { liquidityConsumption := true } applyNow

def EngineM.Sample.worldWith (book : OrderBook) : World :=
  { world consumingVenue limit with engine := { OrderMatchingEngine.new consumingVenue with book } }

/-- An order and a trade for four each, against an offer of six. -/
theorem taken_within_displayed_shared :
    ∃ book calls, takenOver consumingVenue .sell (price 100).raw (worldWith book) calls =
        (quantity 6).raw ∧ (quantity 6).raw ≤ (book.ladder .sell).displayed (price 100).raw := by
  obtain ⟨book, hbook, htaken⟩ := Option.map_eq_some_iff.mp
    (show (runs OrderBook.step (.new ⟨"AUD/USD.SIM"⟩ .l2Mbp)
        [.add ⟨.sell, price 100, quantity 6, 1⟩ 0 0 0]).map (fun book =>
          takenOver consumingVenue .sell (price 100).raw (worldWith book)
            [.apply .sell [(price 100, quantity 4)] (quantity 4) [],
              .seed (price 100).raw (quantity 4).raw 0 .buyer]) = some (quantity 6).raw by
      decide +kernel)
  exact ⟨book, _, htaken, htaken ▸ (taken_within_displayed rfl hbook).1 .sell _⟩

end Instances

end Nautilus
