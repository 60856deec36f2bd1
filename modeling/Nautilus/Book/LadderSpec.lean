import Nautilus.Book.Ladder

/-!
# What the ladder operations do

A ladder is read through `order? p id`, the order stored under `id` at price `p`, and
`cache.get? id`. For every primitive of `Book/Ladder.lean` this module says once what it does to
the two. `LevelsOk` is the shape that every call keeps: no empty level, every level under its own
price and on the ladder's side, every order with its level's price and side under its own id.

An order found after a call was there before or is the one just passed in (`add_order?`,
`update_order?`, `removeOrder_order?`).
-/

namespace Nautilus

open Lib List Option Bool IndexMap BookPrice BookLevel
open RecordFlag (fMbp fSnapshot)
open BookCode (toBookPrice)

variable {l l' : BookLadder} {p : BookPrice} {level : BookLevel} {s : OrderSideSpecified}
  {id : OrderId} {flags : UInt8}

theorem BookLevel.add_of_pos [Build] (level : BookLevel) {order : BookOrder}
    (hpos : order.size.isPositive = true) :
    level.add order = { level with orders := level.orders.insert order.orderId order } :=
  if_pos hpos

namespace BookLadder

def order? (l : BookLadder) (p : BookPrice) (id : OrderId) : Option BookOrder :=
  item BookLevel.orders l.levels p id

theorem respects_order? (l : BookLadder) : Respects cmp l.order? :=
  respects_item l.levels

theorem order?_of_get? (h : l.levels.get? p = some level) (id : OrderId) :
    l.order? p id = level.orders.get? id :=
  item_of_get? h id

theorem order?_of_get?_none (h : l.levels.get? p = none) (id : OrderId) : l.order? p id = none := by
  rw [order?, item, h, bind_none]

/-! ## Levels in good shape -/

/-- A level that hangs under its price, with orders that belong there. -/
structure LevelOk (s : OrderSideSpecified) (p : BookPrice) (level : BookLevel) : Prop where
  side : p.side = s
  price : level.price.cmp p = .eq
  orders : ∀ id order, level.orders.get? id = some order →
    order.price.raw = p.value.raw ∧ order.side.asSpecified = some s ∧ order.orderId = id

/-- Every level of the ladder is in good shape and non-empty. -/
def LevelsOk (l : BookLadder) : Prop :=
  ∀ p level, l.levels.get? p = some level → LevelOk l.side p level ∧ level.isEmpty = false

theorem LevelOk.congr {p' : BookPrice} (h : LevelOk s p level) (hp : p.cmp p' = .eq) :
    LevelOk s p' level := by
  obtain ⟨hs, hv⟩ := cmp_eq_iff.mp hp
  refine ⟨hs ▸ h.side, Std.TransCmp.eq_trans h.price hp, ?_⟩
  intro id order ho
  rw [← hv]
  exact h.orders id order ho

/-- A stored order has the ladder's side, its level's price and its own id. -/
theorem LevelsOk.order (h : l.LevelsOk) {order : BookOrder} (ho : l.order? p id = some order) :
    p.side = l.side ∧ order.price.raw = p.value.raw ∧
      order.side.asSpecified = some l.side ∧ order.orderId = id := by
  obtain ⟨level, hlevel, hget⟩ := item_eq_some_iff.mp ho
  have hok := (h p level hlevel).1
  exact ⟨hok.side, hok.orders id order hget⟩

variable {order : BookOrder}

theorem levelsOk_of_levels_empty (h : l.levels = .empty) : l.LevelsOk := by
  intro p level hget
  rw [h] at hget
  nomatch hget

/-! ## Clearing and storing a level -/

section

variable (l p level) (p' : BookPrice) (id)

@[simp] theorem clear_order? : l.clear.order? p id = none := rfl

theorem levelsOk_clear : l.clear.LevelsOk := levelsOk_of_levels_empty rfl

@[simp] theorem storeLevel_cache : (l.storeLevel p level).cache = l.cache := rfl

theorem get?_storeLevel :
    (l.storeLevel p level).levels.get? p' =
      if p.cmp p' = .eq then (if level.isEmpty then none else some level)
      else l.levels.get? p' :=
  OrdMap.get?_store l.levels isEmpty p p' level

end

theorem LevelsOk.storeLevel (h : l.LevelsOk) (hok : LevelOk l.side p level) :
    (l.storeLevel p level).LevelsOk := by
  intro p' level' hget
  rw [get?_storeLevel] at hget
  split at hget
  · rename_i hp
    split at hget
    · nomatch hget
    · rename_i hempty
      cases hget
      exact ⟨hok.congr hp, not_eq_true _ ▸ hempty⟩
  · exact h p' level' hget

theorem LevelsOk.setCache (h : l.LevelsOk) (cache : IndexMap OrderId BookPrice) :
    { l with cache }.LevelsOk := h

theorem levelOk_remove (h : LevelOk s p level) (id : OrderId) :
    LevelOk s p { level with orders := level.orders.remove id } := by
  refine ⟨h.side, h.price, ?_⟩
  intro id' order ho
  rw [get?_remove] at ho
  split at ho
  · cases ho
  · exact h.orders id' order ho

theorem levelOk_insert (h : LevelOk s p level)
    (hprice : order.price.raw = p.value.raw) (hside : order.side.asSpecified = some s) :
    LevelOk s p { level with orders := level.orders.insert order.orderId order } := by
  refine ⟨h.side, h.price, ?_⟩
  intro id' order' ho
  rw [get?_insert] at ho
  split at ho
  · rename_i hid
    cases ho
    exact ⟨hprice, hside, hid.symm⟩
  · exact h.orders id' order' ho

/-! ## Dropping one order

The shared part of a price-changing `update` and of `remove_order`. -/

/-- The ladder once the order `id` has left the cache and the level at `p`. -/
def withdrawn (l : BookLadder) (p : BookPrice) (level : BookLevel) (id : OrderId) : BookLadder :=
  { l with cache := l.cache.remove id }.storeLevel p
    { level with orders := level.orders.remove id }

theorem withdrawn_cache (l : BookLadder) (p : BookPrice) (level : BookLevel) (id id' : OrderId) :
    (l.withdrawn p level id).cache.get? id' = if id' = id then none else l.cache.get? id' :=
  get?_remove l.cache id id'

theorem withdrawn_order? (hget : l.levels.get? p = some level) (id : OrderId) (p' : BookPrice)
    (id' : OrderId) :
    (l.withdrawn p level id).order? p' id' =
      if id' = id ∧ p.cmp p' = .eq then none else l.order? p' id' := by
  refine item_overwrite l.levels (item_store l.levels p p' _ id') ?_
  rw [item_of_get? hget]
  exact get?_remove ..

theorem LevelsOk.withdrawn (h : l.LevelsOk) (hget : l.levels.get? p = some level) (id : OrderId) :
    (l.withdrawn p level id).LevelsOk :=
  (h.setCache _).storeLevel (levelOk_remove (h p level hget).1 id)

/-- `remove_order` leaves the same ladder, or the one without the order the cache pointed at. It
never reaches the panic of `remove_by_id`. -/
theorem removeOrder_cases (l : BookLadder) (id : OrderId) :
    (l.removeOrder id = some l ∧
      (∀ p, l.cache.get? id = some p → l.order? p id = none)) ∨
    ∃ p level, l.cache.get? id = some p ∧ l.levels.get? p = some level ∧
      l.removeOrder id = some (l.withdrawn p level id) := by
  unfold removeOrder
  cases hc : l.cache.get? id with
  | none => exact .inl ⟨rfl, nofun⟩
  | some p =>
    cases hl : l.levels.get? p with
    | none =>
      refine .inl ⟨by simp [hl], ?_⟩
      rintro p' ⟨⟩
      exact order?_of_get?_none hl id
    | some level =>
      by_cases hin : level.orders.containsKey id = true
      · refine .inr ⟨p, level, rfl, hl, ?_⟩
        simp [hl, hin, removeById, withdrawn]
      · refine .inl ⟨by simp [hl, hin], ?_⟩
        rintro p' ⟨⟩
        rw [order?_of_get? hl]
        exact not_isSome_iff_eq_none.mp hin

theorem LevelsOk.removeOrder (h : l.LevelsOk) (hl : l.removeOrder id = some l') : l'.LevelsOk := by
  rcases l.removeOrder_cases id with ⟨heq, -⟩ | ⟨p, _, -, hget, heq⟩
  · rw [heq] at hl
    cases hl
    exact h
  · rw [heq] at hl
    cases hl
    exact h.withdrawn hget id

theorem removeOrder_isSome (l : BookLadder) (id : OrderId) : ∃ l', l.removeOrder id = some l' := by
  rcases l.removeOrder_cases id with ⟨heq, -⟩ | ⟨p, _, -, -, heq⟩
  · exact ⟨_, heq⟩
  · exact ⟨_, heq⟩

/-- `remove_order` keeps the ladder's side and type, and every order it leaves was
there. -/
theorem removeOrder_order? (hl : l.removeOrder id = some l') :
    l'.side = l.side ∧ l'.bookType = l.bookType ∧
      ∀ p id' order, l'.order? p id' = some order → l.order? p id' = some order := by
  rcases l.removeOrder_cases id with ⟨heq, -⟩ | ⟨p, _, -, hget, heq⟩
  · rw [heq] at hl
    cases hl
    exact ⟨rfl, rfl, fun _ _ _ h => h⟩
  rw [heq] at hl
  cases hl
  refine ⟨rfl, rfl, ?_⟩
  intro p' id' order ho
  rw [withdrawn_order? hget] at ho
  split at ho
  · nomatch ho
  · exact ho

/-! ## Removing whole levels -/

theorem removeLevel_order? (l : BookLadder) (price p : BookPrice) (id : OrderId) :
    (l.removeLevel price).1.order? p id =
      if price.cmp p = .eq then none else l.order? p id := by
  unfold removeLevel
  cases hget : l.levels.get? price with
  | some level => exact item_remove l.levels price p id
  | none =>
    by_cases hp : price.cmp p = .eq
    · rw [if_pos hp]
      exact order?_of_get?_none (l.levels.get?_congr hp ▸ hget) id
    · rw [if_neg hp]

theorem removeLevel_cache (l : BookLadder) (price : BookPrice) (id : OrderId) :
    (l.removeLevel price).1.cache.get? id =
      if (l.order? price id).isSome then none else l.cache.get? id := by
  unfold removeLevel
  cases hget : l.levels.get? price with
  | some level =>
    show (level.orders.keys.foldl _ l.cache).get? id = _
    rw [get?_foldl (get?_remove · · ·), order?_of_get? hget]
    refine if_congr ?_ rfl rfl
    rw [mem_keys_iff, isSome_iff_exists]
  | none =>
    rw [order?_of_get?_none hget]
    rfl

theorem LevelsOk.removeLevel (h : l.LevelsOk) (price : BookPrice) :
    (l.removeLevel price).1.LevelsOk := by
  unfold BookLadder.removeLevel
  split
  · intro p level hget
    rw [OrdMap.get?_remove] at hget
    split at hget
    · nomatch hget
    · exact h p level hget
  · exact h

/-! ## Retaining the best level -/

/-- `retain_best_only` keeps the first of several levels, with a cache built from it alone. -/
theorem retainBestOnly_cases (l : BookLadder) : (l.levels.len ≤ 1 ∧ l.retainBestOnly = l) ∨
    ∃ best level, l.levels.first = some (best, level) ∧
      l.retainBestOnly.levels.entries = [(best, level)] ∧
      ∀ id, l.retainBestOnly.cache.get? id =
        if (l.order? best id).isSome then some best else none := by
  unfold retainBestOnly
  by_cases hlen : l.levels.len ≤ 1
  · exact .inl ⟨hlen, by rw [if_pos hlen]⟩
  refine .inr ?_
  rw [if_neg hlen]
  cases hfirst : l.levels.first with
  | none =>
    rw [OrdMap.first, head?_eq_none_iff] at hfirst
    rw [OrdMap.len, hfirst] at hlen
    exact absurd (Nat.zero_le 1) hlen
  | some e =>
    obtain ⟨best, level⟩ := e
    -- the rebuilt cache holds the ids of the level that is kept
    have hentries : (l.levels.retain fun price => price.eq best).entries = [(best, level)] :=
      OrdMap.retain_first hfirst fun _ => eq_iff_cmp
    refine ⟨best, level, rfl, hentries, ?_⟩
    intro id
    show (foldl _ empty (l.levels.retain fun price => price.eq best).entries).get? id = _
    rw [hentries, foldl_cons, foldl_nil, get?_foldl (get?_insert · · · best),
      order?_of_get? (OrdMap.get?_of_mem (OrdMap.mem_of_first hfirst))]
    refine if_congr ?_ rfl rfl
    rw [mem_keys_iff, isSome_iff_exists]

theorem retainBestOnly_fields (l : BookLadder) :
    l.retainBestOnly.side = l.side ∧ l.retainBestOnly.bookType = l.bookType ∧
      l.retainBestOnly.batchState = l.batchState := by
  unfold retainBestOnly
  split
  · exact ⟨rfl, rfl, rfl⟩
  · split <;> exact ⟨rfl, rfl, rfl⟩

/-- With the best level alone left, every other price reads as missing. -/
theorem order?_of_entries_singleton {best : BookPrice} (h : l.levels.entries = [(best, level)])
    (p : BookPrice) (id : OrderId) :
    l.order? p id = if best.cmp p = .eq then level.orders.get? id else none := by
  have hget : l.levels.get? p = if best.cmp p = .eq then some level else none := by
    rw [OrdMap.get?, h]
    rfl
  rw [order?, item, hget]
  split <;> rfl

theorem levelsOk_of_entries (h : l.LevelsOk) (hside : l'.side = l.side)
    (hsub : ∀ e ∈ l'.levels.entries, e ∈ l.levels.entries) : l'.LevelsOk := by
  intro p level hget
  obtain ⟨p', hp', hmem⟩ := OrdMap.get?_eq_some_iff.mp hget
  obtain ⟨hok, hne⟩ := h p' level (OrdMap.get?_of_mem (hsub _ hmem))
  rw [hside]
  exact ⟨hok.congr hp', hne⟩

theorem LevelsOk.retainBestOnly (h : l.LevelsOk) : l.retainBestOnly.LevelsOk := by
  rcases l.retainBestOnly_cases with ⟨-, heq⟩ | ⟨_, _, hfirst, hentries, -⟩
  · rw [heq]
    exact h
  · refine levelsOk_of_entries h l.retainBestOnly_fields.1 ?_
    intro e he
    rw [hentries, mem_singleton] at he
    exact he ▸ OrdMap.mem_of_first hfirst

theorem retainBestOnly_order? (h : l.retainBestOnly.order? p id = some order) :
    l.order? p id = some order := by
  rcases l.retainBestOnly_cases with ⟨-, heq⟩ | ⟨best, level, hfirst, hentries, -⟩
  · rwa [heq] at h
  rw [order?_of_entries_singleton hentries] at h
  split at h
  · rename_i hp
    have hget : l.levels.get? best = some level := OrdMap.get?_of_mem (OrdMap.mem_of_first hfirst)
    rw [← l.respects_order? best p hp, order?_of_get? hget]
    exact h
  · cases h

/-! ## Adding -/

/-! ### The L1 batch machine -/

theorem settleBatch_of_ne_l1 (h : l.bookType ≠ .l1Mbp) (flags : UInt8) :
    l.settleBatch flags = l := by
  unfold settleBatch
  exact if_neg fun hc => h hc.1

/-- Outside the batch state, the end of `add` is `retain_best_only` or nothing. -/
theorem settleBatch_eq (l : BookLadder) (flags : UInt8) :
    ∃ l' st, l.settleBatch flags = { l' with batchState := st } ∧
      (l' = l.retainBestOnly ∨
        l' = l ∧ (l.bookType ≠ .l1Mbp ∨
          (fMbp.matches flags || fSnapshot.matches flags) = false)) := by
  by_cases hc : l.bookType = .l1Mbp ∧
      (fMbp.matches flags || fSnapshot.matches flags) = true
  · by_cases hlast : RecordFlag.fLast.matches flags = true
    · refine ⟨l.retainBestOnly, .none, ?_, .inl rfl⟩
      simp only [settleBatch]
      rw [if_pos hc, if_pos hlast]
    · refine ⟨l.retainBestOnly, l.retainBestOnly.batchState, ?_, .inl rfl⟩
      simp only [settleBatch]
      rw [if_pos hc, if_neg hlast]
  · refine ⟨l, l.batchState, ?_, .inr ⟨rfl, ?_⟩⟩
    · simp only [settleBatch]
      rw [if_neg hc]
    · by_cases ht : l.bookType = .l1Mbp
      · exact .inr (not_eq_true _ ▸ fun hb => hc ⟨ht, hb⟩)
      · exact .inl ht

theorem settleBatch_fields (l : BookLadder) (flags : UInt8) :
    (l.settleBatch flags).side = l.side ∧ (l.settleBatch flags).bookType = l.bookType := by
  obtain ⟨_, _, heq, hl' | ⟨hl', -⟩⟩ := l.settleBatch_eq flags
  · rw [heq, hl']
    exact ⟨l.retainBestOnly_fields.1, l.retainBestOnly_fields.2.1⟩
  · rw [heq, hl']
    exact ⟨rfl, rfl⟩

theorem LevelsOk.settleBatch (h : l.LevelsOk) (flags : UInt8) : (l.settleBatch flags).LevelsOk := by
  obtain ⟨_, _, heq, hl' | ⟨hl', -⟩⟩ := l.settleBatch_eq flags
  · rw [heq, hl']
    exact h.retainBestOnly
  · rw [heq, hl']
    exact h

theorem settleBatch_order? (h : (l.settleBatch flags).order? p id = some order) :
    l.order? p id = some order := by
  obtain ⟨_, _, heq, hl' | ⟨hl', -⟩⟩ := l.settleBatch_eq flags
  · rw [heq, hl'] at h
    exact retainBestOnly_order? h
  · rw [heq, hl'] at h
    exact h

/-- The in-place branch, read through `order?`: size zero takes the order out, another overwrites
it. -/
theorem updateInPlace_order? (hget : l.levels.get? p = some level) (order : BookOrder)
    (cache : IndexMap OrderId BookPrice) (p' : BookPrice) (id : OrderId) :
    ({ l with cache }.storeLevel p (level.update order)).order? p' id =
      if id = order.orderId ∧ p.cmp p' = .eq then
        if order.size.raw = 0 then none else some order
      else l.order? p' id := by
  refine item_overwrite l.levels (item_store l.levels p p' _ id) ?_
  rw [item_of_get? hget]
  unfold BookLevel.update
  by_cases hzero : order.size.raw = 0
  · rw [if_pos hzero, if_pos hzero]
    exact get?_remove ..
  · rw [if_neg hzero, if_neg hzero]
    exact get?_insert ..

section Add

variable [Build]

/-- A positive L1 add goes on from the ladder as it is, inside a batch, or from a
cleared one. -/
theorem handleL1Add_of_pos (l : BookLadder) (flags : UInt8) (hpos : order.size.isPositive = true) :
    (l.handleL1Add order flags = (l, true) ∧
      (fMbp.matches flags || fSnapshot.matches flags) = true) ∨
    ∃ st, l.handleL1Add order flags = ({ l.clear with batchState := st }, true) := by
  unfold handleL1Add
  simp only [hpos, Bool.not_true, Bool.false_eq_true, if_false]
  split
  · rename_i hsl
    split
    · exact .inr ⟨.none, rfl⟩
    · exact .inl ⟨rfl, by simp_all⟩
  · split
    · rename_i hs
      split
      · exact .inr ⟨.snapshotBatch, rfl⟩
      · exact .inl ⟨rfl, by simp_all⟩
    · split
      · rename_i hml
        split
        · exact .inr ⟨.none, rfl⟩
        · exact .inl ⟨rfl, by simp_all⟩
      · split
        · exact .inr ⟨.mbpBatch, rfl⟩
        · exact .inr ⟨.none, rfl⟩

variable [BookCode]

/-! ### Placing an order -/

/-- The level an added order ends up in. -/
def placedLevel (l : BookLadder) (order : BookOrder) : BookLevel :=
  match l.levels.get? (toBookPrice order) with
  | some level => level.add order
  | none => BookLevel.fromOrder order

theorem place_levels (l : BookLadder) (order : BookOrder) :
    (l.place order).levels = l.levels.insert (toBookPrice order) (l.placedLevel order) := by
  cases hget : l.levels.get? (toBookPrice order) with
  | none => simp only [place, placedLevel, hget]
  | some level => simp only [place, placedLevel, hget]

theorem placedLevel_orders (hpos : order.size.isPositive = true) :
    (l.placedLevel order).orders =
      ((l.levels.get? (toBookPrice order)).elim .empty BookLevel.orders).insert
        order.orderId order := by
  cases hget : l.levels.get? (toBookPrice order) with
  | some level =>
    simp [placedLevel, hget, add_of_pos level hpos, elim_some]
  | none =>
    simp [placedLevel, hget, fromOrder, add_of_pos _ hpos, elim_none]

/-- Placing files the order under its price and id and touches nothing else. -/
theorem place_order? (hpos : order.size.isPositive = true) (p : BookPrice) (id : OrderId) :
    (l.place order).order? p id =
      if id = order.orderId ∧ (toBookPrice order).cmp p = .eq then some order
      else l.order? p id := by
  refine item_overwrite l.levels (by rw [order?, place_levels, item_insert]) ?_
  rw [placedLevel_orders hpos]
  unfold item
  cases l.levels.get? (toBookPrice order) <;> exact get?_insert ..

theorem place_cache (l : BookLadder) (order : BookOrder) (id : OrderId) :
    (l.place order).cache.get? id =
      if id = order.orderId then some (toBookPrice order) else l.cache.get? id :=
  get?_insert l.cache order.orderId id (toBookPrice order)

section

variable (h : l.LevelsOk) (hpos : order.size.isPositive = true)
  (hside : order.side.asSpecified = some l.side)

include h hpos hside

theorem placedLevel_ok : LevelOk l.side (toBookPrice order) (l.placedLevel order) := by
  have hbp := BookCode.toBookPrice_eq order l.side hside
  have hprice : order.price.raw = (toBookPrice order).value.raw := by rw [hbp]
  cases hget : l.levels.get? (toBookPrice order) with
  | some level =>
    simp only [placedLevel, hget, add_of_pos level hpos]
    exact levelOk_insert (h _ level hget).1 hprice hside
  | none =>
    simp only [placedLevel, hget, fromOrder, add_of_pos _ hpos]
    have hnew : LevelOk l.side (toBookPrice order)
        ⟨toBookPrice order, .empty⟩ :=
      ⟨by rw [hbp], Std.ReflCmp.compare_self, nofun⟩
    exact levelOk_insert hnew hprice hside

theorem LevelsOk.place : (l.place order).LevelsOk := by
  intro p level hget
  rw [place_levels, OrdMap.get?_insert] at hget
  split at hget
  · rename_i hp
    cases hget
    refine ⟨(placedLevel_ok h hpos hside).congr hp, ?_⟩
    unfold BookLevel.isEmpty
    rw [placedLevel_orders hpos]
    exact isEmpty_insert _ _ _
  · exact h p level hget

end

/-- The four ways an `add` can go. -/
theorem add_cases (l : BookLadder) (order : BookOrder) (flags : UInt8) :
    (order.size.isPositive = false ∧ l.bookType ≠ .l1Mbp ∧ l.add order flags = l) ∨
    (order.size.isPositive = false ∧ l.bookType = .l1Mbp ∧ l.add order flags = l.clear) ∨
    (order.size.isPositive = true ∧ l.bookType ≠ .l1Mbp ∧ l.add order flags = l.place order) ∨
    (order.size.isPositive = true ∧ l.bookType = .l1Mbp ∧ ∃ l₀,
      ((l₀ = l ∧ (fMbp.matches flags || fSnapshot.matches flags) = true) ∨
        ∃ st, l₀ = { l.clear with batchState := st }) ∧
      l.add order flags = (l₀.place order).settleBatch flags) := by
  unfold add
  by_cases ht : l.bookType = .l1Mbp
  · rw [if_pos ht]
    cases hpos : order.size.isPositive with
    | false =>
      refine .inr (.inl ⟨rfl, ht, ?_⟩)
      simp [handleL1Add, hpos]
    | true =>
      refine .inr (.inr (.inr ⟨rfl, ht, ?_⟩))
      rcases l.handleL1Add_of_pos flags hpos with ⟨heq, hb⟩ | ⟨st, heq⟩
      · exact ⟨l, .inl ⟨rfl, hb⟩, by rw [heq]⟩
      · exact ⟨_, .inr ⟨st, rfl⟩, by rw [heq]⟩
  · rw [if_neg ht]
    cases hpos : order.size.isPositive with
    | false => exact .inl ⟨rfl, ht, rfl⟩
    | true =>
      refine .inr (.inr (.inl ⟨rfl, ht, ?_⟩))
      exact settleBatch_of_ne_l1 (l := l.place order) ht flags

/-! ### What adding keeps -/

theorem add_fields (l : BookLadder) (order : BookOrder) (flags : UInt8) :
    (l.add order flags).side = l.side ∧ (l.add order flags).bookType = l.bookType := by
  rcases l.add_cases order flags with ⟨-, -, heq⟩ | ⟨-, -, heq⟩ | ⟨-, -, heq⟩ | ⟨-, -, l₀, hl₀, heq⟩
  · rw [heq]
    exact ⟨rfl, rfl⟩
  · rw [heq]
    exact ⟨rfl, rfl⟩
  · rw [heq]
    exact ⟨rfl, rfl⟩
  · have hf : l₀.side = l.side ∧ l₀.bookType = l.bookType := by
      rcases hl₀ with ⟨rfl, -⟩ | ⟨_, rfl⟩ <;> exact ⟨rfl, rfl⟩
    obtain ⟨hs, ht⟩ := (l₀.place order).settleBatch_fields flags
    rw [heq]
    exact ⟨hs.trans hf.1, ht.trans hf.2⟩

theorem LevelsOk.add (h : l.LevelsOk)
    (hside : order.side.asSpecified = some l.side) (flags : UInt8) :
    (l.add order flags).LevelsOk := by
  rcases l.add_cases order flags with ⟨-, -, heq⟩ | ⟨-, -, heq⟩ | ⟨hpos, -, heq⟩ |
    ⟨hpos, -, l₀, hl₀, heq⟩
  · rw [heq]
    exact h
  · rw [heq]
    exact levelsOk_clear l
  · rw [heq]
    exact h.place hpos hside
  · rw [heq]
    rcases hl₀ with ⟨rfl, -⟩ | ⟨st, rfl⟩
    · exact (h.place hpos hside).settleBatch flags
    · have hclear : LevelsOk { l.clear with batchState := st } := levelsOk_of_levels_empty rfl
      exact (hclear.place hpos hside).settleBatch flags

/-- An order found after an `add` was there before, or is the added one. -/
theorem add_order? {o : BookOrder} (h : (l.add order flags).order? p id = some o) :
    l.order? p id = some o ∨ (o = order ∧ order.size.isPositive = true) := by
  have hplace : ∀ l₀ : BookLadder, order.size.isPositive = true →
      (l₀.place order).order? p id = some o → l₀.order? p id = some o ∨ o = order := by
    intro l₀ hpos ho
    rw [place_order? hpos] at ho
    split at ho
    · exact .inr (some.inj ho).symm
    · exact .inl ho
  rcases l.add_cases order flags with ⟨-, -, heq⟩ | ⟨-, -, heq⟩ | ⟨hpos, -, heq⟩ |
    ⟨hpos, -, l₀, hl₀, heq⟩
  · exact .inl (heq ▸ h)
  · rw [heq, clear_order?] at h
    nomatch h
  · rw [heq] at h
    exact (hplace l hpos h).imp_right fun ho => ⟨ho, hpos⟩
  rw [heq] at h
  rcases hplace l₀ hpos (settleBatch_order? h) with ho | ho
  · rcases hl₀ with ⟨rfl, -⟩ | ⟨_, rfl⟩
    · exact .inl ho
    · nomatch ho
  · exact .inr ⟨ho, hpos⟩

/-! ## Updating -/

section

variable (l order) (flags : UInt8)

/-- An `update` finds nothing under the id, changes the order in place, or moves it. The add at the
end only happens at a positive size. -/
theorem update_cases :
    ((∀ p, l.cache.get? order.orderId = some p → l.levels.get? p = none) ∧
      l.update order flags = if order.size.isPositive then l.add order flags else l) ∨
    (∃ p level, l.cache.get? order.orderId = some p ∧ l.levels.get? p = some level ∧
      order.price.raw = level.price.value.raw ∧
      l.update order flags = { l with
        cache := if order.size.raw = 0 then l.cache.remove order.orderId else l.cache
        }.storeLevel p (level.update order)) ∨
    (∃ p level, l.cache.get? order.orderId = some p ∧ l.levels.get? p = some level ∧
      order.price.raw ≠ level.price.value.raw ∧
      l.update order flags = if order.size.isPositive then
        (l.withdrawn p level order.orderId).add order flags
        else l.withdrawn p level order.orderId) := by
  cases hc : l.cache.get? order.orderId with
  | none =>
    refine .inl ⟨nofun, ?_⟩
    simp [update, hc]
  | some p =>
    cases hl : l.levels.get? p with
    | none =>
      refine .inl ⟨?_, ?_⟩
      · rintro p' ⟨⟩
        exact hl
      · simp [update, hc, hl]
    | some level =>
      by_cases hprice : order.price.raw = level.price.value.raw
      · refine .inr (.inl ⟨p, level, rfl, hl, hprice, ?_⟩)
        simp only [update, hc, hl]
        rw [if_pos (Price.eq_iff.mpr hprice)]
      · refine .inr (.inr ⟨p, level, rfl, hl, hprice, ?_⟩)
        simp only [update, hc, hl]
        rw [if_neg fun h => hprice (Price.eq_iff.mp h)]
        rfl

theorem update_fields :
    (l.update order flags).side = l.side ∧ (l.update order flags).bookType = l.bookType := by
  rcases l.update_cases order flags with ⟨-, heq⟩ | ⟨p, level, -, -, -, heq⟩ |
    ⟨p, level, -, -, -, heq⟩
  · rw [heq]
    split
    · exact l.add_fields order flags
    · exact ⟨rfl, rfl⟩
  · rw [heq]
    exact ⟨rfl, rfl⟩
  · rw [heq]
    split
    · exact (l.withdrawn p level order.orderId).add_fields order flags
    · exact ⟨rfl, rfl⟩

end

theorem LevelsOk.update (h : l.LevelsOk)
    (hside : order.side.asSpecified = some l.side) (flags : UInt8) :
    (l.update order flags).LevelsOk := by
  rcases l.update_cases order flags with ⟨-, heq⟩ | ⟨p, level, -, hget, hprice, heq⟩ |
    ⟨p, level, -, hget, -, heq⟩
  · rw [heq]
    split
    · exact h.add hside flags
    · exact h
  · rw [heq]
    have hok := (h p level hget).1
    have hraw : order.price.raw = p.value.raw := hprice.trans (cmp_eq_iff.mp hok.price).2
    refine (h.setCache _).storeLevel ?_
    unfold BookLevel.update
    split
    · exact levelOk_remove hok order.orderId
    · exact levelOk_insert hok hraw hside
  · rw [heq]
    have hw := h.withdrawn hget order.orderId
    split
    · exact hw.add hside flags
    · exact hw

/-- An order found after an `update` was there before, or is the updated one at a
non-zero size. -/
theorem update_order? {o : BookOrder} (h : (l.update order flags).order? p id = some o) :
    l.order? p id = some o ∨ (o = order ∧ order.size.raw ≠ 0) := by
  have hadd : ∀ l₀ : BookLadder, (l₀.add order flags).order? p id = some o →
      l₀.order? p id = some o ∨ (o = order ∧ order.size.raw ≠ 0) := fun l₀ ho =>
    (add_order? ho).imp_right fun ⟨heq, hpos⟩ =>
      ⟨heq, Quantity.raw_ne_zero_of_isPositive hpos⟩
  rcases l.update_cases order flags with ⟨-, heq⟩ | ⟨q, level, -, hget, -, heq⟩ |
    ⟨q, level, -, hget, -, heq⟩
  · rw [heq] at h
    split at h
    · exact hadd l h
    · exact .inl h
  · rw [heq, updateInPlace_order? hget] at h
    split at h
    · split at h
      · nomatch h
      · rename_i hzero
        exact .inr ⟨(some.inj h).symm, hzero⟩
    · exact .inl h
  · have hw : ∀ o, (l.withdrawn q level order.orderId).order? p id = some o →
        l.order? p id = some o := by
      intro o ho
      rw [withdrawn_order? hget] at ho
      split at ho
      · nomatch ho
      · exact ho
    rw [heq] at h
    split at h
    · exact (hadd _ h).imp_left (hw o)
    · exact .inl (hw o h)

end Add

end BookLadder

end Nautilus
