import Nautilus.Own.Book

/-!
# Consistency of the own order book

Levels and cache are written separately, as in the book of the market, and the same library rules
apply. What differs is what the operations check.

- `Sound` holds in every state: levels are non-empty and under their price, and a cached id is at
  the level the cache names. So `OwnBookLevel::update` never panics, and the only error is
  `OrderNotFoundInCache` (`Sound.updated`, `Sound.remove_cases`).
- That no id is in two levels, and no update leaves an order of size zero, is decided by two
  branches that do not look: `add` overwrites the cache entry of a live id, and `update` at another
  price re-adds the order *whatever its size*, although at the same price "size becomes zero"
  removes it (`own.rs:913`).
-/

namespace Nautilus

open Lib Option IndexMap BookPrice

variable {l l' : OwnBookLadder} {p : BookPrice} {level : OwnBookLevel} {order : OwnBookOrder}
  {id : ClientOrderId} {result : Except OwnBookError Unit} {op : OwnBookOp} {b b' : OwnOrderBook}

namespace OwnBookLadder

def order? (l : OwnBookLadder) (p : BookPrice) (id : ClientOrderId) : Option OwnBookOrder :=
  item OwnBookLevel.orders l.levels p id

/-! ## The two writes -/

/-- The level an added order ends up in. -/
def addedLevel (l : OwnBookLadder) (order : OwnBookOrder) : OwnBookLevel :=
  match l.levels.get? order.toBookPrice with
  | some level => level.add order
  | none => OwnBookLevel.fromOrder order

section

variable (l : OwnBookLadder) (order : OwnBookOrder)

theorem add_levels :
    (l.add order).levels = l.levels.insert order.toBookPrice (l.addedLevel order) := by
  cases hget : l.levels.get? order.toBookPrice with
  | none => simp only [add, addedLevel, hget]
  | some level => simp only [add, addedLevel, hget]

theorem add_order? (p : BookPrice) (id : ClientOrderId) :
    (l.add order).order? p id =
      if id = order.clientOrderId ∧ order.toBookPrice.cmp p = .eq then some order
      else l.order? p id := by
  refine item_overwrite l.levels (by rw [order?, add_levels, item_insert]) ?_
  unfold addedLevel item
  cases l.levels.get? order.toBookPrice <;> exact get?_insert ..

theorem add_cache (id : ClientOrderId) :
    (l.add order).cache.get? id =
      if id = order.clientOrderId then some order.toBookPrice else l.cache.get? id :=
  get?_insert l.cache order.clientOrderId id order.toBookPrice

end

def withdrawn (l : OwnBookLadder) (p : BookPrice) (level : OwnBookLevel)
    (id : ClientOrderId) : OwnBookLadder :=
  l.dropOrder id p { level with orders := level.orders.remove id }

theorem withdrawn_order? (hget : l.levels.get? p = some level) (id : ClientOrderId) (p' : BookPrice)
    (id' : ClientOrderId) :
    (l.withdrawn p level id).order? p' id' =
      if id' = id ∧ p.cmp p' = .eq then none else l.order? p' id' := by
  refine item_overwrite l.levels (item_store l.levels p p' _ id') ?_
  rw [item_of_get? hget]
  exact get?_remove ..

theorem withdrawn_cache (l : OwnBookLadder) (p : BookPrice) (level : OwnBookLevel)
    (id id' : ClientOrderId) :
    (l.withdrawn p level id).cache.get? id' = if id' = id then none else l.cache.get? id' :=
  get?_remove l.cache id id'

/-- The ladder with the order of the level at `p` overwritten in place. -/
def replaced (l : OwnBookLadder) (p : BookPrice) (level : OwnBookLevel)
    (order : OwnBookOrder) : OwnBookLadder :=
  { l with levels := l.levels.insert p (level.add order) }

theorem replaced_order? (hget : l.levels.get? p = some level) (order : OwnBookOrder)
    (p' : BookPrice) (id : ClientOrderId) :
    (l.replaced p level order).order? p' id =
      if id = order.clientOrderId ∧ p.cmp p' = .eq then some order else l.order? p' id := by
  refine item_overwrite l.levels (item_insert l.levels p p' _ id) ?_
  rw [item_of_get? hget]
  exact get?_insert ..

theorem replaced_cache (hc : l.cache.get? order.clientOrderId = some p) (level : OwnBookLevel)
    (id : ClientOrderId) : (l.replaced p level order).cache.get? id =
      if id = order.clientOrderId then some p else l.cache.get? id := by
  show l.cache.get? id = _
  split
  · rename_i hid
    rw [hid, hc]
  · rfl

/-! ## What every state satisfies -/

/-- Levels are non-empty and under their price on the ladder's side, and the cache never points at a
level without the order. -/
structure Sound (l : OwnBookLadder) : Prop where
  nonempty : ∀ p level, l.levels.get? p = some level → level.isEmpty = false
  filed : ∀ p level, l.levels.get? p = some level → p.side = l.side ∧ level.price.cmp p = .eq
  cached : IndexSound l.order? l.cache.get?

theorem sound_of_empty (hl : l.levels = .empty) (hc : l.cache = .empty) : l.Sound := by
  refine ⟨?_, ?_, ?_⟩
  · intro p level h
    rw [hl] at h
    cases h
  · intro p level h
    rw [hl] at h
    cases h
  · intro id q h
    rw [hc] at h
    cases h

/-- A write that touches one level of the ladder's side and keeps the cache sound. -/
theorem Sound.write (h : l.Sound) (hside : l'.side = l.side) (hp : p.side = l.side)
    (hlevel : ∀ p' level, l'.levels.get? p' = some level →
      (p.cmp p' = .eq ∧ level.price.cmp p = .eq ∧ level.isEmpty = false) ∨
        l.levels.get? p' = some level) (hcached : IndexSound l'.order? l'.cache.get?) :
    l'.Sound := by
  refine ⟨?_, ?_, hcached⟩
  · intro p' level hget
    rcases hlevel p' level hget with ⟨-, -, hne⟩ | hold
    · exact hne
    · exact h.nonempty p' level hold
  · intro p' level hget
    rw [hside]
    rcases hlevel p' level hget with ⟨hpp, hprice, -⟩ | hold
    · rw [← (cmp_eq_iff.mp hpp).1]
      exact ⟨hp, Std.TransCmp.eq_trans hprice hpp⟩
    · exact h.filed p' level hold

theorem Sound.add (h : l.Sound) (hside : order.side = l.side) : (l.add order).Sound := by
  refine h.write (p := order.toBookPrice) rfl hside ?_
    (h.cached.put (l.add_order? order) (l.add_cache order))
  intro p level hget
  rw [add_levels, OrdMap.get?_insert] at hget
  split at hget
  · rename_i hp
    cases hget
    refine .inl ⟨hp, ?_⟩
    unfold addedLevel
    cases hold : l.levels.get? order.toBookPrice with
    | some level => exact ⟨(h.filed _ level hold).2, isEmpty_insert _ _ _⟩
    | none => exact ⟨Std.ReflCmp.compare_self, isEmpty_insert _ _ _⟩
  · exact .inr hget

theorem Sound.withdrawn (h : l.Sound) (hget : l.levels.get? p = some level) (id : ClientOrderId) :
    (l.withdrawn p level id).Sound := by
  obtain ⟨hside, hprice⟩ := h.filed p level hget
  refine h.write rfl hside ?_
    (h.cached.drop (withdrawn_order? hget id) (l.withdrawn_cache p level id))
  intro p' level' hget'
  have hstore : (l.withdrawn p level id).levels.get? p' = _ :=
    OrdMap.get?_store l.levels OwnBookLevel.isEmpty p p'
      { level with orders := level.orders.remove id }
  rw [hstore] at hget'
  split at hget'
  · rename_i hp
    split at hget'
    · cases hget'
    · rename_i hne
      cases hget'
      exact .inl ⟨hp, hprice, Bool.not_eq_true _ ▸ hne⟩
  · exact .inr hget'

theorem Sound.replaced (h : l.Sound) (hget : l.levels.get? p = some level)
    (hc : l.cache.get? order.clientOrderId = some p) : (l.replaced p level order).Sound := by
  obtain ⟨hside, hprice⟩ := h.filed p level hget
  refine h.write rfl hside ?_ (h.cached.put (replaced_order? hget order) (replaced_cache hc level))
  intro p' level' hget'
  have hinsert : (l.replaced p level order).levels.get? p' = _ :=
    OrdMap.get?_insert l.levels p p' (level.add order)
  rw [hinsert] at hget'
  split at hget'
  · rename_i hp
    cases hget'
    exact .inl ⟨hp, hprice, isEmpty_insert _ _ _⟩
  · exact .inr hget'

/-! ## What the operations do in a sound ladder -/

theorem Sound.level_of_cached (h : l.Sound) (hc : l.cache.get? id = some p) :
    ∃ level, l.levels.get? p = some level ∧ level.orders.containsKey id = true := by
  obtain ⟨order, ho⟩ := h.cached id p hc
  obtain ⟨level, hget, horder⟩ := item_eq_some_iff.mp ho
  exact ⟨level, hget, containsKey_iff.mpr ⟨order, horder⟩⟩

/-- The four ways of an `update`. The one error is an unknown id, and it changes nothing. -/
inductive Updated (l : OwnBookLadder) (order : OwnBookOrder) :
    OwnBookLadder → Except OwnBookError Unit → Prop
  | unknown (hc : l.cache.get? order.clientOrderId = none) :
      Updated l order l (.error (.orderNotFoundInCache order.clientOrderId))
  | zeroed {p : BookPrice} {level : OwnBookLevel} (hc : l.cache.get? order.clientOrderId = some p)
      (hget : l.levels.get? p = some level) (hprice : order.price.raw = p.value.raw)
      (hzero : order.size.raw = 0) :
      Updated l order (l.withdrawn p level order.clientOrderId) (.ok ())
  | replaced {p : BookPrice} {level : OwnBookLevel} (hc : l.cache.get? order.clientOrderId = some p)
      (hget : l.levels.get? p = some level) (hprice : order.price.raw = p.value.raw)
      (hsize : order.size.raw ≠ 0) :
      Updated l order (l.replaced p level order) (.ok ())
  | moved {p : BookPrice} {level : OwnBookLevel} (hc : l.cache.get? order.clientOrderId = some p)
      (hget : l.levels.get? p = some level) (hprice : order.price.raw ≠ p.value.raw) :
      Updated l order ((l.withdrawn p level order.clientOrderId).add order) (.ok ())

theorem Sound.updated (h : l.Sound) (order : OwnBookOrder) :
    ∃ l' result, l.update order = some (l', result) ∧ Updated l order l' result := by
  cases hc : l.cache.get? order.clientOrderId with
  | none =>
    refine ⟨_, _, ?_, .unknown hc⟩
    simp [update, hc]
  | some p =>
    obtain ⟨level, hget, hin⟩ := h.level_of_cached hc
    -- the code compares with the price of the level, which is the one in the cache
    have hlevel : level.price.value.raw = p.value.raw := (cmp_eq_iff.mp (h.filed p level hget).2).2
    simp only [update, hc, hget]
    by_cases hprice : order.price.raw = p.value.raw
    · rw [if_pos (Price.eq_iff.mpr (hprice.trans hlevel.symm))]
      by_cases hzero : order.size.raw = 0
      · have hz : order.size.isZero = true := beq_iff_eq.mpr hzero
        refine ⟨_, _, ?_, .zeroed hc hget hprice hzero⟩
        simp only [OwnBookLevel.update, hz, if_true, map_some]
        rfl
      · have hz : order.size.isZero = false := beq_eq_false_iff_ne.mpr hzero
        refine ⟨_, _, ?_, .replaced hc hget hprice hzero⟩
        simp only [OwnBookLevel.update, hz, hin, Bool.false_eq_true, if_false, if_true, map_some]
        rfl
    · rw [if_neg fun heq => hprice ((Price.eq_iff.mp heq).trans hlevel)]
      refine ⟨_, _, ?_, .moved hc hget hprice⟩
      simp only [OwnBookLevel.delete, hin, if_true]
      rfl

theorem Sound.of_update (h : l.Sound) (hl : l.update order = some (l', result)) :
    Updated l order l' result := by
  obtain ⟨_, _, heq, hupdated⟩ := h.updated order
  cases heq.symm.trans hl
  exact hupdated

theorem Sound.remove_cases (h : l.Sound) (id : ClientOrderId) :
    (l.cache.get? id = none ∧ l.remove id = (l, .error (.orderNotFoundInCache id))) ∨
    ∃ p level, l.cache.get? id = some p ∧ l.levels.get? p = some level ∧
      l.remove id = (l.withdrawn p level id, .ok ()) := by
  cases hc : l.cache.get? id with
  | none =>
    refine .inl ⟨rfl, ?_⟩
    simp [remove, hc]
  | some p =>
    obtain ⟨level, hget, hin⟩ := h.level_of_cached hc
    refine .inr ⟨p, level, rfl, hget, ?_⟩
    simp only [remove, hc, hget, OwnBookLevel.delete, hin, if_true]
    rfl

/-! ## Exactness of the cache -/

/-- The cache is the exact index of the stored orders. -/
def Indexed (l : OwnBookLadder) : Prop := IndexExact BookPrice.cmp l.order? l.cache.get?

theorem indexed_of_empty (hl : l.levels = .empty) (hc : l.cache = .empty) : l.Indexed := by
  refine indexExact_empty ?_ ?_
  · intro p id
    rw [order?, hl]
    rfl
  · intro id
    rw [hc]
    rfl

/-- The id of the order is not cached at another price. -/
def Fresh (l : OwnBookLadder) (order : OwnBookOrder) : Prop :=
  ∀ q, l.cache.get? order.clientOrderId = some q → q.value.raw = order.price.raw

/-- **An add keeps the cache exact iff the order is fresh.** -/
theorem add_indexed_iff (h : l.Indexed) (hs : l.Sound) (hside : order.side = l.side) :
    (l.add order).Indexed ↔ l.Fresh order := by
  refine (IndexExact.put_iff h (l.add_order? order) (l.add_cache order)).trans
    (forall_congr' fun q => forall_congr' fun hq => ?_)
  obtain ⟨level, hget, -⟩ := hs.level_of_cached hq
  rw [cmp_eq_iff]
  exact ⟨fun hc => hc.2, fun hraw => ⟨(hs.filed q level hget).1.trans hside.symm, hraw⟩⟩

theorem Indexed.withdrawn (h : l.Indexed) (hc : l.cache.get? id = some p)
    (hget : l.levels.get? p = some level) : (l.withdrawn p level id).Indexed :=
  IndexExact.drop h hc (withdrawn_order? hget id) (l.withdrawn_cache p level id)

theorem Indexed.replaced (h : l.Indexed) (hc : l.cache.get? order.clientOrderId = some p)
    (hget : l.levels.get? p = some level) : (l.replaced p level order).Indexed := by
  refine (IndexExact.put_iff h (replaced_order? hget order) (replaced_cache hc level)).mpr ?_
  intro q hq
  rw [hc] at hq
  cases hq
  exact Std.ReflCmp.compare_self

/-- A change that keeps a ladder sound, and its cache exact if it was. -/
structure Keeps (l l' : OwnBookLadder) : Prop where
  sound : l'.Sound
  side : l'.side = l.side
  indexed : l.Indexed → l'.Indexed

theorem Sound.keeps_self (h : l.Sound) : l.Keeps l := ⟨h, rfl, fun hi => hi⟩

theorem Sound.remove (h : l.Sound) (id : ClientOrderId) : l.Keeps (l.remove id).1 := by
  rcases h.remove_cases id with ⟨-, heq⟩ | ⟨p, _, hc, hget, heq⟩
  · rw [heq]
    exact h.keeps_self
  · rw [heq]
    exact ⟨h.withdrawn hget id, rfl, fun hi => hi.withdrawn hc hget⟩

theorem Sound.update (h : l.Sound) (hside : order.side = l.side) :
    ∃ l' result, l.update order = some (l', result) ∧ l.Keeps l' := by
  obtain ⟨l', result, heq, hupdated⟩ := h.updated order
  refine ⟨l', result, heq, ?_⟩
  cases hupdated with
  | unknown => exact h.keeps_self
  | zeroed hc hget => exact ⟨h.withdrawn hget _, rfl, fun hi => hi.withdrawn hc hget⟩
  | replaced hc hget => exact ⟨h.replaced hget hc, rfl, fun hi => hi.replaced hc hget⟩
  | moved hc hget =>
    -- the order is withdrawn before it is moved, so that it is fresh
    refine ⟨(h.withdrawn hget _).add hside, rfl, fun hi => ?_⟩
    refine (add_indexed_iff (hi.withdrawn hc hget) (h.withdrawn hget _) hside).mpr ?_
    intro q hq
    rw [withdrawn_cache, if_pos rfl] at hq
    cases hq

theorem Sound.audit (h : l.Sound) (openOrderIds : List ClientOrderId) :
    l.Keeps (l.audit openOrderIds) := by
  have hfold : ∀ (ids : List ClientOrderId) (l' : OwnBookLadder), l.Keeps l' →
      l.Keeps (ids.foldl (fun l id => (l.remove id).1) l') := by
    intro ids
    induction ids with
    | nil => exact fun _ hl => hl
    | cons id ids ih =>
      intro l' hl
      have hremove := hl.sound.remove id
      exact ih _ ⟨hremove.sound, hremove.side.trans hl.side,
        fun hi => hremove.indexed (hl.indexed hi)⟩
  exact hfold _ l h.keeps_self

theorem Indexed.cmp_of_order? (h : l.Indexed) {p' : BookPrice} (hc : l.cache.get? id = some p)
    {o : OwnBookOrder} (ho : l.order? p' id = some o) : p.cmp p' = .eq := by
  obtain ⟨q, hq, hqp⟩ := (h id p').mp ⟨o, ho⟩
  rw [hc] at hq
  cases hq
  exact hqp

/-- **An update leaves its order at size zero iff it moves it at size zero.** -/
theorem update_zero_iff (h : l.Indexed) (hs : l.Sound) (hl : l.update order = some (l', result)) :
    (∀ p o, l'.order? p order.clientOrderId = some o → o.size.raw ≠ 0) ↔
      (order.size.raw = 0 → l.Fresh order) := by
  have hgone : ∀ {p level}, l.cache.get? order.clientOrderId = some p →
      l.levels.get? p = some level → ∀ p' o,
        (l.withdrawn p level order.clientOrderId).order? p' order.clientOrderId ≠ some o := by
    intro p level hc hget p' o ho
    rw [withdrawn_order? hget] at ho
    by_cases hp : p.cmp p' = .eq
    · rw [if_pos ⟨rfl, hp⟩] at ho
      cases ho
    · rw [if_neg fun hc => hp hc.2] at ho
      exact hp (h.cmp_of_order? hc ho)
  cases hs.of_update hl with
  | unknown hc =>
    -- an unknown id is stored nowhere
    constructor
    · intro _ _ q hq
      rw [hc] at hq
      cases hq
    · intro _ p o ho
      obtain ⟨q, hq, -⟩ := (h order.clientOrderId p).mp ⟨o, ho⟩
      rw [hc] at hq
      cases hq
  | zeroed hc hget hprice =>
    refine ⟨fun _ _ q hq => ?_, fun _ p' o ho => absurd ho (hgone hc hget p' o)⟩
    rw [hc] at hq
    cases hq
    exact hprice.symm
  | replaced hc hget _ hne =>
    refine ⟨fun _ hzero => absurd hzero hne, fun _ p' o ho => ?_⟩
    rw [replaced_order? hget] at ho
    split at ho
    · cases ho
      exact hne
    · rename_i hp
      exact absurd ⟨rfl, h.cmp_of_order? hc ho⟩ hp
  | moved hc hget hprice =>
    -- the order is added at the other price, whatever its size
    constructor
    · intro hall hzero
      refine absurd hzero (hall order.toBookPrice order ?_)
      rw [add_order?, if_pos ⟨rfl, Std.ReflCmp.compare_self⟩]
    intro hfresh p' o ho
    rw [add_order?] at ho
    split at ho
    · cases ho
      exact fun hzero => hprice (hfresh hzero _ hc).symm
    · exact absurd ho (hgone hc hget p' o)

/-- An update touches no other order. -/
theorem Sound.update_order? (hs : l.Sound) (hl : l.update order = some (l', result))
    (hid : id ≠ order.clientOrderId) : l'.order? p id = l.order? p id := by
  have hw : ∀ p' level, l.levels.get? p' = some level →
      (l.withdrawn p' level order.clientOrderId).order? p id = l.order? p id := by
    intro p' level hget
    rw [withdrawn_order? hget, if_neg fun hc => hid hc.1]
  cases hs.of_update hl with
  | unknown => rfl
  | zeroed _ hget => exact hw _ _ hget
  | replaced _ hget => rw [replaced_order? hget, if_neg fun hc => hid hc.1]
  | moved _ hget =>
    rw [add_order?, if_neg fun hc => hid hc.1]
    exact hw _ _ hget

/-! ## One operation on one ladder -/

def afterOp (op : OwnBookOp) (s : OrderSideSpecified) (l : OwnBookLadder) : Option OwnBookLadder :=
  match op with
  | .add order => some (if order.side = s then l.add order else l)
  | .update order => if order.side = s then (l.update order).map Prod.fst else some l
  | .delete order => some (if order.side = s then (l.remove order.clientOrderId).1 else l)
  | .clear | .reset => some l.clear
  | .auditOpenOrders openOrderIds => some (l.audit openOrderIds)

/-- An operation on a sound ladder keeps it, or is an add of the ladder's side. -/
theorem Sound.afterOp (h : l.Sound) {s : OrderSideSpecified} (hside : l.side = s) (op : OwnBookOp) :
    ∃ l', OwnBookLadder.afterOp op s l = some l' ∧
      ((l.Keeps l' ∧ ∀ order, op = .add order → order.side ≠ s) ∨
        ∃ order, op = .add order ∧ order.side = s ∧ l' = l.add order) := by
  cases op with
  | add order =>
    by_cases hs : order.side = s
    · exact ⟨_, congrArg some (if_pos hs), .inr ⟨order, rfl, hs, rfl⟩⟩
    · refine ⟨_, congrArg some (if_neg hs), .inl ⟨h.keeps_self, ?_⟩⟩
      rintro _ ⟨⟩
      exact hs
  | update order =>
    by_cases hs : order.side = s
    · obtain ⟨l', _, hl, hk⟩ := h.update (hs.trans hside.symm)
      refine ⟨l', ?_, .inl ⟨hk, nofun⟩⟩
      simp [OwnBookLadder.afterOp, if_pos hs, hl]
    · exact ⟨l, if_neg hs, .inl ⟨h.keeps_self, nofun⟩⟩
  | delete order =>
    refine ⟨_, rfl, .inl ⟨?_, nofun⟩⟩
    split
    · exact h.remove _
    · exact h.keeps_self
  | clear | reset =>
    exact ⟨_, rfl, .inl ⟨⟨sound_of_empty rfl rfl, rfl, fun _ => indexed_of_empty rfl rfl⟩, nofun⟩⟩
  | auditOpenOrders openOrderIds => exact ⟨_, rfl, .inl ⟨h.audit openOrderIds, nofun⟩⟩

end OwnBookLadder

/-! ## The book -/

namespace OwnOrderBook

section

variable (b) (order : OwnBookOrder) (s : OrderSideSpecified)

theorem ladder_setLadder (s' : OrderSideSpecified) (l : OwnBookLadder) :
    (b.setLadder s l).ladder s' = if s = s' then l else b.ladder s' := by
  cases s <;> cases s' <;> rfl

theorem ladder_increment : (b.increment order).ladder s = b.ladder s := by
  cases s <;> rfl

theorem ladder_settle (outcome : OwnBookLadder × Except OwnBookError Unit) :
    (b.settle order outcome).1.ladder s =
      if order.side = s then outcome.1 else b.ladder s := by
  unfold settle
  split
  · rw [ladder_increment, ladder_setLadder]
  · rw [ladder_setLadder]

end

/-- A step of the book is one operation on each ladder. -/
theorem step_ladder (h : b.step op = some b') (s : OrderSideSpecified) :
    OwnBookLadder.afterOp op s (b.ladder s) = some (b'.ladder s) := by
  cases op with
  | add order =>
    cases h
    refine congrArg some ?_
    show _ = ((b.increment order).setLadder order.side _).ladder s
    rw [ladder_setLadder, ladder_increment, ladder_increment]
    by_cases hs : order.side = s
    · rw [if_pos hs, if_pos hs, hs]
    · rw [if_neg hs, if_neg hs]
  | update order =>
    obtain ⟨⟨_, _⟩, hb₁, rfl⟩ := map_eq_some_iff.mp h
    obtain ⟨outcome, hl, hsettle⟩ := map_eq_some_iff.mp hb₁
    have hladder := ladder_settle b order s outcome
    rw [hsettle] at hladder
    rw [hladder]
    by_cases hs : order.side = s
    · subst hs
      simp [OwnBookLadder.afterOp, hl]
    · simp [OwnBookLadder.afterOp, if_neg hs]
  | delete order =>
    cases h
    refine congrArg some ?_
    show _ = (b.settle order _).1.ladder s
    rw [ladder_settle]
    by_cases hs : order.side = s
    · rw [if_pos hs, if_pos hs, ← hs]
      rfl
    · rw [if_neg hs, if_neg hs]
  | clear => cases h; cases s <;> rfl
  | reset => cases h; cases s <;> rfl
  | auditOpenOrders openOrderIds => cases h; cases s <;> rfl

def Sound (b : OwnOrderBook) : Prop :=
  ∀ s, (b.ladder s).Sound ∧ (b.ladder s).side = s

theorem sound_new (instrumentId : InstrumentId) : (new instrumentId).Sound := by
  intro s
  cases s <;> exact ⟨OwnBookLadder.sound_of_empty rfl rfl, rfl⟩

theorem Sound.step_cases (hb : b.Sound) (h : b.step op = some b') (s : OrderSideSpecified) :
    ((b.ladder s).Keeps (b'.ladder s) ∧ ∀ order, op = .add order → order.side ≠ s) ∨
      ∃ order, op = .add order ∧ order.side = s ∧ b'.ladder s = (b.ladder s).add order := by
  obtain ⟨_, hl', hcases⟩ := (hb s).1.afterOp (hb s).2 op
  rw [step_ladder h s] at hl'
  cases hl'
  exact hcases

theorem Sound.step (hb : b.Sound) (h : b.step op = some b') : b'.Sound := by
  intro s
  obtain ⟨hsound, hside⟩ := hb s
  rcases hb.step_cases h s with ⟨hk, -⟩ | ⟨_, -, hs, heq⟩
  · exact ⟨hk.sound, hk.side.trans hside⟩
  · rw [heq]
    exact ⟨hsound.add (hs.trans hside.symm), hside⟩

/-- **No operation panics.** -/
theorem Sound.step_isSome (hb : b.Sound) (op : OwnBookOp) : ∃ b', b.step op = some b' := by
  cases op with
  | update order =>
    obtain ⟨l', result, hl, -⟩ := (hb order.side).1.update (hb order.side).2.symm
    refine ⟨(b.settle order (l', result)).1, ?_⟩
    simp [OwnOrderBook.step, apply, OwnOrderBook.update, hl]
  | add order => exact ⟨_, rfl⟩
  | delete order => exact ⟨_, rfl⟩
  | clear => exact ⟨_, rfl⟩
  | reset => exact ⟨_, rfl⟩
  | auditOpenOrders openOrderIds => exact ⟨_, rfl⟩

/-- A call that returns an error leaves the book as it was. -/
def ErrUnchanged (b : OwnOrderBook) (op : OwnBookOp) (_ : OwnOrderBook) : Prop :=
  ∀ b' e, b.apply op = some (b', .error e) → b' = b

/-- **Errors change nothing**: neither levels nor cache nor the two counters. -/
theorem Sound.errUnchanged (hb : b.Sound) (op : OwnBookOp) (b₀ : OwnOrderBook) :
    b.ErrUnchanged op b₀ := by
  -- an error is returned with the ladder that was read
  have hsettle : ∀ order l result b' e, l = b.ladder order.side →
      b.settle order (l, result) = (b', .error e) → b' = b := by
    rintro order l result b' e rfl hset
    unfold settle at hset
    split at hset
    · nomatch (Prod.mk.inj hset).2
    · rw [← (Prod.mk.inj hset).1]
      cases order.side <;> rfl
  intro b' e h
  cases op with
  | update order =>
    obtain ⟨⟨l, result⟩, hl, hset⟩ := map_eq_some_iff.mp h
    cases (hb order.side).1.of_update hl with
    | unknown => exact hsettle order _ _ b' e rfl hset
    | zeroed | replaced | moved => nomatch (Prod.mk.inj hset).2
  | delete order =>
    have hset : b.settle order ((b.ladder order.side).remove order.clientOrderId) =
        (b', .error e) := some.inj h
    rcases (hb order.side).1.remove_cases order.clientOrderId with
      ⟨-, heq⟩ | ⟨p, level, -, -, heq⟩
    · rw [heq] at hset
      exact hsettle order _ _ b' e rfl hset
    · rw [heq] at hset
      nomatch (Prod.mk.inj hset).2
  | add order => nomatch h
  | clear => nomatch h
  | reset => nomatch h
  | auditOpenOrders openOrderIds => nomatch h

/-! ## The two properties and the two slips -/

/-- On both sides: no empty level, no id in two levels, and a cache entry for exactly the stored
orders, naming its level. -/
def Consistent (b : OwnOrderBook) : Prop :=
  ∀ s, InStep OwnBookLevel.orders (b.ladder s).levels (b.ladder s).cache

def ZeroFree (b : OwnOrderBook) : Prop :=
  ∀ s p id order, (b.ladder s).order? p id = some order → order.size.raw ≠ 0

/-- An update leaves its order not at size zero, and brings no other order of size zero. -/
def NoZeroLeft (b : OwnOrderBook) (op : OwnBookOp) (b' : OwnOrderBook) : Prop :=
  ∀ order, op = .update order →
    (∀ p o, (b'.ladder order.side).order? p order.clientOrderId = some o → o.size.raw ≠ 0) ∧
    (b.ZeroFree → b'.ZeroFree)

/-- Neither an add of an id live at another price nor an update to size zero that changes the price.
-/
def Proper (b : OwnOrderBook) (op : OwnBookOp) : Prop :=
  match op with
  | .add order => (b.ladder order.side).Fresh order
  | .update order => order.size.raw = 0 → (b.ladder order.side).Fresh order
  | _ => True

def Indexed (b : OwnOrderBook) : Prop := ∀ s, (b.ladder s).Indexed

theorem consistent_iff_indexed (hb : b.Sound) : b.Consistent ↔ b.Indexed :=
  forall_congr' fun s => inStep_iff_exact (hb s).1.nonempty

theorem step_indexed_iff (hi : b.Indexed) (hb : b.Sound) (h : b.step op = some b') :
    b'.Indexed ↔ ∀ order, op = .add order → (b.ladder order.side).Fresh order := by
  constructor
  · rintro hi' order rfl
    rcases hb.step_cases h order.side with ⟨-, hne⟩ | ⟨_, ⟨⟩, -, heq⟩
    · exact absurd rfl (hne order rfl)
    · exact (OwnBookLadder.add_indexed_iff (hi _) (hb _).1 (hb _).2.symm).mp (heq ▸ hi' order.side)
  · intro hf s
    rcases hb.step_cases h s with ⟨hk, -⟩ | ⟨order, hop, rfl, heq⟩
    · exact hk.indexed (hi s)
    · rw [heq]
      exact (OwnBookLadder.add_indexed_iff (hi _) (hb _).1 (hb _).2.symm).mpr (hf order hop)

theorem noZeroLeft_iff (hi : b.Indexed) (hb : b.Sound) (h : b.step op = some b') :
    b.NoZeroLeft op b' ↔
      ∀ order, op = .update order → order.size.raw = 0 → (b.ladder order.side).Fresh order := by
  refine forall_congr' fun order => forall_congr' fun hop => ?_
  subst hop
  obtain ⟨⟨b₁, _⟩, hb₁, rfl⟩ := map_eq_some_iff.mp h
  obtain ⟨⟨l, r⟩, hl, hsettle⟩ := map_eq_some_iff.mp hb₁
  -- only the ladder of the order's side changes
  have hladder : ∀ s, b₁.ladder s = if order.side = s then l else b.ladder s := by
    intro s
    have hset := ladder_settle b order s (l, r)
    rwa [hsettle] at hset
  have hown : b₁.ladder order.side = l := (hladder order.side).trans (if_pos rfl)
  have hiff := OwnBookLadder.update_zero_iff (hi order.side) (hb order.side).1 hl
  show ((∀ p o, (b₁.ladder order.side).order? p order.clientOrderId = some o →
    o.size.raw ≠ 0) ∧ (b.ZeroFree → b₁.ZeroFree)) ↔ _
  rw [hown]
  refine ⟨fun hz => hiff.mp hz.1, fun hf => ⟨hiff.mpr hf, ?_⟩⟩
  -- the other orders keep their sizes
  intro hfree s p id o ho
  rw [hladder s] at ho
  by_cases hs : order.side = s
  · subst hs
    rw [if_pos rfl] at ho
    by_cases hid : id = order.clientOrderId
    · subst hid
      exact hiff.mpr hf p o ho
    · rw [(hb order.side).1.update_order? hl hid] at ho
      exact hfree order.side p id o ho
  · rw [if_neg hs] at ho
    exact hfree s p id o ho

/-- **One step**: in a sound, exact book the two slips decide both properties. -/
theorem step_iff_proper (hb : b.Sound) (hi : b.Indexed) (h : b.step op = some b') :
    b'.Consistent ∧ b.NoZeroLeft op b' ↔ b.Proper op := by
  rw [consistent_iff_indexed (hb.step h), step_indexed_iff hi hb h, noZeroLeft_iff hi hb h]
  cases op with
  | add order =>
    refine ⟨fun hc => hc.1 order rfl, fun hf => ⟨?_, nofun⟩⟩
    rintro _ ⟨⟩
    exact hf
  | update order =>
    refine ⟨fun hc => hc.2 order rfl, fun hf => ⟨nofun, ?_⟩⟩
    rintro _ ⟨⟩
    exact hf
  | delete order | clear | reset | auditOpenOrders ids =>
    exact ⟨fun _ => trivial, fun _ => ⟨nofun, nofun⟩⟩

/-- **Own order books.** In every run from a new book: no operation panics; one that returns an
error leaves the book as it was; and levels and cache stay in step with no order left at size zero
by an update exactly when no add re-uses a live id at another price and no update to size zero
changes the price. -/
theorem inStep_iff_proper (instrumentId : InstrumentId) (ops : List OwnBookOp) :
    (∃ b, runs step (new instrumentId) ops = some b) ∧
    Along step ErrUnchanged (new instrumentId) ops ∧
    ((Throughout step Consistent (new instrumentId) ops ∧
        Along step NoZeroLeft (new instrumentId) ops) ↔
      Along step (fun b op _ => b.Proper op) (new instrumentId) ops) := by
  have hnew : (new instrumentId).Indexed := by
    intro s
    cases s <;> exact OwnBookLadder.indexed_of_empty rfl rfl
  have hcnew : (new instrumentId).Consistent :=
    (consistent_iff_indexed (sound_new instrumentId)).mpr hnew
  refine ⟨?_, ?_, ?_⟩
  · refine isSome_iff_exists.mp (runs_isSome (fun b op hb => ?_) (sound_new instrumentId))
    obtain ⟨b', hb'⟩ := hb.step_isSome op
    exact ⟨b', hb', hb.step hb'⟩
  · exact along_of_inv Sound (fun b op b' _ hb h => ⟨hb.step h, hb.errUnchanged op b'⟩)
      (sound_new instrumentId)
  rw [throughout_iff_along, and_assoc, ← along_and]
  have hiff : Along step (fun b op b' => b'.Consistent ∧ b.NoZeroLeft op b')
        (new instrumentId) ops ↔
      Along step (fun b op _ => b.Proper op) (new instrumentId) ops := by
    refine along_iff (fun b => b.Sound ∧ b.Indexed) ?_ ?_ ⟨sound_new instrumentId, hnew⟩
    · rintro b op b' ⟨hb, hi⟩ h hc
      exact ⟨hb.step h, (consistent_iff_indexed (hb.step h)).mp
        ((step_iff_proper hb hi h).mpr hc).1⟩
    · rintro b op b' ⟨hb, hi⟩ h
      exact step_iff_proper hb hi h
  exact ⟨fun h => hiff.mp h.2, fun h => ⟨hcnew, hiff.mpr h⟩⟩

def ownBid (raw : Int) (size : Nat) : OwnBookOrder :=
  ⟨⟨"O-1"⟩, .buy, ⟨raw, 0⟩, ⟨size, 0⟩, 0⟩

/-- `O-1` is added at 100 and again at 101: it is in both levels. An update that moves it to 101 at
size zero leaves it there. -/
theorem not_inStep_readded_nor_zeroed :
    ¬ Throughout step Consistent (new ⟨"ETHUSDT.BINANCE"⟩)
        [.add (ownBid 100 1), .add (ownBid 101 1)] ∧
    ¬ Along step NoZeroLeft (new ⟨"ETHUSDT.BINANCE"⟩)
        [.add (ownBid 100 1), .update (ownBid 101 0)] := by
  constructor
  · intro h
    obtain ⟨b, hrun, hcache, hlevels⟩ : ∃ b, runs step (new ⟨"ETHUSDT.BINANCE"⟩)
        [.add (ownBid 100 1), .add (ownBid 101 1)] = some b ∧ b.bids.cache.len = 1 ∧
        (b.bids.levels.values.map fun level => level.orders.len).sum = 2 :=
      ⟨_, rfl, by decide, by decide⟩
    have hlen := (h _ b List.prefix_rfl hrun .buy).count
    rw [show (b.ladder .buy).cache.len = 1 from hcache,
      show ((b.ladder .buy).levels.values.map fun level => level.orders.len).sum = 2
        from hlevels] at hlen
    cases hlen
  · intro h
    obtain ⟨-, h⟩ := h _ rfl
    obtain ⟨hzero, -⟩ := h _ rfl
    exact (hzero _ rfl).1 ⟨⟨101, 0⟩, .buy⟩ (ownBid 101 0) (by decide) rfl

end OwnOrderBook

end Nautilus
