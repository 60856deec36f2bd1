import Nautilus.Matching.Core
import Nautilus.Lib.Run

/-!
# What the matching core holds

The content of a matching core is one list: the **live** orders in the order they were added
(`liveAfter`). `Represents`: each book groups those that belong to it by price, the pending lists
hold the rest, and the index answers with the place of the live order under an id. Every call keeps
it (`Represents.step`), **provided that an id is added only while it is not live**, the contract of
`add_order`.
-/

namespace Nautilus

open Lib List Option IndexMap RestingOrder Price

variable {side : OrderSideSpecified} {kind : BookKind} {order : RestingOrder}

/-! ## Live orders -/

/-- A call that changes the core. The three prices are public fields, and may be set at any time. -/
inductive CoreOp where
  | add (order : RestingOrder)
  | delete (clientOrderId : ClientOrderId)
  | reset
  | setPrices (bid ask last : Option Price)
  | setFillLimitInsideSpread (value : Bool)
deriving DecidableEq

namespace CoreOp

def onLive (live : List RestingOrder) : CoreOp → List RestingOrder
  | add order => live ++ [order]
  | delete clientOrderId => live.filter fun o => o.clientOrderId ≠ clientOrderId
  | reset => []
  | setPrices _ _ _ | setFillLimitInsideSpread _ => live

/-- The contract of `add_order`: the id is not live. -/
def Fresh (live : List RestingOrder) : CoreOp → Prop
  | add order => ∀ o ∈ live, o.clientOrderId ≠ order.clientOrderId
  | delete _ | reset | setPrices _ _ _ | setFillLimitInsideSpread _ => True

instance (live : List RestingOrder) : (op : CoreOp) → Decidable (op.Fresh live)
  | add _ => inferInstanceAs (Decidable (∀ o ∈ live, _))
  | delete _ | reset | setPrices _ _ _ | setFillLimitInsideSpread _ => .isTrue trivial

end CoreOp

def liveAfter (live : List RestingOrder) (ops : List CoreOp) : List RestingOrder :=
  ops.foldl CoreOp.onLive live

/-- Every add of the run meets the contract. -/
def FreshAdds : List RestingOrder → List CoreOp → Prop
  | _, [] => True
  | live, op :: ops => op.Fresh live ∧ FreshAdds (op.onLive live) ops

instance FreshAdds.decidable : (live : List RestingOrder) → (ops : List CoreOp) →
    Decidable (FreshAdds live ops)
  | _, [] => .isTrue trivial
  | live, op :: ops =>
    have := FreshAdds.decidable (op.onLive live) ops
    inferInstanceAs (Decidable (op.Fresh live ∧ FreshAdds (op.onLive live) ops))

namespace RestingOrder

/-- The price an order is keyed by; orders without one are never looked up by it. -/
def key (order : RestingOrder) : Price := (order.locate.map Prod.snd).getD ⟨0, 0⟩

def inBook (side : OrderSideSpecified) (kind : BookKind) (order : RestingOrder) : Bool :=
  order.orderSide = side ∧ order.locate.map Prod.fst = some kind

/-- The order has neither price and waits on this side. -/
def inPending (side : OrderSideSpecified) (order : RestingOrder) : Bool :=
  order.orderSide = side ∧ order.locate = none

theorem inBook_iff :
    order.inBook side kind = true ↔
      order.orderSide = side ∧ order.locate.map Prod.fst = some kind := decide_eq_true_iff

theorem inPending_iff :
    order.inPending side = true ↔ order.orderSide = side ∧ order.locate = none :=
  decide_eq_true_iff

theorem key_of_locate {price : Price} (h : order.locate = some (kind, price)) :
    order.key = price := by
  rw [key, h]
  rfl

end RestingOrder

open RestingOrder (clientOrderId key_of_locate inBook inPending inBook_iff inPending_iff)

theorem find?_filter_ne (id id' : ClientOrderId) (live : List RestingOrder) :
    ((live.filter fun o => o.clientOrderId ≠ id').find? fun o => o.clientOrderId = id) =
      if id = id' then none else live.find? fun o => o.clientOrderId = id := by
  induction live with
  | nil => simp
  | cons o live ih =>
    by_cases ho : o.clientOrderId = id'
    · rw [filter_cons_of_neg (by simp [ho]), ih]
      by_cases hid : id = id'
      · rw [if_pos hid, if_pos hid]
      · rw [if_neg hid, if_neg hid, find?_cons_of_neg (by simpa [ho] using Ne.symm hid)]
    · rw [filter_cons_of_pos (by simp [ho])]
      by_cases hid : o.clientOrderId = id
      · rw [find?_cons_of_pos (by simp [hid]), find?_cons_of_pos (by simp [hid]),
          if_neg fun h => ho (hid.trans h)]
      · rw [find?_cons_of_neg (by simp [hid]), find?_cons_of_neg (by simp [hid]), ih]

/-- Where ids are distinct a search by id finds the order of that id. -/
theorem find?_id_iff {orders : List RestingOrder} {id : ClientOrderId}
    (hnodup : (orders.map clientOrderId).Nodup) :
    (orders.find? fun o => o.clientOrderId = id) = some order ↔
      order ∈ orders ∧ order.clientOrderId = id := by
  constructor
  · intro hfind
    exact ⟨mem_of_find?_eq_some hfind, by simpa using find?_some hfind⟩
  rintro ⟨hmem, hid⟩
  obtain ⟨o, ho⟩ : ∃ o, (orders.find? fun o => o.clientOrderId = id) = some o := by
    rw [← isSome_iff_exists, find?_isSome]
    exact ⟨order, hmem, decide_eq_true hid⟩
  have hoid : o.clientOrderId = id := by simpa using find?_some ho
  rw [ho, inj_on_of_nodup_map hnodup (mem_of_find?_eq_some ho) hmem (hoid.trans hid.symm)]

/-- Taking out the one item under an id is filtering by it. -/
theorem eraseP_eq_filter {live : List RestingOrder} {id : ClientOrderId}
    (hnodup : (live.map clientOrderId).Nodup) :
    live.eraseP (fun o => o.clientOrderId = id) = live.filter fun o => o.clientOrderId ≠ id := by
  induction live with
  | nil => rfl
  | cons o live ih =>
    rw [map_cons, nodup_cons] at hnodup
    by_cases ho : o.clientOrderId = id
    · -- the rest holds no other order of this id
      have hrest : (live.filter fun o' => o'.clientOrderId ≠ id) = live := by
        refine filter_eq_self.mpr fun o' ho' => decide_eq_true fun heq => hnodup.1 ?_
        rw [ho, ← heq]
        exact mem_map_of_mem ho'
      rw [eraseP_cons_of_pos (by simp [ho]), filter_cons_of_neg (by simp [ho]), hrest]
    · rw [eraseP_cons_of_neg (by simp [ho]), filter_cons_of_pos (by simp [ho]), ih hnodup.2]

namespace OrderMatchingCore

variable {c c' : OrderMatchingCore} {live : List RestingOrder}
  {id : ClientOrderId}

/-- What each call leaves; `none` is a panic. -/
def step (c : OrderMatchingCore) : CoreOp → Option OrderMatchingCore
  | .add order => some (c.addOrder order)
  | .delete clientOrderId => (c.deleteOrder clientOrderId).map Prod.fst
  | .reset => some c.reset
  | .setPrices bid ask last => some { c with bid, ask, last }
  | .setFillLimitInsideSpread value => some (c.setFillLimitInsideSpread value)

structure Holds (c : OrderMatchingCore) (live : List RestingOrder) : Prop where
  nodup : (live.map clientOrderId).Nodup
  books : ∀ side kind,
    Groups RestingOrder.key (c.bookFor side kind) (live.filter (inBook side kind))
  pending : ∀ side, c.pendingFor side = live.filter (inPending side)

/-- It does, and the index knows where. -/
structure Represents (c : OrderMatchingCore) (live : List RestingOrder) : Prop
    extends Holds c live where
  index : ∀ id, c.orderIndex.get? id =
    (live.find? fun o => o.clientOrderId = id).map fun o => (o.orderSide, o.locate)

@[simp] theorem bookFor_withIndex (i) (side : OrderSideSpecified) (kind : BookKind) :
    ({ c with orderIndex := i } : OrderMatchingCore).bookFor side kind = c.bookFor side kind := by
  cases side <;> cases kind <;> rfl

@[simp] theorem pendingFor_withIndex (i) (side : OrderSideSpecified) :
    ({ c with orderIndex := i } : OrderMatchingCore).pendingFor side = c.pendingFor side := by
  cases side <;> rfl

namespace Represents

theorem new (instrumentId : InstrumentId) (priceIncrement : Price) :
    Represents (OrderMatchingCore.new instrumentId priceIncrement) [] where
  nodup := nodup_nil
  books side kind := by
    cases side <;> cases kind <;> exact Groups.empty
  pending side := by
    cases side <;> rfl
  index _ := rfl

theorem reset (c : OrderMatchingCore) : Represents c.reset [] where
  nodup := nodup_nil
  books side kind := by
    cases side <;> cases kind <;> exact Groups.empty
  pending side := by
    cases side <;> rfl
  index _ := rfl

/-! ### Adding -/

section

variable (c order side)

theorem bookFor_place (kind : BookKind) :
    (c.place order).bookFor side kind =
      if order.inBook side kind then
        (c.bookFor side kind).insert order.key
          (((c.bookFor side kind).get? order.key).getD [] ++ [order])
      else c.bookFor side kind := by
  unfold place
  cases hloc : order.locate with
  | none =>
    have hnot : ¬ order.inBook side kind = true := by
      rw [inBook_iff, hloc]
      exact fun hin => nomatch hin.2
    rw [if_neg hnot]
    exact bookFor_setPending ..
  | some location =>
    obtain ⟨kind', _⟩ := location
    show ((c.setBook _ _ _).bookFor side kind) = _
    have hin : (side = order.orderSide ∧ kind = kind') ↔ order.inBook side kind = true := by
      rw [inBook_iff, hloc, map_some, some_inj]
      exact and_congr eq_comm eq_comm
    rw [bookFor_setBook, key_of_locate hloc]
    by_cases h : side = order.orderSide ∧ kind = kind'
    · rw [if_pos h, if_pos (hin.mp h), h.1, h.2]
    · rw [if_neg h, if_neg (mt hin.mpr h)]

theorem pendingFor_place :
    (c.place order).pendingFor side = c.pendingFor side ++ [order].filter (inPending side) := by
  unfold place
  cases hloc : order.locate with
  | none =>
    show ((c.setPending _ _).pendingFor side) = _
    rw [pendingFor_setPending]
    by_cases h : side = order.orderSide
    · have hin : order.inPending side = true := inPending_iff.mpr ⟨h.symm, hloc⟩
      rw [if_pos h, filter_cons_of_pos hin, filter_nil, h]
    · have hnot : ¬ order.inPending side = true := fun hin =>
        h (inPending_iff.mp hin).1.symm
      rw [if_neg h, filter_cons_of_neg hnot, filter_nil, append_nil]
  | some location =>
    have hnot : ¬ order.inPending side = true := fun hin => by
      have := (inPending_iff.mp hin).2
      rw [hloc] at this
      nomatch this
    rw [filter_cons_of_neg hnot, filter_nil, append_nil]
    exact pendingFor_setBook ..

end

theorem add (h : Represents c live) (hfresh : (CoreOp.add order).Fresh live) :
    Represents (c.addOrder order) (live ++ [order]) where
  nodup := by
    rw [map_append, nodup_append]
    refine ⟨h.nodup, nodup_singleton _, ?_⟩
    intro id hid id' hid'
    obtain ⟨o, ho, rfl⟩ := mem_map.mp hid
    rw [mem_singleton.mp hid']
    exact hfresh o ho
  books side kind := by
    unfold addOrder
    rw [bookFor_withIndex, bookFor_place, filter_append]
    by_cases hin : order.inBook side kind = true
    · rw [if_pos hin, filter_cons_of_pos hin, filter_nil]
      exact (h.books side kind).push rfl
    · rw [if_neg hin, filter_cons_of_neg hin, filter_nil, append_nil]
      exact h.books side kind
  pending side := by
    unfold addOrder
    rw [pendingFor_withIndex, pendingFor_place, h.pending, filter_append]
  index id := by
    show (c.orderIndex.insert _ _).get? id = _
    rw [get?_insert, find?_append, h.index]
    by_cases hid : id = order.clientOrderId
    · -- nothing was live under the id
      have hnone : (live.find? fun o => o.clientOrderId = id) = none := by
        rw [find?_eq_none]
        intro o ho
        simpa [hid] using hfresh o ho
      rw [if_pos hid, hnone, none_or, find?_cons_of_pos (by simp [hid])]
      rfl
    · rw [if_neg hid, find?_cons_of_neg (by simpa using Ne.symm hid), find?_nil, or_none]

/-! ### Deleting -/

end Represents

theorem removeFrom_of_mem {bucket : List RestingOrder}
    (hnodup : (bucket.map clientOrderId).Nodup) (hmem : order ∈ bucket) :
    removeFrom bucket order.clientOrderId =
      some (bucket.filter fun o => o.clientOrderId ≠ order.clientOrderId) := by
  unfold removeFrom
  rw [if_pos (any_eq_true.mpr ⟨order, hmem, decide_eq_true rfl⟩), eraseP_eq_filter hnodup]

namespace Holds

variable (h : Holds c live)

include h

theorem ne_of_ne (hmem : order ∈ live) {o : RestingOrder} (ho : o ∈ live)
    (hne : o ≠ order) : o.clientOrderId ≠ order.clientOrderId :=
  fun hid => hne (inj_on_of_nodup_map h.nodup ho hmem hid)

/-- A place that does not hold the deleted order keeps the same orders as before. -/
theorem filter_of_not (hmem : order ∈ live) {place : RestingOrder → Bool}
    (hnot : ¬ place order = true) :
    (live.filter fun o => o.clientOrderId ≠ order.clientOrderId).filter place =
      live.filter place := by
  rw [List.filter_filter]
  refine filter_congr fun o ho => ?_
  by_cases hin : place o = true
  · have hne := h.ne_of_ne hmem ho fun heq => hnot (heq ▸ hin)
    simp [hin, hne]
  · simp [hin]

/-- A live order is found where the index says, and taken out of there only. -/
theorem displace_live (hmem : order ∈ live) :
    ∃ c', c.displace order.clientOrderId order.orderSide order.locate = some c' ∧
      c'.orderIndex = c.orderIndex ∧
      Holds c' (live.filter fun o => o.clientOrderId ≠ order.clientOrderId) := by
  have hnodup := h.nodup.sublist
    ((filter_sublist (p := fun o => o.clientOrderId ≠ order.clientOrderId)).map
      clientOrderId)
  cases hloc : order.locate with
  | some location =>
    obtain ⟨kind, price⟩ := location
    have hin : order.inBook order.orderSide kind = true := by
      rw [inBook_iff, hloc]
      exact ⟨rfl, rfl⟩
    have hgroups := h.books order.orderSide kind
    have hinfilter := mem_filter.mpr ⟨hmem, hin⟩
    obtain ⟨bucket, hbucket⟩ : ∃ bucket, bucket = atKey cmp key price
      (live.filter (inBook order.orderSide kind)) := ⟨_, rfl⟩
    -- the bucket the index names is the one of the order's price, and the order is in it
    have hkey : cmp order.key price = .eq := by
      rw [key_of_locate hloc]
      exact Std.ReflCmp.compare_self
    have hget := hgroups.get?_of_mem hinfilter hkey
    have hids : (bucket.map clientOrderId).Nodup := by
      rw [hbucket]
      exact h.nodup.sublist ((filter_sublist.trans filter_sublist).map _)
    have hin' : order ∈ bucket := hbucket ▸ mem_atKey.mpr ⟨hinfilter, hkey⟩
    rw [← hbucket] at hget
    refine ⟨c.setBook order.orderSide kind ((c.bookFor order.orderSide kind).store
      isEmpty price (bucket.filter fun o => o.clientOrderId ≠ order.clientOrderId)), ?_, ?_,
      hnodup, ?_, ?_⟩
    · show ((c.bookFor order.orderSide kind).get? price).bind _ = _
      rw [hget, bind_some, removeFrom_of_mem hids hin']
      rfl
    · exact orderIndex_setBook ..
    · intro side kind'
      rw [bookFor_setBook]
      by_cases hplace : side = order.orderSide ∧ kind' = kind
      · obtain ⟨rfl, rfl⟩ := hplace
        rw [if_pos ⟨rfl, rfl⟩, filter_comm]
        refine hgroups.drop hget fun o ho hokey => ?_
        have hne := h.ne_of_ne hmem (mem_filter.mp ho).1 fun heq => hokey (heq ▸ hkey)
        exact decide_eq_true hne
      · have hnot : ¬ order.inBook side kind' = true := by
          rw [inBook_iff, hloc, map_some, some_inj]
          exact fun hin' => hplace ⟨hin'.1.symm, hin'.2.symm⟩
        rw [if_neg hplace, h.filter_of_not hmem hnot]
        exact h.books side kind'
    · intro side
      have hnot : ¬ order.inPending side = true := by
        rw [inPending_iff, hloc]
        exact fun hin' => nomatch hin'.2
      rw [pendingFor_setBook, h.pending, h.filter_of_not hmem hnot]
  | none =>
    have hin : order.inPending order.orderSide = true := inPending_iff.mpr ⟨rfl, hloc⟩
    have hpending : order ∈ c.pendingFor order.orderSide := by
      rw [h.pending]
      exact mem_filter.mpr ⟨hmem, hin⟩
    have hids : ((c.pendingFor order.orderSide).map clientOrderId).Nodup := by
      rw [h.pending]
      exact h.nodup.sublist (filter_sublist.map _)
    refine ⟨c.setPending order.orderSide ((c.pendingFor order.orderSide).filter
      fun o => o.clientOrderId ≠ order.clientOrderId), ?_, ?_, hnodup, ?_, ?_⟩
    · show (removeFrom (c.pendingFor order.orderSide) order.clientOrderId).bind _ = _
      rw [removeFrom_of_mem hids hpending]
      rfl
    · exact orderIndex_setPending ..
    · intro side kind
      have hnot : ¬ order.inBook side kind = true := by
        rw [inBook_iff, hloc]
        exact fun hin' => nomatch hin'.2
      rw [bookFor_setPending, h.filter_of_not hmem hnot]
      exact h.books side kind
    · intro side
      rw [pendingFor_setPending, h.pending]
      by_cases hside : side = order.orderSide
      · rw [if_pos hside, hside, filter_comm]
      · have hnot : ¬ order.inPending side = true := fun hin' =>
          hside (inPending_iff.mp hin').1.symm
        rw [if_neg hside, h.pending, h.filter_of_not hmem hnot]

theorem of_places (hbooks : c'.bookFor = c.bookFor)
    (hpending : c'.pendingFor = c.pendingFor) : Holds c' live :=
  ⟨h.nodup, by rw [hbooks]; exact h.books, by rw [hpending]; exact h.pending⟩

end Holds

namespace Represents

/-- `delete_order` of a live id succeeds and takes out that order. -/
theorem delete_live (h : Represents c live) (hmem : order ∈ live) :
    ∃ c', c.deleteOrder order.clientOrderId = some (c', .ok ()) ∧
      Represents c' (live.filter fun o => o.clientOrderId ≠ order.clientOrderId) := by
  have hget : c.orderIndex.get? order.clientOrderId = some (order.orderSide, order.locate) := by
    rw [h.index, (find?_id_iff h.nodup).mpr ⟨hmem, rfl⟩]
    rfl
  have hunindexed : Holds { c with orderIndex := c.orderIndex.remove order.clientOrderId } live :=
    h.toHolds.of_places rfl rfl
  obtain ⟨c', hdisplace, hindex, hholds⟩ := hunindexed.displace_live hmem
  refine ⟨c', ?_, hholds, ?_⟩
  · unfold deleteOrder
    rw [hget]
    show (OrderMatchingCore.displace _ _ _ _).map _ = _
    rw [hdisplace]
    rfl
  · intro id
    rw [hindex, get?_remove, h.index, find?_filter_ne]
    split <;> rfl

/-- `delete_order` of any other id reports it and changes nothing. -/
theorem delete_dead (h : Represents c live) (hdead : ∀ o ∈ live, o.clientOrderId ≠ id) :
    c.deleteOrder id = some (c, .error (.notFound id)) := by
  have hnone : (live.find? fun o => o.clientOrderId = id) = none := by
    rw [find?_eq_none]
    intro o ho
    simpa using hdead o ho
  unfold deleteOrder
  rw [h.index, hnone]
  rfl

/-- What a call does to the live orders it does to the core. -/
theorem step (h : Represents c live) {op : CoreOp} (hfresh : op.Fresh live) :
    ∃ c', c.step op = some c' ∧ Represents c' (op.onLive live) := by
  cases op with
  | add order => exact ⟨_, rfl, h.add hfresh⟩
  | delete id =>
    by_cases hlive : ∃ o ∈ live, o.clientOrderId = id
    · obtain ⟨o, ho, rfl⟩ := hlive
      obtain ⟨c', hdelete, hc'⟩ := h.delete_live ho
      exact ⟨c', by rw [OrderMatchingCore.step, hdelete]; rfl, hc'⟩
    have hdead : ∀ o ∈ live, o.clientOrderId ≠ id := fun o ho hid => hlive ⟨o, ho, hid⟩
    refine ⟨c, by rw [OrderMatchingCore.step, h.delete_dead hdead]; rfl, ?_⟩
    have hsame : CoreOp.onLive live (.delete id) = live :=
      filter_eq_self.mpr fun o ho => decide_eq_true (hdead o ho)
    rw [hsame]
    exact h
  | reset => exact ⟨_, rfl, .reset c⟩
  | setPrices bid ask last | setFillLimitInsideSpread value =>
    exact ⟨_, rfl, h.toHolds.of_places rfl rfl, h.index⟩

/-- Every run of fresh adds completes and keeps the core and its live orders together. -/
theorem of_runs {ops : List CoreOp} (h : Represents c live) (hfresh : FreshAdds live ops) :
    ∃ c', runs OrderMatchingCore.step c ops = some c' ∧ Represents c' (liveAfter live ops) := by
  induction ops generalizing c live with
  | nil => exact ⟨c, rfl, h⟩
  | cons op ops ih =>
    obtain ⟨_, hstep, h₁⟩ := h.step hfresh.1
    obtain ⟨c₂, hruns, h₂⟩ := ih h₁ hfresh.2
    refine ⟨c₂, ?_, h₂⟩
    show (c.step op).bind _ = _
    rw [hstep]
    exact hruns

end Represents

/-! ## What callers see -/

/-- The bucket at a place: a price level of a book, or a side's pending list. -/
def bucketAt (c : OrderMatchingCore) (side : OrderSideSpecified) :
    Option (BookKind × Price) → List RestingOrder
  | some (kind, price) => ((c.bookFor side kind).get? price).getD []
  | none => c.pendingFor side

end OrderMatchingCore

/-- The side and the prices of an order imply this place. -/
def RestingOrder.belongsAt (side : OrderSideSpecified) (location : Option (BookKind × Price))
    (order : RestingOrder) : Bool :=
  match location with
  | some (kind, price) => order.inBook side kind && order.key.raw == price.raw
  | none => order.inPending side

theorem RestingOrder.belongsAt_locate (order : RestingOrder) :
    order.belongsAt order.orderSide order.locate = true := by
  cases hloc : order.locate with
  | none => exact inPending_iff.mpr ⟨rfl, hloc⟩
  | some location =>
    have hin : order.inBook order.orderSide location.1 = true :=
      inBook_iff.mpr ⟨rfl, by rw [hloc]; rfl⟩
    rw [belongsAt, hin, key_of_locate hloc, beq_self_eq_true]
    rfl

/-- The price that is matched first: the best limit, the trigger nearest to the market. -/
def nearer : OrderSideSpecified → BookKind → Price → Price → Prop
  | .buy, .limit, p, q | .sell, .stop, p, q => q.raw < p.raw
  | .sell, .limit, p, q | .buy, .stop, p, q => p.raw < q.raw

/-- The live orders of a book by price, those of one price in the order they were added. -/
def Queued (side : OrderSideSpecified) (kind : BookKind) (live orders : List RestingOrder) : Prop :=
  orders.Perm (live.filter (inBook side kind)) ∧
    orders.Pairwise fun a b =>
      nearer side kind a.key b.key ∨ (a.key.raw = b.key.raw ∧ Before live a b)

namespace OrderMatchingCore

/-- A book in the order `iterate_bids` and `iterate_asks` walk it. -/
def queue (c : OrderMatchingCore) : OrderSideSpecified → BookKind → List RestingOrder
  | .buy, .limit => c.bidLimits.values.reverse.flatten
  | .buy, .stop => c.bidStops.values.flatten
  | .sell, .limit => c.askLimits.values.flatten
  | .sell, .stop => c.askStops.values.reverse.flatten

/-- The actions of a side: one for each live order that matches, limits before stops, in book order.
-/
def Prioritized (c : OrderMatchingCore) (live : List RestingOrder) (side : OrderSideSpecified)
    (actions : List MatchAction) : Prop :=
  actions.Perm ((live.filter fun o => o.orderSide = side).filterMap c.matchOrder) ∧
    ∃ limits stops, Queued side .limit live limits ∧ Queued side .stop live stops ∧
      actions = (limits ++ stops).filterMap c.matchOrder

theorem matchOrder_of_locate_none (c : OrderMatchingCore) (h : order.locate = none) :
    c.matchOrder order = none := by
  unfold locate at h
  cases htrigger : order.triggerPrice with
  | some price =>
    rw [htrigger] at h
    nomatch h
  | none =>
    rw [htrigger, map_eq_none_iff] at h
    simp [matchOrder, isStop, isLimit, htrigger, h]

/-- Orders with neither price match nothing, so the two books are the whole side. -/
theorem filterMap_books_perm (c : OrderMatchingCore) (live : List RestingOrder)
    (side : OrderSideSpecified) :
    ((live.filter (inBook side .limit) ++
        live.filter (inBook side .stop)).filterMap c.matchOrder).Perm
      ((live.filter fun o => o.orderSide = side).filterMap c.matchOrder) := by
  induction live with
  | nil => exact .nil
  | cons o live ih =>
    simp only [filter_cons, inBook_iff, decide_eq_true_eq]
    by_cases hside : o.orderSide = side
    · obtain hloc | ⟨⟨kind, price⟩, hloc⟩ := eq_none_or_eq_some o.locate
      · simpa [hside, hloc, matchOrder_of_locate_none c hloc] using ih
      -- the order heads its own book, so a stop has to pass the limits
      have hcons := (ih.append_left ([o].filterMap c.matchOrder))
      rw [← filterMap_append, ← filterMap_append, singleton_append, singleton_append] at hcons
      cases kind with
      | limit => simpa [hside, hloc] using hcons
      | stop => simpa [hside, hloc] using (perm_middle.filterMap _).trans hcons
    · simpa [hside] using ih

structure Answers (c : OrderMatchingCore) (live : List RestingOrder) : Prop where
  bucketAt_eq : ∀ side location,
    c.bucketAt side location = live.filter (RestingOrder.belongsAt side location)
  orderExists_iff : ∀ id, c.orderExists id = true ↔ ∃ o ∈ live, o.clientOrderId = id
  getOrder_iff : ∀ id o, c.getOrder id = some o ↔ o ∈ live ∧ o.clientOrderId = id
  deleteOrder_live : ∀ o ∈ live, ∃ c', c.deleteOrder o.clientOrderId = some (c', .ok ()) ∧
    ∀ side location, c'.bucketAt side location =
      (c.bucketAt side location).filter fun o' => o'.clientOrderId ≠ o.clientOrderId
  deleteOrder_dead : ∀ id, (∀ o ∈ live, o.clientOrderId ≠ id) →
    c.deleteOrder id = some (c, .error (.notFound id))
  iterateBids_prioritized : Prioritized c live .buy c.iterateBids
  iterateAsks_prioritized : Prioritized c live .sell c.iterateAsks

namespace Represents

section

variable (h : Represents c live)

include h

theorem bucketAt_eq (side : OrderSideSpecified) (location : Option (BookKind × Price)) :
    c.bucketAt side location = live.filter (belongsAt side location) := by
  cases location with
  | none => exact h.pending side
  | some location =>
    obtain ⟨kind, price⟩ := location
    show ((c.bookFor side kind).get? price).getD [] = _
    rw [(h.books side kind).getD, atKey, List.filter_filter]
    refine filter_congr fun o _ => ?_
    rw [belongsAt, Bool.and_comm]
    congr 1
    rw [Bool.eq_iff_iff, decide_eq_true_iff, beq_iff_eq, cmp_eq_iff]

/-- The bucket the index names holds the order, and no other of its id. -/
theorem getOrder_eq_find? (id : ClientOrderId) :
    c.getOrder id = live.find? fun o => o.clientOrderId = id := by
  have hbucket : c.getOrder id = (c.orderIndex.get? id).bind fun p =>
      (c.bucketAt p.1 p.2).find? fun o => o.clientOrderId = id := by
    unfold getOrder
    congr 1
    ext1 ⟨side, location⟩
    cases location with
    | none => rfl
    | some location =>
      show ((c.bookFor side location.1).get? location.2).bind _ = find? _ (getD _ _)
      cases (c.bookFor side location.1).get? location.2 <;> rfl
  rw [hbucket, h.index]
  cases hfind : live.find? fun o => o.clientOrderId = id with
  | none => rfl
  | some o =>
    obtain ⟨hmem, hid⟩ := (find?_id_iff h.nodup).mp hfind
    show (c.bucketAt o.orderSide o.locate).find? _ = some o
    rw [h.bucketAt_eq, find?_id_iff (h.nodup.sublist (filter_sublist.map _))]
    exact ⟨mem_filter.mpr ⟨hmem, belongsAt_locate o⟩, hid⟩

theorem getOrder_iff (id : ClientOrderId) (o : RestingOrder) :
    c.getOrder id = some o ↔ o ∈ live ∧ o.clientOrderId = id := by
  rw [h.getOrder_eq_find?, find?_id_iff h.nodup]

theorem orderExists_iff (id : ClientOrderId) :
    c.orderExists id = true ↔ ∃ o ∈ live, o.clientOrderId = id := by
  unfold orderExists containsKey
  rw [h.index, isSome_map, find?_isSome]
  simp

/-- A book read in the direction of its side. -/
theorem queued (side : OrderSideSpecified) (kind : BookKind) :
    Queued side kind live (c.queue side kind) := by
  have hgroups := h.books side kind
  have hnodup : (live.filter (inBook side kind)).Nodup := (h.nodup.of_map _).filter _
  have hbefore : ∀ {a b}, Before (live.filter (inBook side kind)) a b →
      Before live a b := fun hab => Sublist.trans hab filter_sublist
  cases side <;> cases kind
  case buy.limit | sell.stop =>
    refine ⟨hgroups.perm_reverse_flatten hnodup, hgroups.pairwise_reverse_flatten.imp ?_⟩
    rintro a b (hgt | ⟨heq, hab⟩)
    · exact .inl (Int.compare_eq_gt.mp hgt)
    · exact .inr ⟨cmp_eq_iff.mp heq, hbefore hab⟩
  case sell.limit | buy.stop =>
    refine ⟨hgroups.perm_flatten hnodup, hgroups.pairwise_flatten.imp ?_⟩
    rintro a b (hlt | ⟨heq, hab⟩)
    · exact .inl (Int.compare_eq_lt.mp hlt)
    · exact .inr ⟨cmp_eq_iff.mp heq, hbefore hab⟩

theorem prioritized (side : OrderSideSpecified) :
    Prioritized c live side ((c.queue side .limit ++ c.queue side .stop).filterMap c.matchOrder) := by
  have hlimits := h.queued side .limit
  have hstops := h.queued side .stop
  refine ⟨?_, _, _, hlimits, hstops, rfl⟩
  exact ((hlimits.1.append hstops.1).filterMap _).trans (filterMap_books_perm c live side)

theorem answers : Answers c live where
  bucketAt_eq := h.bucketAt_eq
  orderExists_iff := h.orderExists_iff
  getOrder_iff := h.getOrder_iff
  deleteOrder_live o ho := by
    obtain ⟨c', hdelete, h'⟩ := h.delete_live ho
    refine ⟨c', hdelete, fun side location => ?_⟩
    rw [h'.bucketAt_eq, h.bucketAt_eq, filter_comm]
  deleteOrder_dead _ hdead := h.delete_dead hdead
  iterateBids_prioritized := h.prioritized .buy
  iterateAsks_prioritized := h.prioritized .sell

end

end Represents

/-- **Over every sequence of calls that adds an id only while it is not live**, the core completes
each call and answers for the live orders (`Answers`). -/
theorem registry_of_runs (instrumentId : InstrumentId) (priceIncrement : Price)
    (ops : List CoreOp) (hfresh : FreshAdds [] ops) :
    ∃ c, runs step (new instrumentId priceIncrement) ops = some c ∧
      Answers c (liveAfter [] ops) := by
  obtain ⟨c, hruns, h⟩ := (Represents.new instrumentId priceIncrement).of_runs hfresh
  exact ⟨c, hruns, h.answers⟩

def Sample.limitBuy (id : String) (raw : Int) : RestingOrder :=
  ⟨⟨id⟩, .buy, .limit, none, some ⟨raw, 0⟩, true⟩

/-- Two orders at one price with a better one added between them, and a delete. -/
def Sample.coreOps : List CoreOp :=
  [.add (limitBuy "A" 100), .add (limitBuy "B" 105), .add (limitBuy "C" 100),
    .add (limitBuy "D" 105), .delete ⟨"D"⟩, .setPrices none (some ⟨99, 0⟩) none]

open OrderMatchingCore.Sample

theorem registry_of_runs_sample :
    FreshAdds [] coreOps ∧
      (runs step (new ⟨"X"⟩ ⟨1, 0⟩) coreOps).map iterateBids =
        some [.fillLimit ⟨"B"⟩, .fillLimit ⟨"A"⟩, .fillLimit ⟨"C"⟩] ∧
      ∃ c, runs step (new ⟨"X"⟩ ⟨1, 0⟩) coreOps = some c ∧
        Answers c (liveAfter [] coreOps) := by
  have hfresh : FreshAdds [] coreOps := by decide +kernel
  exact ⟨hfresh, by decide +kernel, registry_of_runs ⟨"X"⟩ ⟨1, 0⟩ coreOps hfresh⟩

end OrderMatchingCore

end Nautilus
