import Nautilus.Lib.Run
import Nautilus.Lib.IndexMap
import Nautilus.Types

/-!
# The data iterator of a backtest

`data_iterator.rs`: named streams are merged by time and, at one time, by priority. A single stream
is read by its cursor alone, several by a heap of the elements at their cursors: a list here, of
which `pop` takes the least entry.

`Kept` is the invariant of both modes. A stream that is added again keeps the priority it was first
given, whatever side is asked for then (`not_prepended_wins`).
-/

namespace Nautilus

open Lib List Option IndexMap

open Function (update update_eq_self)

structure HeapEntry where
  ts : Nat
  priority : Int
  index : Nat
deriving DecidableEq

variable {entry : HeapEntry} {p : Int}

namespace HeapEntry

/-- `Ord for HeapEntry`, reversed as the heap reads it. -/
def le (a b : HeapEntry) : Bool :=
  a.ts < b.ts || (a.ts == b.ts && (a.priority < b.priority ||
    (a.priority == b.priority && a.index ≤ b.index)))

/-- `BinaryHeap::pop`. -/
def pop : List HeapEntry → Option (HeapEntry × List HeapEntry)
  | [] => none
  | e :: rest =>
    let least := rest.foldl (fun a b => if a.le b then a else b) e
    some (least, (e :: rest).erase least)

theorem le_iff {a b : HeapEntry} : a.le b = true ↔ a.ts < b.ts ∨ (a.ts = b.ts ∧
    (a.priority < b.priority ∨ (a.priority = b.priority ∧ a.index ≤ b.index))) := by
  simp [le]

theorem le_refl (a : HeapEntry) : a.le a = true := le_iff.mpr (by omega)

theorem foldl_least (es : List HeapEntry) (e : HeapEntry) :
    es.foldl (fun a b => if a.le b then a else b) e ∈ e :: es ∧
      ∀ b ∈ e :: es, (es.foldl (fun a b => if a.le b then a else b) e).le b = true := by
  induction es generalizing e with
  | nil => exact ⟨mem_singleton_self e, fun b hb => mem_singleton.mp hb ▸ le_refl e⟩
  | cons e' es ih =>
    rw [foldl_cons]
    obtain ⟨hmem, hle⟩ := ih (if e.le e' then e else e')
    generalize es.foldl _ _ = least at hmem hle ⊢
    -- the head of the rest is the smaller of the first two
    have hfirst := hle _ mem_cons_self
    refine ⟨?_, fun b hb => ?_⟩
    · split at hmem <;> simp only [mem_cons] at hmem ⊢ <;> tauto
    rcases mem_cons.mp hb with rfl | hb
    · split_ifs at hfirst with hnot
      · exact hfirst
      · rw [le_iff] at hfirst hnot ⊢
        omega
    · rcases mem_cons.mp hb with rfl | hb
      · split_ifs at hfirst with hlt
        · rw [le_iff] at hfirst hlt ⊢
          omega
        · exact hfirst
      · exact hle b (mem_cons_of_mem _ hb)

theorem of_pop {heap rest : List HeapEntry} {e : HeapEntry} (h : pop heap = some (e, rest)) :
    e ∈ heap ∧ (∀ b ∈ heap, e.le b = true) ∧ rest = heap.erase e := by
  cases heap with
  | nil => nomatch h
  | cons e' es =>
    cases h
    obtain ⟨hmem, hle⟩ := foldl_least es e'
    exact ⟨hmem, hle, rfl⟩

theorem pop_eq_none_iff {heap : List HeapEntry} : pop heap = none ↔ heap = [] := by
  cases heap with
  | nil => exact iff_of_true rfl rfl
  | cons => exact iff_of_false nofun nofun

end HeapEntry

structure BacktestDataIterator (δ : Type) where
  streams : IndexMap Int (List δ)
  priorities : IndexMap String Int
  indices : IndexMap Int Nat
  heap : List HeapEntry
  singlePriority : Option Int
  nextPriorityCounter : Int

/-- An `i32`, which wraps. -/
def wrapI32 (n : Int) : Int := n.bmod (2 ^ 32)

theorem wrapI32_of_natAbs {n : Int} (h : n.natAbs < 2 ^ 31) : wrapI32 n = n := by
  unfold wrapI32
  rw [Int.bmod_def]
  omega

namespace BacktestDataIterator

variable {δ : Type}

def new : BacktestDataIterator δ := ⟨.empty, .empty, .empty, [], none, 0⟩

def removeData (self : BacktestDataIterator δ) (name : String) : BacktestDataIterator δ :=
  match self.priorities.get? name with
  | none => self
  | some priority =>
    let heap := self.heap.filter (·.priority ≠ priority)
    { self with
      priorities := self.priorities.remove name
      streams := self.streams.remove priority
      indices := self.indices.remove priority
      heap
      singlePriority := if heap.isEmpty then none else self.singlePriority }

def isDone (self : BacktestDataIterator δ) : Bool :=
  match self.singlePriority with
  | some p =>
    match self.indices.get? p, self.streams.get? p with
    | some index, some data => index ≥ data.length
    | _, _ => true
  | none => self.heap.isEmpty

section

variable [HasTsInit δ]

def entryAt (priority : Int) (data : List δ) (index : Nat) : Option HeapEntry :=
  data[index]?.map fun element => ⟨tsInit element, priority, index⟩

variable (self : BacktestDataIterator δ)

def rebuildHeap : BacktestDataIterator δ :=
  if self.streams.len = 1 then
    { self with heap := [], singlePriority := self.streams.keys.head? }
  else
    { self with
      singlePriority := none
      heap := self.streams.entries.filterMap fun (priority, data) =>
        entryAt priority data ((self.indices.get? priority).getD 0) }

/-- Sorted by `ts_init`, equal times in their order. -/
def sortByTs (data : List δ) : List δ := data.insertionSort fun a b => tsInit a ≤ tsInit b

def addData (name : String) (data : List δ) (appendData : Bool) : BacktestDataIterator δ :=
  if data.isEmpty then self
  else
    let counter := wrapI32 (self.nextPriorityCounter + 1)
    let (self, priority) := match self.priorities.get? name with
      | some priority => (self, priority)
      | none => ({ self with nextPriorityCounter := counter },
          wrapI32 ((if appendData then 1 else -1) * counter))
    let self := self.removeData name
    { self with
      streams := self.streams.insert priority (sortByTs data)
      priorities := self.priorities.insert name priority
      indices := self.indices.insert priority 0 }.rebuildHeap

def setIndex (name : String) (index : Nat) : BacktestDataIterator δ :=
  match self.priorities.get? name with
  | none => self
  | some priority => { self with indices := self.indices.insert priority index }.rebuildHeap

def resetAllCursors : BacktestDataIterator δ :=
  { self with indices := self.indices.filterMap fun _ _ => some 0 }.rebuildHeap

/-- An index that is out of bounds is a panic. -/
def next : Option (BacktestDataIterator δ × Option δ) :=
  match self.singlePriority with
  | some p =>
    match self.streams.get? p, self.indices.get? p with
    | some data, some index =>
      match data[index]? with
      | none => some (self, none)
      | some element =>
        some ({ self with indices := self.indices.insert p (index + 1) }, some element)
    | _, _ => some (self, none)
  | none =>
    match HeapEntry.pop self.heap with
    | none => some (self, none)
    | some (entry, heap) =>
      match self.streams.get? entry.priority with
      | none => some ({ self with heap }, none)
      | some data =>
        data[entry.index]?.map fun element =>
          ({ self with
            indices := self.indices.insert entry.priority (entry.index + 1)
            heap := heap ++ (entryAt entry.priority data (entry.index + 1)).toList },
            some element)

/-- The calls a backtest makes. -/
inductive IterOp (δ : Type) where
  | addData (name : String) (data : List δ) (appendData : Bool)
  | removeData (name : String)
  | setIndex (name : String) (index : Nat)
  | resetAllCursors
  | next

def step : IterOp δ → Option (BacktestDataIterator δ)
  | .addData name data appendData => some (self.addData name data appendData)
  | .removeData name => some (self.removeData name)
  | .setIndex name index => some (self.setIndex name index)
  | .resetAllCursors => some self.resetAllCursors
  | .next => self.next.map Prod.fst

end

/-! ## What the maps show -/

/-- A stream as its user sees it. -/
structure Stream (δ : Type) where
  prepended : Bool
  priority : Int
  data : List δ
  cursor : Nat

def Stream.current (st : Stream δ) : Option δ := st.data[st.cursor]?

def view (s : BacktestDataIterator δ) (name : String) : Option (Stream δ) :=
  (s.priorities.get? name).bind fun p => (s.streams.get? p).map fun data =>
    ⟨decide (p < 0), p, data, (s.indices.get? p).getD 0⟩

def Ended (v : String → Option (Stream δ)) : Prop :=
  ∀ name st, v name = some st → st.data.length ≤ st.cursor

/-- The maps agree, and every priority was counted. -/
structure Named (n : Nat) (s : BacktestDataIterator δ) : Prop where
  named : ∀ {p data}, s.streams.get? p = some data → ∃ name, s.priorities.get? name = some p
  present : ∀ {name p}, s.priorities.get? name = some p →
    (∃ data, s.streams.get? p = some data) ∧ ∃ index, s.indices.get? p = some index
  inj : ∀ {name name' p}, s.priorities.get? name = some p → s.priorities.get? name' = some p →
    name = name'
  counted : ∀ {name p}, s.priorities.get? name = some p →
    p ≠ 0 ∧ (p.natAbs : Int) ≤ s.nextPriorityCounter
  counter : 0 ≤ s.nextPriorityCounter ∧ s.nextPriorityCounter ≤ n

variable {n : Nat} {s s' : BacktestDataIterator δ} {name : String}

theorem Named.mono {m : Nat} (h : Named n s) (hnm : n ≤ m) : Named m s :=
  ⟨h.named, h.present, h.inj, h.counted, h.counter.1, by have := h.counter.2; omega⟩

theorem view_eq_none_iff (h : Named n s) : s.view name = none ↔ s.priorities.get? name = none := by
  cases hp : s.priorities.get? name with
  | none => simp [view, hp]
  | some p =>
    obtain ⟨⟨_, hdata⟩, -⟩ := h.present hp
    simp [view, hp, hdata]

theorem of_view {st : Stream δ} (hst : s.view name = some st) :
    s.priorities.get? name = some st.priority ∧ s.streams.get? st.priority = some st.data ∧
      st.cursor = (s.indices.get? st.priority).getD 0 ∧
      st.prepended = decide (st.priority < 0) := by
  obtain ⟨p, hp, hst⟩ := bind_eq_some_iff.mp hst
  obtain ⟨data, hdata, rfl⟩ := map_eq_some_iff.mp hst
  exact ⟨hp, hdata, rfl, rfl⟩

/-- The maps are the same but for one name and one priority. -/
structure Elsewhere (name : String) (p : Int) (s s' : BacktestDataIterator δ) : Prop where
  priorities : ∀ name', name' ≠ name → s'.priorities.get? name' = s.priorities.get? name'
  streams : ∀ p', p' ≠ p → s'.streams.get? p' = s.streams.get? p'
  indices : ∀ p', p' ≠ p → s'.indices.get? p' = s.indices.get? p'
  counter : s'.nextPriorityCounter = s.nextPriorityCounter

/-- The priority is the name's own, or a new one for a new name. -/
def Owns (s : BacktestDataIterator δ) (name : String) (p : Int) : Prop :=
  ∀ {name' p'}, s.priorities.get? name' = some p' → (name' = name ↔ p' = p)

theorem Named.owns (h : Named n s) (hp : s.priorities.get? name = some p) : s.Owns name p := by
  refine fun {name' p'} hp' => ⟨?_, ?_⟩
  · rintro rfl
    exact some.inj (hp'.symm.trans hp)
  · rintro rfl
    exact h.inj hp' hp

/-- What a change at one name does: it brings the stream, leaves it, or takes it away. -/
theorem Named.changed (h : Named n s) (hown : s.Owns name p) (he : Elsewhere name p s s')
    (hat : (s'.priorities.get? name = none ∧ s'.streams.get? p = none) ∨
      (s'.priorities.get? name = some p ∧ (p ≠ 0 ∧ (p.natAbs : Int) ≤ s.nextPriorityCounter) ∧
        (∃ data, s'.streams.get? p = some data) ∧ ∃ index, s'.indices.get? p = some index)) :
    Named n s' ∧ s'.view = update s.view name (s'.view name) := by
  have hkept (hp : s'.priorities.get? name = some p) :=
    (hat.resolve_left fun h => nomatch h.1.symm.trans hp).2
  have hcases : ∀ {name' p'}, s'.priorities.get? name' = some p' →
      (name' = name ∧ p' = p) ∨ (p' ≠ p ∧ s.priorities.get? name' = some p') := by
    intro name' p' hp'
    by_cases hname : name' = name
    · subst hname
      obtain ⟨hnone, -⟩ | ⟨hsome, -⟩ := hat
      · exact nomatch hnone.symm.trans hp'
      · exact .inl ⟨rfl, some.inj (hp'.symm.trans hsome)⟩
    · rw [he.priorities name' hname] at hp'
      exact .inr ⟨fun heq => hname ((hown hp').mpr heq), hp'⟩
  refine ⟨⟨fun {p' data} hdata => ?_, fun hp' => ?_, fun h₁ h₂ => ?_, fun hp' => ?_, ?_⟩, ?_⟩
  · by_cases hpp : p' = p
    · subst hpp
      obtain ⟨-, hnone⟩ | ⟨hsome, -⟩ := hat
      · exact nomatch hnone.symm.trans hdata
      · exact ⟨name, hsome⟩
    · rw [he.streams p' hpp] at hdata
      obtain ⟨name', hname'⟩ := h.named hdata
      exact ⟨name', (he.priorities name' fun heq => hpp ((hown hname').mp heq)).trans hname'⟩
  · obtain ⟨rfl, rfl⟩ | ⟨hne, hp''⟩ := hcases hp'
    · exact (hkept hp').2
    · rw [he.streams _ hne, he.indices _ hne]
      exact h.present hp''
  · obtain ⟨rfl, rfl⟩ | ⟨hne, h₁⟩ := hcases h₁
    · obtain ⟨rfl, -⟩ | ⟨hne, -⟩ := hcases h₂
      · rfl
      · exact absurd rfl hne
    · obtain ⟨-, heq⟩ | ⟨-, h₂⟩ := hcases h₂
      · exact absurd heq hne
      · exact h.inj h₁ h₂
  · rw [he.counter]
    obtain ⟨rfl, rfl⟩ | ⟨-, hp''⟩ := hcases hp'
    · exact (hkept hp').1
    · exact h.counted hp''
  · rw [he.counter]
    exact h.counter
  · funext name'
    by_cases hname : name' = name
    · rw [hname, Function.update_self]
    rw [Function.update_of_ne hname, view, view, he.priorities name' hname]
    cases hp' : s.priorities.get? name' with
    | none => rfl
    | some p' =>
      have hne : p' ≠ p := fun heq => hname ((hown hp').mpr heq)
      rw [bind_some, bind_some, he.streams p' hne, he.indices p' hne]

theorem elsewhere_removeData (hown : s.Owns name p) : Elsewhere name p s (s.removeData name) := by
  unfold removeData
  cases hp : s.priorities.get? name with
  | none => exact ⟨fun _ _ => rfl, fun _ _ => rfl, fun _ _ => rfl, rfl⟩
  | some p' =>
    obtain rfl := (hown hp).mp rfl
    refine ⟨fun name' hne => ?_, fun p hne => ?_, fun p hne => ?_, rfl⟩
    all_goals exact (get?_remove ..).trans (if_neg hne)

theorem Named.removeData (h : Named n s) (name : String) : Named n (s.removeData name) ∧
    (s.removeData name).view = update s.view name none := by
  cases hp : s.priorities.get? name with
  | none =>
    have hsame : s.removeData name = s := by rw [BacktestDataIterator.removeData, hp]
    rw [hsame, ← (view_eq_none_iff h).mpr hp, update_eq_self]
    exact ⟨h, rfl⟩
  | some p =>
    have hgone : (s.removeData name).priorities.get? name = none ∧
        (s.removeData name).streams.get? p = none := by
      rw [BacktestDataIterator.removeData, hp]
      exact ⟨(get?_remove ..).trans (if_pos rfl), (get?_remove ..).trans (if_pos rfl)⟩
    obtain ⟨hnamed, hview⟩ := h.changed (h.owns hp) (elsewhere_removeData (h.owns hp)) (.inl hgone)
    exact ⟨hnamed, hview.trans (congrArg _ ((view_eq_none_iff hnamed).mpr hgone.1))⟩

/-- The maps with one more stream. -/
def putStream (s : BacktestDataIterator δ) (name : String) (p : Int) (data : List δ) :
    BacktestDataIterator δ :=
  { s with
    streams := s.streams.insert p data
    priorities := s.priorities.insert name p
    indices := s.indices.insert p 0 }

theorem Named.putStream (h : Named n s) (hown : s.Owns name p) (he : Elsewhere name p s s')
    (hp : p ≠ 0 ∧ (p.natAbs : Int) ≤ s.nextPriorityCounter) (data : List δ) :
    Named n (s'.putStream name p data) ∧ (s'.putStream name p data).view =
      update s.view name (some ⟨decide (p < 0), p, data, 0⟩) := by
  have hat : (s'.putStream name p data).priorities.get? name = some p ∧
      (s'.putStream name p data).streams.get? p = some data ∧
      (s'.putStream name p data).indices.get? p = some 0 :=
    ⟨get?_insert_self .., get?_insert_self .., get?_insert_self ..⟩
  have helse : Elsewhere name p s (s'.putStream name p data) :=
    ⟨fun name' hne =>
        (get?_insert ..).trans ((if_neg hne).trans (he.priorities name' hne)),
      fun p' hne => (get?_insert ..).trans ((if_neg hne).trans (he.streams p' hne)),
      fun p' hne => (get?_insert ..).trans ((if_neg hne).trans (he.indices p' hne)),
      he.counter⟩
  obtain ⟨hnamed, hview⟩ := h.changed hown helse (.inr ⟨hat.1, hp, ⟨data, hat.2.1⟩, 0, hat.2.2⟩)
  refine ⟨hnamed, hview.trans (congrArg _ ?_)⟩
  simp [view, hat]

theorem Named.insertIndex (h : Named n s) (hp : s.priorities.get? name = some p) (index : Nat)
    (heap : List HeapEntry) : Named n { s with indices := s.indices.insert p index, heap } ∧
      view { s with indices := s.indices.insert p index, heap } =
        update s.view name ((s.view name).map fun st => { st with cursor := index }) := by
  obtain ⟨⟨data, hdata⟩, -⟩ := h.present hp
  have hindex : (s.indices.insert p index).get? p = some index := get?_insert_self ..
  have helse : Elsewhere name p s { s with indices := s.indices.insert p index, heap } :=
    ⟨fun _ _ => rfl, fun _ _ => rfl, fun p' hne => (get?_insert ..).trans (if_neg hne), rfl⟩
  obtain ⟨hnamed, hview⟩ := h.changed (h.owns hp) helse
    (.inr ⟨hp, h.counted hp, ⟨data, hdata⟩, index, hindex⟩)
  refine ⟨hnamed, hview.trans (congrArg _ ?_)⟩
  simp [view, hp, hdata, hindex]

/-! ## The abstract merge -/

variable [HasTsInit δ]

/-- `next` answers the least current element and moves that one cursor on, or finds none. -/
inductive Merges (v : String → Option (Stream δ)) :
    Option δ → (String → Option (Stream δ)) → Prop
  | done (h : Ended v) : Merges v none v
  | took {name : String} {st : Stream δ} {e : δ} (h : v name = some st)
      (hcur : st.current = some e)
      (hleast : ∀ name' st' e', v name' = some st' → st'.current = some e' →
        tsInit e < tsInit e' ∨ (tsInit e = tsInit e' ∧ st.priority ≤ st'.priority ∧
          (st'.prepended = true → st.prepended = true))) :
      Merges v (some e) (update v name (some { st with cursor := st.cursor + 1 }))

theorem Merges.eq_none_iff {v v' : String → Option (Stream δ)} {r : Option δ}
    (h : Merges v r v') : r = none ↔ Ended v := by
  cases h with
  | done hended => exact iff_of_true rfl hended
  | took hst hcur _ =>
    refine iff_of_false nofun fun hended => ?_
    rw [Stream.current, getElem?_eq_none (hended _ _ hst)] at hcur
    nomatch hcur

/-- What each call may do to the streams. -/
def Follows (v : String → Option (Stream δ)) (op : IterOp δ)
    (v' : String → Option (Stream δ)) : Prop :=
  match op with
  | .addData name data appendData =>
    if data = [] then v' = v
    else ∃ priority, v' = update v name (some
      ⟨((v name).map (·.prepended)).getD (!appendData), priority, sortByTs data, 0⟩) ∧
        ∀ name' st, v name' = some st → (st.priority = priority ↔ name' = name)
  | .removeData name => v' = update v name none
  | .setIndex name index =>
    v' = update v name ((v name).map fun st => { st with cursor := index })
  | .resetAllCursors => v' = fun name => (v name).map fun st => { st with cursor := 0 }
  | .next => ∃ r, Merges v r v'

/-! ## The two modes -/

def frontier (s : BacktestDataIterator δ) (p : Int) : Option HeapEntry :=
  (s.streams.get? p).bind fun data => entryAt p data ((s.indices.get? p).getD 0)

/-- A single stream is the only one; otherwise the heap holds what is at the cursors. -/
def Modal (s : BacktestDataIterator δ) : Prop :=
  match s.singlePriority with
  | some p => s.heap = [] ∧ ∀ p', (s.streams.get? p').isSome ↔ p' = p
  | none => s.heap.Nodup ∧ ∀ e, e ∈ s.heap ↔ s.frontier e.priority = some e

/-- What holds after `n` calls. -/
structure Kept (n : Nat) (s : BacktestDataIterator δ) : Prop extends Named n s where
  modal : Modal s

theorem modal_rebuildHeap (s : BacktestDataIterator δ) : Modal s.rebuildHeap := by
  unfold rebuildHeap
  split
  · rename_i hone
    obtain ⟨⟨p, data⟩, hentries⟩ := length_eq_one_iff.mp hone
    have hkeys : s.streams.keys = [p] := by rw [IndexMap.keys, hentries]; rfl
    rw [hkeys]
    refine ⟨rfl, fun p' => ?_⟩
    rw [isSome_iff_exists, ← mem_keys_iff, hkeys, mem_singleton]
  · refine ⟨?_, fun e => ?_⟩
    · -- the keys of the entries are distinct, and an entry names its key
      refine Nodup.of_map HeapEntry.priority (s.streams.nodup.sublist ?_)
      generalize s.streams.entries = entries
      induction entries with
      | nil => exact Sublist.refl _
      | cons x entries ih =>
        rw [filterMap_cons]
        split
        · exact ih.cons _
        · rename_i hx
          obtain ⟨element, -, rfl⟩ := map_eq_some_iff.mp hx
          exact ih.cons_cons _
    · simp only [mem_filterMap, Prod.exists, ← get?_eq_some_iff, frontier, bind_eq_some_iff]
      constructor
      · rintro ⟨p, data, hdata, he⟩
        obtain ⟨element, -, rfl⟩ := map_eq_some_iff.mp he
        exact ⟨data, hdata, he⟩
      · rintro ⟨data, hdata, he⟩
        exact ⟨e.priority, data, hdata, he⟩

theorem Named.rebuildHeap {n : Nat} {s : BacktestDataIterator δ} (h : Named n s) :
    Kept n s.rebuildHeap := by
  refine ⟨?_, modal_rebuildHeap s⟩
  unfold BacktestDataIterator.rebuildHeap
  split <;> exact ⟨h.named, h.present, h.inj, h.counted, h.counter⟩

theorem view_rebuildHeap (s : BacktestDataIterator δ) : s.rebuildHeap.view = s.view := by
  unfold rebuildHeap
  split <;> rfl

/-! ## Each call follows the abstract merge -/

theorem Kept.removeData (h : Kept n s) (name : String) : Kept n (s.removeData name) := by
  refine ⟨(h.toNamed.removeData name).1, ?_⟩
  have hmodal := h.modal
  unfold BacktestDataIterator.removeData
  cases hp : s.priorities.get? name with
  | none => exact hmodal
  | some p =>
    unfold Modal at hmodal ⊢
    cases hsingle : s.singlePriority with
    | some q =>
      -- the one stream goes, and the heap was empty already
      rw [hsingle] at hmodal
      obtain ⟨hheap, honly⟩ := hmodal
      obtain ⟨⟨_, hdata⟩, -⟩ := h.present hp
      have hpq : p = q := (honly p).mp (isSome_of_eq_some hdata)
      have hgone : ∀ p', (s.streams.remove p).get? p' = none := by
        intro p'
        rw [get?_remove]
        split_ifs with hne
        · rfl
        · rw [← not_isSome_iff_eq_none, honly p', ← hpq]
          exact hne
      simp [hheap, frontier, hgone]
    | none =>
      rw [hsingle] at hmodal
      simp only [ite_self]
      refine ⟨hmodal.1.filter _, fun e => ?_⟩
      rw [mem_filter, hmodal.2 e, decide_eq_true_iff]
      simp only [frontier, get?_remove]
      by_cases he : e.priority = p
      · simp [he]
      · simp [he]

/-- What `add_data` does once the priority is known. -/
theorem replace_spec (h : Named n s) (hown : s.Owns name p)
    (hp : p ≠ 0 ∧ (p.natAbs : Int) ≤ s.nextPriorityCounter) (data : List δ) :
    Kept n ((s.removeData name).putStream name p data).rebuildHeap ∧
      ((s.removeData name).putStream name p data).rebuildHeap.view =
        update s.view name (some ⟨decide (p < 0), p, data, 0⟩) := by
  obtain ⟨hnamed, hview⟩ := h.putStream hown (elsewhere_removeData hown) hp data
  exact ⟨hnamed.rebuildHeap, (view_rebuildHeap _).trans hview⟩

theorem addData_spec (h : Kept n s) (hn : n + 1 < 2 ^ 31) (name : String) (data : List δ)
    (appendData : Bool) : Kept (n + 1) (s.addData name data appendData) ∧
      Follows s.view (.addData name data appendData) (s.addData name data appendData).view := by
  have hnamed : Named (n + 1) s := h.toNamed.mono (Nat.le_succ n)
  unfold addData Follows
  by_cases hdata : data = []
  · simp only [hdata, isEmpty_nil, if_true]
    exact ⟨⟨hnamed, h.modal⟩, trivial⟩
  simp only [List.isEmpty_iff, hdata, if_false]
  cases hp : s.priorities.get? name with
  | some p =>
    obtain ⟨⟨_, hold⟩, -⟩ := h.present hp
    have hspec := replace_spec hnamed (h.owns hp) (h.counted hp) (sortByTs data)
    refine ⟨hspec.1, p, hspec.2.trans ?_, fun name' st hst => (h.owns hp (of_view hst).1).symm⟩
    simp [view, hp, hold]
  | none =>
    have hcounter := h.counter
    have hwrap : wrapI32 (s.nextPriorityCounter + 1) = s.nextPriorityCounter + 1 :=
      wrapI32_of_natAbs (by omega)
    simp only [hwrap]
    set counter := s.nextPriorityCounter + 1 with hc
    have hsign : wrapI32 ((if appendData then 1 else -1) * counter) =
        (if appendData then 1 else -1) * counter := by
      refine wrapI32_of_natAbs ?_
      split <;> omega
    rw [hsign]
    set p : Int := (if appendData then 1 else -1) * counter with hpdef
    have habs : (p.natAbs : Int) = counter := by rw [hpdef]; split <;> omega
    -- the counter is past every priority given so far
    have hown : s.Owns name p := by
      refine fun {name' p'} hp' => iff_of_false ?_ fun heq => ?_
      · rintro rfl
        cases hp.symm.trans hp'
      · have := (h.counted (heq ▸ hp')).2
        omega
    have hnext : Named (n + 1) { s with nextPriorityCounter := counter } :=
      ⟨h.named, h.present, h.inj, fun hp' => ⟨(h.counted hp').1, by
        have := (h.counted hp').2
        show _ ≤ counter
        omega⟩, by show 0 ≤ counter ∧ counter ≤ _; omega⟩
    have hspec := replace_spec hnext hown ⟨by omega, habs.le⟩ (sortByTs data)
    refine ⟨hspec.1, p, hspec.2.trans ?_, fun name' st hst => (hown (of_view hst).1).symm⟩
    have hside : decide (p < 0) = !appendData := by
      rw [hpdef]
      cases appendData <;> simp <;> omega
    rw [(view_eq_none_iff h.toNamed).mpr hp, hside]
    rfl

theorem setIndex_spec (h : Kept n s) (name : String) (index : Nat) :
    Kept n (s.setIndex name index) ∧
      Follows s.view (.setIndex name index) (s.setIndex name index).view := by
  unfold setIndex Follows
  cases hp : s.priorities.get? name with
  | none =>
    refine ⟨h, ?_⟩
    have hview := (view_eq_none_iff h.toNamed).mpr hp
    simp only [hview, map_none]
    rw [← hview, update_eq_self]
  | some p =>
    obtain ⟨hnamed, hview⟩ := h.toNamed.insertIndex hp index s.heap
    exact ⟨hnamed.rebuildHeap, (view_rebuildHeap _).trans hview⟩

theorem resetAllCursors_spec (h : Kept n s) :
    Kept n s.resetAllCursors ∧ Follows s.view .resetAllCursors s.resetAllCursors.view := by
  have hzero : ∀ p, (s.indices.filterMap fun _ _ => some 0).get? p =
      (s.indices.get? p).map fun _ => 0 := by
    intro p
    rw [get?_filterMap]
    cases s.indices.get? p <;> rfl
  constructor
  · refine Named.rebuildHeap
      ⟨h.named, fun hp => ⟨(h.present hp).1, 0, ?_⟩, h.inj, h.counted, h.counter⟩
    obtain ⟨index, hindex⟩ := (h.present hp).2
    rw [hzero, hindex]
    rfl
  · refine (view_rebuildHeap _).trans (funext fun name => ?_)
    cases hp : s.priorities.get? name with
    | none => simp [view, hp]
    | some p =>
      obtain ⟨⟨_, hdata⟩, index, hindex⟩ := h.present hp
      simp [view, hp, hdata, hzero, hindex]

/-! ## `next` -/

theorem of_frontier (hp : s.frontier p = some entry) :
    ∃ data e, s.streams.get? p = some data ∧ data[entry.index]? = some e ∧
      entry = ⟨tsInit e, p, (s.indices.get? p).getD 0⟩ := by
  obtain ⟨data, hdata, hentry⟩ := bind_eq_some_iff.mp hp
  obtain ⟨e, he, rfl⟩ := map_eq_some_iff.mp hentry
  exact ⟨data, e, hdata, he, rfl⟩

theorem frontier_of_view {st : Stream δ} {e : δ} (hst : s.view name = some st)
    (he : st.current = some e) :
    s.frontier st.priority = some ⟨tsInit e, st.priority, st.cursor⟩ := by
  obtain ⟨-, hdata, hcursor, -⟩ := of_view hst
  rw [Stream.current] at he
  rw [frontier, hdata, bind_some, ← hcursor, entryAt, he]
  rfl

theorem ended_of_frontier (h : ∀ p entry, s.frontier p ≠ some entry) : Ended s.view := by
  intro name st hst
  by_contra hlt
  have he : st.current = some st.data[st.cursor] := getElem?_eq_getElem (by omega)
  exact h _ _ (frontier_of_view hst he)

/-- The least entry is taken, and its stream alone moves on. -/
theorem merges_of_frontier (h : Named n s) (hp : s.frontier p = some entry)
    (hleast : ∀ p' entry', s.frontier p' = some entry' → entry.le entry' = true) :
    ∃ data e, s.streams.get? p = some data ∧ data[entry.index]? = some e ∧
      ∀ heap, Named n { s with indices := s.indices.insert p (entry.index + 1), heap } ∧
        Merges s.view (some e)
          (view { s with indices := s.indices.insert p (entry.index + 1), heap }) := by
  obtain ⟨data, e, hdata, he, hentry⟩ := of_frontier hp
  obtain ⟨name, hname⟩ := h.named hdata
  obtain ⟨index, hindex⟩ := (h.present hname).2
  rw [hindex, getD_some] at hentry
  subst hentry
  refine ⟨data, e, hdata, he, fun heap => ?_⟩
  have hview : s.view name = some ⟨decide (p < 0), p, data, index⟩ := by
    simp [view, hname, hdata, hindex]
  obtain ⟨hnamed, hmoved⟩ := h.insertIndex hname (index + 1) heap
  refine ⟨hnamed, ?_⟩
  rw [hmoved, hview]
  refine .took hview he fun name' st' e' hst' he' => ?_
  have hle := HeapEntry.le_iff.mp (hleast _ _ (frontier_of_view hst' he'))
  rw [(of_view hst').2.2.2, decide_eq_true_iff, decide_eq_true_iff]
  simp only at hle ⊢
  omega

/-- `next` goes through, by the rule of the merge. -/
def Advances (n : Nat) (s : BacktestDataIterator δ) : Prop :=
  ∃ s' r, s.next = some (s', r) ∧ (s.isDone = true ↔ r = none) ∧ Kept n s' ∧
    Merges s.view r s'.view

theorem advances_of_single (h : Kept n s) (hsingle : s.singlePriority = some p) : Advances n s := by
  have hmodal := h.modal
  simp only [Modal, hsingle] at hmodal
  obtain ⟨data, hdata⟩ := isSome_iff_exists.mp ((hmodal.2 p).mpr rfl)
  obtain ⟨_, hname⟩ := h.named hdata
  obtain ⟨index, hindex⟩ := (h.present hname).2
  have hfront : s.frontier p = entryAt p data index := by
    rw [frontier, hdata, hindex]
    rfl
  have honly : ∀ {p' entry'}, s.frontier p' = some entry' → p' = p := by
    intro p' entry' hentry'
    obtain ⟨data', -, hdata', -⟩ := of_frontier hentry'
    exact (hmodal.2 p').mp (isSome_of_eq_some hdata')
  unfold Advances next isDone
  simp only [hsingle, hdata, hindex, decide_eq_true_iff, ge_iff_le]
  cases he : data[index]? with
  | none =>
    refine ⟨s, none, rfl, iff_of_true (getElem?_eq_none_iff.mp he) rfl, h,
      .done (ended_of_frontier fun p' entry' hentry' => ?_)⟩
    rw [honly hentry', hfront, entryAt, he] at hentry'
    cases hentry'
  | some e =>
    have hp : s.frontier p = some ⟨tsInit e, p, index⟩ := by
      rw [hfront, entryAt, he]
      rfl
    obtain ⟨data', _, hdata', he', hnext⟩ := merges_of_frontier h.toNamed hp
      fun p' entry' hentry' => by
        obtain rfl := honly hentry'
        exact some.inj (hp.symm.trans hentry') ▸ HeapEntry.le_refl _
    obtain rfl := some.inj (hdata.symm.trans hdata')
    obtain rfl := some.inj (he.symm.trans he')
    obtain ⟨_, -⟩ := List.getElem?_eq_some_iff.mp he
    exact ⟨_, some e, rfl, iff_of_false (by omega) (by rintro ⟨⟩),
      ⟨hsingle ▸ (hnext s.heap).1, hmodal⟩, hsingle ▸ (hnext s.heap).2⟩

/-- The heap without its top, with the next entry of that stream. -/
theorem heap_advanced (h : s.heap.Nodup ∧ ∀ e, e ∈ s.heap ↔ s.frontier e.priority = some e)
    (hmem : entry ∈ s.heap) {data : List δ}
    (hdata : s.streams.get? entry.priority = some data) :
    let next := entryAt entry.priority data (entry.index + 1)
    (s.heap.erase entry ++ next.toList).Nodup ∧ ∀ e, e ∈ s.heap.erase entry ++ next.toList ↔
      frontier { s with indices := s.indices.insert entry.priority (entry.index + 1) } e.priority =
        some e := by
  intro next
  obtain ⟨hnodup, hheap⟩ := h
  have hnext : ∀ {e}, next = some e → e.priority = entry.priority := by
    intro e he
    obtain ⟨_, -, rfl⟩ := map_eq_some_iff.mp he
    rfl
  -- the entry taken was the only one of its stream
  have hrest : ∀ {e}, e ∈ s.heap.erase entry → e ∈ s.heap ∧ e.priority ≠ entry.priority := by
    intro e he
    obtain ⟨hne, he⟩ := hnodup.mem_erase_iff.mp he
    refine ⟨he, fun heq => hne (some.inj ?_)⟩
    rw [← (hheap e).mp he, heq, (hheap entry).mp hmem]
  refine ⟨nodup_append.mpr ⟨hnodup.erase entry, by cases next <;> simp, ?_⟩, fun e => ?_⟩
  · rintro e he _ he' rfl
    exact (hrest he).2 (hnext (mem_toList.mp he'))
  simp only [mem_append, mem_toList, frontier, get?_insert]
  by_cases hp : e.priority = entry.priority
  · simp only [hp, hdata, if_true, bind_some, getD_some]
    exact or_iff_right fun he => (hrest he).2 hp
  · rw [if_neg hp, ← frontier, ← hheap e, hnodup.mem_erase_iff]
    exact ⟨fun h => h.elim And.right fun he => absurd (hnext he) hp,
      fun he => .inl ⟨fun heq => hp (congrArg _ heq), he⟩⟩

theorem advances_of_heap (h : Kept n s) (hsingle : s.singlePriority = none) : Advances n s := by
  have hmodal := h.modal
  simp only [Modal, hsingle] at hmodal
  obtain ⟨hnodup, hheap⟩ := hmodal
  have hin : ∀ {p entry}, s.frontier p = some entry → entry ∈ s.heap := by
    intro p entry hentry
    obtain ⟨data, e, -, -, rfl⟩ := of_frontier hentry
    exact (hheap _).mpr hentry
  unfold Advances next isDone
  simp only [hsingle]
  cases hpop : HeapEntry.pop s.heap with
  | none =>
    have hempty := HeapEntry.pop_eq_none_iff.mp hpop
    refine ⟨s, none, rfl, by simp [hempty], h, .done (ended_of_frontier fun p entry hentry => ?_)⟩
    have hmem := hin hentry
    rw [hempty] at hmem
    cases hmem
  | some popped =>
    obtain ⟨entry, _⟩ := popped
    obtain ⟨hmem, hle, rfl⟩ := HeapEntry.of_pop hpop
    obtain ⟨data, e, hdata, he, hnext⟩ :=
      merges_of_frontier h.toNamed ((hheap entry).mp hmem) fun _ _ hentry' => hle _ (hin hentry')
    simp only [hdata, he, map_some]
    obtain ⟨hnamed, hmerges⟩ := hnext
      (s.heap.erase entry ++ (entryAt entry.priority data (entry.index + 1)).toList)
    refine ⟨_, some e, rfl, iff_of_false ?_ ?_, ⟨hsingle ▸ hnamed, ?_⟩, hsingle ▸ hmerges⟩
    · rw [List.isEmpty_iff]
      exact ne_nil_of_mem hmem
    · rintro ⟨⟩
    · exact heap_advanced ⟨hnodup, hheap⟩ hmem hdata

theorem next_spec (h : Kept n s) : Advances n s := by
  cases hsingle : s.singlePriority with
  | none => exact advances_of_heap h hsingle
  | some p => exact advances_of_single h hsingle

/-! ## Runs -/

/-- The calls that may take a value of the priority counter. -/
def IterOp.adds : IterOp δ → Nat
  | .addData .. => 1
  | _ => 0

theorem step_spec (h : Kept n s) (op : IterOp δ) (hn : n + op.adds < 2 ^ 31) :
    ∃ s', s.step op = some s' ∧ Kept (n + op.adds) s' ∧ Follows s.view op s'.view := by
  cases op with
  | addData name data appendData => exact ⟨_, rfl, addData_spec h hn name data appendData⟩
  | removeData name => exact ⟨_, rfl, h.removeData name, (h.toNamed.removeData name).2⟩
  | setIndex name index => exact ⟨_, rfl, setIndex_spec h name index⟩
  | resetAllCursors => exact ⟨_, rfl, resetAllCursors_spec h⟩
  | next =>
    obtain ⟨s', r, hnext, -, hkept, hmerges⟩ := next_spec h
    exact ⟨s', by rw [step, hnext]; rfl, hkept, r, hmerges⟩

theorem runs_spec (ops : List (IterOp δ)) (h : Kept n s)
    (hn : n + (ops.map IterOp.adds).sum < 2 ^ 31) :
    ∃ s', runs step s ops = some s' ∧ Kept (n + (ops.map IterOp.adds).sum) s' ∧
      Along step (fun s op s' => Follows s.view op s'.view) s ops := by
  induction ops generalizing n s with
  | nil => exact ⟨s, rfl, h, trivial⟩
  | cons op ops ih =>
    rw [map_cons, sum_cons, ← Nat.add_assoc] at hn ⊢
    obtain ⟨_, hmid, hkept, hfollows⟩ := step_spec h op (by omega)
    obtain ⟨s', hs', hkept', halong⟩ := ih hkept hn
    refine ⟨s', by rw [runs, hmid]; exact hs', hkept', fun mid' hmid' => ?_⟩
    obtain rfl := some.inj (hmid.symm.trans hmid')
    exact ⟨hfollows, halong⟩

theorem kept_new : Kept 0 (new : BacktestDataIterator δ) :=
  ⟨⟨nofun, nofun, nofun, nofun, by simp [new]⟩, nodup_nil, fun _ => iff_of_false nofun nofun⟩

/-- Every call of a replay keeps to the abstract merge: `next` takes the least element at the
cursors by time and priority, so a prepended stream wins its ties, and none exactly when every
stream has ended. -/
theorem replay_ordered (ops : List (IterOp δ)) (hops : (ops.map IterOp.adds).sum < 2 ^ 31) :
    (new : BacktestDataIterator δ).view = (fun _ => none) ∧
      Along step (fun s op s' => Follows s.view op s'.view) new ops ∧
      ∃ s s' r, runs step new ops = some s ∧ s.next = some (s', r) ∧ Merges s.view r s'.view ∧
        (r = none ↔ Ended s.view) ∧ (s.isDone = true ↔ Ended s.view) := by
  obtain ⟨s, hs, hkept, halong⟩ := runs_spec ops kept_new (by omega)
  obtain ⟨s', r, hnext, hdone, -, hmerges⟩ := next_spec hkept
  exact ⟨rfl, halong, s, s', r, hs, hnext, hmerges, hmerges.eq_none_iff,
    hdone.trans hmerges.eq_none_iff⟩

/-- An element that says which stream it is of. -/
structure Sample.Quote where
  stream : String
  ts : Nat
deriving DecidableEq

instance : HasTsInit Sample.Quote := ⟨Sample.Quote.ts⟩

/-- Two streams with a tie at five; the second is added once more, to be prepended. -/
def Sample.readded : List (IterOp Sample.Quote) :=
  [.addData "t" [⟨"t", 7⟩, ⟨"t", 5⟩] true, .addData "s" [⟨"s", 5⟩] true,
    .addData "s" [⟨"s", 5⟩] false]

def Sample.replay : List (IterOp Sample.Quote) :=
  readded ++ [.next, .setIndex "s" 1, .removeData "t", .next, .resetAllCursors]

open BacktestDataIterator.Sample

theorem replay_ordered_replay : (replay.map IterOp.adds).sum < 2 ^ 31 ∧
    ∃ s s' r, runs step new replay = some s ∧ s.next = some (s', r) ∧
      Merges s.view r s'.view := by
  obtain ⟨-, -, s, s', r, hs, hnext, hmerges, -⟩ := replay_ordered replay (by decide)
  exact ⟨by decide, s, s', r, hs, hnext, hmerges⟩

/-- The stream prepended last does not win the tie: it still has the priority of an appended one. -/
theorem not_prepended_wins :
    ((runs step new readded).bind fun s => s.next.map Prod.snd) = some (some ⟨"t", 5⟩) ∧
      ((runs step new readded).bind fun s => (s.view "s").bind Stream.current) =
        some ⟨"s", 5⟩ := by
  decide +kernel

end BacktestDataIterator

end Nautilus
