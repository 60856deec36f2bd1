import Nautilus.Catalog.Directory
import Nautilus.Lib.Run

/-!
# Names stay disjoint

A directory is tidy when the intervals of its names are pairwise disjoint and each covers its file's
records. Writing checks the new name against those it sees, but not that it covers the batch, and
does not see names beyond `i64::MAX`. Extending renames first and checks afterwards.

* `SafeWrite`, `SafeExtend`: when a call leaves a tidy directory tidy, by where the files lie.
* `tidy_writeToParquet_iff`, `Tidy.extendFileName`: the two calls.
* `stays_tidy`: every run of safe calls.
-/

namespace Nautilus

open Lib List Option Bool IndexMap

variable {other : FileName}

/-! ## Intervals -/

/-- No timestamp is in both intervals. -/
def FileName.Apart (a b : FileName) : Prop := ∀ ts, ¬ (a.Holds ts ∧ b.Holds ts)

theorem FileName.Apart.symm {a b : FileName} (h : a.Apart b) : b.Apart a :=
  fun ts hts => h ts hts.symm

theorem FileName.apart_of_lt {a b : FileName} (h : a.endTs < b.startTs) : a.Apart b :=
  fun _ ⟨ha, hb⟩ => Nat.lt_irrefl _ ((Nat.lt_of_le_of_lt ha.2 h).trans_le hb.1)

/-- The check of neighbours reaches every pair of a sorted list. -/
theorem pairwise_of_endBeforeNext {l : List FileName}
    (hsorted : l.Pairwise fun a b => a.startTs ≤ b.startTs) (h : endBeforeNext l = true) :
    l.Pairwise fun a b => a.endTs < b.startTs := by
  induction l with
  | nil => exact .nil
  | cons a l ih =>
    cases l with
    | nil => exact pairwise_singleton _ _
    | cons b l =>
      rw [endBeforeNext, and_eq_true, decide_eq_true_iff] at h
      obtain ⟨-, hrest⟩ := pairwise_cons.mp hsorted
      refine pairwise_cons.mpr ⟨fun c hc => ?_, ih hrest h.2⟩
      rcases mem_cons.mp hc with rfl | hc
      · exact h.1
      · exact h.1.trans_le (rel_of_pairwise_cons hrest hc)

instance : Std.Total fun a b : FileName => a.startTs ≤ b.startTs := ⟨fun _ _ => Nat.le_total _ _⟩

instance : IsTrans FileName fun a b => a.startTs ≤ b.startTs := ⟨fun _ _ _ => Nat.le_trans⟩

/-- `are_intervals_disjoint` is right when it says so. -/
theorem apart_of_areIntervalsDisjoint {intervals : List FileName}
    (h : areIntervalsDisjoint intervals = true) : intervals.Pairwise FileName.Apart := by
  have hsorted := pairwise_of_endBeforeNext (pairwise_insertionSort _ intervals) h
  have hapart : (sortIntervals intervals).Pairwise FileName.Apart :=
    hsorted.imp FileName.apart_of_lt
  exact (Perm.pairwise_iff FileName.Apart.symm (perm_insertionSort _ intervals)).mp hapart

namespace Directory

variable {R : Type} {dir : Directory R} {listing : Listing} {name : FileName}
  {data records : List R}

theorem mem_getDirectoryIntervals :
    name ∈ dir.getDirectoryIntervals listing ↔ name ∈ dir.files.keys ∧ name.parses = true := by
  rw [getDirectoryIntervals, sortIntervals, mem_insertionSort, mem_filter, (listing.perm _).mem_iff]

theorem mem_keys_insert {files : IndexMap FileName (List R)} :
    other ∈ (files.insert name records).keys ↔ other = name ∨ other ∈ files.keys := by
  rw [mem_keys_iff, mem_keys_iff]
  simp only [get?_insert]
  by_cases heq : other = name <;> simp [heq]

theorem mem_keys_remove {files : IndexMap FileName (List R)} :
    other ∈ (files.remove name).keys ↔ other ≠ name ∧ other ∈ files.keys := by
  rw [mem_keys_iff, mem_keys_iff]
  simp only [get?_remove]
  by_cases heq : other = name <;> simp [heq]

/-! ## Tidy directories -/

variable [HasTsInit R]

def Covers (name : FileName) (records : List R) : Prop := ∀ r ∈ records, name.Holds (tsInit r)

/-- The intervals are pairwise disjoint, and each covers the records of its file. -/
structure Tidy (dir : Directory R) : Prop where
  covers : ∀ name records, dir.files.get? name = some records → Covers name records
  apart : ∀ a ∈ dir.files.keys, ∀ b ∈ dir.files.keys, a ≠ b → a.Apart b

/-- What a file put into a tidy directory has to satisfy. -/
theorem tidy_insert_iff (h : Tidy dir) :
    Tidy ⟨dir.files.insert name records⟩ ↔ Covers name records ∧
      ∀ other ∈ dir.files.keys, other ≠ name → name.Apart other := by
  constructor
  · intro h'
    refine ⟨h'.covers name records (get?_insert_self _ _ _), fun other hother hne => ?_⟩
    exact h'.apart name (mem_keys_insert.mpr (.inl rfl)) other (mem_keys_insert.mpr (.inr hother))
      hne.symm
  · rintro ⟨hcovers, hapart⟩
    refine ⟨fun name' records' hget => ?_, fun a ha b hb hne => ?_⟩
    · dsimp only at hget
      rw [get?_insert] at hget
      split_ifs at hget with heq
      · cases hget
        exact heq ▸ hcovers
      · exact h.covers name' records' hget
    · rcases mem_keys_insert.mp ha with rfl | ha'
      · exact hapart b ((mem_keys_insert.mp hb).resolve_left hne.symm) hne.symm
      · rcases mem_keys_insert.mp hb with rfl | hb'
        · exact (hapart a ha' hne).symm
        · exact h.apart a ha' b hb' hne

theorem Tidy.remove (h : Tidy dir) (name : FileName) : Tidy ⟨dir.files.remove name⟩ := by
  refine ⟨fun name' records' hget => ?_, fun a ha b hb hne => ?_⟩
  · dsimp only at hget
    rw [get?_remove] at hget
    split at hget
    · cases hget
    · exact h.covers name' records' hget
  · exact h.apart a (mem_keys_remove.mp ha).2 b (mem_keys_remove.mp hb).2 hne

/-! ## The operations -/

/-- The write puts the batch, under this name. -/
structure Puts (dir : Directory R) (listing : Listing) (data : List R) (start endTs : Option Nat)
    (skipDisjointCheck : Bool) (name : FileName) : Prop where
  name_eq : batchName data start endTs = some name
  ascending : checkAscendingTimestamps data = true
  new : name ∉ dir.files.keys
  disjoint : skipDisjointCheck = true ∨
    areIntervalsDisjoint (dir.getDirectoryIntervals listing ++ [name]) = true

theorem writeToParquet_cases (dir : Directory R) (listing : Listing) (data : List R)
    (start endTs : Option Nat) (skip : Bool) :
    (∃ name, dir.Puts listing data start endTs skip name ∧
      dir.writeToParquet listing data start endTs skip = (⟨dir.files.insert name data⟩, .ok ())) ∨
    (∀ name, ¬ dir.Puts listing data start endTs skip name) ∧
      (dir.writeToParquet listing data start endTs skip).1 = dir := by
  rw [writeToParquet]
  cases hname : batchName data start endTs with
  | none => exact .inr ⟨fun _ hputs => (nomatch hname.symm.trans hputs.name_eq), rfl⟩
  | some name =>
    have hkeys : dir.files.containsKey name = true ↔ name ∈ dir.files.keys :=
      containsKey_iff.trans mem_keys_iff.symm
    have hunique : ∀ name', dir.Puts listing data start endTs skip name' → name' = name :=
      fun _ hputs => some.inj (hputs.name_eq.symm.trans hname)
    dsimp only
    split
    · rename_i hasc
      refine .inr ⟨fun _ hputs => ?_, rfl⟩
      exact false_ne_true (hasc.symm.trans hputs.ascending)
    rename_i hasc
    split
    · rename_i hhas
      refine .inr ⟨fun name' hputs => ?_, rfl⟩
      obtain rfl := hunique name' hputs
      exact hputs.new (hkeys.mp hhas)
    · rename_i hnew
      split
      · rename_i hcheck
        refine .inr ⟨fun name' hputs => ?_, rfl⟩
        obtain rfl := hunique name' hputs
        rcases hputs.disjoint with hskip | hdisjoint
        · exact false_ne_true (hcheck.1.symm.trans hskip)
        · exact false_ne_true (hcheck.2.symm.trans hdisjoint)
      · rename_i hcheck
        refine .inl ⟨name, ⟨hname, by simpa using hasc, fun hmem => hnew (hkeys.mpr hmem), ?_⟩, rfl⟩
        by_contra hor
        exact hcheck (by simpa using hor)

/-- A batch that is put is covered by its name, which is apart from those that are not seen. -/
def SafeWrite (dir : Directory R) (listing : Listing) (data : List R) (start endTs : Option Nat) :
    Prop :=
  ∀ name, dir.Puts listing data start endTs false name →
    Covers name data ∧ ∀ other ∈ dir.files.keys, other.parses = false → name.Apart other

/-- What the check sees is apart from the name it lets through. -/
theorem Puts.apart {start endTs : Option Nat} (h : dir.Puts listing data start endTs false name)
    (hother : other ∈ dir.files.keys) (hparses : other.parses = true) : name.Apart other := by
  have hdisjoint := h.disjoint.resolve_left false_ne_true
  have hpairs := pairwise_append.mp (apart_of_areIntervalsDisjoint hdisjoint)
  have hmem : other ∈ dir.getDirectoryIntervals listing :=
    mem_getDirectoryIntervals.mpr ⟨hother, hparses⟩
  exact (hpairs.2.2 other hmem name (mem_singleton_self name)).symm

theorem tidy_writeToParquet_iff (h : Tidy dir) {start endTs : Option Nat} :
    Tidy (dir.writeToParquet listing data start endTs false).1 ↔
      dir.SafeWrite listing data start endTs := by
  obtain ⟨name, hputs, heq⟩ | ⟨hnone, heq⟩ :=
    writeToParquet_cases dir listing data start endTs false
  · rw [heq, tidy_insert_iff h]
    constructor
    · rintro ⟨hcovers, hapart⟩ name' hputs'
      obtain rfl := some.inj (hputs.name_eq.symm.trans hputs'.name_eq)
      exact ⟨hcovers, fun other hother _ =>
        hapart other hother fun heq => hputs.new (heq ▸ hother)⟩
    · intro hsafe
      obtain ⟨hcovers, hhidden⟩ := hsafe name hputs
      refine ⟨hcovers, fun other hother _ => ?_⟩
      cases hparses : other.parses with
      | false => exact hhidden other hother hparses
      | true => exact hputs.apart hother hparses
  · rw [heq]
    exact iff_of_true h fun name hputs => absurd hputs (hnone name)

/-- Some visible file starts right behind the range or ends right before it. -/
def HasNeighbour (dir : Directory R) (start endTs : Nat) : Prop :=
  ∃ file ∈ dir.files.keys, file.parses = true ∧
    (file.startTs = Word.add 64 endTs 1 ∨ file.endTs = Word.sub 64 start 1)

/-- With a file next to the range, the range is not reversed and no file lies in it. -/
def SafeExtend (dir : Directory R) (start endTs : Nat) : Prop :=
  dir.HasNeighbour start endTs →
    start ≤ endTs + 1 ∧ endTs + 1 < 2 ^ 64 ∧ ∀ file ∈ dir.files.keys, file.Apart ⟨start, endTs⟩

/-- The loop finds a file next to the range and lengthens its name by the range. -/
theorem neighbour_spec {start endTs : Nat} {l : List FileName} {old new : FileName}
    (h : neighbour start endTs l = some (old, new)) :
    old ∈ l ∧ (old.startTs = Word.add 64 endTs 1 ∧ new = ⟨start, old.endTs⟩ ∨
      old.endTs = Word.sub 64 start 1 ∧ new = ⟨old.startTs, endTs⟩) := by
  induction l with
  | nil => cases h
  | cons interval l ih =>
    rw [neighbour] at h
    split_ifs at h with hafter hbefore
    · cases h
      exact ⟨mem_cons_self, .inl ⟨hafter, rfl⟩⟩
    · cases h
      exact ⟨mem_cons_self, .inr ⟨hbefore, rfl⟩⟩
    · exact (ih h).imp_left (mem_cons_of_mem _)

/-- A visible name ends right before `start` only without wrapping. -/
theorem endTs_add_one {start : Nat} (hstart : start < 2 ^ 64) (hparses : name.parses = true)
    (hbefore : name.endTs = Word.sub 64 start 1) : name.endTs + 1 = start := by
  rcases Nat.eq_zero_or_pos start with rfl | hpos
  · rw [FileName.parses, hbefore] at hparses
    exact absurd (and_eq_true_iff.mp hparses).2 (by decide)
  · rw [hbefore, Word.sub_of_le hstart hpos, Nat.sub_add_cancel hpos]

/-- A file may take a name that adds to its own timestamps a range in which no file lies. -/
theorem Tidy.rename (h : Tidy dir) {old new range : FileName}
    (hwider : ∀ ts, old.Holds ts → new.Holds ts)
    (hwithin : ∀ ts, new.Holds ts → old.Holds ts ∨ range.Holds ts)
    (hfree : ∀ file ∈ dir.files.keys, file.Apart range) : Tidy (dir.rename old new) := by
  unfold Directory.rename
  split
  · rename_i records hget
    have hold := mem_keys_iff.mpr ⟨records, hget⟩
    refine (tidy_insert_iff (h.remove old)).mpr
      ⟨fun r hr => hwider _ (h.covers old records hget r hr), fun other hother _ ts hts => ?_⟩
    obtain ⟨hne, hother⟩ := mem_keys_remove.mp hother
    rcases hwithin ts hts.1 with hts' | hts'
    · exact h.apart old hold other hother hne.symm ts ⟨hts', hts.2⟩
    · exact hfree other hother ts ⟨hts.2, hts'⟩
  · exact h

theorem Tidy.extendFileName (h : Tidy dir) {start endTs : Nat}
    (hsafe : dir.SafeExtend start endTs) : Tidy (dir.extendFileName listing start endTs).1 := by
  have hfst : (dir.extendFileName listing start endTs).1 = dir.extended listing start endTs := by
    rw [Directory.extendFileName]
    split <;> rfl
  rw [hfst, extended]
  split
  · rename_i old new hfound
    obtain ⟨hold, hnext⟩ := neighbour_spec hfound
    obtain ⟨hkey, hparses⟩ := mem_getDirectoryIntervals.mp hold
    obtain ⟨hle, hlt, hfree⟩ := hsafe ⟨old, hkey, hparses, hnext.imp And.left And.left⟩
    refine h.rename ?_ ?_ hfree <;> rintro ts ⟨hlow, hhigh⟩
    -- the new name runs from `start` to the old end, or from the old start to `endTs`
    all_goals
      rcases hnext with ⟨hafter, rfl⟩ | ⟨hbefore, rfl⟩
      · rw [Word.add_of_lt hlt] at hafter
        simp only [FileName.Holds] at hlow hhigh ⊢
        omega
      · have hends := endTs_add_one (hle.trans_lt hlt) hparses hbefore
        simp only [FileName.Holds] at hlow hhigh ⊢
        omega
  · exact h

/-! ## Runs -/

/-- A call on a directory, with the order in which the store lists the names. -/
inductive Op (R : Type) where
  | write (listing : Listing) (data : List R) (start endTs : Option Nat)
  | extend (listing : Listing) (start endTs : Nat)

/-- The directory after a call, whether it returned an error or not. -/
def apply (dir : Directory R) : Op R → Directory R
  | .write listing data start endTs => (dir.writeToParquet listing data start endTs false).1
  | .extend listing start endTs => (dir.extendFileName listing start endTs).1

/-- The condition of a call. -/
def Safe (dir : Directory R) : Op R → Prop
  | .write listing data start endTs => dir.SafeWrite listing data start endTs
  | .extend _ start endTs => dir.SafeExtend start endTs

theorem Tidy.apply (h : Tidy dir) {op : Op R} (hsafe : dir.Safe op) : Tidy (dir.apply op) := by
  cases op with
  | write listing data start endTs => exact (tidy_writeToParquet_iff h).mpr hsafe
  | extend listing start endTs => exact h.extendFileName hsafe

/-- **A tidy directory stays tidy through every run of safe calls.** -/
theorem stays_tidy (h : Tidy dir) {ops : List (Op R)}
    (hsafe : Along (fun dir op => some (apply dir op)) (fun dir op _ => dir.Safe op) dir ops) :
    Throughout (fun dir op => some (dir.apply op)) Tidy dir ops := by
  refine throughout_iff_along.mpr ⟨h, hsafe.of_inv Tidy (fun dir op dir' hdir hstep hop => ?_) h⟩
  cases hstep
  exact ⟨hdir.apply hop, hdir.apply hop⟩

theorem tidy_empty : Tidy (⟨.empty⟩ : Directory R) := ⟨nofun, nofun⟩

end Directory

/-! ## A directory of two files -/

/-- A record that is its timestamp. -/
structure Sample.Tick where
  ts : Nat
deriving DecidableEq

instance : HasTsInit Sample.Tick := ⟨Sample.Tick.ts⟩

def Sample.listing : Listing := ⟨id, fun _ => .refl _⟩

/-- Zero to nine, and twenty to twenty-nine. -/
def Sample.directory : Directory Sample.Tick :=
  ⟨(IndexMap.empty.insert ⟨0, 9⟩ [⟨4⟩]).insert ⟨20, 29⟩ [⟨25⟩]⟩

namespace Directory

open Sample

theorem tidy_sample : Tidy directory := by
  have hfirst : Tidy ⟨empty.insert ⟨0, 9⟩ [(⟨4⟩ : Sample.Tick)]⟩ :=
    (tidy_insert_iff tidy_empty).mpr ⟨by simp [Covers, FileName.Holds, tsInit], nofun⟩
  refine (tidy_insert_iff hfirst).mpr ⟨by simp [Covers, FileName.Holds, tsInit], ?_⟩
  intro other hother _
  obtain rfl : other = ⟨0, 9⟩ := (mem_keys_insert.mp hother).resolve_right nofun
  exact (FileName.apart_of_lt (by decide)).symm

/-- A batch between the two files, then its name extended up to the later one. -/
theorem stays_tidy_between :
    Throughout (fun dir op => some (apply dir op)) Tidy directory
      [.write Sample.listing [⟨12⟩, ⟨13⟩] none none, .extend Sample.listing 14 19] := by
  refine stays_tidy tidy_sample fun dir₁ h₁ => ?_
  cases h₁
  refine ⟨fun name hputs => ?_, fun dir₂ _ => ⟨fun _ => ⟨by decide, by decide, ?_⟩, trivial⟩⟩
  · cases hputs.name_eq
    have hseen : ∀ other ∈ directory.files.keys, other.parses = true := by decide
    refine ⟨by simp [Covers, FileName.Holds, tsInit], fun other hother hhidden => ?_⟩
    rw [hseen other hother] at hhidden
    nomatch hhidden
  · -- no file lies from fourteen to nineteen
    intro file hfile
    have hkeys : file ∈ [(⟨0, 9⟩ : FileName), ⟨20, 29⟩, ⟨12, 13⟩] := hfile
    have hends : ∀ file ∈ [(⟨0, 9⟩ : FileName), ⟨20, 29⟩, ⟨12, 13⟩],
        file.endTs < 14 ∨ 19 < file.startTs := by decide
    rcases hends file hkeys with hlt | hlt
    · exact FileName.apart_of_lt hlt
    · exact (FileName.apart_of_lt hlt).symm

/-- Extending from five to nineteen returns an error and leaves `[5, 29]` beside `[0, 9]`. -/
theorem not_stays_tidy_extended : Tidy directory ∧
    directory.extendFileName Sample.listing 5 19 =
      (directory.rename ⟨20, 29⟩ ⟨5, 29⟩, .error .notDisjointAfterExtending) ∧
    ¬ Throughout (fun dir op => some (apply dir op)) Tidy directory
      [.extend Sample.listing 5 19] := by
  refine ⟨tidy_sample, rfl, fun h => ?_⟩
  have htidy := h _ _ prefix_rfl rfl
  exact htidy.apart ⟨0, 9⟩ (by decide) ⟨5, 29⟩ (by decide) (by decide) 7 (by decide)

end Directory

end Nautilus
