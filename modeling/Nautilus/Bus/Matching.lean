import Nautilus.Correctness

/-!
# Topics, patterns and the matcher

The strings of the message bus (`msgbus/mstr.rs`) and the greedy matcher of `msgbus/matching.rs`.
It walks topic and pattern together and keeps the last `*` it passed; where the two disagree, that
`*` stands for one byte more and the walk starts again behind it. A position in a byte string is
the rest of the string.

One `*` to go back to is enough: an earlier one can do no more than the last (`Passed.exchange`), so
the matcher decides the glob (`isMatchingBacktracking_iff_glob`).
-/

namespace Nautilus

open List

/-- The byte `*`. -/
def asterisk : UInt8 := 42

/-- The byte `?`. -/
def questionMark : UInt8 := 63

def asBytes (s : String) : List UInt8 := s.toUTF8.toList

def checkNoWildcards (value : String) : Bool :=
  !(asBytes value).any fun b => b == asterisk || b == questionMark

/-- `MStr<Topic>`: what `MStr::topic` accepts (`mstr.rs:131`). -/
structure Topic where
  value : String
  valid : checkValidStringUtf8 value "value" = .ok ()
  no_wildcards : checkNoWildcards value = true
deriving DecidableEq

/-- `MStr<Pattern>`: any string. -/
abbrev Pattern := String

/-- The loop of `is_matching_greedy` (`matching.rs:48`). `last` is the last `*`: the pattern behind
it and the topic from where it stopped. -/
def greedyFrom (topic pattern : List UInt8) (last : Option (List UInt8 × List UInt8))
    (within : ∀ p t, last = some (p, t) → pattern.length ≤ p.length ∧ topic.length ≤ t.length) :
    Bool :=
  match topic with
  | [] => (pattern.dropWhile (· == asterisk)).isEmpty
  | c :: rest =>
    if pattern.head?.any fun d => d == questionMark || d == c then
      greedyFrom rest pattern.tail last fun p t h => by
        have := within p t h
        grind
    else if pattern.head? = some asterisk then
      greedyFrom (c :: rest) pattern.tail (some (pattern.tail, c :: rest)) fun p t h => by
        cases h
        exact ⟨Nat.le_refl _, Nat.le_refl _⟩
    else
      match hlast : last with
      | some (p, t) =>
        greedyFrom t.tail p (some (p, t.tail)) fun p' t' h => by
          cases h
          exact ⟨Nat.le_refl _, Nat.le_refl _⟩
      | none => false
termination_by
  ((last.map fun l => l.1.length).getD (pattern.length + 1),
    (last.map fun l => l.2.length).getD 0, topic.length)
decreasing_by
  · -- a byte of the topic goes; without a `*` so far a byte of the pattern goes too
    rename_i hmatch
    cases last with
    | none =>
      cases pattern with
      | nil => nomatch hmatch
      | cons d pattern => exact Prod.Lex.left _ _ (Nat.lt_succ_self _)
    | some l => exact Prod.Lex.right _ (Prod.Lex.right _ (Nat.lt_succ_self _))
  · -- the new `*` is behind the last one
    rename_i hstar
    cases pattern with
    | nil => nomatch hstar
    | cons d pattern =>
      refine Prod.Lex.left _ _ ?_
      cases hlast : last with
      | none => exact Nat.lt_add_right 1 (Nat.lt_succ_self _)
      | some l => exact Nat.lt_of_succ_le (within l.1 l.2 hlast).1
  · -- the last `*` takes one byte more
    refine Prod.Lex.right _ (Prod.Lex.left _ _ ?_)
    have hlen := (within p t rfl).2
    cases t with
    | nil => nomatch hlen
    | cons _ t => exact Nat.lt_succ_self _

def isMatchingGreedy (topic pattern : List UInt8) : Bool := greedyFrom topic pattern none nofun

/-- `matching.rs:35`: without wildcards and with equal lengths the two are compared. -/
def isMatching (topic pattern : List UInt8) : Bool :=
  if topic.length = pattern.length ∧ ¬ asterisk ∈ pattern ∧ ¬ questionMark ∈ pattern then
    topic == pattern
  else isMatchingGreedy topic pattern

def isMatchingBacktracking (topic : Topic) (pattern : Pattern) : Bool :=
  isMatching (asBytes topic.value) (asBytes pattern)

/-! ## Globs -/

/-- `*` stands for any bytes, `?` for one byte and every other byte for itself. -/
def Glob : List UInt8 → List UInt8 → Prop
  | [], topic => topic = []
  | d :: pattern, topic =>
    if d = asterisk then ∃ rest, rest <:+ topic ∧ Glob pattern rest
    else ∃ c rest, topic = c :: rest ∧ (d = questionMark ∨ d = c) ∧ Glob pattern rest

variable {topic pattern w : List UInt8} {c d : UInt8}

theorem glob_asterisk :
    Glob (asterisk :: pattern) topic ↔ ∃ rest, rest <:+ topic ∧ Glob pattern rest := by
  rw [Glob, if_pos rfl]

theorem glob_cons (h : d ≠ asterisk) :
    Glob (d :: pattern) (c :: topic) ↔ (d = questionMark ∨ d = c) ∧ Glob pattern topic := by
  simp [Glob, h]

theorem glob_nil : Glob pattern [] ↔ (pattern.dropWhile (· == asterisk)).isEmpty := by
  induction pattern with
  | nil => simp [Glob]
  | cons d pattern ih =>
    by_cases hd : d = asterisk
    · subst hd
      simp [glob_asterisk, ih]
    · simp [Glob, hd]

/-- Without a `*` in front, what is in front takes a byte each. -/
theorem glob_drop (hw : asterisk ∉ w) (h : Glob (w ++ pattern) topic) :
    Glob pattern (topic.drop w.length) := by
  induction w generalizing topic with
  | nil => exact h
  | cons d w ih =>
    obtain ⟨hd, hw⟩ := not_or.mp (mt mem_cons.mpr hw)
    rw [cons_append, Glob, if_neg (Ne.symm hd)] at h
    obtain ⟨_, rest, rfl, -, h⟩ := h
    exact ih hw h

theorem glob_asterisk_iff : Glob (asterisk :: pattern) topic ↔
    Glob pattern topic ∨ topic ≠ [] ∧ Glob (asterisk :: pattern) topic.tail := by
  cases topic with
  | nil => simp [glob_asterisk]
  | cons c topic => simp [glob_asterisk, suffix_cons_iff, or_and_right, exists_or]

/-- The last `*` that was passed, and what stood between it and `pattern`. -/
def Passed (topic pattern : List UInt8) (last : Option (List UInt8 × List UInt8)) : Prop :=
  ∀ l ∈ last, asterisk ∉ l.2 ∧
    ∃ w, asterisk ∉ w ∧ l.1 = w ++ pattern ∧ topic = l.2.drop w.length

theorem Passed.start (h : asterisk ∉ topic) : Passed topic pattern (some (pattern, topic)) := by
  rintro _ ⟨⟩
  exact ⟨h, [], nofun, rfl, rfl⟩

/-- What an earlier `*` could do, a `*` at the present place can do. -/
theorem Passed.exchange {last : Option (List UInt8 × List UInt8)} (h : Passed topic pattern last)
    (hearlier : ∃ l ∈ last, Glob (asterisk :: l.1) l.2) : Glob (asterisk :: pattern) topic := by
  obtain ⟨⟨p, t⟩, hl, hglob⟩ := hearlier
  obtain ⟨-, w, hw, rfl, rfl⟩ := h _ hl
  obtain ⟨rest, ⟨taken, rfl⟩, hrest⟩ := glob_asterisk.mp hglob
  refine glob_asterisk.mpr ⟨_, ?_, glob_drop hw hrest⟩
  rw [drop_append]
  exact (drop_suffix_drop_left rest (Nat.sub_le ..)).trans (suffix_append ..)

theorem not_glob_cons (hbyte : ¬ pattern.head?.any fun d => d == questionMark || d == c)
    (hstar : pattern.head? ≠ some asterisk) : ¬ Glob pattern (c :: topic) := by
  cases pattern with
  | nil => nofun
  | cons d pattern =>
    rw [glob_cons (by simpa using hstar)]
    simp_all

/-- The walk succeeds iff the rest matches as it stands or the last `*` can take more. -/
theorem greedyFrom_iff (last : Option (List UInt8 × List UInt8)) (within)
    (hlast : Passed topic pattern last) (htopic : asterisk ∉ topic) :
    greedyFrom topic pattern last within = true ↔
      Glob pattern topic ∨ ∃ l ∈ last, Glob (asterisk :: l.1) l.2 := by
  fun_induction greedyFrom topic pattern last within with
  | case1 pattern last =>
    rw [← glob_nil, or_iff_left_of_imp fun h => ?_]
    simpa [glob_asterisk] using hlast.exchange h
  | case2 pattern last c rest _ hmatch _ ih =>
    cases pattern with
    | nil => nomatch hmatch
    | cons d pattern =>
      have hbyte : d = questionMark ∨ d = c := by simpa using hmatch
      have hd : d ≠ asterisk := by
        rcases hbyte with rfl | rfl
        · decide
        · exact fun h => htopic (h ▸ mem_cons_self)
      rw [glob_cons hd, and_iff_right hbyte]
      refine ih (fun l hl => ?_) fun h => htopic (mem_cons_of_mem _ h)
      obtain ⟨hclean, w, hw, hp, ht⟩ := hlast l hl
      refine ⟨hclean, w ++ [d], by simp [hw, hd.symm], by simp [hp], ?_⟩
      rw [length_append, ← drop_drop, ← ht]
      rfl
  | case3 pattern last c rest _ _ hstar _ ih =>
    obtain ⟨pattern, rfl⟩ : ∃ tail, pattern = asterisk :: tail := by
      cases pattern <;> simp_all
    rw [ih (.start htopic) htopic, or_iff_right_of_imp, or_iff_left_of_imp fun h => ?_]
    · simp
    · obtain ⟨mid, hmid, hrest⟩ := glob_asterisk.mp (hlast.exchange h)
      obtain ⟨rest, hsuffix, hrest⟩ := glob_asterisk.mp hrest
      exact glob_asterisk.mpr ⟨rest, hsuffix.trans hmid, hrest⟩
    · exact fun h => ⟨_, rfl, glob_asterisk.mpr ⟨_, suffix_rfl, h⟩⟩
  | case4 pattern c rest hbyte hstar p t _ _ ih =>
    obtain ⟨hclean, w, hw, hp, ht⟩ := hlast _ rfl
    have hnone : ¬ Glob pattern (c :: rest) := not_glob_cons hbyte hstar
    -- the bytes since the `*` agree, so `p` fails at `t` exactly where `pattern` fails here
    have hfail : ¬ Glob p t := fun h => hnone (ht ▸ glob_drop hw (hp ▸ h))
    have hne : t ≠ [] := by
      rintro rfl
      simp at ht
    have htail : asterisk ∉ t.tail := fun h => hclean (mem_of_mem_tail h)
    rw [ih (.start htail) htail, or_iff_right_of_imp, or_iff_right hnone]
    · simp [@glob_asterisk_iff t, hfail, hne]
    · exact fun h => ⟨_, rfl, glob_asterisk.mpr ⟨_, suffix_rfl, h⟩⟩
  | case5 pattern c rest hbyte hstar =>
    simp [not_glob_cons hbyte hstar]

theorem glob_of_literal (h : asterisk ∉ pattern ∧ questionMark ∉ pattern) :
    Glob pattern topic ↔ topic = pattern := by
  induction pattern generalizing topic with
  | nil => rfl
  | cons d pattern ih =>
    cases topic with
    | nil => simp_all [Glob, eq_comm]
    | cons c topic => simp_all [glob_cons, eq_comm]

theorem Topic.asterisk_notMem (topic : Topic) : asterisk ∉ asBytes topic.value := by
  have := topic.no_wildcards
  grind [checkNoWildcards]

/-- The matcher decides the glob: one `*` to go back to is enough. -/
theorem isMatchingBacktracking_iff_glob (topic : Topic) (pattern : Pattern) :
    isMatchingBacktracking topic pattern = true ↔ Glob (asBytes pattern) (asBytes topic.value) := by
  rw [isMatchingBacktracking, isMatching]
  split
  case isTrue h => rw [glob_of_literal h.2, beq_iff_eq]
  case isFalse =>
    rw [isMatchingGreedy, greedyFrom_iff none nofun nofun topic.asterisk_notMem]
    simp

end Nautilus
