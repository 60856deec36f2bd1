import Mathlib

/-!
# Runs of a partial step function

A component is a state type `σ`, an input type `α` and a step `σ → α → Option σ`; `none` is a step
that does not complete (a panic, an assertion that fires). A run feeds a list of inputs.

`along_of_inv` turns a one-step invariant into a statement about whole runs. `along_iff` is its
exact form: where a condition on the state *before* a step decides, in invariant states, whether the
step does what is asked, a run does what is asked iff each of its steps meets the condition.
`entered_of_runs` is for what is remembered of the step that entered a phase. `runs_simulates` and
`runs_refines` compare a run with an abstract machine.
-/

namespace Nautilus.Lib

open List Option

universe u v

variable {σ : Type u} {α : Type v}

/-- The state after a list of inputs, `none` once a step does not complete. -/
def runs (step : σ → α → Option σ) : σ → List α → Option σ
  | s, [] => some s
  | s, a :: as => (step s a).bind fun s' => runs step s' as

/-- `Q` holds of every completed step of the run. -/
def Along (step : σ → α → Option σ) (Q : σ → α → σ → Prop) : σ → List α → Prop
  | _, [] => True
  | s, a :: as => ∀ s', step s a = some s' → Q s a s' ∧ Along step Q s' as

/-- `P` holds in every state the run goes through, the first one included. -/
def Throughout (step : σ → α → Option σ) (P : σ → Prop) (s : σ) (as : List α) : Prop :=
  ∀ pre s', pre <+: as → runs step s pre = some s' → P s'

variable {step : σ → α → Option σ} {Q C : σ → α → σ → Prop} {as : List α} {s s' : σ}

@[simp] theorem runs_cons (s : σ) (a : α) (as : List α) :
    runs step s (a :: as) = (step s a).bind fun s' => runs step s' as := rfl

theorem runs_append (s : σ) (as bs : List α) :
    runs step s (as ++ bs) = (runs step s as).bind fun s' => runs step s' bs := by
  induction as generalizing s with
  | nil => rfl
  | cons a as ih =>
    rw [cons_append, runs_cons, runs_cons]
    cases step s a with
    | none => rfl
    | some s' => exact ih s'

/-- What is decidable of one step is decidable along a run. -/
instance Along.decidable [∀ s a s', Decidable (Q s a s')] :
    ∀ (s : σ) (as : List α), Decidable (Along step Q s as)
  | _, [] => .isTrue trivial
  | s, a :: as =>
    match h : step s a with
    | none => .isTrue fun _ hs => nomatch h.symm.trans hs
    | some t =>
      have : Decidable (Along step Q t as) := Along.decidable t as
      decidable_of_iff (Q s a t ∧ Along step Q t as)
        ⟨fun hq _ hs => Option.some.inj (h.symm.trans hs) ▸ hq, fun hq => hq t h⟩

theorem throughout_iff_along {P : σ → Prop} :
    Throughout step P s as ↔ P s ∧ Along step (fun _ _ s' => P s') s as := by
  induction as generalizing s with
  | nil =>
    constructor
    · intro h
      exact ⟨h [] s prefix_rfl rfl, trivial⟩
    · rintro ⟨hs, -⟩ pre s' hpre hrun
      rw [prefix_nil.mp hpre] at hrun
      cases hrun
      exact hs
  | cons a as ih =>
    constructor
    · intro h
      refine ⟨h [] s nil_prefix rfl, ?_⟩
      intro t ht
      -- the runs from `t` are the runs from `s` with `a` in front
      have htail : Throughout step P t as := by
        intro pre s' hpre hrun
        refine h (a :: pre) s' (cons_prefix_cons.mpr ⟨rfl, hpre⟩) ?_
        rw [runs_cons, ht]
        exact hrun
      exact ih.mp htail
    · rintro ⟨hs, hsteps⟩ pre s' hpre hrun
      cases pre with
      | nil =>
        cases hrun
        exact hs
      | cons b pre =>
        obtain ⟨rfl, htail⟩ := cons_prefix_cons.mp hpre
        rw [runs_cons, bind_eq_some_iff] at hrun
        obtain ⟨t, ht, hrest⟩ := hrun
        exact ih.mpr (hsteps t ht) pre s' htail hrest

theorem Along.initial {pre as : List α} (hpre : pre <+: as)
    (h : Along step Q s as) : Along step Q s pre := by
  induction pre generalizing s as with
  | nil => trivial
  | cons a pre ih =>
    obtain ⟨rest, rfl⟩ := hpre
    intro s' hs'
    obtain ⟨hq, htail⟩ := h s' hs'
    exact ⟨hq, ih (prefix_append pre rest) htail⟩

/-! ## Invariants -/

/-- Where an invariant rules out that a step stops, every run completes. -/
theorem runs_isSome {Inv : σ → Prop}
    (hstep : ∀ s a, Inv s → ∃ s', step s a = some s' ∧ Inv s')
    (hs : Inv s) : (runs step s as).isSome := by
  induction as generalizing s with
  | nil => rfl
  | cons a as ih =>
    obtain ⟨s', hs', hinv⟩ := hstep s a hs
    rw [runs_cons, hs']
    exact ih hinv

/-- A step property that follows from an invariant holds along every run, for its inputs at least.
-/
theorem along_of_inv (Inv : σ → Prop)
    (hstep : ∀ s a s', a ∈ as → Inv s → step s a = some s' → Inv s' ∧ Q s a s') (hs : Inv s) :
    Along step Q s as := by
  induction as generalizing s with
  | nil => trivial
  | cons a as ih =>
    intro s' h
    obtain ⟨hinv, hq⟩ := hstep s a s' mem_cons_self hs h
    have hrec : ∀ s b s', b ∈ as → Inv s → step s b = some s' → Inv s' ∧ Q s b s' :=
      fun s b s' hb => hstep s b s' (mem_cons_of_mem a hb)
    exact ⟨hq, ih hrec hinv⟩

/-- **Sufficiency rule**: where the steps meeting `C` keep an invariant and do what `Q` asks, a run
whose steps all meet `C` does what `Q` asks throughout. -/
theorem Along.of_inv (Inv : σ → Prop)
    (hstep : ∀ s a s', Inv s → step s a = some s' → C s a s' → Inv s' ∧ Q s a s') (hs : Inv s)
    (h : Along step C s as) : Along step Q s as := by
  induction as generalizing s with
  | nil => trivial
  | cons a as ih =>
    intro s' hs'
    obtain ⟨hc, htail⟩ := h s' hs'
    obtain ⟨hinv, hq⟩ := hstep s a s' hs hs' hc
    exact ⟨hq, ih hinv htail⟩

/-- An invariant that is kept by the steps meeting `C` holds after every run
whose steps all meet `C`. -/
theorem runs_inv_of_along (Inv : σ → Prop)
    (hstep : ∀ s a s', Inv s → step s a = some s' → C s a s' → Inv s')
    (hs : Inv s) (hc : Along step C s as) (h : runs step s as = some s') : Inv s' := by
  have hkept : Along step (fun _ _ s' => Inv s') s as :=
    hc.of_inv Inv (fun s a s' hs hs' hc => and_self_iff.mpr (hstep s a s' hs hs' hc)) hs
  exact throughout_iff_along.mpr ⟨hs, hkept⟩ as s' prefix_rfl h

/-- **Invariant rule**: what holds at the start and every step of the run keeps holds at its end. -/
theorem runs_inv_mem (Inv : σ → Prop)
    (hstep : ∀ s a s', a ∈ as → Inv s → step s a = some s' → Inv s') (hs : Inv s)
    (h : runs step s as = some s') : Inv s' := by
  have hmem : Along step (fun _ a _ => a ∈ as) s as :=
    along_of_inv (fun _ => True) (fun _ _ _ ha _ _ => ⟨trivial, ha⟩) trivial
  exact runs_inv_of_along Inv (fun s a s' hinv hs' ha => hstep s a s' ha hinv hs') hs hmem h

theorem runs_inv {Inv : σ → Prop}
    (hstep : ∀ s a s', Inv s → step s a = some s' → Inv s') (hs : Inv s)
    (h : runs step s as = some s') : Inv s' :=
  runs_inv_mem Inv (fun s a s' _ => hstep s a s') hs h

theorem along_and {Q' : σ → α → σ → Prop} :
    Along step (fun s a s' => Q s a s' ∧ Q' s a s') s as ↔
      Along step Q s as ∧ Along step Q' s as := by
  induction as generalizing s with
  | nil => exact ⟨fun _ => ⟨trivial, trivial⟩, fun _ => trivial⟩
  | cons a as ih =>
    constructor
    · intro h
      refine ⟨fun s' hs' => ?_, fun s' hs' => ?_⟩
      · exact ⟨(h s' hs').1.1, (ih.mp (h s' hs').2).1⟩
      · exact ⟨(h s' hs').1.2, (ih.mp (h s' hs').2).2⟩
    · rintro ⟨h, h'⟩ s' hs'
      exact ⟨⟨(h s' hs').1, (h' s' hs').1⟩, ih.mpr ⟨(h s' hs').2, (h' s' hs').2⟩⟩

/-- **Exactness rule**: in invariant states `C` decides whether a step does what `Q` asks, and a
step that meets `C` stays invariant; then a run does what `Q` asks throughout iff `C` is met
throughout. Only the inputs of the run matter. -/
theorem along_iff_of_mem (Inv : σ → Prop)
    (hinv : ∀ a ∈ as, ∀ s s', Inv s → step s a = some s' → C s a s' → Inv s')
    (hiff : ∀ a ∈ as, ∀ s s', Inv s → step s a = some s' → (Q s a s' ↔ C s a s'))
    (hs : Inv s) : Along step Q s as ↔ Along step C s as := by
  induction as generalizing s with
  | nil => exact Iff.rfl
  | cons a as ih =>
    have hhead : a ∈ a :: as := mem_cons_self
    have hrest : ∀ s', Inv s' → (Along step Q s' as ↔ Along step C s' as) := fun _ hs' =>
      ih (fun b hb => hinv b (mem_cons_of_mem a hb)) (fun b hb => hiff b (mem_cons_of_mem a hb)) hs'
    -- either side gives `C` of the first step, and with it the invariant for the rest
    constructor
    · intro h s' hs'
      obtain ⟨hq, htail⟩ := h s' hs'
      have hc := (hiff a hhead s s' hs hs').mp hq
      exact ⟨hc, (hrest s' (hinv a hhead s s' hs hs' hc)).mp htail⟩
    · intro h s' hs'
      obtain ⟨hc, htail⟩ := h s' hs'
      exact ⟨(hiff a hhead s s' hs hs').mpr hc, (hrest s' (hinv a hhead s s' hs hs' hc)).mpr htail⟩

theorem along_iff (Inv : σ → Prop)
    (hinv : ∀ s a s', Inv s → step s a = some s' → C s a s' → Inv s')
    (hiff : ∀ s a s', Inv s → step s a = some s' → (Q s a s' ↔ C s a s'))
    (hs : Inv s) : Along step Q s as ↔ Along step C s as :=
  along_iff_of_mem Inv (fun a _ s s' => hinv s a s') (fun a _ s s' => hiff s a s') hs

/-! ## Phases -/

/-- The run `as` from `s` is in phase `P` since its step from `before` on input `a`: `P` does not
hold before that step and holds ever after. -/
def Entered (step : σ → α → Option σ) (P : σ → Prop) (s : σ) (as : List α) (before : σ)
    (a : α) : Prop :=
  ∃ pre post, as = pre ++ a :: post ∧ runs step s pre = some before ∧ ¬ P before ∧
    ∀ mid s', mid <+: post → runs step s (pre ++ a :: mid) = some s' → P s'

theorem runs_concat (s : σ) (as : List α) (a : α) :
    runs step s (as ++ [a]) = (runs step s as).bind (step · a) := by
  rw [runs_append]
  congr 1
  funext s'
  rw [runs_cons]
  cases step s' a <;> rfl

/-- A phase that goes on is the phase that was entered. -/
theorem Entered.concat {P : σ → Prop} {s before t : σ} {a b : α}
    (h : Entered step P s as before a) (hrun : runs step s (as ++ [b]) = some t) (ht : P t) :
    Entered step P s (as ++ [b]) before a := by
  obtain ⟨pre, post, rfl, hpre, hn, hpost⟩ := h
  refine ⟨pre, post ++ [b], by rw [append_assoc, cons_append], hpre, hn, ?_⟩
  intro mid s' hmid hs'
  rcases prefix_concat_iff.mp hmid with rfl | hmid
  · rw [← cons_append, ← append_assoc, hrun] at hs'
    cases hs'
    exact ht
  · exact hpost mid s' hmid hs'

/-- **Phase rule**: `R before a s` is set up by the step that enters the phase and kept by every
step inside it; so it holds throughout the phase. -/
theorem entered_of_runs (Inv P : σ → Prop) (R : σ → α → σ → Prop)
    (hinv : ∀ s a s', Inv s → step s a = some s' → Inv s')
    (henter : ∀ s a s', Inv s → ¬ P s → step s a = some s' → P s' → R s a s')
    (hstay : ∀ s₀ a s b s', Inv s → R s₀ a s → P s → step s b = some s' → P s' → R s₀ a s')
    {s t : σ} (hs : Inv s) (hnew : ¬ P s) (hrun : runs step s as = some t)
    (ht : P t) : ∃ before a, Entered step P s as before a ∧ R before a t := by
  -- the last step either entered the phase or went on in it
  induction as using reverseRecOn generalizing t with
  | nil =>
    cases hrun
    exact absurd ht hnew
  | append_singleton as b ih =>
    have hrun' := hrun
    rw [runs_concat, bind_eq_some_iff] at hrun'
    obtain ⟨t', ht', hstep⟩ := hrun'
    have hinv' : Inv t' := runs_inv hinv hs ht'
    by_cases hp : P t'
    · obtain ⟨before, a, hentered, hr⟩ := ih ht' hp
      exact ⟨before, a, hentered.concat hrun ht, hstay before a t' b t hinv' hr hp hstep ht⟩
    · refine ⟨t', b, ⟨as, [], rfl, ht', hp, ?_⟩, henter t' b t hinv' hp hstep ht⟩
      intro mid s' hmid hs'
      rw [prefix_nil.mp hmid, hrun] at hs'
      cases hs'
      exact ht

/-! ## Simulation -/

/-- **Simulation rule**: when every step completes and is matched by an abstract step, the run
completes and ends where folding the abstract steps ends. -/
theorem runs_simulates {τ : Type*} (R : σ → τ → Prop) (spec : τ → α → τ)
    {t : τ} (hstep : ∀ s t a, a ∈ as → R s t → ∃ s', step s a = some s' ∧ R s' (spec t a))
    (h : R s t) : ∃ s', runs step s as = some s' ∧ R s' (as.foldl spec t) := by
  induction as generalizing s t with
  | nil => exact ⟨s, rfl, h⟩
  | cons a as ih =>
    obtain ⟨_, hs₁, hr⟩ := hstep s t a mem_cons_self h
    have hrec : ∀ s t b, b ∈ as → R s t → ∃ s', step s b = some s' ∧ R s' (spec t b) :=
      fun s t b hb => hstep s t b (mem_cons_of_mem a hb)
    obtain ⟨s', hs', hr'⟩ := ih hrec hr
    refine ⟨s', ?_, hr'⟩
    rw [runs_cons, hs₁]
    exact hs'

/-- The same where steps may stop: a run that completes ends where folding the abstract
steps ends. -/
theorem runs_refines {τ : Type*} (R : σ → τ → Prop) (spec : τ → α → τ)
    (hstep : ∀ s t a s', R s t → step s a = some s' → R s' (spec t a))
    {t : τ} (h : R s t) (hrun : runs step s as = some s') : R s' (as.foldl spec t) := by
  induction as generalizing s t with
  | nil =>
    cases hrun
    exact h
  | cons a as ih =>
    rw [runs_cons, bind_eq_some_iff] at hrun
    obtain ⟨s₁, hs₁, hrest⟩ := hrun
    exact ih (hstep s t a s₁ h hs₁) hrest

end Nautilus.Lib
