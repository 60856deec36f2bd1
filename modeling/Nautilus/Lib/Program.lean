import Nautilus.Lib.Run

/-!
# Partial programs over a state

A call that changes a state, returns a value and may panic (`none`, which unwinds the whole program)
is a `Prog σ α`, a function `σ → Option (α × σ)`.

`Prog.MadeOf step m`: whatever the program returns, the state it leaves is reached from the one it
found by steps of `step`. Such programs compose, so they are a monad of their own, `Acting step`,
whose values carry the fact; a property of the single step (`Lib/Run.lean`) is then one of every
such program.
-/

namespace Nautilus.Lib

/-- A program over the state `σ` that returns an `α`, or panics. -/
abbrev Prog (σ α : Type) := StateT σ Option α

namespace Prog

variable {σ α β ι : Type}

/-- The program that does not return. -/
def panics : Prog σ α := fun _ => none

/-- `unwrap`, `expect`: the value, or a panic. -/
def ofOption (x : Option α) : Prog σ α := fun s => x.map (·, s)

/-- A partial change of the state. -/
def change (f : σ → Option σ) : Prog σ Unit := fun s => (f s).map ((), ·)

/-! ## Running -/

variable {m : Prog σ α} {f : α → Prog σ β} {s s' : σ}

theorem bind_eq_some {r : β × σ} :
    (m >>= f) s = some r ↔ ∃ a s₁, m s = some (a, s₁) ∧ f a s₁ = some r := by
  refine Option.bind_eq_some_iff.trans ?_
  constructor
  · rintro ⟨⟨a, s₁⟩, hm, hf⟩
    exact ⟨a, s₁, hm, hf⟩
  · rintro ⟨a, s₁, hm, hf⟩
    exact ⟨(a, s₁), hm, hf⟩

theorem ofOption_eq_some {x : Option α} {a : α} :
    (ofOption x : Prog σ α) s = some (a, s') ↔ x = some a ∧ s' = s := by
  cases x with
  | none => simp [ofOption]
  | some b => simp [ofOption, eq_comm]

theorem change_eq_some {g : σ → Option σ} {u : Unit} :
    change g s = some (u, s') ↔ g s = some s' := by
  cases u
  unfold change
  rw [Option.map_eq_some_iff]
  constructor
  · rintro ⟨t, ht, heq⟩
    cases heq
    exact ht
  · intro h
    exact ⟨s', h, rfl⟩

/-! ## Programs made of steps -/

/-- Whatever the program returns, the state it leaves is a sequence of steps away. -/
def MadeOf {γ : Type} (step : σ → γ → Option σ) (m : Prog σ α) : Prop :=
  ∀ s a s', m s = some (a, s') → ∃ cs, runs step s cs = some s'

namespace MadeOf

variable {γ : Type} {step : σ → γ → Option σ}

theorem silent (hm : ∀ s a s', m s = some (a, s') → s' = s) : MadeOf step m := by
  intro s a s' h
  exact ⟨[], congrArg some (hm s a s' h).symm⟩

/-- The steps of the first program, then those of the second. -/
theorem bind (hm : MadeOf step m) (hf : ∀ a, MadeOf step (f a)) : MadeOf step (m >>= f) := by
  intro s b s' h
  obtain ⟨a, s₁, hfirst, hrest⟩ := bind_eq_some.mp h
  obtain ⟨cs, hcs⟩ := hm s a s₁ hfirst
  obtain ⟨ds, hds⟩ := hf a s₁ b s' hrest
  refine ⟨cs ++ ds, ?_⟩
  rw [runs_append, hcs]
  exact hds

theorem one (hm : ∀ s a s', m s = some (a, s') → ∃ c, step s c = some s') : MadeOf step m := by
  intro s a s' h
  obtain ⟨c, hc⟩ := hm s a s' h
  refine ⟨[c], ?_⟩
  rw [runs_cons, hc]
  rfl

end MadeOf

end Prog

structure Acting {σ γ : Type} (step : σ → γ → Option σ) (α : Type) where
  prog : Prog σ α
  madeOf : prog.MadeOf step

namespace Acting

variable {σ γ α β : Type} {step : σ → γ → Option σ}

instance : Monad (Acting step) where
  pure a :=
    { prog := pure a
      madeOf := .silent fun _ _ _ h => by cases h; rfl }
  bind m f :=
    { prog := m.prog >>= fun a => (f a).prog
      madeOf := m.madeOf.bind fun a => (f a).madeOf }

/-- The state can be read anywhere. -/
instance : MonadReaderOf σ (Acting step) where
  read :=
    { prog := get
      madeOf := .silent fun _ _ _ h => by cases h; rfl }

/-- The program that does not return. -/
def panics : Acting step α where
  prog := Prog.panics
  madeOf := .silent fun _ _ _ h => nomatch h

/-- `unwrap`, `expect`: the value, or a panic. -/
def ofOption (x : Option α) : Acting step α where
  prog := Prog.ofOption x
  madeOf := .silent fun _ _ _ h => (Prog.ofOption_eq_some.mp h).2

def change (f : σ → Option σ) (hf : ∀ s s', f s = some s' → ∃ c, step s c = some s') :
    Acting step Unit where
  prog := Prog.change f
  madeOf := .one fun s _ s' h => hf s s' (Prog.change_eq_some.mp h)

/-! ## Running -/

/-- The value and the state a program leaves. -/
def run (m : Acting step α) (s : σ) : Option (α × σ) := m.prog s

theorem run_read_bind (f : σ → Acting step α) (s : σ) : (read >>= f).run s = (f s).run s := rfl

theorem bind_run_eq_some {m : Acting step α} {f : α → Acting step β} {s : σ} {r : β × σ} :
    (m >>= f).run s = some r ↔ ∃ a s₁, m.run s = some (a, s₁) ∧ (f a).run s₁ = some r :=
  Prog.bind_eq_some

theorem change_run_eq_some {f : σ → Option σ} {hf} {s s' : σ} {u : Unit} :
    (change f hf : Acting step Unit).run s = some (u, s') ↔ f s = some s' :=
  Prog.change_eq_some

end Acting

end Nautilus.Lib
