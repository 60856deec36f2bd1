import Mathlib

/-!
# Loops with fuel

A `while` loop as a function from its state to the next one or to a result. `loop round n s` runs
at most `n` rounds and is `none` when they do not suffice, so a loop terminates from `s` iff some
`n` gives a result. `loop_inv` is the run rule.
-/

namespace Nautilus.Lib

universe u v

variable {σ : Type u} {ρ : Type v} {round : σ → σ ⊕ ρ}

def loop (round : σ → σ ⊕ ρ) : Nat → σ → Option ρ
  | 0, _ => none
  | n + 1, s =>
    match round s with
    | .inl s' => loop round n s'
    | .inr r => some r

theorem loop_of_inl {s s' : σ} (h : round s = .inl s') (n : Nat) :
    loop round (n + 1) s = loop round n s' := by
  rw [loop, h]

theorem loop_of_inr {s : σ} {r : ρ} (h : round s = .inr r) (n : Nat) :
    loop round (n + 1) s = some r := by
  rw [loop, h]

/-- **Run rule**: what every round keeps holds where the loop ends. -/
theorem loop_inv {I : σ → Prop} {Q : ρ → Prop}
    (hround : ∀ s, I s → (round s).elim I Q) {n : Nat} {s : σ} {r : ρ} (hs : I s)
    (h : loop round n s = some r) : Q r := by
  induction n generalizing s with
  | zero => nomatch h
  | succ n ih =>
    have hnext := hround s hs
    unfold loop at h
    split at h <;> rename_i heq <;> rw [heq] at hnext
    · exact ih hnext h
    · cases h
      exact hnext

end Nautilus.Lib
