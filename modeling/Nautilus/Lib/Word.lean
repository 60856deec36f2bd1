import Mathlib

/-!
# Machine words as natural numbers

The wrapping operators of a `w`-bit unsigned word, and what exact division rests on: the lowest set
bit of a word is the power of two in it (`neg_land_self`), and an inverse of an odd word modulo
`2 ^ n` gives one modulo `2 ^ (2 * n)` (`newtonStep_inverse`).
-/

namespace Nautilus.Lib.Word

variable {w : Nat}
variable {a b : Nat}

def add (w a b : Nat) : Nat := (a + b) % 2 ^ w

def sub (w a b : Nat) : Nat := (a + (2 ^ w - b)) % 2 ^ w

def mul (w a b : Nat) : Nat := a * b % 2 ^ w

def neg (w a : Nat) : Nat := (2 ^ w - a) % 2 ^ w

/-- One Newton-Raphson step towards the inverse of `o`. -/
def newtonStep (w o i : Nat) : Nat := mul w i (sub w 2 (mul w o i))

/-! ## Without overflow -/

theorem add_of_lt (h : a + b < 2 ^ w) : add w a b = a + b := Nat.mod_eq_of_lt h

theorem sub_of_le (ha : a < 2 ^ w) (h : b ≤ a) : sub w a b = a - b := by
  have hsum : a + (2 ^ w - b) = (a - b) + 2 ^ w := by omega
  rw [sub, hsum, Nat.add_mod_right]
  exact Nat.mod_eq_of_lt (by omega)

theorem sub_of_lt (hb : b ≤ 2 ^ w) (h : a < b) : sub w a b = 2 ^ w + a - b := by
  rw [sub, Nat.mod_eq_of_lt (by omega)]
  omega

theorem sub_lt (a b : Nat) : sub w a b < 2 ^ w := Nat.mod_lt _ (Nat.two_pow_pos w)

theorem mul_lt (a b : Nat) : mul w a b < 2 ^ w := Nat.mod_lt _ (Nat.two_pow_pos w)

theorem neg_of_pos (h : 0 < a) : neg w a = 2 ^ w - a :=
  Nat.mod_eq_of_lt (by have := Nat.two_pow_pos w; omega)

/-! ## Modulo the word -/

theorem mul_modEq (a b : Nat) : (mul w a b : Int) ≡ a * b [ZMOD 2 ^ w] := by
  unfold mul
  push_cast
  exact Int.mod_modEq _ _

theorem sub_modEq (hb : b ≤ 2 ^ w) : (sub w a b : Int) ≡ a - b [ZMOD 2 ^ w] := by
  unfold sub
  push_cast [Nat.cast_sub hb]
  refine (Int.mod_modEq _ _).trans ?_
  have hsum : (a : Int) + (2 ^ w - b) = a - b + 2 ^ w := by ring
  rw [hsum]
  exact Int.add_modEq_right

/-- A Newton-Raphson step squares the error. -/
theorem newtonStep_inverse {o i n : Nat} (hn : 2 * n ≤ w) (h : (o : Int) * i ≡ 1 [ZMOD 2 ^ n]) :
    (o : Int) * newtonStep w o i ≡ 1 [ZMOD 2 ^ (2 * n)] := by
  have hdvd : (2 ^ (2 * n) : Int) ∣ 2 ^ w := pow_dvd_pow 2 hn
  have hstep : (newtonStep w o i : Int) ≡ i * (2 - o * i) [ZMOD 2 ^ w] := by
    refine (mul_modEq ..).trans (Int.ModEq.mul_left _ ?_)
    refine (sub_modEq (Nat.le_of_lt (mul_lt ..))).trans (Int.ModEq.sub_left _ ?_)
    exact mul_modEq ..
  obtain ⟨e, _⟩ := h.symm.dvd
  -- with `o * i = 1 + e * 2 ^ n` the new product is `1 - e ^ 2 * 2 ^ (2 * n)`
  have hsquare : (o : Int) * (i * (2 - o * i)) = 1 - 2 ^ (2 * n) * e ^ 2 := by
    have hoi : (o : Int) * i = 1 + 2 ^ n * e := by linarith
    calc (o : Int) * (i * (2 - o * i)) = (o * i) * (2 - o * i) := by ring
      _ = 1 - 2 ^ (2 * n) * e ^ 2 := by rw [hoi, two_mul, pow_add]; ring
  calc (o : Int) * newtonStep w o i ≡ o * (i * (2 - o * i)) [ZMOD 2 ^ (2 * n)] :=
        (hstep.of_dvd hdvd).mul_left _
    _ = 1 - 2 ^ (2 * n) * e ^ 2 := hsquare
    _ ≡ 1 [ZMOD 2 ^ (2 * n)] := (Int.modEq_iff_dvd.mpr ⟨e ^ 2, by ring⟩)

/-! ## The lowest set bit -/

theorem odd_land_odd_complement {m n : Nat} (h : m < 2 ^ n) :
    (2 * (2 ^ n - (m + 1)) + 1) &&& (2 * m + 1) = 1 := by
  apply Nat.eq_of_testBit_eq
  intro i
  cases i with
  | zero => simp [Nat.testBit_zero, Nat.add_mod]
  | succ i =>
    have hhalf : ∀ x : Nat, (2 * x + 1).testBit (i + 1) = x.testBit i := by
      intro x
      rw [Nat.testBit_succ]
      congr 1
      omega
    rw [Nat.testBit_and, hhalf, hhalf, Nat.testBit_two_pow_sub_succ h]
    cases m.testBit i <;> simp [Nat.testBit_succ]

/-- `-d & d` is the power of two in `d`. -/
theorem neg_land_self {k o : Nat} (ho : o % 2 = 1) (hd : 2 ^ k * o < 2 ^ w) :
    neg w (2 ^ k * o) &&& (2 ^ k * o) = 2 ^ k := by
  have hpos : 0 < 2 ^ k * o := Nat.mul_pos (Nat.two_pow_pos k) (by omega)
  have hk : k < w := by
    by_contra hle
    have hge : 2 ^ w ≤ 2 ^ k := Nat.pow_le_pow_right (by omega) (by omega)
    have hmul : 2 ^ k ≤ 2 ^ k * o := Nat.le_mul_of_pos_right _ (by omega)
    omega
  obtain ⟨n, rfl⟩ : ∃ n, w = k + 1 + n := ⟨w - (k + 1), by omega⟩
  obtain ⟨m, rfl⟩ : ∃ m, o = 2 * m + 1 := ⟨o / 2, by omega⟩
  have hm : m < 2 ^ n := by
    have hlt : 2 ^ k * (2 * m + 1) < 2 ^ k * (2 * 2 ^ n) := by
      calc 2 ^ k * (2 * m + 1) < 2 ^ (k + 1 + n) := hd
        _ = 2 ^ k * (2 * 2 ^ n) := by ring
    have := Nat.lt_of_mul_lt_mul_left hlt
    omega
  have hneg : 2 ^ (k + 1 + n) - 2 ^ k * (2 * m + 1) = 2 ^ k * (2 * (2 ^ n - (m + 1)) + 1) := by
    have hsplit : 2 ^ (k + 1 + n) = 2 ^ k * (2 * 2 ^ n) := by ring
    rw [hsplit, ← Nat.mul_sub]
    congr 1
    omega
  rw [neg_of_pos hpos, hneg, Nat.mul_comm (2 ^ k), Nat.mul_comm (2 ^ k), ← Nat.shiftLeft_eq,
    ← Nat.shiftLeft_eq, ← Nat.shiftLeft_and_distrib, odd_land_odd_complement hm, Nat.shiftLeft_eq,
    Nat.one_mul]

end Nautilus.Lib.Word
