import Mathlib.Algebra.BigOperators.Intervals
import Mathlib.Algebra.Order.BigOperators.Group.Finset
import Mathlib.Tactic.Linarith
import Mathlib.Tactic.Positivity

/-!
# Budgets Paid Once per Cycle

Every round sets an amount aside, and the last round of every cycle pays out the
amount it sets aside itself, once for each round of the cycle. As long as the amounts
never grow, no more is paid out than was set aside.
-/

namespace HootChain.Foundation.CycleBudget

open Finset Nat

/-- What round `p` pays out. -/
def paid (cycle : ℕ) (part : ℕ → ℤ) (p : ℕ) : ℤ :=
  if cycle ∣ p + 1 then part p * cycle else 0

section Cycle

variable {cycle : ℕ} {part : ℕ → ℤ} {a : ℕ} {p b : ℕ}

lemma paid_of_dvd (h : cycle ∣ p + 1) : paid cycle part p = part p * cycle := if_pos h

lemma paid_of_not_dvd (h : ¬ cycle ∣ p + 1) : paid cycle part p = 0 := if_neg h

lemma sum_paid_eq_zero (h : ∀ p, a ≤ p → p < b → ¬ cycle ∣ p + 1) :
    ∑ p ∈ Ico a b, paid cycle part p = 0 :=
  sum_eq_zero fun p hp => paid_of_not_dvd (h p (mem_Ico.mp hp).1 (mem_Ico.mp hp).2)

/-- The rounds of the cycle that is running have set aside at least what the next round
would. -/
lemma sum_paid_add_le (hpos : 0 < cycle) (ha : cycle ∣ a)
    (hanti : ∀ p q, a ≤ p → p ≤ q → part q ≤ part p) (n : ℕ) :
    ∑ p ∈ Ico a (a + n), paid cycle part p + (n % cycle : ℕ) * part (a + n) ≤
      ∑ p ∈ Ico a (a + n), part p := by
  induction n with
  | zero => simp
  | succ n ih =>
    have hmod := mod_lt n hpos
    have hsucc : (n + 1) % cycle = (n % cycle + 1) % cycle := (mod_add_mod n cycle 1).symm
    have hround : cycle ∣ a + n + 1 ↔ (n + 1) % cycle = 0 := by
      rw [add_assoc, Nat.dvd_add_right ha, Nat.dvd_iff_mod_eq_zero]
    rw [← add_assoc, sum_Ico_succ_top (by omega), sum_Ico_succ_top (by omega)]
    rcases Nat.lt_or_eq_of_le hmod with hrest | hend
    · rw [mod_eq_of_lt hrest] at hsucc
      have hle : ((n % cycle : ℕ) + 1 : ℤ) * part (a + n + 1) ≤
          ((n % cycle : ℕ) + 1 : ℤ) * part (a + n) :=
        mul_le_mul_of_nonneg_left (hanti _ _ (by omega) (by omega)) (by positivity)
      rw [paid_of_not_dvd (by rw [hround]; omega), hsucc, cast_succ]
      linarith
    · -- the cycle ends: what its rounds set aside is paid out
      have hlast : ((n % cycle : ℕ) : ℤ) + 1 = cycle := by exact_mod_cast hend
      rw [show n % cycle + 1 = cycle from hend, mod_self] at hsucc
      rw [paid_of_dvd (hround.mpr hsucc), hsucc, ← hlast, cast_zero]
      linarith

/-- **Payments are covered.** From the start of a cycle on, no more is paid out than is set
aside, if the amounts never grow. -/
theorem sum_paid_le (hpos : 0 < cycle) (ha : cycle ∣ a)
    (hanti : ∀ p q, a ≤ p → p ≤ q → part q ≤ part p) (hnonneg : ∀ p, 0 ≤ part p) (hab : a ≤ b) :
    ∑ p ∈ Ico a b, paid cycle part p ≤ ∑ p ∈ Ico a b, part p := by
  obtain ⟨n, rfl⟩ := Nat.exists_eq_add_of_le hab
  have hsum := sum_paid_add_le hpos ha hanti n
  have hrest : 0 ≤ ((n % cycle : ℕ) : ℤ) * part (a + n) := mul_nonneg (by positivity) (hnonneg _)
  linarith

end Cycle

end HootChain.Foundation.CycleBudget
