import Mathlib.Algebra.Order.Field.Basic
import Mathlib.Algebra.Order.Ring.Abs
import Mathlib.Data.Nat.Cast.Order.Field
import Mathlib.Tactic.FieldSimp
import Mathlib.Tactic.Linarith
import Mathlib.Tactic.Positivity
import Mathlib.Tactic.Ring

/-!
# Quotients of a scaled number

A fraction `d` is used as the divisor of a whole number `m`: it is scaled and rounded to `n`, and
the quotient `m * scale / n` is rounded down.  `abs_div_sub_le` bounds the error when `d` is read
back as `m` over this quotient: half a step of the scale for the first rounding, and another half
for the second one, as long as the quotient is at least `2 * n`.
-/

namespace ScaledDivision

variable {K : Type*} [Field K] [LinearOrder K] [IsStrictOrderedRing K] {m n scale : ℕ}

/-- The divisor comes back from a quotient that was rounded down, or a little more. -/
theorem le_div_quotient (hquotient : 0 < m / n) : (n : K) ≤ m / (m / n : ℕ) := by
  rw [le_div_iff₀ (by exact_mod_cast hquotient)]
  exact_mod_cast Nat.mul_div_le m n

theorem div_quotient_lt (hquotient : 0 < m / n) : (m : K) / (m / n : ℕ) < n + n / (m / n : ℕ) := by
  have hpos : (0 : K) < (m / n : ℕ) := by exact_mod_cast hquotient
  have hn : 0 < n := Nat.pos_of_ne_zero fun hzero => by simp [hzero] at hquotient
  have hm : (m : K) < n * (m / n : ℕ) + n := by
    have hlt := Nat.lt_mul_div_succ m hn
    rw [Nat.mul_add, Nat.mul_one] at hlt
    exact_mod_cast hlt
  rw [div_lt_iff₀ hpos]
  calc (m : K) < n * (m / n : ℕ) + n := hm
    _ = (n + n / (m / n : ℕ)) * (m / n : ℕ) := by field_simp

/-- The error of reading `d` back. -/
theorem abs_div_sub_le {d : K} (hscale : 0 < scale) (hround : |n - d * scale| ≤ 1 / 2)
    (hquotient : 0 < m * scale / n) (htwice : 2 * n ≤ m * scale / n) :
    |m / (m * scale / n : ℕ) - d| ≤ 1 / scale := by
  have hpos : (0 : K) < scale := by exact_mod_cast hscale
  have hqpos : (0 : K) < (m * scale / n : ℕ) := by exact_mod_cast hquotient
  have hlow : (n : K) ≤ (m * scale : ℕ) / (m * scale / n : ℕ) := le_div_quotient hquotient
  have hhigh : ((m * scale : ℕ) : K) / (m * scale / n : ℕ) < n + n / (m * scale / n : ℕ) :=
    div_quotient_lt hquotient
  have hhalf : (n : K) / (m * scale / n : ℕ) ≤ 1 / 2 := by
    rw [div_le_iff₀ hqpos]
    have htwice' : (2 : K) * n ≤ (m * scale / n : ℕ) := by exact_mod_cast htwice
    linarith
  have hscaled : ((m : K) / (m * scale / n : ℕ) - d) * scale =
      (m * scale : ℕ) / (m * scale / n : ℕ) - d * scale := by
    push_cast
    ring
  have habs : |(m : K) / (m * scale / n : ℕ) - d| * scale =
      |((m * scale : ℕ) : K) / (m * scale / n : ℕ) - d * scale| := by
    rw [← hscaled, abs_mul, abs_of_pos hpos]
  obtain ⟨hround', hround''⟩ := abs_le.mp hround
  rw [le_div_iff₀ hpos, habs, abs_le]
  constructor <;> linarith

end ScaledDivision
