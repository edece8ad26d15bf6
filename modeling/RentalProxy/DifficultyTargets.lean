import RentalProxy.Lib.ScaledDivision
import RentalProxy.Translate
import Mathlib.Algebra.Order.Round

/-!
# The target of a difficulty, at every size

`target_from_difficulty` computes with integers of 256 bits, whose operators panic when a product
does not fit or a divisor is zero.  A difficulty is scaled by `2 ^ 16` and rounded; what is below
one after that has no threshold, and what does not fit 128 bits saturates.

* `checkedTarget` is the function with these operators, and `checkedTarget_eq` says that it never
  panics.
* `leNat_targetFromDifficulty` is the target as a number.
* `target_agrees` is the result: defined and not zero, antitone, and exact to `2 ^ -16` between
  `1` and `2 ^ 100`.
-/

namespace RentalProxy

/-! ## Integers of 256 bits -/

/-- The product of two `U256`. -/
def u256Mul (a b : Nat) : Option Nat := if a * b < 2 ^ 256 then some (a * b) else none

/-- The quotient of two `U256`. -/
def u256Div (a b : Nat) : Option Nat := if b = 0 then none else some (a / b)

/-- `target_from_difficulty`, with operators that may panic. -/
def checkedTarget (difficulty : Rat) : Option (List UInt8) :=
  if difficulty ≤ 0 then some maxTarget
  else
    let denom := ⌊difficulty * difficultyScale + 1 / 2⌋
    if denom < 1 then some maxTarget
    else do
      let numerator ← u256Mul diff1Target difficultyScale
      let target ← u256Div numerator (min denom.toNat (2 ^ 128 - 1))
      some (leBytes 32 target)

/-! ## The divisor -/

/-- The scaled difficulty, rounded and saturated. -/
def scaledDifficulty (difficulty : Rat) : Nat :=
  min ⌊difficulty * difficultyScale + 1 / 2⌋.toNat (2 ^ 128 - 1)

/-- The difficulty has a threshold. -/
def HasThreshold (difficulty : Rat) : Prop :=
  0 < difficulty ∧ 1 ≤ ⌊difficulty * difficultyScale + 1 / 2⌋

instance : DecidablePred HasThreshold := fun _ => inferInstanceAs (Decidable (_ ∧ _))

variable {d d' : Rat}

theorem HasThreshold.scaledDifficulty_pos (h : HasThreshold d) : 0 < scaledDifficulty d := by
  have hdenom := h.2
  rw [scaledDifficulty]
  omega

theorem scaledDifficulty_mono (h : d ≤ d') : scaledDifficulty d ≤ scaledDifficulty d' := by
  have hscale : (0 : Rat) ≤ difficultyScale := Nat.cast_nonneg _
  have hfloor : ⌊d * difficultyScale + 1 / 2⌋ ≤ ⌊d' * difficultyScale + 1 / 2⌋ :=
    Int.floor_le_floor (add_le_add_left (mul_le_mul_of_nonneg_right h hscale) _)
  exact min_le_min_right _ (Int.toNat_le_toNat hfloor)

theorem HasThreshold.mono (h : HasThreshold d) (hle : d ≤ d') : HasThreshold d' := by
  have hscale : (0 : Rat) ≤ difficultyScale := Nat.cast_nonneg _
  refine ⟨h.1.trans_le hle, h.2.trans (Int.floor_le_floor ?_)⟩
  exact add_le_add_left (mul_le_mul_of_nonneg_right hle hscale) _

/-! ## The target as a number -/

theorem targetFromDifficulty_of_threshold (h : HasThreshold d) : targetFromDifficulty d =
    leBytes 32 (diff1Target * difficultyScale / scaledDifficulty d) := by
  unfold targetFromDifficulty
  rw [if_neg (not_le.mpr h.1)]
  dsimp only
  rw [if_neg (not_lt.mpr h.2)]
  rfl

theorem targetFromDifficulty_of_no_threshold (h : ¬HasThreshold d) :
    targetFromDifficulty d = maxTarget := by
  unfold targetFromDifficulty
  split
  · rfl
  · rename_i hpos
    exact if_pos (not_le.mp fun hdenom => h ⟨not_le.mp hpos, hdenom⟩)

theorem leNat_targetFromDifficulty (h : HasThreshold d) : leNat (targetFromDifficulty d) =
    diff1Target * difficultyScale / scaledDifficulty d := by
  rw [targetFromDifficulty_of_threshold h, leNat_leBytes]
  refine Nat.mod_eq_of_lt (lt_of_le_of_lt (Nat.div_le_self _ _) ?_)
  decide

theorem leNat_maxTarget : leNat maxTarget = 2 ^ 256 - 1 := by decide

/-- The numerator fits, and the divisor is not zero. -/
theorem checkedTarget_eq (d : Rat) : checkedTarget d = some (targetFromDifficulty d) := by
  by_cases h : HasThreshold d
  · have hpos := h.scaledDifficulty_pos
    have hnumerator : u256Mul diff1Target difficultyScale =
        some (diff1Target * difficultyScale) := if_pos (by decide)
    rw [targetFromDifficulty_of_threshold h, checkedTarget, if_neg (not_le.mpr h.1)]
    dsimp only
    rw [if_neg (not_lt.mpr h.2), hnumerator]
    change (u256Div _ (scaledDifficulty d)).bind _ = _
    rw [u256Div, if_neg hpos.ne']
    rfl
  · rw [targetFromDifficulty_of_no_threshold h, checkedTarget]
    split
    · rfl
    · rename_i hpos
      exact if_pos (not_le.mp fun hdenom => h ⟨not_le.mp hpos, hdenom⟩)

/-- The largest divisor leaves a target. -/
theorem target_pos (d : Rat) : 0 < leNat (targetFromDifficulty d) := by
  by_cases h : HasThreshold d
  · rw [leNat_targetFromDifficulty h]
    refine Nat.div_pos (le_trans (min_le_right _ _) ?_) h.scaledDifficulty_pos
    decide
  · rw [targetFromDifficulty_of_no_threshold h, leNat_maxTarget]
    decide

theorem target_antitone (h : d ≤ d') :
    leNat (targetFromDifficulty d') ≤ leNat (targetFromDifficulty d) := by
  by_cases hd : HasThreshold d
  · rw [leNat_targetFromDifficulty hd, leNat_targetFromDifficulty (hd.mono h)]
    exact Nat.div_le_div_left (scaledDifficulty_mono h) hd.scaledDifficulty_pos
  · rw [targetFromDifficulty_of_no_threshold hd, leNat_maxTarget]
    by_cases hd' : HasThreshold d'
    · rw [leNat_targetFromDifficulty hd']
      exact (Nat.div_le_self _ _).trans (by decide)
    · rw [targetFromDifficulty_of_no_threshold hd', leNat_maxTarget]

/-! ## Reading the difficulty back -/

/-- Between `1` and `2 ^ 100` the divisor does not saturate. -/
theorem scaledDifficulty_eq_round (hlow : 1 ≤ d) (hhigh : d ≤ 2 ^ 100) :
    (scaledDifficulty d : Int) = round (d * difficultyScale) ∧
      2 ^ 16 ≤ scaledDifficulty d ∧ scaledDifficulty d ≤ 2 ^ 116 := by
  have hscale : (difficultyScale : Rat) = 2 ^ 16 := by norm_num [difficultyScale]
  have hfloor : (2 ^ 16 : Int) ≤ ⌊d * difficultyScale + 1 / 2⌋ := by
    rw [Int.le_floor, hscale]
    push_cast
    linarith
  have hceil : ⌊d * difficultyScale + 1 / 2⌋ ≤ (2 ^ 116 : Int) := by
    rw [← Int.lt_add_one_iff, Int.floor_lt, hscale]
    push_cast
    linarith
  rw [round_eq, scaledDifficulty]
  omega

theorem quotient_sub_le (hlow : 1 ≤ d) (hhigh : d ≤ 2 ^ 100) :
    |(diff1Target : Rat) / leNat (targetFromDifficulty d) - d| ≤ d / 2 ^ 16 := by
  obtain ⟨hround, hmin, hmax⟩ := scaledDifficulty_eq_round hlow hhigh
  have hthreshold : HasThreshold d := by
    refine ⟨by linarith, ?_⟩
    rw [← round_eq, ← hround]
    omega
  have hbound : 2 ^ 117 ≤ diff1Target * difficultyScale / scaledDifficulty d :=
    le_trans (by decide) (Nat.div_le_div_left hmax (by omega))
  have herror : |(scaledDifficulty d : Rat) - d * difficultyScale| ≤ 1 / 2 := by
    have hcast : (scaledDifficulty d : Rat) = (round (d * difficultyScale) : Int) := by
      exact_mod_cast hround
    rw [hcast, abs_sub_comm]
    exact abs_sub_round _
  rw [leNat_targetFromDifficulty hthreshold]
  calc |(diff1Target : Rat) / (diff1Target * difficultyScale / scaledDifficulty d : Nat) - d|
    _ ≤ 1 / difficultyScale :=
        ScaledDivision.abs_div_sub_le (by decide) herror (by omega) (by omega)
    _ ≤ d / 2 ^ 16 := by
        have hscale : (difficultyScale : Rat) = 2 ^ 16 := by norm_num [difficultyScale]
        rw [hscale]
        exact div_le_div_of_nonneg_right hlow (by positivity)

/-! ## The result -/

/-- For every difficulty the target is defined and not zero; a larger difficulty does not have a
larger target; and between `1` and `2 ^ 100` the quotient of the difficulty-1 target and the
target is the difficulty, to `2 ^ -16` of it. -/
theorem target_agrees :
    (∀ d, checkedTarget d = some (targetFromDifficulty d) ∧
      leNat (targetFromDifficulty d) ≠ 0) ∧
    (∀ d d', d ≤ d' → leNat (targetFromDifficulty d') ≤ leNat (targetFromDifficulty d)) ∧
    ∀ d, 1 ≤ d → d ≤ 2 ^ 100 →
      difficultyFromTarget (targetFromDifficulty d) =
        diff1Target / leNat (targetFromDifficulty d) ∧
      |(diff1Target : Rat) / leNat (targetFromDifficulty d) - d| ≤ d * (1 / 2 ^ 16) := by
  refine ⟨fun d => ⟨checkedTarget_eq d, (target_pos d).ne'⟩, fun _ _ => target_antitone, ?_⟩
  intro d hlow hhigh
  constructor
  · rw [difficultyFromTarget, if_neg (not_not.mpr (targetFromDifficulty_length d)),
      if_neg (target_pos d).ne']
  · rw [mul_one_div]
    exact quotient_sub_le hlow hhigh

example : targetFromDifficulty 1 = leBytes 32 diff1Target := by decide +kernel

end RentalProxy
