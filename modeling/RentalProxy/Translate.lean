import RentalProxy.Session
import Mathlib.Algebra.Order.Floor.Ring
import Mathlib.Data.Rat.Floor
import Mathlib.Tactic.Positivity

/-!
# Difficulty and target

`difficulty_from_target` and `target_from_difficulty` of `proto/translate.rs`.
A target is a little-endian byte string of 32 bytes.  Difficulty 1 is the
target `0x00000000FFFF0000…0000`, and difficulties are exact rationals.
-/

namespace RentalProxy

/-- The natural number of a little-endian byte string. -/
def leNat : List UInt8 → Nat
  | [] => 0
  | b :: bs => b.toNat + 256 * leNat bs

/-- The first `count` little-endian bytes of a number. -/
def leBytes : Nat → Nat → List UInt8
  | 0, _ => []
  | count + 1, n => UInt8.ofNat (n % 256) :: leBytes count (n / 256)

@[simp] theorem leBytes_length (count n : Nat) : (leBytes count n).length = count := by
  induction count generalizing n with
  | zero => rfl
  | succ count ih => simp [leBytes, ih]

theorem leNat_leBytes (count n : Nat) : leNat (leBytes count n) = n % 256 ^ count := by
  induction count generalizing n with
  | zero => simp [leBytes, leNat, Nat.mod_one]
  | succ count ih =>
      have hbyte : (UInt8.ofNat (n % 256)).toNat = n % 256 := by
        rw [UInt8.toNat_ofNat']
        omega
      rw [leBytes, leNat, ih, hbyte, Nat.pow_succ, Nat.mul_comm (256 ^ count) 256,
        Nat.mod_mul]

/-- A counter that starts over at a multiple of the round has the same bytes. -/
theorem leBytes_mod {width m : Nat} (h : 256 ^ width ∣ m) (n : Nat) :
    leBytes width (n % m) = leBytes width n := by
  induction width generalizing m n with
  | zero => rfl
  | succ width ih =>
      obtain ⟨c, rfl⟩ := h
      have hm : 256 ^ (width + 1) * c = 256 * (256 ^ width * c) := by
        rw [Nat.pow_succ, Nat.mul_comm (256 ^ width) 256, Nat.mul_assoc]
      have hbyte : n % (256 * (256 ^ width * c)) % 256 = n % 256 :=
        Nat.mod_mod_of_dvd n (Nat.dvd_mul_right ..)
      have hrest : n % (256 * (256 ^ width * c)) / 256 = n / 256 % (256 ^ width * c) :=
        Nat.mod_mul_right_div_self ..
      rw [leBytes, leBytes, hm, hbyte, hrest, ih (Nat.dvd_mul_right ..)]

/-- The bytes of a counter come back only after a whole round. -/
theorem leBytes_ne {width i j : Nat} (hij : i < j) (hround : j < i + 256 ^ width) :
    leBytes width i ≠ leBytes width j := by
  intro heq
  have hmod : j % 256 ^ width = i % 256 ^ width := by
    rw [← leNat_leBytes, ← heq, leNat_leBytes]
  have hdvd : 256 ^ width ∣ j - i :=
    Nat.dvd_of_mod_eq_zero (Nat.sub_mod_eq_zero_of_mod_eq hmod)
  have hle : 256 ^ width ≤ j - i := Nat.le_of_dvd (by omega) hdvd
  omega

/-- The difficulty-1 target, `Target::MAX`. -/
def diff1Target : Nat := 0xFFFF * 2 ^ 208

/-- `difficulty_from_target`: `0` for a wrong length and for the zero target. -/
def difficultyFromTarget (target : List UInt8) : Rat :=
  if target.length ≠ 32 then 0
  else if leNat target = 0 then 0
  else diff1Target / leNat target

/-- The factor that turns a fractional difficulty into an integer one. -/
def difficultyScale : Nat := 2 ^ 16

/-- The target without a threshold. -/
def maxTarget : List UInt8 := List.replicate 32 255

/-- `target_from_difficulty`.  `f64::round` rounds half away from zero, and
the cast to `u128` saturates. -/
def targetFromDifficulty (difficulty : Rat) : List UInt8 :=
  if difficulty ≤ 0 then maxTarget
  else
    let denom := ⌊difficulty * difficultyScale + 1 / 2⌋
    if denom < 1 then maxTarget
    else leBytes 32 (diff1Target * difficultyScale / min denom.toNat (2 ^ 128 - 1))

theorem targetFromDifficulty_length (d : Rat) : (targetFromDifficulty d).length = 32 := by
  unfold targetFromDifficulty
  split
  · exact List.length_replicate
  · dsimp only
    split
    · exact List.length_replicate
    · exact leBytes_length ..

/-- A target never stands for a negative difficulty. -/
theorem difficultyFromTarget_nonneg (target : List UInt8) :
    0 ≤ difficultyFromTarget target := by
  unfold difficultyFromTarget
  split_ifs
  · exact le_rfl
  · exact le_rfl
  · positivity

/-- A target as it stands in a frame. -/
abbrev Target := { bytes : List UInt8 // bytes.length = 32 }

/-- The weight of a share at this target. -/
def Target.difficulty (t : Target) : Rat := difficultyFromTarget t.1

end RentalProxy
