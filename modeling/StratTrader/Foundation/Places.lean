import Mathlib.Algebra.BigOperators.Group.List.Basic
import Mathlib.Algebra.Order.Round
import Mathlib.Data.Rat.Floor
import Mathlib.Tactic.FieldSimp
import Mathlib.Tactic.Linarith
import Mathlib.Tactic.Ring

/-!
# Numbers of so many decimals

A column of a fixed number of decimals stores the nearest number that has them, and of two that are equally near the one
farther from zero, as SQL's `numeric` does.

## What is proved

* `toPlaces_of_hasPlaces`: a number with that many decimals is stored as it is.
* `toPlaces_mono`, `toPlaces_neg`: rounding keeps the order, and is the same on both sides of zero.
* `toPlaces_add`: to a number that is stored, not negative, a second one may be added before it is rounded or after.
* `abs_toPlaces_sub_le`: rounding is off by half a unit of the last place at most.
-/

namespace StratTrader.Foundation

/-! ### To the nearest integer -/

/-- The nearest integer, half away from zero. -/
def roundAway (x : ℚ) : ℤ := if 0 ≤ x then round x else -round (-x)

theorem roundAway_of_nonneg {x : ℚ} (h : 0 ≤ x) : roundAway x = round x := if_pos h

@[simp] theorem roundAway_intCast (m : ℤ) : roundAway m = m := by
  unfold roundAway
  split_ifs
  · exact round_intCast m
  · rw [← Int.cast_neg, round_intCast, neg_neg]

theorem roundAway_neg (x : ℚ) : roundAway (-x) = -roundAway x := by
  rcases lt_trichotomy x 0 with hneg | rfl | hpos
  · rw [roundAway_of_nonneg (by linarith), roundAway, if_neg (by linarith), neg_neg]
  · rw [neg_zero, roundAway_of_nonneg le_rfl, round_zero, neg_zero]
  · rw [roundAway, if_neg (by linarith), neg_neg, roundAway_of_nonneg hpos.le]

theorem round_mono {x y : ℚ} (h : x ≤ y) : round x ≤ round y := by
  rw [round_eq, round_eq]
  exact Int.floor_le_floor (by linarith)

theorem roundAway_nonneg {x : ℚ} (h : 0 ≤ x) : 0 ≤ roundAway x := by
  rw [roundAway_of_nonneg h, ← round_zero (α := ℚ)]
  exact round_mono h

theorem roundAway_mono {x y : ℚ} (h : x ≤ y) : roundAway x ≤ roundAway y := by
  rcases le_or_gt 0 x with hx | hx
  · rw [roundAway_of_nonneg hx, roundAway_of_nonneg (hx.trans h)]
    exact round_mono h
  · rcases le_or_gt 0 y with hy | hy
    · -- zero is between them
      have hleft : 0 ≤ roundAway (-x) := roundAway_nonneg (by linarith)
      rw [roundAway_neg] at hleft
      exact (by linarith : roundAway x ≤ 0).trans (roundAway_nonneg hy)
    · rw [← neg_le_neg_iff, ← roundAway_neg, ← roundAway_neg, roundAway_of_nonneg (by linarith),
        roundAway_of_nonneg (by linarith)]
      exact round_mono (neg_le_neg h)

/-- An integer may be added before or after, on the same side of zero. -/
theorem roundAway_add {m : ℤ} {x : ℚ} (hm : 0 ≤ m) (hx : 0 ≤ x) : roundAway (m + x) = m + roundAway x := by
  have hsum : (0 : ℚ) ≤ m + x := add_nonneg (Int.cast_nonneg hm) hx
  rw [roundAway_of_nonneg hsum, roundAway_of_nonneg hx, round_intCast_add]

theorem abs_roundAway_sub_le (x : ℚ) : |(roundAway x : ℚ) - x| ≤ 1 / 2 := by
  unfold roundAway
  split_ifs
  · rw [abs_sub_comm]
    exact abs_sub_round x
  · have heq : ((-round (-x) : ℤ) : ℚ) - x = -x - round (-x) := by
      rw [Int.cast_neg]
      ring
    rw [heq]
    exact abs_sub_round (-x)

/-! ### To the nearest number of `d` decimals -/

/-- A number of `d` decimals. -/
def HasPlaces (d : ℕ) (x : ℚ) : Prop := ∃ m : ℤ, x = m / 10 ^ d

/-- The nearest number of `d` decimals, half away from zero. -/
def toPlaces (d : ℕ) (x : ℚ) : ℚ := roundAway (x * 10 ^ d) / 10 ^ d

variable {d : ℕ} {x y : ℚ}

theorem hasPlaces_toPlaces (d : ℕ) (x : ℚ) : HasPlaces d (toPlaces d x) := ⟨_, rfl⟩

theorem unit_pos (d : ℕ) : (0 : ℚ) < 10 ^ d := pow_pos (by norm_num) d

theorem toPlaces_of_hasPlaces (h : HasPlaces d x) : toPlaces d x = x := by
  obtain ⟨m, rfl⟩ := h
  rw [toPlaces, div_mul_cancel₀ _ (unit_pos d).ne', roundAway_intCast]

theorem hasPlaces_iff : HasPlaces d x ↔ toPlaces d x = x :=
  ⟨toPlaces_of_hasPlaces, fun h => h ▸ hasPlaces_toPlaces d x⟩

instance (d : ℕ) (x : ℚ) : Decidable (HasPlaces d x) := decidable_of_iff _ hasPlaces_iff.symm

theorem hasPlaces_zero (d : ℕ) : HasPlaces d 0 := ⟨0, by simp⟩

theorem HasPlaces.add (hx : HasPlaces d x) (hy : HasPlaces d y) : HasPlaces d (x + y) := by
  obtain ⟨m, rfl⟩ := hx
  obtain ⟨n, rfl⟩ := hy
  exact ⟨m + n, by rw [Int.cast_add, add_div]⟩

theorem HasPlaces.neg (hx : HasPlaces d x) : HasPlaces d (-x) := by
  obtain ⟨m, rfl⟩ := hx
  exact ⟨-m, by rw [Int.cast_neg, neg_div]⟩

theorem hasPlaces_sum {xs : List ℚ} (h : ∀ x ∈ xs, HasPlaces d x) : HasPlaces d xs.sum := by
  induction xs with
  | nil => exact hasPlaces_zero d
  | cons x xs ih =>
    rw [List.sum_cons]
    exact (h x (.head _)).add (ih fun y hy => h y (.tail _ hy))

@[simp] theorem toPlaces_zero (d : ℕ) : toPlaces d 0 = 0 := toPlaces_of_hasPlaces (hasPlaces_zero d)

theorem toPlaces_neg (d : ℕ) (x : ℚ) : toPlaces d (-x) = -toPlaces d x := by
  rw [toPlaces, neg_mul, roundAway_neg, Int.cast_neg, neg_div, toPlaces]

theorem toPlaces_mono (d : ℕ) (h : x ≤ y) : toPlaces d x ≤ toPlaces d y := by
  have hscaled : x * 10 ^ d ≤ y * 10 ^ d := mul_le_mul_of_nonneg_right h (unit_pos d).le
  exact div_le_div_of_nonneg_right (Int.cast_le.mpr (roundAway_mono hscaled)) (unit_pos d).le

theorem toPlaces_nonneg (h : 0 ≤ x) : 0 ≤ toPlaces d x := by
  rw [← toPlaces_zero d]
  exact toPlaces_mono d h

theorem toPlaces_max (d : ℕ) (x y : ℚ) : toPlaces d (max x y) = max (toPlaces d x) (toPlaces d y) :=
  Monotone.map_max fun _ _ h => toPlaces_mono d h

/-- What is stored already may be added before or after. -/
theorem toPlaces_add (hplaces : HasPlaces d x) (hx : 0 ≤ x) (hy : 0 ≤ y) : toPlaces d (x + y) = x + toPlaces d y := by
  obtain ⟨m, rfl⟩ := hplaces
  have hm : 0 ≤ m := by
    have hscaled := mul_nonneg hx (unit_pos d).le
    rw [div_mul_cancel₀ _ (unit_pos d).ne'] at hscaled
    exact Int.cast_nonneg_iff.mp hscaled
  rw [toPlaces, add_mul, div_mul_cancel₀ _ (unit_pos d).ne', roundAway_add hm (mul_nonneg hy (unit_pos d).le),
    Int.cast_add, add_div, toPlaces]

/-- Rounding is off by half a unit of the last place at most. -/
theorem abs_toPlaces_sub_le (d : ℕ) (x : ℚ) : |toPlaces d x - x| ≤ 1 / 2 / 10 ^ d := by
  have hscaled : toPlaces d x - x = (roundAway (x * 10 ^ d) - x * 10 ^ d) / 10 ^ d := by
    rw [toPlaces, sub_div, mul_div_cancel_right₀ _ (unit_pos d).ne']
  rw [hscaled, abs_div, abs_of_pos (unit_pos d)]
  exact div_le_div_of_nonneg_right (abs_roundAway_sub_le _) (unit_pos d).le

end StratTrader.Foundation
