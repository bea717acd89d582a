import Mathlib.Algebra.BigOperators.Field
import Mathlib.Algebra.Order.BigOperators.Ring.Finset
import Mathlib.Algebra.Order.Field.Basic
import Mathlib.Tactic.FieldSimp
import Mathlib.Tactic.Ring

/-!
# The mean and the variance of a sample

Of the values `x i` at the places `i` of a finite set.

## What is proved

* `variance_eq`: the variance is the mean of the squares less the square of the mean.
* `variance_nonneg`.
-/

namespace StratTrader.Foundation

variable {ι K : Type*}

section
variable [Field K]

/-- The mean over a set of places. -/
def mean (places : Finset ι) (x : ι → K) : K := (∑ i ∈ places, x i) / places.card

/-- The population variance over a set of places. -/
def variance (places : Finset ι) (x : ι → K) : K := (∑ i ∈ places, (x i - mean places x) ^ 2) / places.card

theorem card_mul_mean [CharZero K] {places : Finset ι} (h : places.Nonempty) (x : ι → K) :
    places.card * mean places x = ∑ i ∈ places, x i :=
  mul_div_cancel₀ _ (Nat.cast_ne_zero.mpr h.card_pos.ne')

/-- **The variance by sums of squares.** -/
theorem variance_eq [CharZero K] (places : Finset ι) (x : ι → K) :
    variance places x = (∑ i ∈ places, x i ^ 2) / places.card - mean places x ^ 2 := by
  obtain rfl | hne := places.eq_empty_or_nonempty
  · simp [variance, mean]
  have hcard : (places.card : K) ≠ 0 := Nat.cast_ne_zero.mpr hne.card_pos.ne'
  have hsquares : ∑ i ∈ places, (x i - mean places x) ^ 2 =
      ∑ i ∈ places, x i ^ 2 - places.card * mean places x ^ 2 := by
    have hsplit (i : ι) : (x i - mean places x) ^ 2 =
        x i ^ 2 - 2 * mean places x * x i + mean places x ^ 2 := by ring
    simp only [hsplit]
    rw [Finset.sum_add_distrib, Finset.sum_sub_distrib, ← Finset.mul_sum, Finset.sum_const, nsmul_eq_mul,
      ← card_mul_mean hne x]
    ring
  unfold variance
  rw [hsquares, sub_div, mul_div_cancel_left₀ _ hcard]

end

theorem variance_nonneg [Field K] [LinearOrder K] [IsStrictOrderedRing K] (places : Finset ι) (x : ι → K) :
    0 ≤ variance places x :=
  div_nonneg (Finset.sum_nonneg fun _ _ => sq_nonneg _) (Nat.cast_nonneg _)

end StratTrader.Foundation
