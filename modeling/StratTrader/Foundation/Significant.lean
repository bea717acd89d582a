import StratTrader.Foundation.Python
import Mathlib.Algebra.Order.Field.Power
import Mathlib.Tactic.FieldSimp
import Mathlib.Tactic.Linarith
import Mathlib.Tactic.Positivity
import Mathlib.Tactic.Ring

/-!
# Significant digits

A positive number rounded to some significant digits in some base, to the nearest and to the even
one of two: 53 digits in base 2 for a float, a few in base 10 for its text.

## What is proved

* `significant_error`: how far rounding goes.
* `significant_of_near`: a number close enough to one of few digits is rounded to it.
* `exists_digits_significant`: what rounding leaves has that many digits.
-/

namespace StratTrader.Foundation

open Decimal (roundHalfEven)

/-- The unit of the last of `p` significant digits. -/
def lastPlace (b p : ℕ) (x : ℚ) : ℚ := (b : ℚ) ^ (Int.log b |x| + 1 - p)

/-- `x` with `p` significant digits in base `b`. -/
def significant (b p : ℕ) (x : ℚ) : ℚ :=
  if x = 0 then 0 else roundHalfEven (x / lastPlace b p x) * lastPlace b p x

/-- The float that is nearest to a number, without an upper bound. -/
def double (x : ℚ) : ℚ :=
  let unit := max (lastPlace 2 53 x) (2 ^ (-1074 : ℤ))
  roundHalfEven (x / unit) * unit

/-! ### To the nearest integer -/

theorem roundHalfEven_error (x : ℚ) : |(roundHalfEven x : ℚ) - x| ≤ 1 / 2 := by
  have hlow := Int.floor_le x
  have hhigh := Int.lt_floor_add_one x
  unfold roundHalfEven
  dsimp only
  split_ifs with hdown
  · have hle : x - ⌊x⌋ ≤ 1 / 2 := by
      rcases hdown with h | h
      · exact h.le
      · exact h.1.le
    rw [abs_le]
    constructor <;> linarith
  · have hle : 1 / 2 ≤ x - ⌊x⌋ := not_lt.mp fun h => hdown (.inl h)
    push_cast
    rw [abs_le]
    constructor <;> linarith

theorem roundHalfEven_of_near {x : ℚ} {m : ℤ} (h : |x - m| < 1 / 2) : roundHalfEven x = m := by
  have herror := roundHalfEven_error x
  have hlt : |((roundHalfEven x - m : ℤ) : ℚ)| < 1 := by
    have htriangle := abs_add_le ((roundHalfEven x : ℚ) - x) (x - m)
    rw [sub_add_sub_cancel] at htriangle
    push_cast
    linarith
  have hzero : roundHalfEven x - m = 0 := Int.abs_lt_one_iff.mp (by exact_mod_cast hlt)
  exact sub_eq_zero.mp hzero

/-! ### To significant digits -/

variable {b p : ℕ} {x : ℚ}

theorem lastPlace_pos (hb : 1 < b) (p : ℕ) (x : ℚ) : 0 < lastPlace b p x :=
  zpow_pos (Nat.cast_pos.mpr (Nat.zero_lt_of_lt hb)) _

theorem significant_error (hb : 1 < b) (p : ℕ) (x : ℚ) : |significant b p x - x| ≤ lastPlace b p x / 2 := by
  have hpos := lastPlace_pos hb p x
  unfold significant
  split_ifs with hx
  · rw [hx, sub_zero, abs_zero]
    rw [hx] at hpos
    exact (half_pos hpos).le
  · have herror := roundHalfEven_error (x / lastPlace b p x)
    have hscale : (roundHalfEven (x / lastPlace b p x) : ℚ) * lastPlace b p x - x =
        (roundHalfEven (x / lastPlace b p x) - x / lastPlace b p x) * lastPlace b p x := by
      rw [sub_mul, div_mul_cancel₀ _ hpos.ne']
    rw [hscale, abs_mul, abs_of_pos hpos]
    linarith [mul_le_mul_of_nonneg_right herror hpos.le]

theorem lastPlace_le (hb : 1 < b) (p : ℕ) (hx : 0 < x) : lastPlace b p x ≤ x * (b : ℚ) ^ (1 - p : ℤ) := by
  have hpos : (0 : ℚ) < b := Nat.cast_pos.mpr (Nat.zero_lt_of_lt hb)
  have hlog := Int.zpow_log_le_self hb hx
  unfold lastPlace
  rw [abs_of_pos hx, add_sub_assoc, zpow_add₀ hpos.ne']
  exact mul_le_mul_of_nonneg_right hlog (zpow_pos hpos _).le

/-- A number of `p` digits stands in its place. -/
theorem log_of_digits {m : ℕ} {k : ℤ} (hb : 1 < b) (hlow : b ^ (p - 1) ≤ m) (hhigh : m < b ^ p) :
    Int.log b ((m : ℚ) * (b : ℚ) ^ k) = k + p - 1 := by
  have hpos : (0 : ℚ) < b := Nat.cast_pos.mpr (Nat.zero_lt_of_lt hb)
  have hp : 0 < p := by
    rcases Nat.eq_zero_or_pos p with rfl | hp
    · have hm : 0 < m := lt_of_lt_of_le (pow_pos (Nat.zero_lt_of_lt hb) _) hlow
      rw [pow_zero] at hhigh
      omega
    · exact hp
  have hk : (0 : ℚ) < (b : ℚ) ^ k := zpow_pos hpos k
  have hlow' : (b : ℚ) ^ ((p : ℤ) - 1) ≤ m := by
    rw [← Nat.cast_one, ← Nat.cast_sub hp, zpow_natCast]
    exact_mod_cast hlow
  have hhigh' : (m : ℚ) < (b : ℚ) ^ (p : ℤ) := by
    rw [zpow_natCast]
    exact_mod_cast hhigh
  have hx : (0 : ℚ) < m * (b : ℚ) ^ k := mul_pos ((zpow_pos hpos _).trans_le hlow') hk
  refine le_antisymm (Int.lt_add_one_iff.mp ((Int.lt_zpow_iff_log_lt hb hx).mp ?_)) ((Int.zpow_le_iff_le_log hb hx).mp ?_)
  · rw [show k + p - 1 + 1 = (p : ℤ) + k by ring, zpow_add₀ hpos.ne']
    exact mul_lt_mul_of_pos_right hhigh' hk
  · rw [show k + p - 1 = ((p : ℤ) - 1) + k by ring, zpow_add₀ hpos.ne']
    exact mul_le_mul_of_nonneg_right hlow' hk.le

/-- A multiple of the unit that is nearer than half of it. -/
theorem significant_of_unit (hb : 1 < b) (hx : x ≠ 0) {M : ℤ} (hnear : |x - M * lastPlace b p x| < lastPlace b p x / 2) :
    significant b p x = M * lastPlace b p x := by
  have hpos := lastPlace_pos hb p x
  have hscale : x / lastPlace b p x - M = (x - M * lastPlace b p x) / lastPlace b p x := by
    rw [sub_div, mul_div_cancel_right₀ _ hpos.ne']
  have hhalf : |x / lastPlace b p x - M| < 1 / 2 := by
    rw [hscale, abs_div, abs_of_pos hpos, div_lt_iff₀ hpos]
    linarith
  unfold significant
  rw [if_neg hx, roundHalfEven_of_near hhalf]

/-- **A number that is close to one of `p` digits is rounded to it.** -/
theorem significant_of_near {m : ℕ} {k : ℤ} (hb : 1 < b) (hlow : b ^ (p - 1) ≤ m) (hhigh : m < b ^ p)
    (hnear : |x - m * (b : ℚ) ^ k| < (b : ℚ) ^ k / (2 * b)) : significant b p x = m * (b : ℚ) ^ k := by
  have hpos : (0 : ℚ) < b := Nat.cast_pos.mpr (Nat.zero_lt_of_lt hb)
  have htwo : (2 : ℚ) ≤ b := by exact_mod_cast hb
  have hk : (0 : ℚ) < (b : ℚ) ^ k := zpow_pos hpos k
  have hm : (1 : ℚ) ≤ m := by exact_mod_cast (pow_pos (Nat.zero_lt_of_lt hb) (p - 1)).trans_le hlow
  have hr : (0 : ℚ) < m * (b : ℚ) ^ k := mul_pos (one_pos.trans_le hm) hk
  have hlog := log_of_digits (k := k) hb hlow hhigh
  -- half of the last digit's own last place
  have htiny : (b : ℚ) ^ k / (2 * b) ≤ (b : ℚ) ^ k / 4 := div_le_div_of_nonneg_left hk.le (by norm_num) (by linarith)
  obtain ⟨hbelow, habove⟩ := abs_lt.mp hnear
  have hx : 0 < x := by linarith [mul_le_mul_of_nonneg_right hm hk.le]
  have hupper : Int.log b x ≤ k + p - 1 := by
    have hnext : (m : ℚ) + 1 ≤ (b : ℚ) ^ (p : ℤ) := by
      rw [zpow_natCast]
      exact_mod_cast hhigh
    have hlt : x < (b : ℚ) ^ (k + p - 1 + 1) := by
      rw [show k + p - 1 + 1 = (p : ℤ) + k by ring, zpow_add₀ hpos.ne']
      linarith [mul_le_mul_of_nonneg_right hnext hk.le]
    exact Int.lt_add_one_iff.mp ((Int.lt_zpow_iff_log_lt hb hx).mp hlt)
  have hlower : k + p - 1 - 1 ≤ Int.log b x := by
    refine (Int.zpow_le_iff_le_log hb hx).mp ?_
    have hself := Int.zpow_log_le_self hb hr
    rw [hlog] at hself
    rw [zpow_sub_one₀ hpos.ne', ← div_eq_mul_inv, div_le_iff₀ hpos]
    have hdouble : x * 2 ≤ x * b := mul_le_mul_of_nonneg_left htwo hx.le
    linarith [mul_le_mul_of_nonneg_right hm hk.le]
  have habs : |x| = x := abs_of_pos hx
  rcases eq_or_lt_of_le hupper with hsame | hless
  · have hplace : lastPlace b p x = (b : ℚ) ^ k := by
      unfold lastPlace
      rw [habs, hsame]
      congr 1
      ring
    rw [← Int.cast_natCast, ← hplace]
    refine significant_of_unit hb hx.ne' ?_
    rw [hplace, Int.cast_natCast]
    linarith
  · have hplace : lastPlace b p x = (b : ℚ) ^ k / b := by
      unfold lastPlace
      rw [habs, show Int.log b x + 1 - p = k - 1 by omega, zpow_sub_one₀ hpos.ne', div_eq_mul_inv]
    have hmul : (m : ℚ) * (b : ℚ) ^ k = ((m * b : ℤ) : ℚ) * lastPlace b p x := by
      rw [hplace]
      push_cast
      field_simp
    rw [hmul] at hnear ⊢
    refine significant_of_unit hb hx.ne' ?_
    rw [hplace] at hnear ⊢
    refine hnear.trans_le (le_of_eq ?_)
    field_simp

/-- **What rounding leaves has `p` digits.** -/
theorem exists_digits_significant (hb : 1 < b) (hp : 0 < p) (hx : 0 < x) :
    ∃ (m : ℕ) (k : ℤ), b ^ (p - 1) ≤ m ∧ m < b ^ p ∧ significant b p x = m * (b : ℚ) ^ k := by
  have hpos : (0 : ℚ) < b := Nat.cast_pos.mpr (Nat.zero_lt_of_lt hb)
  obtain ⟨u, hu⟩ : ∃ u, lastPlace b p x = u := ⟨_, rfl⟩
  have hupos : 0 < u := hu ▸ lastPlace_pos hb p x
  have hunit : (b : ℚ) ^ (Int.log b x + 1 - p) = u := by
    rw [← hu]
    unfold lastPlace
    rw [abs_of_pos hx]
  obtain ⟨R, hR⟩ : ∃ R, roundHalfEven (x / u) = R := ⟨_, rfl⟩
  have hround : significant b p x = R * u := by
    unfold significant
    rw [if_neg hx.ne', hu, hR]
  have herror := abs_le.mp (roundHalfEven_error (x / u))
  rw [hR] at herror
  -- the quotient has `p` digits before the point
  have hquot : ((b ^ (p - 1) : ℕ) : ℚ) ≤ x / u := by
    rw [le_div_iff₀ hupos, ← hunit, Nat.cast_pow, ← zpow_natCast, ← zpow_add₀ hpos.ne', Nat.cast_sub hp, Nat.cast_one,
      show (p : ℤ) - 1 + (Int.log b x + 1 - p) = Int.log b x by ring]
    exact Int.zpow_log_le_self hb hx
  have hquot' : x / u < ((b ^ p : ℕ) : ℚ) := by
    rw [div_lt_iff₀ hupos, ← hunit, Nat.cast_pow, ← zpow_natCast, ← zpow_add₀ hpos.ne',
      show (p : ℤ) + (Int.log b x + 1 - p) = Int.log b x + 1 by ring]
    exact Int.lt_zpow_succ_log_self hb x
  have hlow : ((b ^ (p - 1) : ℕ) : ℤ) ≤ R := by
    have hlt : (((b ^ (p - 1) : ℕ) : ℤ) : ℚ) < ((R + 1 : ℤ) : ℚ) := by
      push_cast at hquot ⊢
      linarith
    exact Int.lt_add_one_iff.mp (by exact_mod_cast hlt)
  have hhigh : R ≤ ((b ^ p : ℕ) : ℤ) := by
    have hlt : (R : ℚ) < ((((b ^ p : ℕ) : ℤ) + 1 : ℤ) : ℚ) := by
      push_cast at hquot' ⊢
      linarith
    exact Int.lt_add_one_iff.mp (by exact_mod_cast hlt)
  obtain ⟨m, rfl⟩ := Int.eq_ofNat_of_zero_le ((Int.natCast_nonneg _).trans hlow)
  rcases eq_or_lt_of_le hhigh with hcarry | hfits
  · -- a carry beyond the first digit
    refine ⟨b ^ (p - 1), Int.log b x + 2 - p, le_rfl, Nat.pow_lt_pow_right hb (by omega), ?_⟩
    rw [hround, hcarry, ← hunit, Int.cast_natCast, Nat.cast_pow, Nat.cast_pow, ← zpow_natCast, ← zpow_natCast,
      ← zpow_add₀ hpos.ne', ← zpow_add₀ hpos.ne', Nat.cast_sub hp]
    congr 1
    push_cast
    ring
  · refine ⟨m, Int.log b x + 1 - p, by exact_mod_cast hlow, by exact_mod_cast hfits, ?_⟩
    rw [hround, hunit, Int.cast_natCast]

/-! ### The default context of `decimal` -/

open Decimal (round28)

theorem roundHalfEven_nonneg (hx : 0 ≤ x) : 0 ≤ roundHalfEven x := by
  have hfloor : 0 ≤ ⌊x⌋ := Int.floor_nonneg.mpr hx
  unfold roundHalfEven
  dsimp only
  split_ifs
  · exact hfloor
  · exact hfloor.trans (by simp)

theorem round28_nonneg (hx : 0 ≤ x) : 0 ≤ round28 x := by
  unfold round28
  split_ifs
  · exact le_rfl
  · have hunit : (0 : ℚ) < 10 ^ (Int.log 10 |x| - 27) := zpow_pos (by norm_num) _
    have hround := roundHalfEven_nonneg (div_nonneg hx hunit.le)
    exact mul_nonneg (by exact_mod_cast hround) hunit.le

/-- Rounding takes no more than half of a loss away. -/
theorem round28_le_half (hx : x < 0) : round28 x ≤ x / 2 := by
  have hpos : 0 < |x| := abs_pos.mpr hx.ne
  have hunit : (0 : ℚ) < 10 ^ (Int.log 10 |x| - 27) := zpow_pos (by norm_num) _
  have hsmall : (10 : ℚ) ^ (Int.log 10 |x| - 27) ≤ |x| :=
    (zpow_le_zpow_right₀ (by norm_num) (by omega)).trans (Int.zpow_log_le_self (b := 10) (by norm_num) hpos)
  have herror := (abs_le.mp (roundHalfEven_error (x / 10 ^ (Int.log 10 |x| - 27)))).2
  have hscaled := mul_le_mul_of_nonneg_right herror hunit.le
  rw [sub_mul, div_mul_cancel₀ _ hunit.ne'] at hscaled
  unfold round28
  rw [if_neg hx.ne]
  dsimp only
  rw [abs_of_neg hx] at hsmall hscaled ⊢
  linarith

end StratTrader.Foundation
