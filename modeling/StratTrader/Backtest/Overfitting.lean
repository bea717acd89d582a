import StratTrader.Foundation.Choices
import StratTrader.Foundation.Moments
import Mathlib.Analysis.Real.Sqrt
import Mathlib.Tactic.Positivity

/-!
# The probability of backtest overfitting

`backtest/pbo.py`: the daily returns of all combos are cut into blocks, and for each choice of half of the blocks the
combo that is best on them is ranked on the other half. The code never gathers the rows of a choice. It sums each
block once, adds up the sums of the chosen blocks by a product with a membership matrix, takes those of the other
half from the totals, and the variance from the sum of squares.

## What is proved

* `sum_rowsOf`: what is added up over the blocks of a choice is the sum over its rows.
* `sharpeOf_eq`: the ratio by sums is that of the rows.
* `overfit_iff`, `probability_eq_pbo`: the result is the part of the choices that overfit, by the rows.

## Honest scope

Arithmetic is exact. The matrix has two dimensions, and the block count is not negative.
-/

namespace StratTrader.Backtest

open StratTrader.Foundation

/-- `_MIN_COMBOS`. -/
def minCombos : ℕ := 10

/-- What the computation raises. -/
inductive PboError
  /-- A `ValueError`. -/
  | valueError (text : String)
  /-- The rows divided among no blocks. -/
  | zeroDivisionError

/-- The place of a row of a block. -/
def row {t s : ℕ} (b : Fin s) (r : Fin (t / s)) : Fin t :=
  ⟨b * (t / s) + r, by
    have hblock : b * (t / s) + r < (b + 1) * (t / s) := by rw [Nat.succ_mul]; exact Nat.add_lt_add_left r.isLt _
    exact hblock.trans_le ((Nat.mul_le_mul_right _ b.isLt).trans (Nat.mul_div_le t s))⟩

section
variable {K : Type} [Field K] {t n s : ℕ}

/-- `block_sum`. -/
def blockSum (m : Fin t → Fin n → K) (b : Fin s) (c : Fin n) : K := ∑ r, m (row b r) c

/-- `block_sumsq`. -/
def blockSumsq (m : Fin t → Fin n → K) (b : Fin s) (c : Fin n) : K := ∑ r, m (row b r) c ^ 2

/-- A row of the membership matrix `p_mat`. -/
def pMat (choice : List (Fin s)) (b : Fin s) : K := if b ∈ choice then 1 else 0

/-- A row of a product with the membership matrix. -/
def sumIs (choice : List (Fin s)) (blocks : Fin s → Fin n → K) (c : Fin n) : K := ∑ b, pMat choice b * blocks b c

/-- The totals less what is in sample. -/
def sumOos (choice : List (Fin s)) (blocks : Fin s → Fin n → K) (c : Fin n) : K :=
  ∑ b, blocks b c - sumIs choice blocks c

variable [LinearOrder K] (sqrt : K → K)

/-- `_sharpe`: a combo without variance ranks below all others. -/
def sharpeOf (sumX sumX2 : Fin n → K) (count : ℕ) (c : Fin n) : WithBot K :=
  let mean := sumX c / count
  let var := max (sumX2 c / count - mean ^ 2) 0
  let std := sqrt var
  if 0 < std then ↑(mean / std) else ⊥

/-- Whether the combo that is best in sample is in the bottom half out of sample. -/
def overfit (hn : 0 < n) (m : Fin t → Fin n → K) (choice : List (Fin s)) : Bool :=
  let count := s / 2 * (t / s)
  let sharpeIs := sharpeOf sqrt (sumIs choice (blockSum m)) (sumIs choice (blockSumsq m)) count
  let sharpeOos := sharpeOf sqrt (sumOos choice (blockSum m)) (sumOos choice (blockSumsq m)) count
  let oosOfBest := sharpeOos (firstBest hn sharpeIs)
  let below := (List.finRange n).countP fun c => sharpeOos c < oosOfBest
  decide ((below : K) / (n - 1) ≤ 1 / 2)

/-- `probability_of_backtest_overfitting`. -/
def probabilityOfBacktestOverfitting (m : Fin t → Fin n → K) (s : ℕ) : Except PboError (Option K) :=
  if h : n < minCombos ∨ t < 2 * s then .ok none
  else if s % 2 ≠ 0 then .error (.valueError "CSCV requires an even block count S.")
  else if s = 0 then .error .zeroDivisionError
  else
    have hn : 0 < n := lt_of_lt_of_le (by decide) (Nat.le_of_not_lt fun hlt => h (.inl hlt))
    let trainSets := combinations (s / 2) (List.finRange s)
    .ok (some ((trainSets.countP (overfit sqrt hn m) : K) / trainSets.length))

end

/-! ### By the rows -/

section
variable {t n s : ℕ}

/-- The rows of a block: as many for each, one block behind the other. -/
def blockRows (t : ℕ) (b : Fin s) : Finset (Fin t) :=
  Finset.univ.filter fun i => (b : ℕ) * (t / s) ≤ i ∧ i < ((b : ℕ) + 1) * (t / s)

/-- The rows of some blocks. -/
def rowsOf (t : ℕ) (blocks : Finset (Fin s)) : Finset (Fin t) := blocks.biUnion (blockRows t)

/-- The Sharpe ratio of a combo over some rows. -/
noncomputable def sharpe (m : Fin t → Fin n → ℝ) (rows : Finset (Fin t)) (c : Fin n) : WithBot ℝ :=
  if variance rows (m · c) = 0 then ⊥ else ↑(mean rows (m · c) / √(variance rows (m · c)))

/-- The combo that is best on the train rows has at most half of the others below it on the other rows. -/
def Overfits (m : Fin t → Fin n → ℝ) (train : Finset (Fin s)) : Prop :=
  ∃ best, IsBest (sharpe m (rowsOf t train)) best ∧
    ((Finset.univ.filter fun c => sharpe m (rowsOf t trainᶜ) c < sharpe m (rowsOf t trainᶜ) best).card : ℝ) ≤
      (n - 1) / 2

open Classical in
/-- The part of the ways to choose half of the blocks that overfit. -/
noncomputable def pbo (m : Fin t → Fin n → ℝ) (s : ℕ) : ℝ :=
  (((Finset.univ : Finset (Fin s)).powersetCard (s / 2)).filter (Overfits m)).card / s.choose (s / 2)

theorem mem_blockRows {b : Fin s} {i : Fin t} :
    i ∈ blockRows t b ↔ (b : ℕ) * (t / s) ≤ i ∧ i < ((b : ℕ) + 1) * (t / s) := by
  simp only [blockRows, Finset.mem_filter, Finset.mem_univ, true_and]

theorem row_injective (b : Fin s) : Function.Injective (row (t := t) b) := fun _ _ h =>
  Fin.ext (Nat.add_left_cancel (Fin.val_eq_of_eq h))

/-- The rows of a block are those the code adds up for it. -/
theorem blockRows_eq (b : Fin s) : blockRows t b = Finset.univ.map ⟨row b, row_injective b⟩ := by
  ext i
  rw [mem_blockRows, Finset.mem_map]
  constructor
  · rintro ⟨hlow, hhigh⟩
    rw [Nat.succ_mul] at hhigh
    exact ⟨⟨i - b * (t / s), Nat.sub_lt_left_of_lt_add hlow hhigh⟩, Finset.mem_univ _,
      Fin.ext (Nat.add_sub_cancel' hlow)⟩
  · rintro ⟨r, -, rfl⟩
    refine ⟨Nat.le_add_right _ _, ?_⟩
    rw [Nat.succ_mul]
    exact Nat.add_lt_add_left r.isLt _

/-- No row is of two blocks. -/
theorem blockRows_disjoint {a b : Fin s} (hab : a ≠ b) : Disjoint (blockRows t a) (blockRows t b) := by
  rw [Finset.disjoint_left]
  intro i ha hb
  rw [mem_blockRows] at ha hb
  have hle : (a : ℕ) = b := Nat.le_antisymm
    (Nat.le_of_lt_succ (Nat.lt_of_mul_lt_mul_right (ha.1.trans_lt hb.2)))
    (Nat.le_of_lt_succ (Nat.lt_of_mul_lt_mul_right (hb.1.trans_lt ha.2)))
  exact hab (Fin.ext hle)

/-- **A sum over the rows of some blocks**, block by block. -/
theorem sum_rowsOf {K : Type} [AddCommMonoid K] (blocks : Finset (Fin s)) (x : Fin t → K) :
    ∑ i ∈ rowsOf t blocks, x i = ∑ b ∈ blocks, ∑ r, x (row b r) := by
  unfold rowsOf
  rw [Finset.sum_biUnion fun a _ b _ hab => blockRows_disjoint hab]
  refine Finset.sum_congr rfl fun b _ => ?_
  rw [blockRows_eq, Finset.sum_map]
  rfl

theorem card_rowsOf (blocks : Finset (Fin s)) : (rowsOf t blocks).card = blocks.card * (t / s) := by
  rw [Finset.card_eq_sum_ones, sum_rowsOf]
  simp

section
variable {K : Type} [Field K]

/-- **In sample**: the product with the membership matrix adds up the rows of the choice. -/
theorem sumIs_eq (choice : List (Fin s)) (x : Fin t → Fin n → K) (c : Fin n) :
    sumIs choice (blockSum x) c = ∑ i ∈ rowsOf t choice.toFinset, x i c := by
  rw [sum_rowsOf]
  unfold sumIs pMat blockSum
  simp only [ite_mul, one_mul, zero_mul, ← List.mem_toFinset (l := choice)]
  rw [Finset.sum_ite_mem, Finset.univ_inter]

/-- **Out of sample**: what is left of the totals is of the rows of the other blocks. -/
theorem sumOos_eq (choice : List (Fin s)) (x : Fin t → Fin n → K) (c : Fin n) :
    sumOos choice (blockSum x) c = ∑ i ∈ rowsOf t choice.toFinsetᶜ, x i c := by
  unfold sumOos
  rw [sumIs_eq, sum_rowsOf, sum_rowsOf, sub_eq_iff_eq_add, Finset.sum_compl_add_sum]
  rfl

end

/-- **The ratio by sums** is that of the rows. -/
theorem sharpeOf_eq (m : Fin t → Fin n → ℝ) (rows : Finset (Fin t)) {sumX sumX2 : Fin n → ℝ} {count : ℕ}
    (hcount : rows.card = count) {c : Fin n} (hsum : sumX c = ∑ i ∈ rows, m i c)
    (hsumsq : sumX2 c = ∑ i ∈ rows, m i c ^ 2) : sharpeOf Real.sqrt sumX sumX2 count c = sharpe m rows c := by
  have hmean : sumX c / count = mean rows (m · c) := by rw [hsum, ← hcount]; rfl
  have hvar : sumX2 c / count - mean rows (m · c) ^ 2 = variance rows (m · c) := by
    rw [hsumsq, ← hcount, variance_eq]
  have hnonneg := variance_nonneg rows (m · c)
  unfold sharpeOf sharpe
  simp only [hmean, hvar, max_eq_left hnonneg, Real.sqrt_pos]
  by_cases hzero : variance rows (m · c) = 0
  · rw [if_pos hzero, if_neg hzero.not_gt]
  · rw [if_neg hzero, if_pos (lt_of_le_of_ne hnonneg (Ne.symm hzero))]

/-! ### The choices -/

section
variable {m : Fin t → Fin n → ℝ} {choice : List (Fin s)}

/-- Half of the blocks, none twice, and the other half. -/
theorem card_rowsOf_half (hs : Even s) (hnodup : choice.Nodup) (hlength : choice.length = s / 2) :
    (rowsOf t choice.toFinset).card = s / 2 * (t / s) ∧ (rowsOf t choice.toFinsetᶜ).card = s / 2 * (t / s) := by
  rw [card_rowsOf, card_rowsOf, Finset.card_compl, List.toFinset_card_of_nodup hnodup, hlength, Fintype.card_fin]
  refine ⟨rfl, ?_⟩
  obtain ⟨k, rfl⟩ := hs
  rw [← two_mul, Nat.mul_div_cancel_left k Nat.two_pos, two_mul, Nat.add_sub_cancel]

theorem countP_finRange (p : Fin n → Prop) [DecidablePred p] :
    (List.finRange n).countP (fun c => decide (p c)) = (Finset.univ.filter p).card := by
  rw [Fin.univ_def, Finset.card_def, Finset.filter_val, ← Multiset.countP_eq_card_filter]
  rfl

/-- **The code finds a choice to overfit** exactly if it does by the rows. -/
theorem overfit_iff (hs : Even s) (hn : 1 < n) (hnodup : choice.Nodup) (hlength : choice.length = s / 2) :
    overfit Real.sqrt (Nat.zero_lt_of_lt hn) m choice = true ↔ Overfits m choice.toFinset := by
  obtain ⟨hIs, hOos⟩ := card_rowsOf_half (t := t) hs hnodup hlength
  have hsharpeIs : sharpeOf Real.sqrt (sumIs choice (blockSum m)) (sumIs choice (blockSumsq m)) (s / 2 * (t / s)) =
      sharpe m (rowsOf t choice.toFinset) := funext fun c =>
    sharpeOf_eq m _ hIs (sumIs_eq choice m c) (sumIs_eq choice (fun i c => m i c ^ 2) c)
  have hsharpeOos : sharpeOf Real.sqrt (sumOos choice (blockSum m)) (sumOos choice (blockSumsq m))
      (s / 2 * (t / s)) = sharpe m (rowsOf t choice.toFinsetᶜ) := funext fun c =>
    sharpeOf_eq m _ hOos (sumOos_eq choice m c) (sumOos_eq choice (fun i c => m i c ^ 2) c)
  have hothers : (0 : ℝ) < n - 1 := sub_pos.mpr (Nat.one_lt_cast.mpr hn)
  unfold overfit Overfits
  simp only [hsharpeIs, hsharpeOos, countP_finRange, decide_eq_true_eq]
  rw [div_le_iff₀ hothers, one_div_mul_eq_div]
  constructor
  · exact fun h => ⟨_, isBest_firstBest _ _, h⟩
  · rintro ⟨best, hbest, h⟩
    rw [(firstBest_eq_iff _ _ best).mpr hbest]
    exact h

end

/-- **The probability is the part of the choices that overfit**, by the rows, and a probability. -/
theorem probability_eq_pbo (m : Fin t → Fin n → ℝ) (hn : 10 ≤ n) (hs : Even s) (htwo : 2 ≤ s) (ht : 2 * s ≤ t) :
    probabilityOfBacktestOverfitting Real.sqrt m s = .ok (some (pbo m s)) ∧ 0 ≤ pbo m s ∧ pbo m s ≤ 1 := by
  classical
  have hone : 1 < n := Nat.lt_of_lt_of_le (by decide) hn
  have hlength : (combinations (s / 2) (List.finRange s)).length = s.choose (s / 2) := by
    rw [length_combinations, List.length_finRange]
  have hcount : (combinations (s / 2) (List.finRange s)).countP
      (overfit Real.sqrt (Nat.zero_lt_of_lt hone) m) =
      (((Finset.univ : Finset (Fin s)).powersetCard (s / 2)).filter (Overfits m)).card := by
    rw [← List.toFinset_finRange, ← countP_combinations (List.nodup_finRange s)]
    refine List.countP_congr fun choice hchoice => ?_
    obtain ⟨hsub, hlen⟩ := mem_combinations.mp hchoice
    exact (overfit_iff hs hone ((List.nodup_finRange s).sublist hsub) hlen).trans decide_eq_true_iff.symm
  refine ⟨?_, by unfold pbo; positivity, ?_⟩
  · unfold probabilityOfBacktestOverfitting
    rw [dif_neg (by unfold minCombos; omega), if_neg (not_not.mpr (Nat.even_iff.mp hs)), if_neg (by omega)]
    simp only [hcount, hlength]
    rfl
  · refine div_le_one_of_le₀ (Nat.cast_le.mpr ?_) (Nat.cast_nonneg _)
    refine (Finset.card_filter_le _ _).trans_eq ?_
    rw [Finset.card_powersetCard, Finset.card_univ, Fintype.card_fin]

/-- Ten combos, four days and two blocks. -/
theorem probability_eq_pbo_two :
    probabilityOfBacktestOverfitting Real.sqrt (fun (i : Fin 4) (c : Fin 10) => ((i * c : ℕ) : ℝ)) 2 =
        .ok (some (pbo (fun (i : Fin 4) (c : Fin 10) => ((i * c : ℕ) : ℝ)) 2)) ∧
      0 ≤ pbo (fun (i : Fin 4) (c : Fin 10) => ((i * c : ℕ) : ℝ)) 2 ∧
      pbo (fun (i : Fin 4) (c : Fin 10) => ((i * c : ℕ) : ℝ)) 2 ≤ 1 :=
  probability_eq_pbo _ (by decide) (by decide) (by decide) (by decide)

end

end StratTrader.Backtest
