import StratTrader.Foundation.Compounding
import Mathlib.Algebra.Order.Field.Basic
import Mathlib.Algebra.Field.Rat
import Mathlib.Algebra.Order.Ring.Rat
import Mathlib.Algebra.Order.Group.Int
import Mathlib.Data.List.Sort

/-!
# The out-of-sample curve

`concat_oos` of `backtest/wf.py`: the equity of each test segment begins anew with the initial cash, so that
segments are compounded by their returns. The returns within each segment are put together, sorted by time, and
compounded from the initial cash.

## What is proved

* `concatOos_eq`: the returns are those of the segments, in order, and the curve compounds them.
* `concatOos_compounds`: its points, its value behind each segment, and each point from the one before.

## Honest scope

Arithmetic is exact. No value is missing in a segment.
-/

namespace StratTrader.Backtest

open StratTrader.Foundation

/-- A series: its index and its values. -/
abbrev Series (K : Type) := List (ℤ × K)

section
variable {K : Type} [Field K]

/-- `pct_change`: there is none at the first place. -/
def pctChange : Series K → List (ℤ × Option K)
  | [] => []
  | first :: rest =>
    (first.1, none) :: List.zipWith (fun a b => (b.1, some (b.2 / a.2 - 1))) (first :: rest) rest

/-- `dropna`. -/
def dropna (s : List (ℤ × Option K)) : Series K := s.filterMap fun (ts, x) => x.map fun x => (ts, x)

/-- `sort_index`. -/
def sortIndex (s : Series K) : Series K := s.mergeSort fun a b => decide (a.1 ≤ b.1)

/-- `(1.0 + all_r).cumprod() * initial_cash`. -/
def curveOf (initialCash : K) (returns : Series K) : Series K :=
  List.zipWith (fun point value => (point.1, value * initialCash)) returns
    (running 1 (returns.map fun point => 1 + point.2))

/-- What is appended for a segment. -/
def segmentReturns (eq : Series K) : Option (Series K) :=
  if 2 ≤ eq.length then some (dropna (pctChange eq)) else none

/-- `concat_oos`. -/
def concatOos (equities : List (Series K)) (initialCash : K) : Series K × Series K :=
  let rets := equities.filterMap segmentReturns
  if rets.isEmpty then ([], [])
  else
    let allR := sortIndex rets.flatten
    (curveOf initialCash allR, allR)

end

/-! ### The returns of a segment -/

/-- A series in order is left as it is. -/
theorem sortIndex_of_pairwise {K : Type} {s : Series K} (h : (s.map Prod.fst).Pairwise (· < ·)) : sortIndex s = s := by
  refine List.mergeSort_of_pairwise ?_
  exact (List.pairwise_map.mp h).imp fun hlt => decide_eq_true hlt.le

section
variable {K : Type} [Field K]

/-- The returns within a segment. -/
def returnsOf (eq : Series K) : Series K := dropna (pctChange eq)

theorem filterMap_zipWith_some {α β γ δ : Type*} (f : α → β → γ) (g : γ → Option δ) (h : α → β → δ)
    (hg : ∀ a b, g (f a b) = some (h a b)) (as : List α) (bs : List β) :
    (List.zipWith f as bs).filterMap g = List.zipWith h as bs := by
  induction as generalizing bs with
  | nil => rfl
  | cons a as ih =>
    cases bs with
    | nil => rfl
    | cons b bs => rw [List.zipWith_cons_cons, List.filterMap_cons_some (hg a b), ih, List.zipWith_cons_cons]

/-- A return is of a point and the one before. -/
theorem returnsOf_eq (eq : Series K) :
    returnsOf eq = List.zipWith (fun a b => (b.1, b.2 / a.2 - 1)) eq eq.tail := by
  cases eq with
  | nil => rfl
  | cons first rest =>
    unfold returnsOf dropna pctChange
    rw [List.filterMap_cons_none rfl]
    exact filterMap_zipWith_some (fun (a b : ℤ × K) => (b.1, some (b.2 / a.2 - 1))) _
      (fun a b => (b.1, b.2 / a.2 - 1)) (fun _ _ => rfl) _ _

/-- A segment of one point has no return. -/
theorem returnsOf_of_short {eq : Series K} (h : ¬ 2 ≤ eq.length) : returnsOf eq = [] := by
  rw [returnsOf_eq, List.zipWith_eq_nil_iff, ← List.length_eq_zero_iff (l := eq.tail), List.length_tail]
  omega

theorem length_returnsOf (eq : Series K) : (returnsOf eq).length = eq.length - 1 := by
  rw [returnsOf_eq, List.length_zipWith, List.length_tail]
  omega

theorem index_returnsOf (eq : Series K) : (returnsOf eq).map Prod.fst = eq.tail.map Prod.fst := by
  rw [returnsOf_eq, List.map_zipWith]
  refine List.ext_getElem ?_ fun i hi hi' => ?_
  · simp
  · simp

/-- What the returns of a segment come to. -/
theorem factors_returnsOf (eq : Series K) :
    (returnsOf eq).map (fun point => 1 + point.2) = growths (eq.map Prod.snd) := by
  rw [returnsOf_eq, List.map_zipWith]
  unfold growths
  rw [← List.map_tail, List.zipWith_map]
  simp only [add_sub_cancel]

/-- The last value of a segment over its first. -/
def growth (eq : Series K) : K :=
  match eq.head?, eq.getLast? with
  | some first, some last => last.2 / first.2
  | _, _ => 1

theorem prod_factors {eq : Series K} (hne : ∀ p ∈ eq, p.2 ≠ 0) (hlong : 2 ≤ eq.length) :
    ((returnsOf eq).map fun point => 1 + point.2).prod = growth eq := by
  cases eq with
  | nil => exact absurd hlong (Nat.not_succ_le_zero 1)
  | cons first rest =>
    obtain ⟨last, hlast⟩ : ∃ last, (first :: rest).getLast? = some last :=
      ⟨_, List.getLast?_eq_some_getLast (List.cons_ne_nil first rest)⟩
    rw [factors_returnsOf]
    unfold growth
    rw [List.head?_cons, hlast]
    refine prod_growths (fun v hv => ?_) ?_
    · obtain ⟨p, hp, rfl⟩ := List.mem_map.mp (List.map_cons ▸ hv)
      exact hne p hp
    · rw [← List.map_cons, List.getLast?_map, hlast]
      rfl

/-! ### All segments -/

/-- The returns of all segments. -/
theorem flatten_returns (equities : List (Series K)) :
    (equities.filterMap segmentReturns).flatten = equities.flatMap returnsOf := by
  induction equities with
  | nil => rfl
  | cons eq equities ih =>
    rw [List.flatMap_cons, ← ih]
    by_cases hlong : 2 ≤ eq.length
    · have hsome : segmentReturns eq = some (returnsOf eq) := if_pos hlong
      rw [List.filterMap_cons_some hsome, List.flatten_cons]
    · have hnone : segmentReturns eq = none := if_neg hlong
      rw [List.filterMap_cons_none hnone, returnsOf_of_short hlong, List.nil_append]

/-- What is put together is compounded, whether there is anything or not. -/
theorem concatOos_eq (equities : List (Series K)) (initialCash : K) :
    concatOos equities initialCash =
      (curveOf initialCash (sortIndex (equities.flatMap returnsOf)), sortIndex (equities.flatMap returnsOf)) := by
  unfold concatOos
  rw [← flatten_returns]
  dsimp only
  split_ifs with hnone
  · rw [List.isEmpty_iff.mp hnone, List.flatten_nil]
    unfold sortIndex
    rw [List.mergeSort_nil]
    rfl
  · rfl

theorem index_flatMap (equities : List (Series K)) :
    (equities.flatMap returnsOf).map Prod.fst = equities.flatMap fun eq => eq.tail.map Prod.fst := by
  rw [List.map_flatMap]
  simp only [index_returnsOf]

/-- The times of the returns are in order. -/
theorem pairwise_flatMap {equities : List (Series K)} (hsorted : ∀ eq ∈ equities, eq.Pairwise (·.1 < ·.1))
    (hlater : equities.Pairwise fun a b => ∀ p ∈ a, ∀ q ∈ b, p.1 < q.1) :
    ((equities.flatMap returnsOf).map Prod.fst).Pairwise (· < ·) := by
  have hflat : (equities.flatten.map Prod.fst).Pairwise (· < ·) :=
    List.pairwise_map.mpr (List.pairwise_flatten.mpr ⟨hsorted, hlater⟩)
  refine hflat.sublist ?_
  rw [index_flatMap]
  clear hsorted hlater hflat
  induction equities with
  | nil => exact List.Sublist.refl _
  | cons eq equities ih =>
    rw [List.flatMap_cons, List.flatten_cons, List.map_append]
    exact (((List.tail_sublist eq).map Prod.fst).append ih)

/-! ### The curve -/

theorem index_curveOf (initialCash : K) (returns : Series K) :
    (curveOf initialCash returns).map Prod.fst = returns.map Prod.fst := by
  unfold curveOf
  refine List.ext_getElem ?_ fun i hi hi' => ?_
  · simp
  · simp

/-- The curve runs from the initial cash. -/
theorem values_curveOf (initialCash : K) (returns : Series K) :
    (curveOf initialCash returns).map Prod.snd = running initialCash (returns.map fun point => 1 + point.2) := by
  have hmul := running_mul 1 initialCash (returns.map fun point => 1 + point.2)
  rw [one_mul] at hmul
  rw [← hmul]
  unfold curveOf
  refine List.ext_getElem ?_ fun i hi hi' => ?_
  · simp
  · simp

theorem length_flatMap_returnsOf (equities : List (Series K)) :
    (equities.flatMap returnsOf).length = (equities.map fun eq => eq.length - 1).sum := by
  rw [List.length_flatMap]
  simp only [length_returnsOf]

/-- The returns of the first segments are the first returns. -/
theorem take_flatMap_returnsOf (equities : List (Series K)) (m : ℕ) :
    (equities.flatMap returnsOf).take ((equities.take m).map fun eq => eq.length - 1).sum =
      (equities.take m).flatMap returnsOf := by
  have hsplit : equities.flatMap returnsOf = (equities.take m).flatMap returnsOf ++ (equities.drop m).flatMap returnsOf := by
    rw [← List.flatMap_append, List.take_append_drop]
  rw [hsplit, ← length_flatMap_returnsOf, List.take_left]

/-- What the returns of some segments come to. -/
theorem prod_flatMap_returnsOf {equities : List (Series K)} (hne : ∀ eq ∈ equities, ∀ p ∈ eq, p.2 ≠ 0) :
    ((equities.flatMap returnsOf).map fun point => 1 + point.2).prod =
      ((equities.filter fun eq => decide (2 ≤ eq.length)).map growth).prod := by
  induction equities with
  | nil => rfl
  | cons eq equities ih =>
    obtain ⟨heq, hrest⟩ := List.forall_mem_cons.mp hne
    rw [List.flatMap_cons, List.map_append, List.prod_append, ih hrest]
    by_cases hlong : 2 ≤ eq.length
    · rw [List.filter_cons, if_pos (decide_eq_true hlong), List.map_cons, List.prod_cons, prod_factors heq hlong]
    · rw [List.filter_cons, if_neg (by simpa using hlong), returnsOf_of_short hlong, List.map_nil, List.prod_nil, one_mul]

end

/-- **The out-of-sample curve compounds the segments.** -/
theorem concatOos_compounds {K : Type} [Field K] [LinearOrder K] [IsStrictOrderedRing K] (equities : List (Series K))
    (initialCash : K) (hpos : ∀ eq ∈ equities, ∀ p ∈ eq, 0 < p.2) (hsorted : ∀ eq ∈ equities, eq.Pairwise (·.1 < ·.1))
    (hlater : equities.Pairwise fun a b => ∀ p ∈ a, ∀ q ∈ b, p.1 < q.1) :
    -- the points, in order of time
    (concatOos equities initialCash).1.map Prod.fst = equities.flatMap (fun eq => eq.tail.map Prod.fst) ∧
    (concatOos equities initialCash).2.map Prod.fst = equities.flatMap (fun eq => eq.tail.map Prod.fst) ∧
    (concatOos equities initialCash).1.Pairwise (·.1 < ·.1) ∧
    (concatOos equities initialCash).1.length = (equities.map fun eq => eq.length - 1).sum ∧
    -- the value behind each segment
    (∀ m ≤ equities.length, valueBefore initialCash ((concatOos equities initialCash).1.map Prod.snd)
      ((equities.take m).map fun eq => eq.length - 1).sum =
        initialCash * (((equities.take m).filter fun eq => decide (2 ≤ eq.length)).map growth).prod) ∧
    -- each point, from the one before
    (∀ i ts r, (concatOos equities initialCash).2[i]? = some (ts, r) → (concatOos equities initialCash).1[i]? =
      some (ts, valueBefore initialCash ((concatOos equities initialCash).1.map Prod.snd) i * (1 + r))) := by
  have hne : ∀ eq ∈ equities, ∀ p ∈ eq, p.2 ≠ 0 := fun eq heq p hp => (hpos eq heq p hp).ne'
  have hpairwise := pairwise_flatMap hsorted hlater
  rw [concatOos_eq, sortIndex_of_pairwise hpairwise]
  have hindex := index_curveOf initialCash (equities.flatMap returnsOf)
  have hvalues := values_curveOf initialCash (equities.flatMap returnsOf)
  refine ⟨hindex.trans (index_flatMap equities), index_flatMap equities, ?_, ?_, fun m hm => ?_, fun i ts r hi => ?_⟩
  · exact List.pairwise_map.mp (hindex ▸ hpairwise)
  · rw [← length_flatMap_returnsOf]
    have hlength := congrArg List.length hindex
    rwa [List.length_map, List.length_map] at hlength
  · have hle : ((equities.take m).map fun eq => eq.length - 1).sum ≤ (equities.flatMap returnsOf).length := by
      rw [← length_flatMap_returnsOf, ← take_flatMap_returnsOf, List.length_take]
      exact Nat.min_le_right _ _
    rw [hvalues, valueBefore_running _ _ (by rwa [List.length_map]), ← List.map_take, take_flatMap_returnsOf,
      prod_flatMap_returnsOf fun eq heq => hne eq (List.mem_of_mem_take heq)]
  · have hfactor : ((equities.flatMap returnsOf).map fun point => 1 + point.2)[i]? = some (1 + r) := by
      rw [List.getElem?_map, hi]
      rfl
    have hvalue := running_step initialCash _ hfactor
    rw [← hvalues, List.getElem?_map] at hvalue
    obtain ⟨point, hpoint, hsnd⟩ := Option.map_eq_some_iff.mp hvalue
    have hts : point.1 = ts := by
      have hfst := congrArg (·[i]?) hindex
      simp only [List.getElem?_map, hpoint, hi, Option.map_some, Option.some.injEq] at hfst
      exact hfst
    rw [hpoint, ← hts, ← hsnd]

/-- Two segments of two days, and one of a day. -/
theorem concatOos_compounds_sample :
    (concatOos [[(0, (100 : ℚ)), (1, 110)], [(2, 5)], [(3, 50), (4, 25)]] 100).1.map Prod.fst = [1, 4] ∧
      (concatOos [[(0, (100 : ℚ)), (1, 110)], [(2, 5)], [(3, 50), (4, 25)]] 100).1.length = 2 :=
  have h := concatOos_compounds [[(0, (100 : ℚ)), (1, 110)], [(2, 5)], [(3, 50), (4, 25)]] 100 (by decide) (by decide)
    (by decide)
  ⟨h.1, h.2.2.2.1⟩

end StratTrader.Backtest
