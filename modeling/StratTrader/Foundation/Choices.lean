import Mathlib.Data.Finset.Powerset
import Mathlib.Data.Fintype.Basic
import Mathlib.Data.List.FinRange
import Mathlib.Data.List.MinMax
import Mathlib.Data.List.Sublists
import Mathlib.Data.Multiset.Powerset

/-!
# Choices

All ways to choose `k` of a list, and the first of the best of finitely many.

## What is proved

* `length_combinations`, `countP_combinations`: the ways to choose are the subsets of `k` elements.
* `firstBest_eq_iff`: the first best is the one with the highest value, and of several of them the lowest.
-/

namespace StratTrader.Foundation

section
variable {α : Type*}

/-- All ways to choose `k` of a list, in the order of their places. -/
def combinations : ℕ → List α → List (List α)
  | 0, _ => [[]]
  | _ + 1, [] => []
  | k + 1, x :: xs => (combinations k xs).map (x :: ·) ++ combinations (k + 1) xs

theorem combinations_perm (k : ℕ) (xs : List α) : (combinations k xs).Perm (List.sublistsLen k xs) := by
  induction xs generalizing k with
  | nil => cases k <;> exact .refl _
  | cons x xs ih =>
    cases k with
    | zero => rw [List.sublistsLen_zero]; exact .refl _
    | succ k =>
      rw [List.sublistsLen_succ_cons]
      exact (((ih k).map _).append (ih (k + 1))).trans List.perm_append_comm

theorem mem_combinations {k : ℕ} {xs choice : List α} :
    choice ∈ combinations k xs ↔ choice.Sublist xs ∧ choice.length = k :=
  (combinations_perm k xs).mem_iff.trans List.mem_sublistsLen

theorem length_combinations (k : ℕ) (xs : List α) : (combinations k xs).length = xs.length.choose k :=
  (combinations_perm k xs).length_eq.trans (List.length_sublistsLen k xs)

/-- **The choices with a property are counted by the subsets with it.** -/
theorem countP_combinations [DecidableEq α] {xs : List α} (hxs : xs.Nodup) (k : ℕ) (p : Finset α → Prop)
    [DecidablePred p] :
    (combinations k xs).countP (fun choice => p choice.toFinset) =
      ((xs.toFinset.powersetCard k).filter p).card := by
  have hval : xs.toFinset.val = (xs : Multiset α) := by rw [List.toFinset_val, hxs.dedup]
  have hchoices : ((xs.toFinset.powersetCard k).val.map Finset.val) =
      Multiset.ofList ((List.sublistsLen k xs).map Multiset.ofList) := by
    rw [Finset.map_val_val_powersetCard, hval, Multiset.powersetCard_coe]
  have hcount := congrArg (Multiset.countP fun choice => p choice.toFinset) hchoices
  rw [Multiset.coe_countP, List.countP_map, Multiset.countP_map] at hcount
  rw [(combinations_perm k xs).countP_eq, Finset.card_def, Finset.filter_val]
  simp only [Finset.val_toFinset] at hcount
  rw [hcount]
  rfl

end

section
variable {α : Type*} [LinearOrder α] {n : ℕ}

/-- The highest value, at the lowest place of several. -/
def IsBest (f : Fin n → α) (c : Fin n) : Prop := (∀ d, f d ≤ f c) ∧ ∀ d, f d = f c → c ≤ d

theorem IsBest.unique {f : Fin n → α} {c d : Fin n} (hc : IsBest f c) (hd : IsBest f d) : c = d :=
  have heq : f c = f d := le_antisymm (hd.1 c) (hc.1 d)
  le_antisymm (hc.2 d heq.symm) (hd.2 c heq)

/-- The first place of the highest value. -/
def firstBest (hn : 0 < n) (f : Fin n → α) : Fin n :=
  ((List.finRange n).argmax f).get (by
    rw [Option.isSome_iff_ne_none, Ne, List.argmax_eq_none, ← List.length_eq_zero_iff, List.length_finRange]
    exact hn.ne')

theorem isBest_firstBest (hn : 0 < n) (f : Fin n → α) : IsBest f (firstBest hn f) := by
  have hmem : firstBest hn f ∈ (List.finRange n).argmax f := Option.get_mem _
  obtain ⟨-, hle, hfirst⟩ := List.mem_argmax_iff.mp hmem
  refine ⟨fun d => hle d (List.mem_finRange d), fun d hd => ?_⟩
  have hidx := hfirst d (List.mem_finRange d) hd.ge
  rw [List.idxOf_finRange, List.idxOf_finRange] at hidx
  exact hidx

/-- **The first best** is the best. -/
theorem firstBest_eq_iff (hn : 0 < n) (f : Fin n → α) (c : Fin n) : firstBest hn f = c ↔ IsBest f c :=
  ⟨fun h => h ▸ isBest_firstBest hn f, (isBest_firstBest hn f).unique⟩

end

end StratTrader.Foundation
