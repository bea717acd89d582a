import StratTrader.Backtest.ReplayEngine
import StratTrader.Risk.Integration
import Mathlib.Data.List.Sort

/-!
# One size, live and in a backtest

`_atr14` of `risk/integration.py` reads the fifteen latest of the stored bars, the latest first;
`atr14_from_bars` of `backtest/replay_engine.py` walks a frame of bars the other way, up to a position.
Both are the mean of the same true ranges.

## What is proved

* `zipWith_reverse_tail`: neighbours, read from the other end.
* `daily_newestFirst`: what `_atr14` reads of the table.
* `atr14_agrees`: the two agree at every position, and so do the sizes made of them.

## Honest scope

Decimals are exact. The bars of a symbol have distinct times, which the table demands of them.
-/

namespace StratTrader.Backtest

open StratTrader.Foundation StratTrader.Risk

/-! ### Stored bars -/

/-- A row of the table of bars. -/
structure StoredBar where
  /-- `ts`. -/
  ts : ℤ
  /-- What is read of it. -/
  bar : Risk.Bar

/-- `order_by("-ts")`. -/
def newestFirst (rows : List StoredBar) : List Risk.Bar :=
  (rows.mergeSort fun a b => decide (b.ts ≤ a.ts)).map StoredBar.bar

/-- `filter(symbol=symbol.upper(), tf="1d")`. -/
def isDaily (symbol : String) (bar : Risk.Bar) : Bool := decide (bar.symbol = symbol) && decide (bar.tf = "1d")

/-- A bar of a frame, as it is stored. -/
def stored (symbol : String) (bar : Bar ℚ) : StoredBar := ⟨bar.ts, symbol, "1d", bar.high, bar.low, bar.close⟩

/-- The daily bars that are stored of a symbol, in some order, are those of a frame. -/
def Stores (symbol : String) (rows : List StoredBar) (bars : List (Bar ℚ)) : Prop :=
  (rows.filter fun row => isDaily symbol row.bar).Perm (bars.map (stored symbol))

/-! ### Neighbours -/

/-- Neighbours, read from the other end. -/
theorem zipWith_reverse_tail {α β : Type*} (f : α → α → β) (xs : List α) :
    List.zipWith f xs.reverse xs.reverse.tail = (List.zipWith (fun a b => f b a) xs xs.tail).reverse := by
  refine List.ext_getElem ?_ fun i hi hi' => ?_
  · simp
  · simp only [List.length_zipWith, List.length_reverse, List.length_tail] at hi hi'
    simp only [List.getElem_zipWith, List.getElem_reverse, List.getElem_tail, List.length_zipWith, List.length_tail]
    congr 2 <;> omega

/-! ### What is read -/

section
variable {symbol : String} {rows : List StoredBar} {bars : List (Bar ℚ)}

/-- A bar of a frame is told by its time. -/
theorem stored_inj (hsorted : bars.Pairwise (·.ts < ·.ts)) {a b : StoredBar} (ha : a ∈ bars.map (stored symbol))
    (hb : b ∈ bars.map (stored symbol)) (hts : a.ts = b.ts) : a = b := by
  obtain ⟨x, hx, rfl⟩ := List.mem_map.mp ha
  obtain ⟨y, hy, rfl⟩ := List.mem_map.mp hb
  have hnodup : (bars.map (·.ts)).Nodup := List.pairwise_map.mpr (hsorted.imp fun h => ne_of_lt h)
  rw [List.inj_on_of_nodup_map hnodup hx hy hts]

/-- **The daily bars of the table**, the latest first, are those of the frame. -/
theorem daily_newestFirst (hsorted : bars.Pairwise (·.ts < ·.ts)) (hrows : Stores symbol rows bars) :
    (newestFirst rows).filter (isDaily symbol) = (bars.map fun bar => (stored symbol bar).bar).reverse := by
  unfold newestFirst
  rw [List.filter_map]
  have hperm : ((rows.mergeSort fun a b => decide (b.ts ≤ a.ts)).filter fun row => isDaily symbol row.bar).Perm
      (bars.map (stored symbol)).reverse :=
    (((List.mergeSort_perm rows _).filter _).trans hrows).trans (List.reverse_perm _).symm
  have hsort : (rows.mergeSort fun a b => decide (b.ts ≤ a.ts)).Pairwise fun a b => b.ts ≤ a.ts := by
    have hpairwise := @List.pairwise_mergeSort _ (fun a b : StoredBar => decide (b.ts ≤ a.ts))
      (by intro a b c; simp only [decide_eq_true_eq]; omega)
      (by intro a b; simp only [Bool.or_eq_true, decide_eq_true_eq]; omega) rows
    simpa only [decide_eq_true_eq] using hpairwise
  have hframe : (bars.map (stored symbol)).reverse.Pairwise fun a b => b.ts ≤ a.ts :=
    List.pairwise_reverse.mpr (List.pairwise_map.mpr (hsorted.imp fun h => le_of_lt h))
  have heq := List.Perm.eq_of_pairwise (fun a b ha hb hab hba => ?_) (hsort.filter fun row => isDaily symbol row.bar)
    hframe hperm
  · rw [show isDaily symbol ∘ StoredBar.bar = fun row => isDaily symbol row.bar from rfl, heq, List.map_reverse,
      List.map_map]
    rfl
  · exact stored_inj hsorted (hrows.subset ((List.mergeSort_perm rows _).filter _ |>.subset ha))
      (List.mem_reverse.mp hb) (le_antisymm hba hab)

/-- The true ranges of stored bars, the latest first. -/
theorem zipWith_trueRange_stored (symbol : String) (bars : List (Bar ℚ)) :
    List.zipWith Risk.trueRange (bars.map fun bar => (stored symbol bar).bar).reverse
        (bars.map fun bar => (stored symbol bar).bar).reverse.tail =
      (List.zipWith trueRange bars bars.tail).reverse := by
  rw [zipWith_reverse_tail, ← List.map_tail, List.zipWith_map]
  rfl

theorem zipWith_tail_eq_nil {α β : Type*} {f : α → α → β} {xs : List α} :
    List.zipWith f xs xs.tail = [] ↔ xs.length < 2 := by
  rw [List.zipWith_eq_nil_iff, ← List.length_eq_zero_iff, ← List.length_eq_zero_iff, List.length_tail]
  omega

/-- What `atr14_from_bars` makes of the last bars of a frame. -/
theorem atr14FromBars_last (bars : List (Bar ℚ)) :
    atr14FromBars bars (bars.length - 1) =
      let trs := List.zipWith trueRange (bars.drop (bars.length - 15)) (bars.drop (bars.length - 15)).tail
      if trs = [] then none else some (trs.sum / trs.length) := by
  have hwindow : (bars.take (bars.length - 1 + 1)).drop (bars.length - 1 - 14) = bars.drop (bars.length - 15) := by
    rw [List.take_of_length_le (by omega), Nat.sub_sub]
  unfold atr14FromBars
  rw [hwindow]
  dsimp only
  by_cases hshort : (bars.drop (bars.length - 15)).length < 2
  · rw [if_pos hshort, if_pos (zipWith_tail_eq_nil.mpr hshort)]
  · rw [if_neg hshort]

/-- **The mean of the true ranges** of a frame's last bars is that of the bars that are stored. -/
theorem atr14_of_stores {upper : String → String} (hsorted : bars.Pairwise (·.ts < ·.ts))
    (hrows : Stores (upper symbol) rows bars) :
    atr14 upper (newestFirst rows) symbol = atr14FromBars bars (bars.length - 1) := by
  have hdaily : ((newestFirst rows).filter (isDaily (upper symbol))).take 15 =
      ((bars.drop (bars.length - 15)).map fun bar => (stored (upper symbol) bar).bar).reverse := by
    rw [daily_newestFirst hsorted hrows, List.take_reverse, List.length_map, List.map_drop]
  rw [atr14FromBars_last]
  unfold atr14
  rw [show (fun bar : Risk.Bar => decide (bar.symbol = upper symbol) && decide (bar.tf = "1d")) =
    isDaily (upper symbol) from rfl, hdaily]
  dsimp only
  rw [zipWith_trueRange_stored, ← List.sum_eq_foldl, List.sum_reverse, List.length_reverse]
  simp only [List.reverse_eq_nil_iff]

theorem atr14_eq_none {upper : String → String} (hsorted : bars.Pairwise (·.ts < ·.ts))
    (hrows : Stores (upper symbol) rows bars) : atr14 upper (newestFirst rows) symbol = none ↔ bars.length < 2 := by
  rw [atr14_of_stores hsorted hrows, atr14FromBars_last]
  dsimp only
  have hshort : (bars.drop (bars.length - 15)).length < 2 ↔ bars.length < 2 := by
    rw [List.length_drop]
    omega
  rw [← hshort, ← zipWith_tail_eq_nil (f := trueRange)]
  split_ifs with hnil
  · exact iff_of_true rfl hnil
  · exact iff_of_false (fun h => nomatch h) hnil

/-- A position of a frame is the last one of the bars up to it. -/
theorem atr14FromBars_take {p : ℕ} (hp : p < bars.length) :
    atr14FromBars bars p = atr14FromBars (bars.take (p + 1)) ((bars.take (p + 1)).length - 1) := by
  rw [List.length_take_of_le hp, Nat.succ_sub_one]
  refine atr14_congr ?_
  rw [List.take_take, Nat.min_self]

end

/-- **The live and the replayed size are one**: `_atr14` of the bars that are stored is `atr14_from_bars` at the last
position of their frame, and at any position it is that of the bars up to it; and a size is the same where the other
inputs are. -/
theorem atr14_agrees (upper : String → String) (symbol : String) (bars : List (Bar ℚ))
    (hsorted : bars.Pairwise (·.ts < ·.ts)) :
    (∀ rows, Stores (upper symbol) rows bars →
      atr14 upper (newestFirst rows) symbol = atr14FromBars bars (bars.length - 1) ∧
      (atr14 upper (newestFirst rows) symbol = none ↔ bars.length < 2) ∧
      (atr14FromBars bars (bars.length - 1) = none ↔ bars.length < 2)) ∧
    (∀ p < bars.length, ∀ rows, Stores (upper symbol) rows (bars.take (p + 1)) →
      atr14FromBars bars p = atr14 upper (newestFirst rows) symbol ∧
      ∀ (profile : RiskProfile) (live replayed : SizingInputs),
        live.atr14 = atr14 upper (newestFirst rows) symbol → replayed.atr14 = atr14FromBars bars p →
        { live with atr14 := none } = { replayed with atr14 := none } →
          computeSize live profile upper = computeSize replayed profile upper) := by
  refine ⟨fun rows hrows => ?_, fun p hp rows hrows => ?_⟩
  · have heq := atr14_of_stores hsorted hrows
    exact ⟨heq, atr14_eq_none hsorted hrows, heq ▸ atr14_eq_none hsorted hrows⟩
  · have hprefix : (bars.take (p + 1)).Pairwise (·.ts < ·.ts) := hsorted.sublist (List.take_sublist _ _)
    have heq : atr14FromBars bars p = atr14 upper (newestFirst rows) symbol := by
      rw [atr14_of_stores hprefix hrows, atr14FromBars_take hp]
    refine ⟨heq, fun profile live replayed hlive hreplayed hrest => ?_⟩
    have hsame : live = replayed := by
      have hatr : live.atr14 = replayed.atr14 := by rw [hlive, hreplayed, heq]
      calc live = { { live with atr14 := none } with atr14 := live.atr14 } := rfl
        _ = { { replayed with atr14 := none } with atr14 := replayed.atr14 } := by rw [hrest, hatr]
        _ = replayed := rfl
    rw [hsame]

/-- Two days of a frame, stored with a bar of another symbol. -/
theorem atr14_agrees_sample :
    let bars : List (Bar ℚ) := [⟨0, 10, 12, 9, 11, 1000⟩, ⟨1, 11, 15, 10, 14, 1000⟩]
    let rows := [stored "AAPL" ⟨1, 11, 15, 10, 14, 1000⟩, stored "MSFT" ⟨1, 1, 1, 1, 1, 1⟩,
      stored "AAPL" ⟨0, 10, 12, 9, 11, 1000⟩]
    atr14 id (newestFirst rows) "AAPL" = atr14FromBars bars (bars.length - 1) :=
  ((atr14_agrees id "AAPL" [⟨0, 10, 12, 9, 11, 1000⟩, ⟨1, 11, 15, 10, 14, 1000⟩] (by simp)).1
    [stored "AAPL" ⟨1, 11, 15, 10, 14, 1000⟩, stored "MSFT" ⟨1, 1, 1, 1, 1, 1⟩, stored "AAPL" ⟨0, 10, 12, 9, 11, 1000⟩]
    (List.Perm.swap _ _ [])).1

end StratTrader.Backtest
