import StratTrader.Backtest.ReplayEngine

/-!
# The replay does not look ahead

Two pairs of frames with one index that agree up to a bar of the window are replayed alike up to
that bar. The loop reads a row at the bar that it is at, and for a size the bars before it in the
whole frame; that it also knows how many bars there are is no more than the index says.

## What is proved

* `windowStep_congr`: a bar of the window is the same step of both replays.
* `replay_no_lookAhead`: the equity up to a bar and the trades closed up to it are the same.
-/

namespace StratTrader.Backtest

open StratTrader.Foundation StratTrader.Risk

/-- Two pairs of frames agree on the rows up to a position. -/
structure AgreeUpTo {F : Type} (p : ℕ) (A B : Frames F) : Prop where
  /-- The prices and the volumes. -/
  bars : ∀ i ≤ p, A.bars[i]? = B.bars[i]?
  /-- The entries. -/
  entries : ∀ i ≤ p, A.entries[i]? = B.entries[i]?
  /-- The exits. -/
  exits : ∀ i ≤ p, A.exits[i]? = B.exits[i]?
  /-- The stops. -/
  stopPct : ∀ i ≤ p, cell A.stopPct i = cell B.stopPct i
  /-- The targets. -/
  targetPct : ∀ i ≤ p, cell A.targetPct i = cell B.targetPct i

theorem AgreeUpTo.mono {F : Type} {A B : Frames F} {p q : ℕ} (h : AgreeUpTo p A B) (hq : q ≤ p) : AgreeUpTo q A B :=
  ⟨fun i hi => h.bars i (hi.trans hq), fun i hi => h.entries i (hi.trans hq), fun i hi => h.exits i (hi.trans hq),
    fun i hi => h.stopPct i (hi.trans hq), fun i hi => h.targetPct i (hi.trans hq)⟩

theorem AgreeUpTo.take_bars {F : Type} {A B : Frames F} {p : ℕ} (h : AgreeUpTo p A B) :
    A.bars.take (p + 1) = B.bars.take (p + 1) := by
  refine List.ext_getElem? fun i => ?_
  rw [List.getElem?_take, List.getElem?_take]
  split_ifs with hi
  · exact h.bars i (Nat.le_of_lt_succ hi)
  · rfl

/-! ### The window -/

namespace Frames

section
variable {F : Type} (fr : Frames F)

/-- The time of a bar of the window. -/
def clock (window : List ℕ) (j : ℕ) : ℤ := ((window[j]?).bind (fr.index[·]?)).getD 0

theorem index_pairwise : fr.index.Pairwise (· < ·) := List.pairwise_map.mpr fr.sorted

theorem window_pairwise (testStart testEnd : ℤ) : (fr.window testStart testEnd).Pairwise (· < ·) :=
  List.pairwise_lt_range.filter _

theorem lt_of_mem_window {testStart testEnd : ℤ} {p : ℕ} (h : p ∈ fr.window testStart testEnd) :
    p < fr.index.length := List.mem_range.mp (List.mem_filter.mp h).1

variable {fr}

/-- The position of a bar in the whole frame is the one at which it stands. -/
theorem idxOf_ts {p : ℕ} {bar : Bar F} (h : fr.bars[p]? = some bar) : fr.index.idxOf bar.ts = p := by
  have hts : fr.index[p]? = some bar.ts := by
    unfold index
    rw [List.getElem?_map, h]
    rfl
  obtain ⟨hp, hts⟩ := List.getElem?_eq_some_iff.mp hts
  rw [← hts]
  exact List.Nodup.idxOf_getElem (fr.index_pairwise.imp Int.ne_of_lt) p hp

theorem row_bar {p : ℕ} {row : WindowRow F} (h : fr.row p = some row) : fr.bars[p]? = some row.bar := by
  obtain ⟨bar, hbar, rfl⟩ := Option.map_eq_some_iff.mp h
  exact hbar

theorem row_fullPos {p : ℕ} {row : WindowRow F} (h : fr.row p = some row) : row.fullPos = p := by
  obtain ⟨bar, hbar, rfl⟩ := Option.map_eq_some_iff.mp h
  exact idxOf_ts hbar

/-- The bars of the window come one after another. -/
theorem clock_lt {testStart testEnd : ℤ} {i j : ℕ} (hij : i < j) (hj : j < (fr.window testStart testEnd).length) :
    fr.clock (fr.window testStart testEnd) i < fr.clock (fr.window testStart testEnd) j := by
  have hi := hij.trans hj
  have hpositions := List.pairwise_iff_getElem.mp (fr.window_pairwise testStart testEnd) i j hi hj hij
  have hi' := fr.lt_of_mem_window (List.getElem_mem hi)
  have hj' := fr.lt_of_mem_window (List.getElem_mem hj)
  unfold clock
  rw [List.getElem?_eq_getElem hi, List.getElem?_eq_getElem hj, Option.bind_some, Option.bind_some,
    List.getElem?_eq_getElem hi', List.getElem?_eq_getElem hj']
  exact List.pairwise_iff_getElem.mp fr.index_pairwise _ _ hi' hj' hpositions

end

end Frames

/-! ### The loop -/

/-- Where two pairs of frames agree, they have the same row. -/
theorem row_congr {F : Type} {A B : Frames F} (hindex : A.index = B.index) {p : ℕ} (h : AgreeUpTo p A B) : A.row p = B.row p := by
  unfold Frames.row
  rw [h.bars p le_rfl, List.getD_eq_getElem?_getD, List.getD_eq_getElem?_getD, List.getD_eq_getElem?_getD,
    List.getD_eq_getElem?_getD, h.entries p le_rfl, h.exits p le_rfl, h.stopPct p le_rfl, h.targetPct p le_rfl, hindex]

section
variable {F : Type} [PyFloat F] {A B : Frames F}

/-- **A bar up to which the frames agree is the same step of both replays.** -/
theorem windowStep_congr (env : Setting F) (hindex : A.index = B.index) {window : List ℕ} {j : ℕ}
    (h : ∀ p, window[j]? = some p → AgreeUpTo p A B) : windowStep env A window j = windowStep env B window j := by
  funext s
  unfold windowStep
  cases hp : window[j]? with
  | none => rfl
  | some p =>
    rw [Option.bind_some, Option.bind_some, row_congr hindex (h p hp)]
    cases hrow : B.row p with
    | none => rfl
    | some row =>
      refine barStep_congr ?_
      rw [Frames.row_fullPos hrow]
      exact (h p hp).take_bars

/-- A bar of the window is published for that bar only. -/
theorem windowStep_publishes (env : Setting F) (fr : Frames F) (window : List ℕ) :
    Publishes (fun (s : LoopState F) i => s.equity[i]?) (·.trades) (·.exitTs) (fr.clock window)
      (windowStep env fr window) window.length := by
  intro j _ s
  unfold windowStep
  cases hrow : (window[j]?).bind fr.row with
  | none => exact replayed_of_eq rfl rfl
  | some row =>
    obtain ⟨p, hp, hrow⟩ := Option.bind_eq_some_iff.mp hrow
    have hclock : fr.clock window j = row.bar.ts := by
      unfold Frames.clock Frames.index
      rw [hp, Option.bind_some, List.getElem?_map, Frames.row_bar hrow]
      rfl
    rw [hclock]
    exact replayed_barStep

/-- **The replay does not look ahead.** -/
theorem replay_no_lookAhead (env : Setting F) (testStart testEnd : ℤ) (hindex : A.index = B.index) {t p : ℕ} {ts : ℤ}
    (hp : (A.window testStart testEnd)[t]? = some p) (hts : A.index[p]? = some ts) (hagree : AgreeUpTo p A B) :
    (∀ i ≤ t, (replay env A testStart testEnd).equity[i]? = (replay env B testStart testEnd).equity[i]?) ∧
      (replay env A testStart testEnd).trades.filter (fun trade => decide (trade.exitTs ≤ ts)) =
        (replay env B testStart testEnd).trades.filter (fun trade => decide (trade.exitTs ≤ ts)) := by
  have hwindow : B.window testStart testEnd = A.window testStart testEnd := by
    unfold Frames.window
    rw [hindex]
  obtain ⟨ht, hposition⟩ := List.getElem?_eq_some_iff.mp hp
  have hclockB : B.clock = A.clock := by
    unfold Frames.clock
    rw [hindex]
  have hclock : A.clock (A.window testStart testEnd) t = ts := by
    unfold Frames.clock
    rw [hp, Option.bind_some, hts]
    rfl
  have hsteps : ∀ i ≤ t, windowStep env A (A.window testStart testEnd) i =
      windowStep env B (A.window testStart testEnd) i := by
    intro i hi
    refine windowStep_congr env hindex fun q hq => hagree.mono ?_
    -- a bar of the window that is not behind it is not behind it in the whole frame
    obtain ⟨hi', rfl⟩ := List.getElem?_eq_some_iff.mp hq
    rw [← hposition]
    rcases Nat.lt_or_eq_of_le hi with hlt | rfl
    · exact (List.pairwise_iff_getElem.mp (A.window_pairwise testStart testEnd) i t hi' ht hlt).le
    · exact le_rfl
  have hB := windowStep_publishes env B (A.window testStart testEnd)
  rw [hclockB] at hB
  have hresult := (windowStep_publishes env A (A.window testStart testEnd)).agree hB
    (s := .start env (A.window testStart testEnd).length) (fun i j hij hj => Frames.clock_lt hij hj) rfl ht hsteps
  rw [hclock] at hresult
  unfold replay
  rw [hwindow]
  exact hresult

/-- A setting with round numbers. -/
def sampleSetting : Setting ℚ where
  symbol := "AAPL"
  cfg := ⟨100000, 5, 0, 0, 10, "production"⟩
  profile := some sampleProfile
  upper := id

/-- A bar of a day. -/
def sampleBar (day : ℤ) (price : ℚ) : Bar ℚ := ⟨Frames.timestamp day, price, price + 1, price - 1, price, 1000⟩

/-- Three days, with an entry on the first of them that is stopped on the second. -/
def sampleFrames (last : ℚ) : Frames ℚ where
  bars := [sampleBar 0 100, sampleBar 1 100, sampleBar 2 last]
  sorted := by simp [sampleBar, Frames.timestamp]
  entries := [true, false, false]
  entries_length := rfl
  exits := [false, false, false]
  exits_length := rfl
  stopPct := some [some (1 / 1000), none, none]
  targetPct := none

/-- Whatever the price is on the third day. -/
theorem replay_no_lookAhead_sample :
    (∀ i ≤ 1, (replay sampleSetting (sampleFrames 80) 0 3).equity[i]? =
      (replay sampleSetting (sampleFrames 120) 0 3).equity[i]?) ∧
    (replay sampleSetting (sampleFrames 80) 0 3).trades.filter (fun t => decide (t.exitTs ≤ Frames.timestamp 1)) =
      (replay sampleSetting (sampleFrames 120) 0 3).trades.filter (fun t => decide (t.exitTs ≤ Frames.timestamp 1)) := by
  refine replay_no_lookAhead (A := sampleFrames 80) (B := sampleFrames 120) sampleSetting 0 3 (t := 1) (p := 1) rfl (by decide) rfl ⟨?_, ?_, ?_, ?_, ?_⟩
  · intro i hi
    rcases Nat.le_one_iff_eq_zero_or_eq_one.mp hi with rfl | rfl <;> rfl
  all_goals
    intro i _
    rfl

/-- The entry is filled and stopped on the second day. -/
example : (replay sampleSetting (sampleFrames 80) 0 3).trades.map (·.exitReason) = ["stop"] := by decide +kernel

end

end StratTrader.Backtest
