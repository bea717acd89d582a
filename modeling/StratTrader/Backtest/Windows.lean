import Mathlib.Algebra.Order.Group.Int
import Mathlib.Data.List.Range
import Mathlib.Data.Int.Order.Basic
import Mathlib.Tactic.Linarith
import Mathlib.Tactic.Ring

/-!
# Walk-forward windows

`compute_windows` of `backtest/wf.py`. A day is its number in the calendar; how a number of days is added to one is a
parameter, as the calendar of Python ends with the year 9999.

## What is proved

* `computeWindows_unbounded`: without an end of the calendar, the windows are those of the offsets that fit.
* `windows_tile`, `windows_anchored`: how test segments follow one another, and what anchoring changes.
* `windowsFor_dateAdd`: with the calendar of Python, they are the same, or the loop raises.

## Honest scope

The loop is given a turn for each day, which is enough where a step is at least a day. What is trained and tested in a
window is not said here.
-/

namespace StratTrader.Backtest

/-! ### Days -/

/-- What the arithmetic of days may raise. -/
inductive DateError where
  /-- `OverflowError`. -/
  | overflow
  deriving DecidableEq

/-- `t + timedelta(days=d)`, of a calendar without an end. -/
def unboundedAdd (t d : ℤ) : Except DateError ℤ := .ok (t + d)

/-- `date.max.toordinal()`, of the last day of the year 9999. -/
def maxOrdinal : ℤ := 3652059

/-- `t + timedelta(days=d)`. -/
def dateAdd (t d : ℤ) : Except DateError ℤ :=
  if 1 ≤ t + d ∧ t + d ≤ maxOrdinal then .ok (t + d) else .error .overflow

/-! ### Windows -/

/-- `WFConfig`. -/
structure WFConfig where
  /-- `start`. -/
  start : ℤ
  /-- `end`. -/
  endDay : ℤ
  /-- `train_days`. -/
  trainDays : ℤ
  /-- `test_days`. -/
  testDays : ℤ
  /-- `step_days`. -/
  stepDays : ℤ
  /-- `anchored`. -/
  anchored : Bool := false
  deriving DecidableEq

/-- `Window`. -/
structure Window where
  /-- `index`. -/
  index : ℕ
  /-- `train_start`. -/
  trainStart : ℤ
  /-- `train_end`. -/
  trainEnd : ℤ
  /-- `test_start`. -/
  testStart : ℤ
  /-- `test_end`. -/
  testEnd : ℤ
  deriving DecidableEq

section
variable (add : ℤ → ℤ → Except DateError ℤ) (cfg : WFConfig)

/-- The window of a turn. -/
def windowAt (t : ℤ) (idx : ℕ) : Except DateError Window := do
  let trainEnd ← add t cfg.trainDays
  let testEnd ← add trainEnd cfg.testDays
  return ⟨idx, if cfg.anchored then cfg.start else t, trainEnd, trainEnd, testEnd⟩

/-- The loop of `compute_windows`, from a day and an index on, in so many turns. -/
def windowsFor : ℕ → ℤ → ℕ → Option (Except DateError (List Window))
  | 0, _, _ => none
  | n + 1, t, idx =>
    match add t (cfg.trainDays + cfg.testDays) with
    | .error e => some (.error e)
    | .ok spanEnd =>
      if spanEnd ≤ cfg.endDay then
        match windowAt add cfg t idx, add t cfg.stepDays with
        | .error e, _ | .ok _, .error e => some (.error e)
        | .ok window, .ok next => (windowsFor n next (idx + 1)).map fun rest => rest.map (window :: ·)
      else some (.ok [])

/-- `compute_windows`, with a turn for each day; none if the loop is not over by then. -/
def computeWindows : Option (Except DateError (List Window)) :=
  windowsFor add cfg ((cfg.endDay - cfg.start).toNat + 1) cfg.start 0

end

/-! ### The windows that fit -/

namespace WFConfig

variable (cfg : WFConfig)

/-- `span`. -/
def span : ℤ := cfg.trainDays + cfg.testDays

/-- How many windows there are from a day on. -/
def countFrom (t : ℤ) : ℕ :=
  if cfg.endDay - t - cfg.span < 0 then 0 else ((cfg.endDay - t - cfg.span) / cfg.stepDays).toNat + 1

/-- The window of an index that begins on a day. -/
def windowOf (t : ℤ) (idx : ℕ) : Window where
  index := idx
  trainStart := if cfg.anchored then cfg.start else t
  trainEnd := t + cfg.trainDays
  testStart := t + cfg.trainDays
  testEnd := t + cfg.trainDays + cfg.testDays

/-- The windows from a day and an index on. -/
def windowsFrom (t : ℤ) (idx : ℕ) : List Window :=
  (List.range (cfg.countFrom t)).map fun (k : ℕ) => cfg.windowOf (t + k * cfg.stepDays) (idx + k)

variable {cfg} {t : ℤ}

/-- Where no window fits there is none. -/
theorem countFrom_of_not_fits (h : ¬ t + cfg.span ≤ cfg.endDay) : cfg.countFrom t = 0 := by
  unfold countFrom
  exact if_pos (by omega)

/-- Where one fits there is one more than a step later. -/
theorem countFrom_of_fits (hstep : 1 ≤ cfg.stepDays) (h : t + cfg.span ≤ cfg.endDay) :
    cfg.countFrom t = cfg.countFrom (t + cfg.stepDays) + 1 := by
  unfold countFrom
  rw [if_neg (by omega)]
  by_cases hnext : cfg.endDay - (t + cfg.stepDays) - cfg.span < 0
  · rw [if_pos hnext]
    have hzero : (cfg.endDay - t - cfg.span) / cfg.stepDays = 0 := Int.ediv_eq_zero_of_lt (by omega) (by omega)
    rw [hzero]
    rfl
  · rw [if_neg hnext]
    have hsplit : cfg.endDay - t - cfg.span = cfg.endDay - (t + cfg.stepDays) - cfg.span + 1 * cfg.stepDays := by ring
    have hnonneg : 0 ≤ (cfg.endDay - (t + cfg.stepDays) - cfg.span) / cfg.stepDays :=
      Int.ediv_nonneg (by omega) (by omega)
    rw [hsplit, Int.add_mul_ediv_right _ _ (by omega)]
    omega

theorem windowsFrom_of_not_fits (h : ¬ t + cfg.span ≤ cfg.endDay) (idx : ℕ) : cfg.windowsFrom t idx = [] := by
  unfold windowsFrom
  rw [countFrom_of_not_fits h]
  rfl

theorem windowsFrom_of_fits (hstep : 1 ≤ cfg.stepDays) (h : t + cfg.span ≤ cfg.endDay) (idx : ℕ) :
    cfg.windowsFrom t idx = cfg.windowOf t idx :: cfg.windowsFrom (t + cfg.stepDays) (idx + 1) := by
  unfold windowsFrom
  rw [countFrom_of_fits hstep h, List.range_succ_eq_map, List.map_cons, List.map_map]
  congr 1
  · rw [Nat.cast_zero, zero_mul, add_zero, Nat.add_zero]
  · refine List.map_congr_left fun k _ => ?_
    have hday : t + ((k + 1 : ℕ) : ℤ) * cfg.stepDays = t + cfg.stepDays + k * cfg.stepDays := by
      push_cast
      ring
    have hidx : idx + (k + 1) = idx + 1 + k := by omega
    exact congrArg₂ cfg.windowOf hday hidx

/-- **A window is one of those that are made exactly if it fits.** -/
theorem lt_countFrom_iff (hstep : 1 ≤ cfg.stepDays) (k : ℕ) :
    k < cfg.countFrom t ↔ t + k * cfg.stepDays + cfg.span ≤ cfg.endDay := by
  unfold countFrom
  split_ifs with hnone
  · refine iff_of_false (Nat.not_lt_zero k) fun h => ?_
    have hpos : 0 ≤ (k : ℤ) * cfg.stepDays := Int.mul_nonneg (Int.natCast_nonneg k) (by omega)
    omega
  · have hnonneg : 0 ≤ (cfg.endDay - t - cfg.span) / cfg.stepDays := Int.ediv_nonneg (by omega) (by omega)
    have hle : (k : ℤ) ≤ (cfg.endDay - t - cfg.span) / cfg.stepDays ↔ (k : ℤ) * cfg.stepDays ≤ cfg.endDay - t - cfg.span :=
      Int.le_ediv_iff_mul_le (by omega)
    omega

end WFConfig

/-! ### The loop -/

section
variable {cfg : WFConfig}

/-- A turn of the loop without an end of the calendar. -/
theorem windowsFor_unbounded_succ (n : ℕ) (t : ℤ) (idx : ℕ) :
    windowsFor unboundedAdd cfg (n + 1) t idx =
      if t + cfg.span ≤ cfg.endDay then
        (windowsFor unboundedAdd cfg n (t + cfg.stepDays) (idx + 1)).map fun rest => rest.map (cfg.windowOf t idx :: ·)
      else some (.ok []) := rfl

/-- **Without an end of the calendar** the loop ends with the windows that fit. -/
theorem windowsFor_unbounded (hspan : 1 ≤ cfg.span) (hstep : 1 ≤ cfg.stepDays) {n : ℕ} {t : ℤ}
    (hn : (cfg.endDay - t).toNat < n) (idx : ℕ) :
    windowsFor unboundedAdd cfg n t idx = some (.ok (cfg.windowsFrom t idx)) := by
  induction n generalizing t idx with
  | zero => exact absurd hn (Nat.not_lt_zero _)
  | succ n ih =>
    rw [windowsFor_unbounded_succ]
    by_cases hfits : t + cfg.span ≤ cfg.endDay
    · rw [if_pos hfits, ih (by omega), WFConfig.windowsFrom_of_fits hstep hfits]
      rfl
    · rw [if_neg hfits, WFConfig.windowsFrom_of_not_fits hfits]

/-- What the days of a window are, within the calendar. -/
theorem dateAdd_of_le {t d : ℤ} (ht : 1 ≤ t) (hd : 0 ≤ d) (hle : t + d ≤ maxOrdinal) : dateAdd t d = .ok (t + d) :=
  if_pos ⟨by omega, hle⟩

theorem dateAdd_of_lt {t d : ℤ} (hlt : maxOrdinal < t + d) : dateAdd t d = .error .overflow :=
  if_neg fun h => absurd h.2 (not_le.mpr hlt)

theorem windowAt_dateAdd (htrain : 1 ≤ cfg.trainDays) (htest : 1 ≤ cfg.testDays) {t : ℤ} (ht : 1 ≤ t)
    (hle : t + cfg.span ≤ maxOrdinal) (idx : ℕ) : windowAt dateAdd cfg t idx = .ok (cfg.windowOf t idx) := by
  have hspan : cfg.span = cfg.trainDays + cfg.testDays := rfl
  unfold windowAt
  rw [dateAdd_of_le ht (by omega) (by omega)]
  change (dateAdd (t + cfg.trainDays) cfg.testDays >>= fun testEnd => _) = _
  rw [dateAdd_of_le (by omega) (by omega) (by omega)]
  rfl

/-- The day behind the last window, and a span on: the last day that is looked at. -/
def WFConfig.lastDay (cfg : WFConfig) (t : ℤ) : ℤ := t + cfg.countFrom t * cfg.stepDays + cfg.span

/-- **With the calendar of Python** the loop ends with the same windows, if the last day that it looks at is of the
calendar, and with an error if it is not. -/
theorem windowsFor_dateAdd (htrain : 1 ≤ cfg.trainDays) (htest : 1 ≤ cfg.testDays) (hstep : 1 ≤ cfg.stepDays)
    (hle : cfg.stepDays ≤ cfg.span) (hend : cfg.endDay ≤ maxOrdinal) {n : ℕ} {t : ℤ} (ht : 1 ≤ t)
    (hn : (cfg.endDay - t).toNat < n) (idx : ℕ) :
    windowsFor dateAdd cfg n t idx =
      some (if cfg.lastDay t ≤ maxOrdinal then .ok (cfg.windowsFrom t idx) else .error .overflow) := by
  have hspan : cfg.span = cfg.trainDays + cfg.testDays := rfl
  induction n generalizing t idx with
  | zero => exact absurd hn (Nat.not_lt_zero _)
  | succ n ih =>
    unfold windowsFor
    by_cases hfits : t + cfg.span ≤ cfg.endDay
    · have hlast : cfg.lastDay t = cfg.lastDay (t + cfg.stepDays) := by
        unfold WFConfig.lastDay
        rw [WFConfig.countFrom_of_fits hstep hfits]
        push_cast
        ring
      have hnext := ih (t := t + cfg.stepDays) (by omega) (by omega) (idx + 1)
      rw [← hspan, dateAdd_of_le ht (by omega) (by omega), dateAdd_of_le ht (by omega) (by omega),
        windowAt_dateAdd htrain htest ht (by omega)]
      dsimp only
      rw [if_pos hfits, hnext, hlast, WFConfig.windowsFrom_of_fits hstep hfits]
      split_ifs <;> rfl
    · have hlast : cfg.lastDay t = t + cfg.span := by
        unfold WFConfig.lastDay
        rw [WFConfig.countFrom_of_not_fits hfits, Nat.cast_zero, zero_mul, add_zero]
      rw [hlast, WFConfig.windowsFrom_of_not_fits hfits, ← hspan]
      by_cases hin : t + cfg.span ≤ maxOrdinal
      · rw [dateAdd_of_le ht (by omega) hin, if_pos hin]
        exact if_neg hfits
      · rw [dateAdd_of_lt (not_le.mp hin), if_neg hin]

end

/-! ### The windows -/

section
variable (cfg : WFConfig)

/-- The windows of a configuration. -/
def WFConfig.windows : List Window := cfg.windowsFrom cfg.start 0

variable {cfg}

theorem WFConfig.windows_getElem? {k : ℕ} {w : Window} :
    cfg.windows[k]? = some w ↔ k < cfg.countFrom cfg.start ∧ w = cfg.windowOf (cfg.start + k * cfg.stepDays) k := by
  unfold WFConfig.windows WFConfig.windowsFrom
  rw [List.getElem?_map]
  by_cases hk : k < cfg.countFrom cfg.start
  · rw [List.getElem?_range hk, Option.map_some, Nat.zero_add, Option.some.injEq]
    exact ⟨fun h => ⟨hk, h.symm⟩, fun h => h.2.symm⟩
  · rw [List.getElem?_eq_none (by rw [List.length_range]; omega), Option.map_none]
    exact iff_of_false (fun h => nomatch h) fun h => hk h.1

/-- **Test segments follow one another** where a step is a test segment, and none overlaps another. -/
theorem WFConfig.windows_tile (hstep : 1 ≤ cfg.stepDays) (hsame : cfg.stepDays = cfg.testDays) :
    (∀ k w w', cfg.windows[k]? = some w → cfg.windows[k + 1]? = some w' → w.testEnd = w'.testStart) ∧
      cfg.windows.Pairwise fun a b => a.testEnd ≤ b.testStart := by
  constructor
  · intro k w w' hw hw'
    obtain ⟨-, rfl⟩ := windows_getElem?.mp hw
    obtain ⟨-, rfl⟩ := windows_getElem?.mp hw'
    unfold windowOf
    dsimp only
    rw [← hsame]
    push_cast
    ring
  · unfold WFConfig.windows windowsFrom
    refine List.pairwise_map.mpr (List.pairwise_lt_range.imp fun {i j} hlt => ?_)
    unfold windowOf
    dsimp only
    rw [← hsame]
    have hmul : ((i : ℤ) + 1) * cfg.stepDays ≤ j * cfg.stepDays :=
      Int.mul_le_mul_of_nonneg_right (by omega) (by omega)
    linarith

/-- **Anchoring** moves the beginning of every training segment to the first day, and nothing else. -/
theorem WFConfig.windows_anchored :
    ({ cfg with anchored := true } : WFConfig).windows =
      ({ cfg with anchored := false } : WFConfig).windows.map fun w => { w with trainStart := cfg.start } := by
  unfold WFConfig.windows windowsFrom
  rw [List.map_map]
  rfl

end

/-- **The windows of a configuration** are those of the offsets that fit, as many as the closed form says. -/
theorem computeWindows_unbounded (cfg : WFConfig) (htrain : 1 ≤ cfg.trainDays) (htest : 1 ≤ cfg.testDays)
    (hstep : 1 ≤ cfg.stepDays) :
    computeWindows unboundedAdd cfg = some (.ok cfg.windows) ∧
    (∀ n > (cfg.endDay - cfg.start).toNat, windowsFor unboundedAdd cfg n cfg.start 0 = some (.ok cfg.windows)) ∧
    cfg.windows = (List.range (cfg.countFrom cfg.start)).map
      (fun (k : ℕ) => cfg.windowOf (cfg.start + k * cfg.stepDays) k) ∧
    (∀ k : ℕ, k < cfg.countFrom cfg.start ↔
      cfg.start + k * cfg.stepDays + (cfg.trainDays + cfg.testDays) ≤ cfg.endDay) ∧
    cfg.windows.length = (if cfg.endDay - cfg.start - cfg.trainDays - cfg.testDays < 0 then 0
      else ((cfg.endDay - cfg.start - cfg.trainDays - cfg.testDays) / cfg.stepDays).toNat + 1) ∧
    (∀ w ∈ cfg.windows, w.trainEnd = w.testStart ∧ w.testEnd ≤ cfg.endDay) ∧
    (cfg.stepDays = cfg.testDays →
      (∀ k w w', cfg.windows[k]? = some w → cfg.windows[k + 1]? = some w' → w.testEnd = w'.testStart) ∧
      cfg.windows.Pairwise fun a b => a.testEnd ≤ b.testStart) ∧
    ({ cfg with anchored := true } : WFConfig).windows =
      ({ cfg with anchored := false } : WFConfig).windows.map (fun w => { w with trainStart := cfg.start }) := by
  have hspan : cfg.span = cfg.trainDays + cfg.testDays := rfl
  have hloop {n : ℕ} (hn : (cfg.endDay - cfg.start).toNat < n) :
      windowsFor unboundedAdd cfg n cfg.start 0 = some (.ok cfg.windows) :=
    windowsFor_unbounded (by omega) hstep hn 0
  have hlist : cfg.windows = (List.range (cfg.countFrom cfg.start)).map
      fun (k : ℕ) => cfg.windowOf (cfg.start + k * cfg.stepDays) k := by
    unfold WFConfig.windows WFConfig.windowsFrom
    simp only [Nat.zero_add]
  refine ⟨hloop (Nat.lt_succ_self _), fun n hn => hloop hn, hlist, fun k => ?_, ?_, fun w hw => ?_,
    WFConfig.windows_tile hstep, WFConfig.windows_anchored⟩
  · rw [WFConfig.lt_countFrom_iff hstep, hspan]
  · rw [hlist, List.length_map, List.length_range]
    unfold WFConfig.countFrom
    rw [hspan, show cfg.endDay - cfg.start - (cfg.trainDays + cfg.testDays) =
      cfg.endDay - cfg.start - cfg.trainDays - cfg.testDays by ring]
  · rw [hlist] at hw
    obtain ⟨k, hk, rfl⟩ := List.mem_map.mp hw
    have hfits := (WFConfig.lt_countFrom_iff hstep k).mp (List.mem_range.mp hk)
    unfold WFConfig.windowOf
    exact ⟨rfl, by dsimp only; omega⟩

/-- The worked example of the module. -/
theorem computeWindows_unbounded_sample :
    computeWindows unboundedAdd ⟨737425, 737791, 180, 60, 60, false⟩ =
        some (.ok (WFConfig.windows ⟨737425, 737791, 180, 60, 60, false⟩)) ∧
      (WFConfig.windows ⟨737425, 737791, 180, 60, 60, false⟩).length = 3 :=
  ⟨(computeWindows_unbounded ⟨737425, 737791, 180, 60, 60, false⟩ (by decide) (by decide) (by decide)).1,
    (computeWindows_unbounded ⟨737425, 737791, 180, 60, 60, false⟩ (by decide) (by decide) (by decide)).2.2.2.2.1⟩

end StratTrader.Backtest
