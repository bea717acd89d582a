import StratTrader.Backtest.Windows

/-!
# The windows of a request

`BacktestRunCreateSerializer` of `backtest/serializers.py` bounds the fields of a request and the length of its
range; the view then counts the windows (`_check_windows` of `backtest/views.py`), before the run is created. The loop
that makes the windows looks at a day that may be a whole span behind the end of the range, which the calendar need
not have.

## What is proved

* `windowsChecked_iff`: the check of an accepted request ends without an `OverflowError` exactly if the last day that
  the loop looks at is of the calendar.
* `not_windowsChecked`: a request of the last year of the calendar is accepted, and raises.

## Honest scope

Of a request the fields that decide the windows are read. A day that is sent is a day of the calendar.
-/

namespace StratTrader.Backtest

/-- A day of the calendar. -/
abbrev Day := { n : ℤ // 1 ≤ n ∧ n ≤ maxOrdinal }

/-- The fields of a request that decide its windows. -/
structure WindowRequest where
  /-- `start`. -/
  start : Day
  /-- `end`. -/
  endDay : Day
  /-- `train_window_days`. -/
  trainWindowDays : ℤ
  /-- `test_window_days`. -/
  testWindowDays : ℤ
  /-- `step_days`. -/
  stepDays : ℤ
  /-- `mode`. -/
  mode : String

/-- `MAX_YEARS`. -/
def maxYears : ℤ := 15

/-- `MAX_WINDOWS`. -/
def maxWindows : ℕ := 60

namespace WindowRequest

variable (r : WindowRequest)

/-- `validate`: the field and the message of the error. -/
def validate : Except (String × String) Unit :=
  if r.endDay.1 ≤ r.start.1 then .error ("end", "end must be after start.")
  else if maxYears * 366 < r.endDay.1 - r.start.1 then
    .error ("end", "Date range must be ≤ " ++ toString maxYears ++ " years.")
  else if r.stepDays ≠ r.testWindowDays then
    .error ("step_days", "step_days must equal test_window_days in the MVP.")
  else .ok ()

/-- `IntegerField(min_value=1, max_value=6000)`. -/
def isDayCount (d : ℤ) : Prop := 1 ≤ d ∧ d ≤ 6000

instance instDecidablePredIsDayCount : DecidablePred isDayCount := fun d =>
  inferInstanceAs (Decidable (1 ≤ d ∧ d ≤ 6000))

/-- `is_valid`. -/
structure Accepted : Prop where
  /-- The training days are in bounds. -/
  train : isDayCount r.trainWindowDays
  /-- The test days are in bounds. -/
  test : isDayCount r.testWindowDays
  /-- The days of a step are in bounds. -/
  step : isDayCount r.stepDays
  /-- The mode is one of the choices. -/
  mode : r.mode ∈ ["anchored", "rolling"]
  /-- The fields fit one another. -/
  valid : r.validate = .ok ()

/-- The configuration of the windows. -/
def config : WFConfig where
  start := r.start.1
  endDay := r.endDay.1
  trainDays := r.trainWindowDays
  testDays := r.testWindowDays
  stepDays := r.stepDays
  anchored := decide (r.mode = "anchored")

end WindowRequest

/-- What the check of the windows may raise. -/
inductive CheckError where
  /-- What the arithmetic of days raises. -/
  | date (e : DateError)
  /-- `BacktestError`, with its code and message. -/
  | backtest (code message : String)
  deriving DecidableEq

/-- `VALIDATION`. -/
def validationCode : String := "VALIDATION_ERROR"

/-- `_check_windows`; none if the loop is not over. -/
def checkWindows (r : WindowRequest) : Option (Except CheckError Unit) :=
  (computeWindows dateAdd r.config).map fun
    | .error e => .error (.date e)
    | .ok windows =>
      if windows.length < 2 then
        .error (.backtest validationCode "Configuration yields fewer than 2 complete windows.")
      else if maxWindows < windows.length then
        .error (.backtest validationCode ("Configuration yields " ++ toString windows.length ++ " windows (> " ++
          toString maxWindows ++ " cap)."))
      else .ok ()

/-- The windows of a request are computed, and the check returns or raises a `BacktestError`. -/
structure WindowsChecked (r : WindowRequest) : Prop where
  /-- The windows. -/
  computed : ∃ windows, computeWindows dateAdd r.config = some (.ok windows)
  /-- The check. -/
  checked : checkWindows r = some (.ok ()) ∨ ∃ code message, checkWindows r = some (.error (.backtest code message))

section
variable {r : WindowRequest}

theorem WindowRequest.Accepted.step_eq (h : r.Accepted) : r.stepDays = r.testWindowDays := by
  have hvalid := h.valid
  unfold WindowRequest.validate at hvalid
  split_ifs at hvalid with _ _ hstep
  exact not_not.mp hstep

/-- What is computed for a request that is accepted. -/
theorem computeWindows_of_accepted (h : r.Accepted) :
    computeWindows dateAdd r.config =
      some (if r.config.lastDay r.start.1 ≤ maxOrdinal then .ok r.config.windows else .error .overflow) := by
  have hstep : r.config.stepDays ≤ r.config.span := by
    have hsame : r.config.stepDays = r.config.testDays := h.step_eq
    have htrain : 1 ≤ r.config.trainDays := h.train.1
    unfold WFConfig.span
    omega
  exact windowsFor_dateAdd h.train.1 h.test.1 h.step.1 hstep r.endDay.2.2 r.start.2.1 (Nat.lt_succ_self _) 0

end

/-- **The check of an accepted request** ends without an `OverflowError` exactly if the day behind the last window, and
a span on, is of the calendar. -/
theorem windowsChecked_iff (r : WindowRequest) (h : r.Accepted) :
    WindowsChecked r ↔ r.start.1 + r.config.countFrom r.start.1 * r.stepDays +
      (r.trainWindowDays + r.testWindowDays) ≤ maxOrdinal := by
  have hcomputed := computeWindows_of_accepted h
  have hlast : r.config.lastDay r.start.1 = r.start.1 + r.config.countFrom r.start.1 * r.stepDays +
      (r.trainWindowDays + r.testWindowDays) := rfl
  rw [← hlast]
  by_cases hin : r.config.lastDay r.start.1 ≤ maxOrdinal
  · rw [if_pos hin] at hcomputed
    refine iff_of_true ⟨⟨_, hcomputed⟩, ?_⟩ hin
    unfold checkWindows
    rw [hcomputed, Option.map_some]
    dsimp only
    split_ifs
    · exact .inr ⟨_, _, rfl⟩
    · exact .inr ⟨_, _, rfl⟩
    · exact .inl rfl
  · rw [if_neg hin] at hcomputed
    refine iff_of_false ?_ hin
    rintro ⟨⟨windows, hok⟩, -⟩
    rw [hcomputed] at hok
    cases hok

/-- A request of the years 2020 and 2021. -/
def plainRequest : WindowRequest := ⟨⟨737425, by decide⟩, ⟨738156, by decide⟩, 180, 90, 90, "rolling"⟩

theorem windowsChecked_iff_sample : WindowsChecked plainRequest :=
  (windowsChecked_iff plainRequest ⟨by decide, by decide, by decide, by decide, by decide⟩).mpr (by decide)

/-- A request of the last year of the calendar. -/
def lastRequest : WindowRequest := ⟨⟨3651695, by decide⟩, ⟨3652059, by decide⟩, 100, 100, 100, "rolling"⟩

/-- **A request of the last year of the calendar is accepted, and raises.** -/
theorem not_windowsChecked : ¬ ∀ r : WindowRequest, r.Accepted → WindowsChecked r := by
  intro hall
  obtain ⟨windows, hok⟩ := (hall lastRequest ⟨by decide, by decide, by decide, by decide, by decide⟩).computed
  have hraises : computeWindows dateAdd lastRequest.config = some (.error .overflow) := by decide
  rw [hraises] at hok
  cases hok

end StratTrader.Backtest
