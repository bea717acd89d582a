import StratTrader.Backtest.ReplayEngine
import StratTrader.Foundation.Fallible
import StratTrader.Screener.Criteria

/-!
# What a screen computes from daily bars

`screener/enrich.py`: the bars of a symbol are sorted, their prices are read as floats, and the moving averages and the
high of a year are taken. A candidate passes if every derived criterion can be computed and holds.

## What is proved

* `computeMetrics_raises_iff`: an exception escapes exactly where a price is an `int` that is too large for a float,
  and all that is read before it is a number.

## Honest scope

What floats do is free. `ts` is the text that `str` makes of it. The values of a vendor's row that are handed on as they
are may be of any type; its other values are texts.
-/

namespace StratTrader.Screener

open Foundation (bind_eq_ok_iff bind_eq_error_iff)
open Foundation.Decimal (numeralOf roundHalfEven)
open Backtest (PyFloat pyMax)

/-- What is asked of floats here. -/
class MetricFloat (F : Type) extends PyFloat F where
  /-- `float(text)`; `none` is a `ValueError`. -/
  ofText : String → Option F
  /-- `sum(xs)`. -/
  sum : List F → F
  /-- `round(x, n)`. -/
  round : F → ℕ → F

/-- Floats without rounding. -/
instance instMetricFloatRat : MetricFloat ℚ where
  ofText s := numeralOf s.toList
  sum := List.sum
  round x n := roundHalfEven (x * 10 ^ n) / 10 ^ n

/-- A value of a bar. -/
inductive Cell (F : Type) where
  /-- `None`. -/
  | null
  /-- A `bool`. -/
  | bool (b : Bool)
  /-- An `int`. -/
  | int (n : ℤ)
  /-- A `float`. -/
  | float (x : F)
  /-- A `str`. -/
  | text (s : String)
  /-- A `list` or a `dict`. -/
  | container

/-- A bar, with the keys that are there. -/
structure DailyBar (F : Type) where
  /-- `ts`. -/
  ts : String
  /-- `close`. -/
  close : Option (Cell F)
  /-- `high`. -/
  high : Option (Cell F)

/-- What reading a number may raise. -/
inductive FloatError where
  /-- A `KeyError`. -/
  | keyError
  /-- A `TypeError`. -/
  | typeError
  /-- A `ValueError`. -/
  | valueError
  /-- An `OverflowError`. -/
  | overflowError
  deriving DecidableEq

/-- Whether an `int` is rounded to more than the greatest float. -/
def TooLarge (n : ℤ) : Prop := 2 ^ 1024 - 2 ^ 970 ≤ n.natAbs

instance instDecidableTooLarge (n : ℤ) : Decidable (TooLarge n) := inferInstanceAs (Decidable (_ ≤ _))

/-- The derived criteria. -/
structure Derived (F : Type) where
  /-- `above_sma`. -/
  aboveSma : List ℕ := []
  /-- `sma_rising`. -/
  smaRising : List ℕ := []
  /-- `near_52w_high`. -/
  near52wHigh : Option F := none
  /-- `min_history`. -/
  minHistory : ℤ := 0

/-- What is computed for a symbol. -/
structure Metrics (F : Type) where
  /-- `n_bars`. -/
  nBars : ℕ
  /-- `close`. -/
  close : F
  /-- `sma_50`. -/
  sma50 : Option F
  /-- `sma_200`. -/
  sma200 : Option F
  /-- `sma_50_prev`. -/
  sma50Prev : Option F
  /-- `sma_200_prev`. -/
  sma200Prev : Option F
  /-- `high_252`. -/
  high252 : Option F
  /-- `pct_from_52w_high`. -/
  pctFrom52wHigh : Option F

/-- `SLOPE_LOOKBACK`. -/
def slopeLookback : ℕ := 20

/-- `HIGH_WINDOW`. -/
def highWindow : ℕ := 252

/-- `_PCT_DP`. -/
def pctDp : ℕ := 2

section
variable {F : Type} [MetricFloat F]

/-- `float(value)`, where there is one. -/
def readFloat : Option (Cell F) → Except FloatError F
  | none => .error .keyError
  | some .null => .error .typeError
  | some (.bool b) => .ok (if b then 1 else 0)
  | some (.int n) => if TooLarge n then .error .overflowError else .ok (PyFloat.lit n)
  | some (.float x) => .ok x
  | some (.text s) =>
    match MetricFloat.ofText s with
    | some x => .ok x
    | none => .error .valueError
  | some .container => .error .typeError

/-- `[float(..) for r in rows]`. -/
def readFloats : List (Option (Cell F)) → Except FloatError (List F)
  | [] => .ok []
  | cell :: cells => do
    let x ← readFloat cell
    let xs ← readFloats cells
    return x :: xs

/-- `sorted_closes`. -/
def sortedCloses (bars : List (DailyBar F)) : List (DailyBar F) := bars.mergeSort fun a b => decide (a.ts ≤ b.ts)

/-- `r.get("high", r["close"])`. -/
def DailyBar.highOrClose (bar : DailyBar F) : Option (Cell F) := bar.close.bind fun close => bar.high.getD close

/-- `_sma`. -/
def sma (closes : List F) (window offset : ℕ) : Option F :=
  let stop : ℤ := closes.length - offset
  let start := stop - window
  if start < 0 ∨ stop ≤ 0 then none
  else some (MetricFloat.sum ((closes.take stop.toNat).drop start.toNat) / PyFloat.lit window)

/-- `max(xs)`, where there is one. -/
def maxOf : List F → Option F
  | [] => none
  | x :: xs => some (xs.foldl pyMax x)

/-- What is computed from the prices. -/
def metricsOf (closes highs : List F) (close : F) : Metrics F :=
  let high := maxOf (highs.drop (highs.length - highWindow))
  { nBars := closes.length
    close := close
    sma50 := sma closes 50 0
    sma200 := sma closes 200 0
    sma50Prev := sma closes 50 slopeLookback
    sma200Prev := sma closes 200 slopeLookback
    high252 := high
    pctFrom52wHigh := (high.filter PyFloat.truth).map fun high =>
      MetricFloat.round ((high - close) / high * PyFloat.lit 100) pctDp }

/-- What is left of the exceptions. -/
def catchUnreadable {α : Type} : Except FloatError (Option α) → Except FloatError (Option α)
  | .error .overflowError => .error .overflowError
  | .error _ => .ok none
  | .ok a => .ok a

/-- `compute_metrics`. -/
def computeMetrics (bars : List (DailyBar F)) : Except FloatError (Option (Metrics F)) :=
  let rows := sortedCloses bars
  catchUnreadable do
    let closes ← readFloats (rows.map DailyBar.close)
    let highs ← readFloats (rows.map DailyBar.highOrClose)
    -- there are no rows where there is no last one
    return closes.getLast?.map (metricsOf closes highs)

/-! ### What escapes -/

/-- A price that is read as a float. -/
def Reads (cell : Option (Cell F)) : Prop := ∃ x, readFloat cell = .ok x

/-- The first price that is not read as a float is an `int` that is too large for one. -/
def Overflows (cells : List (Option (Cell F))) : Prop :=
  ∃ before n after, cells = before ++ some (.int n) :: after ∧ TooLarge n ∧ ∀ c ∈ before, Reads c

/-- Of the closes, or else of the highs, in the order of `ts`. -/
def PricesOverflow (bars : List (DailyBar F)) : Prop :=
  Overflows ((sortedCloses bars).map DailyBar.close) ∨
    (∀ bar ∈ sortedCloses bars, Reads bar.close) ∧ Overflows ((sortedCloses bars).map DailyBar.highOrClose)

theorem readFloat_overflow_iff {cell : Option (Cell F)} :
    readFloat cell = .error .overflowError ↔ ∃ n, cell = some (.int n) ∧ TooLarge n := by
  constructor
  · intro h
    rcases cell with _ | cell
    · cases h
    cases cell with
    | int n =>
      simp only [readFloat] at h
      split_ifs at h with hn
      exact ⟨n, rfl, hn⟩
    | text s =>
      simp only [readFloat] at h
      cases hs : MetricFloat.ofText (F := F) s with
      | none =>
        rw [hs] at h
        cases h
      | some x =>
        rw [hs] at h
        cases h
    | null | bool | float | container => cases h
  · rintro ⟨n, rfl, hn⟩
    simp only [readFloat, if_pos hn]

theorem overflows_cons {cell : Option (Cell F)} {cells : List (Option (Cell F))} :
    Overflows (cell :: cells) ↔ (∃ n, cell = some (.int n) ∧ TooLarge n) ∨ Reads cell ∧ Overflows cells := by
  constructor
  · rintro ⟨before, n, after, hcells, hn, hbefore⟩
    cases before with
    | nil =>
      obtain ⟨rfl, rfl⟩ := List.cons.inj hcells
      exact .inl ⟨n, rfl, hn⟩
    | cons c before =>
      obtain ⟨rfl, rfl⟩ := List.cons.inj hcells
      exact .inr ⟨hbefore _ (.head _), before, n, after, rfl, hn, fun c hc => hbefore c (.tail _ hc)⟩
  · rintro (⟨n, rfl, hn⟩ | ⟨hcell, before, n, after, rfl, hn, hbefore⟩)
    · exact ⟨[], n, cells, rfl, hn, nofun⟩
    · exact ⟨cell :: before, n, after, rfl, hn, List.forall_mem_cons.mpr ⟨hcell, hbefore⟩⟩

/-- Reading raises an `OverflowError` where the first price that is not read is too large. -/
theorem readFloats_overflow_iff {cells : List (Option (Cell F))} :
    readFloats cells = .error .overflowError ↔ Overflows cells := by
  induction cells with
  | nil =>
    constructor
    · exact nofun
    · rintro ⟨before, n, after, hcells, -⟩
      exact absurd hcells.symm (List.append_ne_nil_of_right_ne_nil _ (List.cons_ne_nil _ _))
  | cons cell cells ih =>
    rw [readFloats, bind_eq_error_iff, overflows_cons, readFloat_overflow_iff, ← ih]
    refine or_congr_right ⟨?_, ?_⟩
    · rintro ⟨x, hx, hrest⟩
      obtain hrest | ⟨xs, -, hpure⟩ := bind_eq_error_iff.mp hrest
      · exact ⟨⟨x, hx⟩, hrest⟩
      · cases hpure
    · rintro ⟨⟨x, hx⟩, hrest⟩
      exact ⟨x, hx, bind_eq_error_iff.mpr (.inl hrest)⟩

/-- Reading succeeds where every price is read. -/
theorem readFloats_ok_iff {cells : List (Option (Cell F))} :
    (∃ xs, readFloats cells = .ok xs) ↔ ∀ c ∈ cells, Reads c := by
  induction cells with
  | nil => exact ⟨fun _ _ hc => absurd hc List.not_mem_nil, fun _ => ⟨[], rfl⟩⟩
  | cons cell cells ih =>
    rw [List.forall_mem_cons, ← ih, readFloats]
    constructor
    · rintro ⟨_, hall⟩
      obtain ⟨x, hx, hrest⟩ := bind_eq_ok_iff.mp hall
      obtain ⟨xs, hxs, -⟩ := bind_eq_ok_iff.mp hrest
      exact ⟨⟨x, hx⟩, xs, hxs⟩
    · rintro ⟨⟨x, hx⟩, xs, hxs⟩
      exact ⟨x :: xs, bind_eq_ok_iff.mpr ⟨x, hx, bind_eq_ok_iff.mpr ⟨xs, hxs, rfl⟩⟩⟩

theorem catchUnreadable_eq_error_iff {α : Type} {r : Except FloatError (Option α)} {e : FloatError} :
    catchUnreadable r = .error e ↔ r = .error .overflowError ∧ e = .overflowError := by
  cases r with
  | ok a => exact ⟨nofun, fun h => nomatch h.1⟩
  | error r =>
    cases r with
    | overflowError =>
      constructor
      · intro h
        exact ⟨rfl, (Except.error.inj h).symm⟩
      · rintro ⟨-, rfl⟩
        rfl
    | keyError | typeError | valueError => exact ⟨nofun, fun h => nomatch h.1⟩

/-- **What escapes from `compute_metrics`.** -/
theorem computeMetrics_raises_iff {bars : List (DailyBar F)} {e : FloatError} :
    computeMetrics bars = .error e ↔ PricesOverflow bars ∧ e = .overflowError := by
  have hreads : (∀ bar ∈ sortedCloses bars, Reads bar.close) ↔
      ∃ xs, readFloats ((sortedCloses bars).map DailyBar.close) = .ok xs := by
    rw [readFloats_ok_iff, List.forall_mem_map]
  rw [computeMetrics, catchUnreadable_eq_error_iff, PricesOverflow, hreads, bind_eq_error_iff, readFloats_overflow_iff]
  refine and_congr_left fun _ => or_congr_right ⟨?_, ?_⟩
  · rintro ⟨closes, hcloses, hrest⟩
    obtain hhighs | ⟨highs, -, hpure⟩ := bind_eq_error_iff.mp hrest
    · exact ⟨⟨closes, hcloses⟩, readFloats_overflow_iff.mp hhighs⟩
    · cases hpure
  · rintro ⟨⟨closes, hcloses⟩, hhighs⟩
    exact ⟨closes, hcloses, bind_eq_error_iff.mpr (.inl (readFloats_overflow_iff.mpr hhighs))⟩

/-! ### The criteria -/

/-- `metrics.get(f"sma_{window}")`. -/
def Metrics.sma (m : Metrics F) (window : ℕ) : Option F :=
  if window = 50 then m.sma50 else if window = 200 then m.sma200 else none

/-- `metrics.get(f"sma_{window}_prev")`. -/
def Metrics.smaPrev (m : Metrics F) (window : ℕ) : Option F :=
  if window = 50 then m.sma50Prev else if window = 200 then m.sma200Prev else none

/-- `a > b`, where both are there. -/
def above : Option F → Option F → Bool
  | some a, some b => decide (b < a)
  | _, _ => false

/-- `passes`. -/
def passes (m : Metrics F) (derived : Derived F) : Bool :=
  derived.aboveSma.all (fun window => above (some m.close) (m.sma window)) &&
    derived.smaRising.all (fun window => above (m.sma window) (m.smaPrev window)) &&
    match derived.near52wHigh, m.high252 with
    | none, _ => true
    | some _, none => false
    | some pct, some high => decide ((1 - pct / PyFloat.lit 100) * high ≤ m.close)

end

/-! ### Rows of the result -/

/-- A row of the vendor. -/
structure VendorRow (V : Type) where
  /-- `symbol`. -/
  symbol : Option String
  /-- `companyName`. -/
  companyName : Option String := none
  /-- `exchangeShortName`. -/
  exchangeShortName : Option String := none
  /-- `exchange`. -/
  exchange : Option String := none
  /-- `sector`. -/
  sector : Option String := none
  /-- `marketCap`. -/
  marketCap : Option V := none
  /-- `price`. -/
  price : Option V := none
  /-- `volume`. -/
  volume : Option V := none
  /-- `beta`. -/
  beta : Option V := none

/-- A row of the table of results. -/
structure ResultRow (F V : Type) where
  /-- `symbol`. -/
  symbol : String
  /-- `name`. -/
  name : String
  /-- `exchange`. -/
  exchange : String
  /-- `sector`. -/
  sector : String
  /-- `market_cap`. -/
  marketCap : Option V
  /-- `price`. -/
  price : Option V
  /-- `volume`. -/
  volume : Option V
  /-- `beta`. -/
  beta : Option V
  /-- `pct_from_52w_high`. -/
  pctFrom52wHigh : Option F
  /-- `above_sma_50`. -/
  aboveSma50 : Option Bool
  /-- `above_sma_200`. -/
  aboveSma200 : Option Bool
  /-- `sma200_rising`. -/
  sma200Rising : Option Bool

/-- `x or y or ""`. -/
def orElse (x y : Option String) : String := if x.getD "" = "" then y.getD "" else x.getD ""

/-- `(vendor_row.get("symbol") or "").upper()`. -/
def VendorRow.upperSymbol {V : Type} (py : PyStr) (row : VendorRow V) : String :=
  String.ofList (py.upper (row.symbol.getD "").toList)

/-- `a > b`; `none` where one of them is missing. -/
def aboveOrNone {F : Type} [MetricFloat F] (a b : Option F) : Option Bool :=
  a.bind fun a => b.map fun b => decide (b < a)

/-- `result_row`. -/
def resultRow {F V : Type} [MetricFloat F] (py : PyStr) (row : VendorRow V) (m : Option (Metrics F)) :
    ResultRow F V where
  symbol := row.upperSymbol py
  name := row.companyName.getD ""
  exchange := orElse row.exchangeShortName row.exchange
  sector := row.sector.getD ""
  marketCap := row.marketCap
  price := row.price
  volume := row.volume
  beta := row.beta
  pctFrom52wHigh := m.bind Metrics.pctFrom52wHigh
  aboveSma50 := aboveOrNone (m.map Metrics.close) (m.bind Metrics.sma50)
  aboveSma200 := aboveOrNone (m.map Metrics.close) (m.bind Metrics.sma200)
  sma200Rising := aboveOrNone (m.bind Metrics.sma200) (m.bind Metrics.sma200Prev)

end StratTrader.Screener
