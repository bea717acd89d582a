import StratTrader.Foundation.Causal
import StratTrader.Risk.Sizing

/-!
# The replay engine

`replay` of `backtest/replay_engine.py`: signals are turned into entries and exits at the next
open, stops and targets are looked at within a bar, what is open at the last bar is closed, and
the equity is marked at each close.

The engine computes with floats, of which only the operations are known here; the sizes of
production come from `compute_size`, with its decimals.

## What is proved

* `atr14_congr`, `sizeEntry_congr`: a size is made of the bars up to that of the signal.
* `replayed_barStep`: a bar marks the equity of itself only, and closes trades at its own time.

## Honest scope

No price or volume is missing. The index is sorted and without duplicates, as `load_bars` makes
it. Decimals are exact. The trades of a result are those of one symbol; what is logged is left out.
-/

namespace StratTrader.Backtest

open StratTrader.Foundation StratTrader.Risk

/-! ### Numbers -/

/-- What the engine asks of its floats. -/
class PyFloat (F : Type) extends Zero F, One F, Add F, Sub F, Mul F, Div F, LT F, LE F where
  /-- `x < y` is decided. -/
  decLt : DecidableLT F
  /-- `x <= y` is decided. -/
  decLe : DecidableLE F
  /-- A literal. -/
  lit : ℚ → F
  /-- `bool(x)`. -/
  truth : F → Bool
  /-- `Decimal(str(x))`. -/
  toDecimal : F → ℚ
  /-- `float(d)`. -/
  ofDecimal : ℚ → F

instance instDecidableLTPyFloat {F : Type} [PyFloat F] : DecidableLT F := PyFloat.decLt
instance instDecidableLEPyFloat {F : Type} [PyFloat F] : DecidableLE F := PyFloat.decLe

/-- Floats without rounding. -/
instance instPyFloatRat : PyFloat ℚ where
  decLt := inferInstance
  decLe := inferInstance
  lit := id
  truth x := decide (x ≠ 0)
  toDecimal := id
  ofDecimal := id

section
variable {F : Type} [PyFloat F]

/-- `min(a, b)`. -/
def pyMin (a b : F) : F := if b < a then b else a

/-- `max(a, b)`. -/
def pyMax (a b : F) : F := if a < b then b else a

end

/-! ### Frames -/

/-- A row of the frame of bars. -/
structure Bar (F : Type) where
  /-- Its place in the index. -/
  ts : ℤ
  /-- `open`. -/
  openPrice : F
  /-- `high`. -/
  high : F
  /-- `low`. -/
  low : F
  /-- `close`. -/
  close : F
  /-- `volume`. -/
  volume : F

/-- The two frames, which have one index. -/
structure Frames (F : Type) where
  /-- The bars. -/
  bars : List (Bar F)
  /-- The index is sorted and has no duplicates. -/
  sorted : bars.Pairwise (·.ts < ·.ts)
  /-- `entries`. -/
  entries : List Bool
  /-- There is one for each bar. -/
  entries_length : entries.length = bars.length
  /-- `exits`. -/
  exits : List Bool
  /-- There is one for each bar. -/
  exits_length : exits.length = bars.length
  /-- `stop_pct`, if there is such a column. -/
  stopPct : Option (List (Option F))
  /-- `target_pct`, if there is such a column. -/
  targetPct : Option (List (Option F))

/-- A cell, if there is such a column and the cell is not empty. -/
def cell {F : Type} (column : Option (List (Option F))) (p : ℕ) : Option F :=
  column.bind fun cells => (cells[p]?).join

namespace Frames

variable {F : Type} (fr : Frames F)

/-- `bars.index`. -/
def index : List ℤ := fr.bars.map (·.ts)

/-- `pd.Timestamp(d, tz="UTC")`, of a day. -/
def timestamp (day : ℤ) : ℤ := day * 86400000000000

/-- The positions that `mask` picks. -/
def window (testStart testEnd : ℤ) : List ℕ :=
  (List.range fr.index.length).filter fun p =>
    fr.index[p]?.any fun ts => decide (timestamp testStart ≤ ts) && decide (ts < timestamp testEnd)

end Frames

/-- What the loop reads at a bar of the window. -/
structure WindowRow (F : Type) where
  /-- `o`, `h`, `low`, `c`, `v` and `ts`. -/
  bar : Bar F
  /-- `e`. -/
  entry : Bool
  /-- `x`. -/
  exit : Bool
  /-- `stop_col[j]`. -/
  stopPct : Option F
  /-- `target_col[j]`. -/
  targetPct : Option F
  /-- `full_pos[ts]`. -/
  fullPos : ℕ

/-- The row at a position. -/
def Frames.row {F : Type} (fr : Frames F) (p : ℕ) : Option (WindowRow F) :=
  fr.bars[p]?.map fun bar =>
    { bar := bar
      entry := fr.entries.getD p false
      exit := fr.exits.getD p false
      stopPct := cell fr.stopPct p
      targetPct := cell fr.targetPct p
      fullPos := fr.index.idxOf bar.ts }

/-! ### Sizes -/

section
variable {F : Type} [PyFloat F]

/-- A true range. -/
def trueRange (previous bar : Bar F) : ℚ :=
  max (max (PyFloat.toDecimal bar.high - PyFloat.toDecimal bar.low)
    |PyFloat.toDecimal bar.high - PyFloat.toDecimal previous.close|)
    |PyFloat.toDecimal bar.low - PyFloat.toDecimal previous.close|

/-- `atr14_from_bars`. -/
def atr14FromBars (bars : List (Bar F)) (endPos : ℕ) : Option ℚ :=
  let window := (bars.take (endPos + 1)).drop (endPos - 14)
  let trs := List.zipWith trueRange window window.tail
  if window.length < 2 then none else if trs = [] then none else some (trs.sum / trs.length)

/-- `build_sizing_inputs`. -/
def buildSizingInputs (symbol : String) (price equity : ℚ) (atr14 stopDistance : Option ℚ) : SizingInputs where
  requestedQty := 0
  side := "BUY"
  symbol := symbol
  price := price
  equity := equity
  regimeLabel := "NEUTRAL"
  sentimentPolarity := 0
  intradayDdPct := 0
  atr14 := atr14
  stopDistance := stopDistance
  contractMultiplier := 1
  lotSize := 1

/-- `ReplayConfig`. -/
structure ReplayConfig (F : Type) where
  /-- `initial_cash`. -/
  initialCash : F
  /-- `slippage_bps`. -/
  slippageBps : F
  /-- `per_order_usd`. -/
  perOrderUsd : F
  /-- `per_share_usd`. -/
  perShareUsd : F
  /-- `volume_participation_pct`. -/
  volumeParticipationPct : F
  /-- `sizing_mode`. -/
  sizingMode : String

/-- What stays the same over a replay. -/
structure Setting (F : Type) where
  /-- `symbol`. -/
  symbol : String
  /-- `cfg`. -/
  cfg : ReplayConfig F
  /-- `profile`. -/
  profile : Option RiskProfile
  /-- What `str.upper` does. -/
  upper : String → String

/-- `x if x else None`. -/
def orNone (x : Option F) : Option F := x.filter PyFloat.truth

/-- `_size_entry`. -/
def sizeEntry (env : Setting F) (bars : List (Bar F)) (fullPos : ℕ) (price equity : F) (stopPct : Option F) : F :=
  if env.cfg.sizingMode ≠ "production" then 1
  else
    match env.profile with
    | none => 0
    | some profile =>
      let stopDistance := (orNone stopPct).map fun pct => PyFloat.toDecimal price * PyFloat.toDecimal pct
      let inp := buildSizingInputs env.symbol (PyFloat.toDecimal price) (PyFloat.toDecimal equity)
        (atr14FromBars bars fullPos) stopDistance
      let result := computeSize inp profile env.upper
      if result.ok then PyFloat.ofDecimal result.qty else 0

/-! ### Positions and trades -/

/-- `Trade`. -/
structure Trade (F : Type) where
  /-- `symbol`. -/
  symbol : String
  /-- `entry_ts`. -/
  entryTs : Option ℤ
  /-- `exit_ts`. -/
  exitTs : ℤ
  /-- `entry_price`. -/
  entryPrice : F
  /-- `exit_price`. -/
  exitPrice : F
  /-- `qty`. -/
  qty : F
  /-- `pnl`. -/
  pnl : F
  /-- `mfe`. -/
  mfe : F
  /-- `mae`. -/
  mae : F
  /-- `bars_held`. -/
  barsHeld : ℕ
  /-- `exit_reason`. -/
  exitReason : String
  /-- `entry_commission`. -/
  entryCommission : F
  /-- `exit_commission`. -/
  exitCommission : F
  /-- `partial`. -/
  isPartial : Bool
  /-- `cancelled_qty`. -/
  cancelledQty : F

/-- `_Position`. -/
structure Position (F : Type) [PyFloat F] where
  /-- `target_qty`. -/
  targetQty : F
  /-- `stop_pct`. -/
  stopPct : Option F
  /-- `target_pct`. -/
  targetPct : Option F
  /-- `qty`. -/
  qty : F := 0
  /-- `cost`. -/
  cost : F := 0
  /-- `bars_filling`. -/
  barsFilling : ℕ := 0
  /-- `complete`. -/
  complete : Bool := false
  /-- `entry_ts`. -/
  entryTs : Option ℤ := none
  /-- `entry_bar`. -/
  entryBar : ℕ := 0
  /-- `entry_commission`. -/
  entryCommission : F := 0
  /-- `mfe`. -/
  mfe : F := 0
  /-- `mae`. -/
  mae : F := 0
  /-- `_mfe_init`. -/
  mfeInit : Bool := false

/-- `_MAX_FILL_BARS`. -/
def maxFillBars : ℕ := 5

namespace Position

variable (p : Position F)

/-- `avg_entry`. -/
def avgEntry : F := if 0 < p.qty then p.cost / p.qty else 0

/-- `stop_price`. -/
def stopPrice : Option F := (orNone p.stopPct).map fun pct => p.avgEntry * (1 - pct)

/-- `target_price`. -/
def targetPrice : Option F := (orNone p.targetPct).map fun pct => p.avgEntry * (1 + pct)

/-- `_update_excursions`. -/
def updateExcursions (high low : F) : Position F :=
  if p.mfeInit then
    { p with mfe := pyMax p.mfe (high - p.avgEntry), mae := pyMin p.mae (low - p.avgEntry) }
  else { p with mfe := high - p.avgEntry, mae := low - p.avgEntry, mfeInit := true }

/-- `_check_exit`. -/
def checkExit (o high low : F) : Option (F × String) :=
  match p.stopPrice.filter (fun stop => decide (low ≤ stop)),
      p.targetPrice.filter (fun target => decide (target ≤ high)) with
  | some stop, _ => some (pyMin o stop, "stop")
  | none, some target => some (pyMax o target, "target")
  | none, none => none

end Position

/-- `pending_signal`. -/
structure PendingSignal (F : Type) where
  /-- The bar of the signal. -/
  bar : ℕ
  /-- Its stop. -/
  stopPct : Option F
  /-- Its target. -/
  targetPct : Option F
  /-- The quantity. -/
  qty : F

/-- What the loop keeps. -/
structure LoopState (F : Type) [PyFloat F] where
  /-- `cash`. -/
  cash : F
  /-- `pos`. -/
  pos : Option (Position F)
  /-- `pending_signal`. -/
  pendingSignal : Option (PendingSignal F)
  /-- `pending_exit`. -/
  pendingExit : Bool
  /-- `trades`. -/
  trades : List (Trade F)
  /-- `equity`. -/
  equity : List F
  /-- `exposure_bars`. -/
  exposureBars : ℕ

/-! ### A bar -/

section
variable (env : Setting F)

/-- `slip`. -/
def slip : F := env.cfg.slippageBps / PyFloat.lit 10000

/-- `vpp`. -/
def vpp : F := env.cfg.volumeParticipationPct / PyFloat.lit 100

/-- `_commission`. -/
def commission (qty : F) : F := env.cfg.perOrderUsd + env.cfg.perShareUsd * qty

/-- `_close`, after which `pos` is `None`. -/
def close (p : Position F) (price : F) (reason : String) (ts : ℤ) (j : ℕ) (s : LoopState F) : LoopState F :=
  let exitComm := commission env p.qty
  let proceeds := p.qty * price
  { s with
    cash := s.cash + (proceeds - exitComm)
    pos := none
    trades := s.trades ++ [
      { symbol := env.symbol
        entryTs := p.entryTs
        exitTs := ts
        entryPrice := p.avgEntry
        exitPrice := price
        qty := p.qty
        pnl := proceeds - p.qty * p.avgEntry - p.entryCommission - exitComm
        mfe := p.mfe
        mae := p.mae
        barsHeld := max 1 (j - p.entryBar + 1)
        exitReason := reason
        entryCommission := p.entryCommission
        exitCommission := exitComm
        isPartial := decide (p.qty + PyFloat.lit (1 / 10 ^ 9) < p.targetQty)
        cancelledQty := pyMax 0 (p.targetQty - p.qty) }] }

/-- (1) A market exit at the open. -/
def exitAtOpen (j : ℕ) (row : WindowRow F) (s : LoopState F) : LoopState F :=
  match s.pos with
  | some p =>
    if s.pendingExit = true ∧ p.complete = true ∧ 0 < p.qty then
      { close env p (row.bar.openPrice * (1 - slip env)) "signal" row.bar.ts j s with pendingExit := false }
    else s
  | none => s

/-- (2) A pending signal begins an entry. -/
def beginEntry (j : ℕ) (s : LoopState F) : LoopState F :=
  match s.pendingSignal, s.pos with
  | some signal, none =>
    { s with
      pos := some
        { targetQty := signal.qty, stopPct := signal.stopPct, targetPct := signal.targetPct, entryBar := j }
      pendingSignal := none }
  | _, _ => s

/-- A fill of an entry: the position and the cash behind it. -/
def fillPosition (j : ℕ) (row : WindowRow F) (p : Position F) (cash : F) : Position F × F :=
  let cap := vpp env * row.bar.volume
  let fill := if 0 < cap then pyMin (p.targetQty - p.qty) cap else 0
  if PyFloat.lit (1 / 10 ^ 12) < fill then
    let fillPrice := row.bar.openPrice * (1 + slip env)
    ({ p with
        qty := p.qty + fill
        cost := p.cost + fill * fillPrice
        entryTs := some (p.entryTs.getD row.bar.ts)
        entryBar := if p.entryTs.isNone then j else p.entryBar },
      cash - fill * fillPrice)
  else (p, cash)

/-- (2) An entry that is not complete goes on. -/
def continueEntry (j : ℕ) (row : WindowRow F) (s : LoopState F) : LoopState F :=
  match s.pos with
  | some p =>
    if p.complete then s
    else
      let (p, cash) := fillPosition env j row p s.cash
      let barsFilling := p.barsFilling + 1
      let complete := decide (p.targetQty - p.qty ≤ PyFloat.lit (1 / 10 ^ 9)) || decide (maxFillBars ≤ barsFilling)
      if complete then
        if p.qty ≤ PyFloat.lit (1 / 10 ^ 12) then { s with cash := cash, pos := none }
        else
          let entryCommission := commission env p.qty
          { s with
            cash := cash - entryCommission
            pos := some { p with barsFilling := barsFilling, complete := true, entryCommission := entryCommission } }
      else { s with cash := cash, pos := some { p with barsFilling := barsFilling } }
  | none => s

/-- (3) Stops and targets within the bar. -/
def intraBar (j : ℕ) (row : WindowRow F) (s : LoopState F) : LoopState F :=
  match s.pos with
  | some p =>
    if 0 < p.qty then
      let p := p.updateExcursions row.bar.high row.bar.low
      match p.checkExit row.bar.openPrice row.bar.high row.bar.low with
      | some (exitPx, reason) => close env p (exitPx * (1 - slip env)) reason row.bar.ts j s
      | none => { s with pos := some p }
    else s
  | none => s

/-- What is open at the last bar is closed. -/
def forceClose (n j : ℕ) (row : WindowRow F) (s : LoopState F) : LoopState F :=
  match s.pos with
  | some p =>
    if j + 1 = n ∧ 0 < p.qty then
      -- the commission of an entry that is still being filled has not been charged
      if p.complete = false ∧ PyFloat.truth p.entryCommission = false then
        let entryCommission := commission env p.qty
        close env { p with entryCommission := entryCommission, complete := true }
          (row.bar.close * (1 - slip env)) "force_close" row.bar.ts j { s with cash := s.cash - entryCommission }
      else close env p (row.bar.close * (1 - slip env)) "force_close" row.bar.ts j s
    else s
  | none => s

/-- (4) The equity at the close. -/
def markEquity (j : ℕ) (row : WindowRow F) (s : LoopState F) : LoopState F :=
  match s.pos with
  | some p =>
    { s with
      equity := s.equity.set j (s.cash + p.qty * row.bar.close)
      exposureBars := if 0 < p.qty then s.exposureBars + 1 else s.exposureBars }
  | none => { s with equity := s.equity.set j (s.cash + 0) }

/-- (5) New signals at the close. -/
def newSignals (bars : List (Bar F)) (n j : ℕ) (row : WindowRow F) (s : LoopState F) : LoopState F :=
  if row.entry = true ∧ row.exit = true then s
  else if row.entry = true ∧ s.pos.isNone = true ∧ s.pendingSignal.isNone = true ∧ j + 1 < n then
    let qty := sizeEntry env bars row.fullPos row.bar.close s.cash row.stopPct
    if 0 < qty then { s with pendingSignal := some ⟨j, row.stopPct, row.targetPct, qty⟩ } else s
  else if row.exit = true ∧ s.pos.any (·.complete) = true then { s with pendingExit := true }
  else s

/-- The body of the loop. -/
def barStep (bars : List (Bar F)) (n j : ℕ) (row : WindowRow F) (s : LoopState F) : LoopState F :=
  newSignals env bars n j row <| markEquity j row <| forceClose env n j row <| intraBar env j row <|
    continueEntry env j row <| beginEntry j <| exitAtOpen env j row s

end

/-! ### What a bar reads and writes -/

section
/-- What happens at a bar is published for that bar only. -/
def Replayed (j : ℕ) (ts : ℤ) (s t : LoopState F) : Prop :=
  Published (fun (s : LoopState F) i => s.equity[i]?) (·.trades) (·.exitTs) j ts s t

variable {env : Setting F} {bars bars' : List (Bar F)} {n j : ℕ} {row : WindowRow F} {s : LoopState F}

theorem replayed_of_eq {ts : ℤ} {t : LoopState F} (hequity : t.equity = s.equity) (htrades : t.trades = s.trades) :
    Replayed j ts s t := by
  refine .of_eq ?_ htrades
  funext i
  exact congrArg (·[i]?) hequity

theorem replayed_close (p : Position F) (price : F) (reason : String) (ts : ℤ) :
    Replayed j ts s (close env p price reason ts j s) := by
  refine ⟨fun _ _ => rfl, _, rfl, fun x hx => ?_⟩
  rw [List.mem_singleton.mp hx]

theorem replayed_exitAtOpen : Replayed j row.bar.ts s (exitAtOpen env j row s) := by
  unfold exitAtOpen
  split
  · split_ifs
    · exact (replayed_close _ _ _ _).trans (replayed_of_eq rfl rfl)
    · exact replayed_of_eq rfl rfl
  · exact replayed_of_eq rfl rfl

theorem replayed_beginEntry : Replayed j row.bar.ts s (beginEntry j s) := by
  unfold beginEntry
  split <;> exact replayed_of_eq rfl rfl

theorem replayed_continueEntry : Replayed j row.bar.ts s (continueEntry env j row s) := by
  unfold continueEntry
  split
  · dsimp only
    split_ifs <;> exact replayed_of_eq rfl rfl
  · exact replayed_of_eq rfl rfl

theorem replayed_intraBar : Replayed j row.bar.ts s (intraBar env j row s) := by
  unfold intraBar
  split
  · split_ifs
    · dsimp only
      split
      · exact replayed_close _ _ _ _
      · exact replayed_of_eq rfl rfl
    · exact replayed_of_eq rfl rfl
  · exact replayed_of_eq rfl rfl

theorem replayed_forceClose : Replayed j row.bar.ts s (forceClose env n j row s) := by
  unfold forceClose
  split
  · dsimp only
    split_ifs
    · have hcharged (cash : F) : Replayed j row.bar.ts s { s with cash := cash } := replayed_of_eq rfl rfl
      exact (hcharged _).trans (replayed_close _ _ _ _)
    · exact replayed_close _ _ _ _
    · exact replayed_of_eq rfl rfl
  · exact replayed_of_eq rfl rfl

theorem replayed_markEquity : Replayed j row.bar.ts s (markEquity j row s) := by
  unfold markEquity
  split
  · refine ⟨fun i hi => List.getElem?_set_ne hi.symm, [], (List.append_nil _).symm, fun _ h => nomatch h⟩
  · refine ⟨fun i hi => List.getElem?_set_ne hi.symm, [], (List.append_nil _).symm, fun _ h => nomatch h⟩

theorem replayed_newSignals : Replayed j row.bar.ts s (newSignals env bars n j row s) := by
  unfold newSignals
  dsimp only
  split_ifs <;> exact replayed_of_eq rfl rfl

/-- **A bar marks the equity of itself only, and closes trades at its own time.** -/
theorem replayed_barStep : Replayed j row.bar.ts s (barStep env bars n j row s) :=
  (((((replayed_exitAtOpen.trans replayed_beginEntry).trans replayed_continueEntry).trans replayed_intraBar).trans
    replayed_forceClose).trans replayed_markEquity).trans replayed_newSignals

theorem atr14_congr {p : ℕ} (h : bars.take (p + 1) = bars'.take (p + 1)) :
    atr14FromBars bars p = atr14FromBars bars' p := by
  unfold atr14FromBars
  rw [h]

/-- A size is made of the bars up to that of the signal. -/
theorem sizeEntry_congr {p : ℕ} (h : bars.take (p + 1) = bars'.take (p + 1)) (price equity : F) (stopPct : Option F) :
    sizeEntry env bars p price equity stopPct = sizeEntry env bars' p price equity stopPct := by
  unfold sizeEntry
  rw [atr14_congr h]

theorem barStep_congr (h : bars.take (row.fullPos + 1) = bars'.take (row.fullPos + 1)) :
    barStep env bars n j row s = barStep env bars' n j row s := by
  unfold barStep newSignals
  rw [sizeEntry_congr h]

end

/-! ### The loop -/

/-- `ReplayResult`. -/
structure ReplayResult (F : Type) where
  /-- `symbol`. -/
  symbol : String
  /-- The index of `equity`. -/
  index : List ℤ
  /-- `equity`. -/
  equity : List F
  /-- `trades`. -/
  trades : List (Trade F)
  /-- `exposure_bars`. -/
  exposureBars : ℕ
  /-- `n_bars`. -/
  nBars : ℕ

section
variable (env : Setting F) (fr : Frames F)

/-- The step at a bar of the window. -/
def windowStep (window : List ℕ) (j : ℕ) (s : LoopState F) : LoopState F :=
  match (window[j]?).bind fr.row with
  | some row => barStep env fr.bars window.length j row s
  | none => s

/-- What the loop starts from. -/
def LoopState.start (n : ℕ) : LoopState F where
  cash := env.cfg.initialCash
  pos := none
  pendingSignal := none
  pendingExit := false
  trades := []
  equity := List.replicate n 0
  exposureBars := 0

/-- `replay`. -/
def replay (testStart testEnd : ℤ) : ReplayResult F :=
  let window := fr.window testStart testEnd
  let s := iterate (windowStep env fr window) (.start env window.length) window.length
  { symbol := env.symbol
    index := window.filterMap fun p => fr.index[p]?
    equity := s.equity
    trades := s.trades
    exposureBars := s.exposureBars
    nBars := window.length }

end

end

end StratTrader.Backtest
