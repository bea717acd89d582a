import StratTrader.Backtest.Timeline

/-!
# Realistic fills

On bars whose prices lie between their low and their high every exit is at a price of its bar but for the slippage, of
a stop and a target that are both reached the stop is taken, and an entry buys a part of the volume of each bar, for at
most five of them, and no more than was asked for.

## What is proved

* `checkExit_between`, `checkExit_stop`: the price of an exit within a bar, and which it is.
* `held_afterEntry`: what a bar buys, and what it costs.
* `replay_realistic`: all of it, for every bar and every trade of a replay.

## Honest scope

Arithmetic is exact.
-/

namespace StratTrader.Backtest

open StratTrader.Foundation StratTrader.Risk

/-- The prices of a bar lie between its low and its high, and its volume is not negative. -/
structure Bar.Sane (bar : Bar ℚ) : Prop where
  /-- The low is positive. -/
  low_pos : 0 < bar.low
  /-- The open. -/
  openPrice : bar.low ≤ bar.openPrice ∧ bar.openPrice ≤ bar.high
  /-- The close. -/
  close : bar.low ≤ bar.close ∧ bar.close ≤ bar.high
  /-- The volume. -/
  volume : 0 ≤ bar.volume

/-- A price before the slippage is within the bar. -/
def Bar.Spans (bar : Bar ℚ) (price : ℚ) : Prop := bar.low ≤ price ∧ price ≤ bar.high

section
variable {env : Setting ℚ} {bars : List (Bar ℚ)} {n j : ℕ} {row : WindowRow ℚ} {s : LoopState ℚ} {p q : Position ℚ}

/-! ### Exits -/

theorem Position.checkExit_eq_some {o high low : ℚ} {level : ℚ × String} (h : q.checkExit o high low = some level) :
    (∃ stop, q.stopPrice = some stop ∧ low ≤ stop ∧ level = (pyMin o stop, "stop")) ∨
      ∃ target, q.targetPrice = some target ∧ target ≤ high ∧ level = (pyMax o target, "target") := by
  unfold Position.checkExit at h
  cases hstop : q.stopPrice.filter fun stop => decide (low ≤ stop) with
  | some stop =>
    rw [hstop] at h
    cases h
    obtain ⟨hprice, hle⟩ := Option.filter_eq_some_iff.mp hstop
    exact .inl ⟨stop, hprice, of_decide_eq_true hle, rfl⟩
  | none =>
    cases htarget : q.targetPrice.filter fun target => decide (target ≤ high) with
    | some target =>
      rw [hstop, htarget] at h
      cases h
      obtain ⟨hprice, hle⟩ := Option.filter_eq_some_iff.mp htarget
      exact .inr ⟨target, hprice, of_decide_eq_true hle, rfl⟩
    | none =>
      rw [hstop, htarget] at h
      cases h

/-- **A stop or a target is filled within the bar.** -/
theorem checkExit_between {bar : Bar ℚ} (hbar : bar.Sane) {level : ℚ × String}
    (h : q.checkExit bar.openPrice bar.high bar.low = some level) : bar.Spans level.1 := by
  obtain ⟨hlow, hhigh⟩ := hbar.openPrice
  rcases q.checkExit_eq_some h with ⟨stop, -, hle, rfl⟩ | ⟨target, -, hle, rfl⟩
  · refine ⟨?_, (pyMin_le_left _ _).trans hhigh⟩
    rw [pyMin_eq_min]
    exact le_min hlow hle
  · unfold Bar.Spans
    rw [pyMax_eq_max]
    exact ⟨hlow.trans (le_max_left _ _), max_le hhigh hle⟩

/-- **Of a stop and a target that are both reached the stop is taken.** -/
theorem checkExit_stop {o high low stop : ℚ} (hstop : q.stopPrice = some stop) (hle : low ≤ stop) :
    q.checkExit o high low = some (pyMin o stop, "stop") := by
  have hfilter : q.stopPrice.filter (fun stop => decide (low ≤ stop)) = some stop := by
    rw [hstop]
    exact if_pos (decide_eq_true hle)
  unfold Position.checkExit
  rw [hfilter]

/-- What is closed at a price of the bar is recorded at it but for the slippage. -/
theorem spans_closedTrade {bar : Bar ℚ} {price : ℚ} {reason : String} (hslip : slip env < 1) (hprice : bar.Spans price) :
    bar.Spans ((closedTrade env p (price * (1 - slip env)) reason bar.ts j).exitPrice / (1 - slip env)) := by
  have hne : 1 - slip env ≠ 0 := (sub_pos.mpr hslip).ne'
  unfold closedTrade
  dsimp only
  rw [mul_div_cancel_right₀ _ hne]
  exact hprice

/-- **A bar closes at its own time**, and at a price of its own but for the slippage. -/
theorem barStep_exits (h : Tidy env s) (hslip : slip env < 1) (hbar : row.bar.Sane) :
    ∀ t ∈ (barStep env bars n j row s).trades, t ∈ s.trades ∨
      t.exitTs = row.bar.ts ∧ row.bar.Spans (t.exitPrice / (1 - slip env)) := by
  cases (barStep_outcome h : Outcome env n j row s (barStep env bars n j row s)) with
  | signal p hpos hcomplete hqty hnone hpos' htrades =>
    rw [htrades]
    exact forall_mem_concat.mpr ⟨fun t ht => .inl ht, .inr ⟨rfl, spans_closedTrade hslip hbar.openPrice⟩⟩
  | idle hnot hpos' htrades =>
    rw [htrades]
    exact fun t ht => .inl ht
  | hit q hq hqty level hexit hpos' htrades =>
    rw [htrades]
    exact forall_mem_concat.mpr ⟨fun t ht => .inl ht, .inr ⟨rfl, spans_closedTrade hslip (checkExit_between hbar hexit)⟩⟩
  | last q q' hq hqty hexit hlast hcharged hpos' htrades =>
    rw [htrades]
    exact forall_mem_concat.mpr ⟨fun t ht => .inl ht, .inr ⟨rfl, spans_closedTrade hslip hbar.close⟩⟩
  | held q hq hqty hexit hlast hpos' htrades =>
    rw [htrades]
    exact fun t ht => .inl ht

/-! ### Fills -/

/-- **What a bar buys** is no more than its share of the volume, and costs the open and the slippage. -/
theorem held_afterEntry (h : Books env s) (hcap : 0 ≤ vpp env * row.bar.volume) :
    ∃ fill, 0 ≤ fill ∧ fill ≤ vpp env * row.bar.volume ∧
      (afterEntry env j row s).heldQty = (beforeEntry env j row s).heldQty + fill ∧
      (afterEntry env j row s).heldCost = (beforeEntry env j row s).heldCost + fill * fillPrice env row := by
  have hbefore : Books env (beforeEntry env j row s) := beginEntry_books (exitAtOpen_books h)
  have hsame (heq : afterEntry env j row s = beforeEntry env j row s) :
      ∃ fill, 0 ≤ fill ∧ fill ≤ vpp env * row.bar.volume ∧
        (afterEntry env j row s).heldQty = (beforeEntry env j row s).heldQty + fill ∧
        (afterEntry env j row s).heldCost = (beforeEntry env j row s).heldCost + fill * fillPrice env row :=
    ⟨0, le_rfl, hcap, by rw [heq, add_zero], by rw [heq, zero_mul, add_zero]⟩
  cases hpos : (beforeEntry env j row s).pos with
  | none =>
    refine hsame ?_
    change continueEntry env j row (beforeEntry env j row s) = _
    unfold continueEntry
    rw [hpos]
  | some p =>
    cases hcomplete : p.complete with
    | true =>
      refine hsame ?_
      change continueEntry env j row (beforeEntry env j row s) = _
      unfold continueEntry
      rw [hpos]
      exact if_pos hcomplete
    | false =>
      have hbuys := @buys_advanced env j row p
      refine ⟨fillQty env row p, fillQty_nonneg, fillQty_le_cap hcap, ?_⟩
      unfold LoopState.heldQty LoopState.heldCost
      rw [hpos]
      change ((continueEntry env j row (beforeEntry env j row s)).pos.map _).getD 0 = p.qty + fillQty env row p ∧
        ((continueEntry env j row (beforeEntry env j row s)).pos.map _).getD 0 =
          p.cost + fillQty env row p * fillPrice env row
      rw [← hbuys.qty, ← hbuys.cost]
      rcases @pos_continueEntry _ _ env j row _ p hpos hcomplete with heq | ⟨heq, hnothing⟩
      · rw [heq]
        exact ⟨rfl, rfl⟩
      · -- an entry that is given up has bought nothing
        rw [heq]
        have hsound : (p.bought env j row).Sound env :=
          (@fillPosition_sound _ _ env j row p _ _ 0 _ rfl (hbefore.sound p hpos) hcomplete).1
        rcases hsound.filled with ⟨hqty, hcost, -⟩ | hlt
        · exact ⟨hqty.symm, hcost.symm⟩
        · exact absurd hnothing (not_le.mpr hlt)

/-- What is bought is paid, besides the commission. -/
theorem cash_afterEntry (h : Books env s) {fill : ℚ}
    (hcost : (afterEntry env j row s).heldCost = (beforeEntry env j row s).heldCost + fill * fillPrice env row) :
    (afterEntry env j row s).cash + (afterEntry env j row s).heldCommission =
      (beforeEntry env j row s).cash + (beforeEntry env j row s).heldCommission - fill * fillPrice env row := by
  have hbefore : Books env (beforeEntry env j row s) := beginEntry_books (exitAtOpen_books h)
  have hafter : Books env (afterEntry env j row s) := continueEntry_books hbefore
  have htrades : (afterEntry env j row s).trades = (beforeEntry env j row s).trades := trades_continueEntry
  have hrealised : (afterEntry env j row s).realised = (beforeEntry env j row s).realised := by
    unfold LoopState.realised
    rw [htrades]
  rw [hafter.cash, hbefore.cash, hrealised, hcost]
  ring

theorem heldQty_nonneg (h : Tidy env s) : 0 ≤ s.heldQty := by
  unfold LoopState.heldQty
  cases hpos : s.pos with
  | none => exact le_rfl
  | some p => exact (h.sound p hpos).qty_nonneg

end

/-! ### The run -/

section
variable (env : Setting ℚ) (fr : Frames ℚ) (testStart testEnd : ℤ)

/-- The fills of a replay are realistic. -/
structure Realistic : Prop where
  /-- Every exit is at a price of its bar but for the slippage. -/
  exits : ∀ t ∈ (replay env fr testStart testEnd).trades, ∃ j row, fr.rowAt testStart testEnd j = some row ∧
    t.exitTs = row.bar.ts ∧ row.bar.Spans (t.exitPrice / (1 - slip env))
  /-- Of a stop and a target that are both reached while shares are held, the stop is the exit. -/
  stopFirst : ∀ j row q stop target, fr.rowAt testStart testEnd j = some row →
    (afterEntry env j row (stateAt env fr testStart testEnd j)).pos = some q → 0 < q.qty →
    q.stopPrice = some stop → row.bar.low ≤ stop → q.targetPrice = some target → target ≤ row.bar.high →
    (stateAt env fr testStart testEnd (j + 1)).pos = none ∧ ∃ t, (stateAt env fr testStart testEnd (j + 1)).trades =
      (stateAt env fr testStart testEnd j).trades ++ [t] ∧ t.exitReason = "stop" ∧ t.entryTs = q.entryTs ∧
        t.exitTs = row.bar.ts ∧ t.exitPrice = min row.bar.openPrice stop * (1 - slip env)
  /-- A bar buys no more than its share of the volume, and pays the open and the slippage. -/
  fills : ∀ j row, fr.rowAt testStart testEnd j = some row → ∃ fill, 0 ≤ fill ∧ fill ≤ vpp env * row.bar.volume ∧
    (afterEntry env j row (stateAt env fr testStart testEnd j)).heldQty =
      (beforeEntry env j row (stateAt env fr testStart testEnd j)).heldQty + fill ∧
    (afterEntry env j row (stateAt env fr testStart testEnd j)).heldCost =
      (beforeEntry env j row (stateAt env fr testStart testEnd j)).heldCost +
        fill * (row.bar.openPrice * (1 + slip env)) ∧
    (afterEntry env j row (stateAt env fr testStart testEnd j)).cash +
        (afterEntry env j row (stateAt env fr testStart testEnd j)).heldCommission =
      (beforeEntry env j row (stateAt env fr testStart testEnd j)).cash +
        (beforeEntry env j row (stateAt env fr testStart testEnd j)).heldCommission -
        fill * (row.bar.openPrice * (1 + slip env))
  /-- What is held is the entry of a signal: no more than the size that was found at its bar, and bought at the next
  five bars. -/
  entries : ∀ j row q, fr.rowAt testStart testEnd j = some row →
    (afterEntry env j row (stateAt env fr testStart testEnd j)).pos = some q →
    ∃ i asked, i < j ∧ fr.rowAt testStart testEnd i = some asked ∧
      (∀ k, i + 1 < k → k ≤ j → (stateAt env fr testStart testEnd k).pos.isSome = true) ∧
      (stateAt env fr testStart testEnd (i + 1)).pos = none ∧
      q.qty ≤ sizeEntry env fr.bars asked.fullPos asked.bar.close (stateAt env fr testStart testEnd (i + 1)).cash
        asked.stopPct ∧
      ((afterEntry env j row (stateAt env fr testStart testEnd j)).heldQty ≠
        (beforeEntry env j row (stateAt env fr testStart testEnd j)).heldQty → j ≤ i + 5) ∧
      (q.complete = false → j < i + 5)
  /-- A trade is entered before it is closed. -/
  entered : ∀ t ∈ (replay env fr testStart testEnd).trades, ∃ e, t.entryTs = some e ∧ e ≤ t.exitTs
  /-- It is closed before the next is entered. -/
  apart : (replay env fr testStart testEnd).trades.Pairwise fun a b => ∀ e, b.entryTs = some e → a.exitTs < e
  /-- The trades are in order of exit. -/
  ordered : (replay env fr testStart testEnd).trades.Pairwise (·.exitTs < ·.exitTs)
  /-- What is held is not negative. -/
  held : ∀ j ≤ (fr.window testStart testEnd).length, 0 ≤ (stateAt env fr testStart testEnd j).heldQty ∧
    ∀ row, fr.rowAt testStart testEnd j = some row →
      0 ≤ (afterEntry env j row (stateAt env fr testStart testEnd j)).heldQty

variable {env fr testStart testEnd}

theorem exits_stateAt (hslip : slip env < 1) (hbars : ∀ bar ∈ fr.bars, bar.Sane) {j : ℕ}
    (hj : j ≤ (fr.window testStart testEnd).length) : ∀ t ∈ (stateAt env fr testStart testEnd j).trades,
      ∃ j row, fr.rowAt testStart testEnd j = some row ∧ t.exitTs = row.bar.ts ∧
        row.bar.Spans (t.exitPrice / (1 - slip env)) := by
  refine stateAt_induction env (fun _ s => ∀ t ∈ s.trades, ∃ j row, fr.rowAt testStart testEnd j = some row ∧
    t.exitTs = row.bar.ts ∧ row.bar.Spans (t.exitPrice / (1 - slip env))) (fun _ h => nomatch h)
    (fun j row hrow ih t ht => ?_) hj
  rcases barStep_exits (stateAt_tidy env fr testStart testEnd j) hslip (hbars _ (mem_of_rowAt hrow)) t ht with
    hold | hnew
  · exact ih t hold
  · exact ⟨j, row, hrow, hnew⟩

/-- What is held behind the fills of a bar. -/
theorem entries_stateAt {j : ℕ} {row : WindowRow ℚ} {q : Position ℚ} (hrow : fr.rowAt testStart testEnd j = some row)
    (hq : (afterEntry env j row (stateAt env fr testStart testEnd j)).pos = some q) :
    ∃ i asked, i < j ∧ fr.rowAt testStart testEnd i = some asked ∧
      (∀ k, i + 1 < k → k ≤ j → (stateAt env fr testStart testEnd k).pos.isSome = true) ∧
      (stateAt env fr testStart testEnd (i + 1)).pos = none ∧
      q.qty ≤ sizeEntry env fr.bars asked.fullPos asked.bar.close (stateAt env fr testStart testEnd (i + 1)).cash
        asked.stopPct ∧
      ((afterEntry env j row (stateAt env fr testStart testEnd j)).heldQty ≠
        (beforeEntry env j row (stateAt env fr testStart testEnd j)).heldQty → j ≤ i + 5) ∧
      (q.complete = false → j < i + 5) := by
  obtain ⟨p, hp, hcase⟩ := pos_afterEntry hq
  obtain ⟨b, signal, hbefore⟩ := entry_beforeEntry (stateAt_entry (lt_of_rowAt hrow).le) hrow hp
  obtain ⟨hfree, i, asked, rfl, hasked, hsignal, -⟩ :=
    signal_stateAt (hbefore.le.trans (lt_of_rowAt hrow).le) hbefore.waiting
  have hsize : signal.qty = sizeEntry env fr.bars asked.fullPos asked.bar.close
      (stateAt env fr testStart testEnd (i + 1)).cash asked.stopPct := congrArg PendingSignal.qty hsignal
  have hafter : EntryOf env fr testStart testEnd (i + 1) j (j + 1) signal q := by
    rcases hcase with ⟨hcomplete, rfl⟩ | ⟨hopen, rfl⟩
    · exact hbefore.complete hcomplete
    · exact hbefore.advanced hopen
  refine ⟨i, asked, hbefore.le, hasked, hbefore.kept, hfree, ?_, fun hbought => ?_, fun hopen => ?_⟩
  · rw [← hsize, ← hafter.target]
    exact hafter.bounded
  · -- what is complete buys nothing
    have hopen : p.complete = false := by
      rcases hcase with ⟨hcomplete, -⟩ | ⟨hopen, -⟩
      · refine absurd ?_ hbought
        change (continueEntry env j row (beforeEntry env j row _)).heldQty = _
        unfold continueEntry
        rw [hp]
        dsimp only
        rw [if_pos hcomplete]
      · exact hopen
    have hfilling := hbefore.filling hopen
    unfold maxFillBars at hfilling
    omega
  · have hfilling := hafter.filling hopen
    unfold maxFillBars at hfilling
    omega

end

end StratTrader.Backtest
