import StratTrader.Backtest.Outcomes

/-!
# Exit signals

An exit signal is honoured at the next open if the entry of the position is complete. While it is
still being filled the signal is passed over: what is held then is closed at the next bar only if a
stop or a target is hit there, or if it is the last.

## What is proved

* `close_of_complete`: a signal to a position whose entry is complete closes it at the next open.
* `barStep_held`: what becomes of shares that are held behind the fills of a bar.
* `honoured_iff`: when no shares are held at the next close.

## Honest scope

A position is told from others by the time of its first fill. Floats may be rounded; the two samples are of floats that
are not.
-/

namespace StratTrader.Backtest

open StratTrader.Foundation StratTrader.Risk

section
variable {F : Type} [PyFloat F] {env : Setting F} {bars : List (Bar F)} {n j : ℕ} {row : WindowRow F} {s : LoopState F}
  {p : Position F}

/-- **A signal to a position whose entry is complete closes it at the next open.** -/
theorem close_of_complete (h : Tidy env s) (hpos : s.pos = some p) (hexit : s.pendingExit = true)
    (hcomplete : p.complete = true) (hqty : 0 < p.qty) :
    (barStep env bars n j row s).pos = none ∧
      ∃ t ∈ (barStep env bars n j row s).trades, t.entryTs = p.entryTs ∧ t.exitTs = row.bar.ts := by
  obtain ⟨hclosed, hnone⟩ := @exitAtOpen_of_complete F _ env j row s p h hpos hexit hcomplete hqty
  have hidle := @forceClose_of_idle F _ env n j row s fun q hq => by rw [hnone] at hq; cases hq
  refine ⟨by rw [pos_barStep, hidle, hnone], closedTrade env p (row.bar.openPrice * (1 - slip env)) "signal" row.bar.ts j,
    ?_, rfl, rfl⟩
  rw [trades_barStep, hidle, trades_afterEntry, hclosed]
  exact List.mem_append_right _ (List.mem_singleton_self _)

/-- What is bought is added to the shares that are held. -/
theorem advanced_of_held [LawfulPyFloat F] (h : p.Sound env) (hqty : 0 < p.qty) :
    (p.advanced env j row).entryTs = p.entryTs ∧ dust < (p.advanced env j row).qty := by
  have hlt := h.lt_qty hqty
  obtain ⟨ts, hts⟩ := Option.isSome_iff_exists.mp (h.entered hqty)
  unfold Position.advanced Position.bought
  rcases @fillPosition_cases F _ env j row p 0 with ⟨-, heq⟩ | ⟨hfill, heq⟩
  · rw [heq]
    exact ⟨rfl, hlt⟩
  · rw [heq]
    refine ⟨?_, LawfulPyFloat.dust_lt_add _ _ (.inr hlt) hfill⟩
    dsimp only
    rw [hts]
    rfl

/-- An entry that is still being filled keeps what is filled. -/
theorem afterEntry_of_filling [LawfulPyFloat F] (h : Tidy env s) (hpos : s.pos = some p) (hcomplete : p.complete = false)
    (hqty : 0 < p.qty) : ∃ q, (afterEntry env j row s).pos = some q ∧ q.entryTs = p.entryTs ∧ 0 < q.qty := by
  have hexit : exitAtOpen env j row s = s := by
    unfold exitAtOpen
    rw [hpos]
    refine if_neg fun hexit => ?_
    rw [hcomplete] at hexit
    cases hexit.2.1
  have hbegin : beginEntry j s = s := by
    unfold beginEntry
    rw [h.waiting p hpos]
  have hafter : afterEntry env j row s = continueEntry env j row s := by
    unfold afterEntry
    rw [hexit, hbegin]
  obtain ⟨hentry, hlt⟩ := @advanced_of_held F _ env j row p _ (h.sound p hpos) hqty
  rw [hafter]
  rcases @pos_continueEntry F _ env j row s p hpos hcomplete with hheld | ⟨-, hnothing⟩
  · exact ⟨_, hheld, hentry, LawfulPyFloat.pos_of_dust_lt _ hlt⟩
  · exact absurd hnothing (LawfulPyFloat.not_le_dust _ hlt)

/-- **Shares that are held behind the fills of a bar** are closed at it if a stop or a target is hit, or if it is the
last, and are held at its close otherwise. -/
theorem barStep_held {q : Position F} (h : Tidy env s) (hpos : (afterEntry env j row s).pos = some q) (hqty : 0 < q.qty) :
    ((q.checkExit row.bar.openPrice row.bar.high row.bar.low).isSome = true ∨ j + 1 = n) ∧
        (barStep env bars n j row s).pos = none ∧
        (∃ t ∈ (barStep env bars n j row s).trades, t.entryTs = q.entryTs ∧ t.exitTs = row.bar.ts) ∨
      ¬ ((q.checkExit row.bar.openPrice row.bar.high row.bar.low).isSome = true ∨ j + 1 = n) ∧
        ∃ q', (barStep env bars n j row s).pos = some q' ∧ q'.entryTs = q.entryTs ∧ 0 < q'.qty := by
  obtain ⟨hsame, -, -⟩ := updateExcursions_eq q row.bar.high row.bar.low
  have hentry : (q.updateExcursions row.bar.high row.bar.low).entryTs = q.entryTs := by
    unfold Position.updateExcursions
    split_ifs <;> rfl
  cases @barStep_outcome F _ env bars n j row s h with
  | signal p hbefore hcomplete hheld hafter hpos' htrades =>
    rw [hpos] at hafter
    cases hafter
  | idle hafter hpos' htrades => exact absurd hqty (hafter q hpos)
  | hit q' hafter hheld level hexit hpos' htrades =>
    rw [hpos] at hafter
    cases hafter
    rw [htrades]
    exact .inl ⟨.inl (Option.isSome_of_mem hexit), hpos', _, List.mem_append_right _ (List.mem_singleton_self _), hentry,
      rfl⟩
  | last q' q'' hafter hheld hexit hlast hcharged hpos' htrades =>
    rw [hpos] at hafter
    cases hafter
    obtain ⟨c, b, rfl⟩ := hcharged
    rw [htrades]
    exact .inl ⟨.inr hlast, hpos', _, List.mem_append_right _ (List.mem_singleton_self _), hentry, rfl⟩
  | held q' hafter hheld hexit hlast hpos' htrades =>
    rw [hpos] at hafter
    cases hafter
    refine .inr ⟨?_, _, hpos', hentry, by rwa [hsame]⟩
    rintro (hhit | hend)
    · rw [hexit] at hhit
      cases hhit
    · exact hlast hend

/-- A signal at the close of a bar waits for the next if the entry is complete. -/
theorem pendingExit_barStep (hexit : row.exit = true) (hentry : row.entry = false)
    (hpos : (barStep env bars n j row s).pos = some p) (hcomplete : p.complete = true) :
    (barStep env bars n j row s).pendingExit = true := by
  obtain ⟨u, hu⟩ : ∃ u, markEquity j row (forceClose env n j row (intraBar env j row (afterEntry env j row s))) = u :=
    ⟨_, rfl⟩
  have hbar : barStep env bars n j row s = newSignals env bars n j row u := by
    rw [← hu]
    rfl
  rw [hbar] at hpos ⊢
  rw [newSignals_eq.2.1] at hpos
  unfold newSignals
  rw [if_neg (fun h => Bool.false_ne_true (hentry.symm.trans h.1)),
    if_neg (fun h => Bool.false_ne_true (hentry.symm.trans h.1)), if_pos]
  refine ⟨hexit, ?_⟩
  rw [hpos]
  exact hcomplete

end

/-! ### The run -/

section
variable {F : Type} [PyFloat F] (env : Setting F) (fr : Frames F) (testStart testEnd : ℤ)

/-- No shares of a position are held at the close of a bar, and a trade has closed it by then. -/
structure ClosedBy (p : Position F) (j : ℕ) : Prop where
  /-- The shares. -/
  sold : ∀ q, (stateAt env fr testStart testEnd (j + 1)).pos = some q → 0 < q.qty → q.entryTs ≠ p.entryTs
  /-- The trade. -/
  traded : ∃ row, fr.rowAt testStart testEnd j = some row ∧
    ∃ t ∈ (replay env fr testStart testEnd).trades, t.entryTs = p.entryTs ∧ t.exitTs ≤ row.bar.ts

variable {env fr testStart testEnd}

theorem trades_stateAt_grow {j : ℕ} (hj : j ≤ (fr.window testStart testEnd).length) :
    (stateAt env fr testStart testEnd j).trades <+: (replay env fr testStart testEnd).trades := by
  have hprefix := (windowStep_publishes env fr (fr.window testStart testEnd)).log_grows
    (s := .start env (fr.window testStart testEnd).length) hj
  unfold stateAt replay
  exact hprefix

/-- **An exit signal is honoured by the close of the next bar exactly if the entry of the position is complete, or that
bar is the last, or a stop or a target is hit at it.** -/
theorem honoured_iff [LawfulPyFloat F] {j : ℕ} {row next : WindowRow F} {p : Position F}
    (hrow : fr.rowAt testStart testEnd j = some row) (hnext : fr.rowAt testStart testEnd (j + 1) = some next)
    (hexit : row.exit = true) (hentry : row.entry = false)
    (hpos : (stateAt env fr testStart testEnd (j + 1)).pos = some p) (hqty : 0 < p.qty) :
    ClosedBy env fr testStart testEnd p (j + 1) ↔
      p.complete = true ∨ j + 2 = (fr.window testStart testEnd).length ∨
      ∃ q, (afterEntry env (j + 1) next (stateAt env fr testStart testEnd (j + 1))).pos = some q ∧
        (q.checkExit next.bar.openPrice next.bar.high next.bar.low).isSome = true := by
  have htidy := stateAt_tidy env fr testStart testEnd (j + 1)
  have hstep := stateAt_succ env fr testStart testEnd hnext
  have hlt : j + 1 < (fr.window testStart testEnd).length := by
    obtain ⟨p, hp, -⟩ := Option.bind_eq_some_iff.mp hnext
    exact (List.getElem?_eq_some_iff.mp hp).1
  -- what a bar closes at its own time is closed by then
  have hclosed : (stateAt env fr testStart testEnd (j + 2)).pos = none →
      (∃ t ∈ (stateAt env fr testStart testEnd (j + 2)).trades, t.entryTs = p.entryTs ∧ t.exitTs = next.bar.ts) →
      ClosedBy env fr testStart testEnd p (j + 1) := by
    rintro hnone ⟨t, ht, hentered, hexited⟩
    refine ⟨fun q hq => ?_, next, hnext, t, (trades_stateAt_grow hlt).subset ht, hentered, hexited.le⟩
    rw [hnone] at hq
    cases hq
  cases hcomplete : p.complete with
  | true =>
    refine iff_of_true ?_ (.inl rfl)
    have hpending : (stateAt env fr testStart testEnd (j + 1)).pendingExit = true := by
      rw [stateAt_succ env fr testStart testEnd hrow] at hpos ⊢
      exact pendingExit_barStep hexit hentry hpos hcomplete
    obtain ⟨hnone, htrade⟩ := @close_of_complete F _ env fr.bars (fr.window testStart testEnd).length (j + 1) next _ p
      htidy hpos hpending hcomplete hqty
    rw [← hstep] at hnone htrade
    exact hclosed hnone htrade
  | false =>
    obtain ⟨q, hq, hsame, hqty'⟩ := @afterEntry_of_filling F _ env (j + 1) next _ p _ htidy hpos hcomplete hqty
    have hheld := @barStep_held F _ env fr.bars (fr.window testStart testEnd).length (j + 1) next _ q htidy hq hqty'
    rw [← hstep, hsame] at hheld
    rcases hheld with ⟨hleaves, hnone, htrade⟩ | ⟨hstays, q', hq', hsame', hqty''⟩
    · refine iff_of_true (hclosed hnone htrade) (.inr ?_)
      rcases hleaves with hhit | hlast
      · exact .inr ⟨q, hq, hhit⟩
      · exact .inl hlast
    · refine iff_of_false (fun h => h.sold q' hq' hqty'' hsame') ?_
      rintro (h | hlast | ⟨q₂, hq₂, hhit⟩)
      · cases h
      · exact hstays (.inr hlast)
      · rw [hq] at hq₂
        cases hq₂
        exact hstays (.inl hhit)

end

/-- Four days, with an entry on the first of them and an exit on the second, of which the volume is given. -/
def exitFrames (volume : ℚ) : Frames ℚ where
  bars := [sampleBar 0 100, { sampleBar 1 100 with volume := volume }, sampleBar 2 100, sampleBar 3 100]
  sorted := by simp [sampleBar, Frames.timestamp]
  entries := [true, false, false, false]
  entries_length := rfl
  exits := [false, true, false, false]
  exits_length := rfl
  stopPct := none
  targetPct := none

/-- The position that is held at the close of the second day. -/
def heldAtExit (volume : ℚ) : Option (Position ℚ) := (stateAt commissionSetting (exitFrames volume) 0 4 2).pos

theorem honoured_iff_sample : ∃ p, heldAtExit 1000 = some p ∧ ClosedBy commissionSetting (exitFrames 1000) 0 4 p 2 := by
  have hheld : (heldAtExit 1000).isSome = true := by decide +kernel
  have hqty : 0 < ((heldAtExit 1000).get hheld).qty := by decide +kernel +revert
  refine ⟨(heldAtExit 1000).get hheld, (Option.some_get hheld).symm, ?_⟩
  exact (honoured_iff rfl rfl rfl rfl (Option.some_get hheld).symm hqty).mpr (.inl (by decide +kernel +revert))

/-- **A signal at a bar of which the volume allows a tenth of a share is passed over.** -/
theorem not_honoured : ¬ ∀ (env : Setting ℚ) (fr : Frames ℚ) (testStart testEnd : ℤ) (j : ℕ) (row : WindowRow ℚ)
    (p : Position ℚ), fr.rowAt testStart testEnd j = some row → j + 1 < (fr.window testStart testEnd).length →
      row.exit = true → row.entry = false → (stateAt env fr testStart testEnd (j + 1)).pos = some p → 0 < p.qty →
      ClosedBy env fr testStart testEnd p (j + 1) := by
  intro h
  have hheld : (heldAtExit 1).isSome = true := by decide +kernel
  have hqty : 0 < ((heldAtExit 1).get hheld).qty := by decide +kernel +revert
  have hlater : (stateAt commissionSetting (exitFrames 1) 0 4 3).pos.isSome = true := by decide +kernel
  have hsame : ((stateAt commissionSetting (exitFrames 1) 0 4 3).pos.get hlater).entryTs =
      ((heldAtExit 1).get hheld).entryTs := by decide +kernel +revert
  have hlaterQty : 0 < ((stateAt commissionSetting (exitFrames 1) 0 4 3).pos.get hlater).qty := by
    decide +kernel +revert
  have hclosed := h commissionSetting (exitFrames 1) 0 4 1 _ _ rfl (by decide) rfl rfl (Option.some_get hheld).symm hqty
  exact hclosed.sold _ (Option.some_get hlater).symm hlaterQty hsame

end StratTrader.Backtest
