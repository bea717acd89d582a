import StratTrader.Backtest.Holdings
import Mathlib.Tactic.Linarith
import Mathlib.Tactic.Ring

/-!
# The books of a replay

What the replay has of cash is what it started with and has realised, less what the shares that it
holds have cost and the commission that has been charged on them. Cash moves with each fill, when
an entry is complete or is closed before it is, and at each exit.

## What is proved

* `barStep_books`: every part of a bar keeps the books.
* `replay_accounts`: cash and equity at each bar of the window, and at the last one.

## Honest scope

Arithmetic is exact.
-/

namespace StratTrader.Backtest

open StratTrader.Foundation StratTrader.Risk

/-! ### What is held -/

namespace LoopState

section
variable {F : Type} [PyFloat F] (s : LoopState F)

/-- The shares that are held. -/
def heldQty : F := (s.pos.map (·.qty)).getD 0

/-- What they have cost. -/
def heldCost : F := (s.pos.map (·.cost)).getD 0

/-- The entry commission that has been charged on them. -/
def heldCommission : F := (s.pos.map (·.entryCommission)).getD 0

end

/-- What the trades that are closed have brought. -/
def realised (s : LoopState ℚ) : ℚ := (s.trades.map (·.pnl)).sum

end LoopState

/-! ### The books -/

/-- The books. -/
structure Books (env : Setting ℚ) (s : LoopState ℚ) : Prop extends Tidy env s where
  /-- The cash. -/
  cash : s.cash = env.cfg.initialCash + s.realised - s.heldCost - s.heldCommission

section
variable {env : Setting ℚ} {bars : List (Bar ℚ)} {n j : ℕ} {row : WindowRow ℚ} {s : LoopState ℚ} {p : Position ℚ}

theorem Position.Sound.qty_nonneg (h : p.Sound env) : 0 ≤ p.qty := by
  rcases h.filled with ⟨hqty, -, -⟩ | hqty
  · exact hqty.ge
  · exact (dust_pos.trans hqty).le

theorem Books.cash_of_pos (h : Books env s) (hpos : s.pos = some p) :
    s.cash = env.cfg.initialCash + s.realised - p.cost - p.entryCommission := by
  have hcash := h.cash
  unfold LoopState.heldCost LoopState.heldCommission at hcash
  rwa [hpos] at hcash

theorem books_of_none (hpos : s.pos = none) (hcash : s.cash = env.cfg.initialCash + s.realised) : Books env s := by
  refine ⟨tidy_of_none hpos, ?_⟩
  unfold LoopState.heldCost LoopState.heldCommission
  rw [hpos, hcash]
  exact ((sub_zero _).trans (sub_zero _)).symm

theorem books_of_some (h : Tidy env s) (hpos : s.pos = some p)
    (hcash : s.cash = env.cfg.initialCash + s.realised - p.cost - p.entryCommission) : Books env s := by
  refine ⟨h, ?_⟩
  unfold LoopState.heldCost LoopState.heldCommission
  rw [hpos]
  exact hcash

theorem qty_mul_avgEntry (h : 0 < p.qty) : p.qty * p.avgEntry = p.cost := by
  unfold Position.avgEntry
  rw [if_pos h]
  exact mul_div_cancel₀ p.cost h.ne'

/-- Where nothing is held, nothing has been paid for it. -/
theorem Books.cash_of_nothing (h : Books env s) (hheld : s.heldQty = 0) :
    s.cash = env.cfg.initialCash + s.realised := by
  have hcash := h.cash
  unfold LoopState.heldCost LoopState.heldCommission at hcash
  unfold LoopState.heldQty at hheld
  cases hpos : s.pos with
  | none =>
    rw [hpos] at hcash
    exact hcash.trans ((sub_zero _).trans (sub_zero _))
  | some p =>
    rw [hpos] at hcash hheld
    have hheld : p.qty = 0 := hheld
    have hsound := h.sound p hpos
    rcases hsound.filled with ⟨-, hcost, hcomplete⟩ | hlt
    · rw [Option.map_some, Option.map_some, Option.getD_some, Option.getD_some, hcost, hsound.uncharged hcomplete] at hcash
      exact hcash.trans ((sub_zero _).trans (sub_zero _))
    · rw [hheld] at hlt
      exact absurd (dust_pos.trans hlt) (lt_irrefl 0)

/-- A position is closed at what it brings. -/
theorem close_books {price : ℚ} {reason : String} {ts : ℤ} (hqty : 0 < p.qty)
    (hcash : s.cash = env.cfg.initialCash + s.realised - p.cost - p.entryCommission) :
    Books env (close env p price reason ts j s) := by
  refine books_of_none rfl ?_
  unfold LoopState.realised at *
  unfold close
  dsimp only
  rw [List.map_append, List.sum_append, List.map_singleton, List.sum_singleton, qty_mul_avgEntry hqty, hcash]
  ring

theorem exitAtOpen_books (h : Books env s) : Books env (exitAtOpen env j row s) := by
  unfold exitAtOpen
  cases hpos : s.pos with
  | none => exact h
  | some p =>
    dsimp only
    split_ifs with hexit
    · have hclosed : Books env (close env p (row.bar.openPrice * (1 - slip env)) "signal" row.bar.ts j s) :=
        close_books hexit.2.2 (h.cash_of_pos hpos)
      exact ⟨tidy_of_none rfl, hclosed.cash⟩
    · exact h

theorem beginEntry_books (h : Books env s) : Books env (beginEntry j s) := by
  refine ⟨beginEntry_tidy h.toTidy, ?_⟩
  unfold beginEntry
  cases hsignal : s.pendingSignal with
  | none => exact h.cash
  | some signal =>
    cases hpos : s.pos with
    | some p => exact h.cash
    | none =>
      have hcash := h.cash
      unfold LoopState.heldCost LoopState.heldCommission at hcash
      rw [hpos] at hcash
      exact hcash

/-- What a fill buys is paid. -/
theorem cash_fillPosition {q : Position ℚ} {cash cash' : ℚ} (hq : fillPosition env j row p cash = (q, cash')) :
    cash' + q.cost = cash + p.cost := by
  unfold fillPosition at hq
  dsimp only at hq
  generalize (if 0 < vpp env * row.bar.volume then pyMin (p.targetQty - p.qty) (vpp env * row.bar.volume) else 0) =
    fill at hq
  by_cases hfill : PyFloat.lit (1 / 10 ^ 12) < fill
  · rw [if_pos hfill] at hq
    cases hq
    exact sub_add_add_cancel ..
  · rw [if_neg hfill] at hq
    cases hq
    rfl

theorem continueEntry_books (h : Books env s) : Books env (continueEntry env j row s) := by
  have htidy : Tidy env (continueEntry env j row s) := continueEntry_tidy h.toTidy
  unfold continueEntry at htidy ⊢
  cases hpos : s.pos with
  | none => exact h
  | some p =>
    rw [hpos] at htidy
    dsimp only at htidy ⊢
    cases hcomplete : p.complete with
    | true =>
      rw [if_pos rfl]
      exact h
    | false =>
      rw [hcomplete, if_neg Bool.false_ne_true] at htidy
      rw [if_neg Bool.false_ne_true]
      obtain ⟨⟨q, cash⟩, hq⟩ : ∃ q, fillPosition env j row p s.cash = q := ⟨_, rfl⟩
      obtain ⟨hsound, hopen⟩ := fillPosition_sound hq (h.sound p hpos) hcomplete
      have hcash : cash = env.cfg.initialCash + s.realised - q.cost := by
        have hbefore := h.cash_of_pos hpos
        have hpaid := cash_fillPosition hq
        rw [(h.sound p hpos).uncharged hcomplete] at hbefore
        linarith
      rw [hq] at htidy ⊢
      dsimp only at htidy ⊢
      split_ifs at htidy ⊢ with hdone hnothing
      · -- what counts as nothing is nothing
        have hzero : q.cost = 0 := by
          rcases hsound.filled with ⟨-, hcost, -⟩ | hlt
          · exact hcost
          · exact absurd hnothing (not_le.mpr hlt)
        refine books_of_none rfl ?_
        rw [hzero, sub_zero] at hcash
        exact hcash
      · refine books_of_some htidy rfl ?_
        dsimp only
        rw [hcash]
        rfl
      · refine books_of_some htidy rfl ?_
        dsimp only
        rw [hcash, hsound.uncharged hopen]
        exact (sub_zero _).symm

theorem intraBar_books (h : Books env s) : Books env (intraBar env j row s) := by
  have htidy : Tidy env (intraBar env j row s) := intraBar_tidy h.toTidy
  unfold intraBar at htidy ⊢
  cases hpos : s.pos with
  | none => exact h
  | some p =>
    rw [hpos] at htidy
    dsimp only at htidy ⊢
    split_ifs at htidy ⊢ with hqty
    · obtain ⟨hsame, hcost, hcommission⟩ := updateExcursions_eq p row.bar.high row.bar.low
      have hcash := h.cash_of_pos hpos
      rw [← hcost, ← hcommission] at hcash
      rw [← hsame] at hqty
      cases hexit : (p.updateExcursions row.bar.high row.bar.low).checkExit row.bar.openPrice row.bar.high row.bar.low with
      | some level => exact close_books hqty hcash
      | none =>
        rw [hexit] at htidy
        exact books_of_some htidy rfl hcash
    · exact h

theorem forceClose_books (h : Books env s) : Books env (forceClose env n j row s) := by
  unfold forceClose
  cases hpos : s.pos with
  | none => exact h
  | some p =>
    dsimp only
    have hcash := h.cash_of_pos hpos
    split_ifs with hlast huncharged
    · -- the commission is charged first
      refine close_books hlast.2 ?_
      dsimp only
      rw [hcash, (h.sound p hpos).uncharged huncharged.1]
      exact congrArg (· - commission env p.qty) (sub_zero _)
    · exact close_books hlast.2 hcash
    · exact h

theorem markEquity_books (h : Books env s) : Books env (markEquity j row s) := by
  refine ⟨markEquity_tidy h.toTidy, ?_⟩
  unfold markEquity
  split
  · exact h.cash
  · exact h.cash

theorem newSignals_books (h : Books env s) : Books env (newSignals env bars n j row s) := by
  refine ⟨newSignals_tidy h.toTidy, ?_⟩
  unfold newSignals
  dsimp only
  split_ifs <;> exact h.cash

/-- **A bar keeps the books.** -/
theorem barStep_books (h : Books env s) : Books env (barStep env bars n j row s) :=
  newSignals_books (markEquity_books (forceClose_books (intraBar_books (continueEntry_books (beginEntry_books
    (exitAtOpen_books h))))))

end

/-! ### What a bar marks -/

section
variable {F : Type} [PyFloat F] {env : Setting F} {bars : List (Bar F)} {n j : ℕ} {row : WindowRow F} {s : LoopState F}

theorem equity_exitAtOpen : (exitAtOpen env j row s).equity = s.equity := by
  unfold exitAtOpen
  split
  · split_ifs <;> rfl
  · rfl

theorem equity_beginEntry : (beginEntry j s).equity = s.equity := by
  unfold beginEntry
  split <;> rfl

theorem equity_continueEntry : (continueEntry env j row s).equity = s.equity := by
  unfold continueEntry
  split
  · dsimp only
    split_ifs <;> rfl
  · rfl

theorem equity_intraBar : (intraBar env j row s).equity = s.equity := by
  unfold intraBar
  split
  · split_ifs
    · dsimp only
      split <;> rfl
    · rfl
  · rfl

theorem equity_forceClose : (forceClose env n j row s).equity = s.equity := by
  unfold forceClose
  split
  · dsimp only
    split_ifs <;> rfl
  · rfl

/-- What new signals leave as it was. -/
theorem newSignals_eq : (newSignals env bars n j row s).cash = s.cash ∧ (newSignals env bars n j row s).pos = s.pos ∧
    (newSignals env bars n j row s).equity = s.equity ∧ (newSignals env bars n j row s).trades = s.trades := by
  unfold newSignals
  dsimp only
  split_ifs <;> exact ⟨rfl, rfl, rfl, rfl⟩

theorem markEquity_eq : (markEquity j row s).cash = s.cash ∧ (markEquity j row s).pos = s.pos ∧
    (markEquity j row s).trades = s.trades := by
  unfold markEquity
  split <;> exact ⟨rfl, rfl, rfl⟩

end

section
variable {env : Setting ℚ} {bars : List (Bar ℚ)} {n j : ℕ} {row : WindowRow ℚ} {s : LoopState ℚ}

/-- **A bar marks the equity with the cash and the shares at its close.** -/
theorem equity_barStep : (barStep env bars n j row s).equity =
    s.equity.set j ((barStep env bars n j row s).cash + (barStep env bars n j row s).heldQty * row.bar.close) := by
  obtain ⟨u, hu⟩ : ∃ u, forceClose env n j row (intraBar env j row (continueEntry env j row
    (beginEntry j (exitAtOpen env j row s)))) = u := ⟨_, rfl⟩
  have hequity : u.equity = s.equity := by
    rw [← hu, equity_forceClose, equity_intraBar, equity_continueEntry, equity_beginEntry, equity_exitAtOpen]
  have hbar : barStep env bars n j row s = newSignals env bars n j row (markEquity j row u) := by
    rw [← hu]
    rfl
  obtain ⟨hcash, hpos, hmarked, -⟩ := @newSignals_eq ℚ _ env bars n j row (markEquity j row u)
  obtain ⟨hcash', hpos', -⟩ := @markEquity_eq ℚ _ j row u
  unfold LoopState.heldQty
  rw [hbar, hcash, hpos, hmarked, hcash', hpos', ← hequity]
  unfold markEquity
  cases hheld : u.pos with
  | none =>
    dsimp only
    rw [Option.map_none, Option.getD_none]
    exact congrArg (fun x => u.equity.set j (u.cash + x)) (zero_mul row.bar.close).symm
  | some p => rfl

/-- At the last bar everything is closed. -/
theorem pos_forceClose (hlast : j + 1 = n) {p : Position ℚ} (hpos : (forceClose env n j row s).pos = some p) :
    ¬ 0 < p.qty := by
  unfold forceClose at hpos
  split at hpos
  next q hq =>
    dsimp only at hpos
    split_ifs at hpos with hclose huncharged
    · cases hpos
    · cases hpos
    · rw [hq] at hpos
      cases hpos
      exact fun hqty => hclose ⟨hlast, hqty⟩
  next hq =>
    rw [hq] at hpos
    cases hpos

theorem heldQty_barStep_last (hlast : j + 1 = n) (h : Tidy env s) : (barStep env bars n j row s).heldQty = 0 := by
  have htidy : Tidy env (barStep env bars n j row s) := barStep_tidy h
  obtain ⟨u, hu⟩ : ∃ u, forceClose env n j row (intraBar env j row (continueEntry env j row
    (beginEntry j (exitAtOpen env j row s)))) = u := ⟨_, rfl⟩
  have hpos : (barStep env bars n j row s).pos = u.pos := by
    rw [← hu]
    exact newSignals_eq.2.1.trans markEquity_eq.2.1
  unfold LoopState.heldQty
  cases hheld : (barStep env bars n j row s).pos with
  | none => rfl
  | some p =>
    have hnot : ¬ 0 < p.qty := by
      rw [hpos, ← hu] at hheld
      exact pos_forceClose hlast hheld
    exact le_antisymm (not_lt.mp hnot) (htidy.sound p hheld).qty_nonneg

end

/-! ### The run -/

section
variable (env : Setting ℚ) (fr : Frames ℚ) (testStart testEnd : ℤ)

/-- The books are kept throughout. -/
theorem stateAt_books (j : ℕ) : Books env (stateAt env fr testStart testEnd j) := by
  refine stateAt_invariant env fr testStart testEnd (Books env) (books_of_none rfl ?_) (fun j row s h => barStep_books h) j
  exact (add_zero env.cfg.initialCash).symm

theorem length_equity_stateAt (j : ℕ) :
    (stateAt env fr testStart testEnd j).equity.length = (fr.window testStart testEnd).length := by
  refine stateAt_invariant env fr testStart testEnd
    (fun s => s.equity.length = (fr.window testStart testEnd).length) List.length_replicate (fun j row s h => ?_) j
  rw [equity_barStep, List.length_set, h]

/-- The equity of the result is what each bar has marked. -/
theorem equity_replay {j : ℕ} (hj : j < (fr.window testStart testEnd).length) :
    (replay env fr testStart testEnd).equity[j]? = (stateAt env fr testStart testEnd (j + 1)).equity[j]? := by
  have hcell := (windowStep_publishes env fr (fr.window testStart testEnd)).cell_iterate
    (s := .start env (fr.window testStart testEnd).length) hj
  unfold replay stateAt
  exact hcell

/-- **The books of a replay**: cash and equity at every bar, and behind the last one. -/
theorem replay_accounts {j : ℕ} (hj : j < (replay env fr testStart testEnd).nBars) :
    (stateAt env fr testStart testEnd (j + 1)).cash = env.cfg.initialCash +
      (stateAt env fr testStart testEnd (j + 1)).realised - (stateAt env fr testStart testEnd (j + 1)).heldCost -
      (stateAt env fr testStart testEnd (j + 1)).heldCommission ∧
    (∃ row, fr.rowAt testStart testEnd j = some row ∧ (replay env fr testStart testEnd).equity[j]? =
      some ((stateAt env fr testStart testEnd (j + 1)).cash +
        (stateAt env fr testStart testEnd (j + 1)).heldQty * row.bar.close)) ∧
    (j + 1 = (replay env fr testStart testEnd).nBars →
      (stateAt env fr testStart testEnd (j + 1)).heldQty = 0 ∧ (replay env fr testStart testEnd).equity[j]? =
        some (env.cfg.initialCash + ((replay env fr testStart testEnd).trades.map (·.pnl)).sum)) := by
  have hj : j < (fr.window testStart testEnd).length := hj
  obtain ⟨row, hrow⟩ := exists_rowAt hj
  have hstep := stateAt_succ env fr testStart testEnd hrow
  have hbefore := stateAt_tidy env fr testStart testEnd j
  have hbooks := stateAt_books env fr testStart testEnd (j + 1)
  have hequity : (replay env fr testStart testEnd).equity[j]? = some ((stateAt env fr testStart testEnd (j + 1)).cash +
      (stateAt env fr testStart testEnd (j + 1)).heldQty * row.bar.close) := by
    rw [equity_replay env fr testStart testEnd hj, hstep, equity_barStep, List.getElem?_set_self]
    rw [length_equity_stateAt]
    exact hj
  refine ⟨hbooks.cash, ⟨row, hrow, hequity⟩, fun hlast => ?_⟩
  have hlast : j + 1 = (fr.window testStart testEnd).length := hlast
  have hheld : (stateAt env fr testStart testEnd (j + 1)).heldQty = 0 := by
    rw [hstep]
    exact heldQty_barStep_last hlast hbefore
  refine ⟨hheld, ?_⟩
  have hcash := hbooks.cash_of_nothing hheld
  have hresult : ((replay env fr testStart testEnd).trades.map (·.pnl)).sum =
      (stateAt env fr testStart testEnd (j + 1)).realised := by
    rw [hlast]
    rfl
  rw [hequity, hheld, hcash, hresult, zero_mul]
  exact congrArg some (add_zero _)

/-- The last bar of the sample. -/
theorem replay_accounts_sample : (replay sampleSetting (sampleFrames 80) 0 3).equity[2]? =
    some (100000 + ((replay sampleSetting (sampleFrames 80) 0 3).trades.map (·.pnl)).sum) :=
  ((replay_accounts sampleSetting (sampleFrames 80) 0 3 (j := 2) (by decide)).2.2 (by decide)).2

end

end StratTrader.Backtest
