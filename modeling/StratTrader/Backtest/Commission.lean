import StratTrader.Backtest.Accounting

/-!
# The commission of an entry

The commission of an entry is charged when the entry is complete, and, if it never is, when the
position is closed at the last bar. A stop or a target that is hit while the entry is still being
filled closes the position without it.

## What is proved

* `allPaid_barStep`: the trades that a bar closes have paid, unless that happens at it.
* `allPaid_stateAt`: so the trades behind a bar have paid exactly if it happened at no bar before, whatever floats there
  are.
* `paysEntry_iff`: a replay in which every trade pays its entry, and cash with it, is one in which it happens at no bar.

## Honest scope

What is said of a trade holds of floats that are rounded. What is said of cash is a sum, and arithmetic is exact there.
-/

namespace StratTrader.Backtest

open StratTrader.Foundation StratTrader.Risk

/-! ### Trades -/

section
variable {F : Type} [PyFloat F] (env : Setting F)

/-- The trade that `_close` records. -/
def closedTrade (p : Position F) (price : F) (reason : String) (ts : ℤ) (j : ℕ) : Trade F where
  symbol := env.symbol
  entryTs := p.entryTs
  exitTs := ts
  entryPrice := p.avgEntry
  exitPrice := price
  qty := p.qty
  pnl := p.qty * price - p.qty * p.avgEntry - p.entryCommission - commission env p.qty
  mfe := p.mfe
  mae := p.mae
  barsHeld := max 1 (j - p.entryBar + 1)
  exitReason := reason
  entryCommission := p.entryCommission
  exitCommission := commission env p.qty
  isPartial := decide (p.qty + PyFloat.lit (1 / 10 ^ 9) < p.targetQty)
  cancelledQty := pyMax 0 (p.targetQty - p.qty)

variable {env} {bars : List (Bar F)} {n j : ℕ} {row : WindowRow F} {s : LoopState F}

theorem trades_beginEntry : (beginEntry j s).trades = s.trades := by
  unfold beginEntry
  split <;> rfl

theorem trades_continueEntry : (continueEntry env j row s).trades = s.trades := by
  unfold continueEntry
  split
  · dsimp only
    split_ifs <;> rfl
  · rfl

/-- The state behind the exit at the open and the fills. -/
def afterEntry (env : Setting F) (j : ℕ) (row : WindowRow F) (s : LoopState F) : LoopState F :=
  continueEntry env j row (beginEntry j (exitAtOpen env j row s))

theorem trades_afterEntry : (afterEntry env j row s).trades = (exitAtOpen env j row s).trades :=
  trades_continueEntry.trans trades_beginEntry

theorem trades_barStep :
    (barStep env bars n j row s).trades = (forceClose env n j row (intraBar env j row (afterEntry env j row s))).trades :=
  newSignals_eq.2.2.2.trans markEquity_eq.2.2

theorem pos_barStep :
    (barStep env bars n j row s).pos = (forceClose env n j row (intraBar env j row (afterEntry env j row s))).pos :=
  newSignals_eq.2.1.trans markEquity_eq.2.1

theorem forall_mem_concat {α : Type*} {T : α → Prop} {xs : List α} {x : α} :
    (∀ t ∈ xs ++ [x], T t) ↔ (∀ t ∈ xs, T t) ∧ T x := by
  rw [List.forall_mem_append, List.forall_mem_singleton]

/-- What holds of every trade that `_close` records is kept by a bar. -/
theorem trades_invariant {T : Trade F → Prop} (hclose : ∀ p price reason ts, T (closedTrade env p price reason ts j))
    (h : ∀ t ∈ s.trades, T t) : ∀ t ∈ (barStep env bars n j row s).trades, T t := by
  have hexit : ∀ t ∈ (exitAtOpen env j row s).trades, T t := by
    unfold exitAtOpen
    split
    · split_ifs
      · exact forall_mem_concat.mpr ⟨h, hclose ..⟩
      · exact h
    · exact h
  have hintra : ∀ t ∈ (intraBar env j row (afterEntry env j row s)).trades, T t := by
    rw [← trades_afterEntry] at hexit
    unfold intraBar
    split
    · split_ifs
      · dsimp only
        split
        · exact forall_mem_concat.mpr ⟨hexit, hclose ..⟩
        · exact hexit
      · exact hexit
    · exact hexit
  rw [trades_barStep]
  unfold forceClose
  split
  · dsimp only
    split_ifs
    · exact forall_mem_concat.mpr ⟨hintra, hclose ..⟩
    · exact forall_mem_concat.mpr ⟨hintra, hclose ..⟩
    · exact hintra
  · exact hintra

end

/-! ### What is paid -/

/-- Every trade has been charged the commission of its entry. -/
def AllPaid {F : Type} [PyFloat F] (env : Setting F) (s : LoopState F) : Prop := ∀ t ∈ s.trades, t.entryCommission = commission env t.qty

/-- A stop or a target is hit while the entry is still being filled, and a commission is due. -/
def ClosesUnpaid {F : Type} [PyFloat F] (env : Setting F) (j : ℕ) (row : WindowRow F) (s : LoopState F) : Prop :=
  ∃ p, (afterEntry env j row s).pos = some p ∧ p.complete = false ∧ 0 < p.qty ∧
    (p.checkExit row.bar.openPrice row.bar.high row.bar.low).isSome = true ∧ commission env p.qty ≠ 0

section
variable {F : Type} [PyFloat F] {env : Setting F} {bars : List (Bar F)} {n j : ℕ} {row : WindowRow F} {s : LoopState F}

theorem allPaid_concat {trades : List (Trade F)} {p : Position F} {price : F} {reason : String} {ts : ℤ}
    (hs : s.trades = trades ++ [closedTrade env p price reason ts j]) :
    AllPaid env s ↔ (∀ t ∈ trades, t.entryCommission = commission env t.qty) ∧ p.entryCommission = commission env p.qty := by
  unfold AllPaid
  rw [hs]
  exact forall_mem_concat

theorem checkExit_updateExcursions (p : Position F) (high low o h l : F) :
    (p.updateExcursions high low).checkExit o h l = p.checkExit o h l := by
  unfold Position.updateExcursions
  split_ifs <;> rfl

theorem allPaid_exitAtOpen (h : Tidy env s) : AllPaid env (exitAtOpen env j row s) ↔ AllPaid env s := by
  unfold exitAtOpen
  cases hpos : s.pos with
  | none => exact Iff.rfl
  | some p =>
    dsimp only
    split_ifs with hexit
    · rw [allPaid_concat rfl]
      exact and_iff_left ((h.sound p hpos).paid hexit.2.1)
    · exact Iff.rfl

/-- **A stop or a target leaves a trade that has not paid if the entry is still being filled, and only then.** -/
theorem allPaid_intraBar (h : Tidy env s) : AllPaid env (intraBar env j row s) ↔ AllPaid env s ∧
    ¬ ∃ p, s.pos = some p ∧ p.complete = false ∧ 0 < p.qty ∧
      (p.checkExit row.bar.openPrice row.bar.high row.bar.low).isSome = true ∧ commission env p.qty ≠ 0 := by
  unfold intraBar
  cases hpos : s.pos with
  | none =>
    refine (and_iff_left ?_).symm
    rintro ⟨p, hp, -⟩
    cases hp
  | some p =>
    dsimp only
    split_ifs with hqty
    · rw [checkExit_updateExcursions]
      cases hexit : p.checkExit row.bar.openPrice row.bar.high row.bar.low with
      | none =>
        refine (and_iff_left ?_).symm
        rintro ⟨q, hq, -, -, hhit, -⟩
        cases hq
        rw [hexit] at hhit
        cases hhit
      | some level =>
        obtain ⟨hsame, -, hcommission⟩ := updateExcursions_eq p row.bar.high row.bar.low
        rw [allPaid_concat rfl, hsame, hcommission]
        refine and_congr_right fun _ => ?_
        have hsound := h.sound p hpos
        constructor
        · rintro hpaid ⟨q, hq, hcomplete, -, -, hdue⟩
          cases hq
          exact hdue (hpaid.symm.trans (hsound.uncharged hcomplete))
        · intro hnot
          cases hcomplete : p.complete with
          | true => exact hsound.paid hcomplete
          | false =>
            rw [hsound.uncharged hcomplete]
            by_contra hdue
            refine hnot ⟨p, rfl, hcomplete, hqty, ?_, fun hzero => hdue hzero.symm⟩
            rw [hexit]
            rfl
    · refine (and_iff_left ?_).symm
      rintro ⟨q, hq, -, hpos', -⟩
      cases hq
      exact hqty hpos'

theorem allPaid_forceClose [LawfulPyFloat F] (h : Tidy env s) : AllPaid env (forceClose env n j row s) ↔ AllPaid env s := by
  unfold forceClose
  cases hpos : s.pos with
  | none => exact Iff.rfl
  | some p =>
    dsimp only
    have hsound := h.sound p hpos
    split_ifs with hlast huncharged
    · rw [allPaid_concat rfl]
      exact and_iff_left rfl
    · rw [allPaid_concat rfl]
      refine and_iff_left ?_
      cases hcomplete : p.complete with
      | true => exact hsound.paid hcomplete
      | false =>
        -- a commission that is nothing has not been charged
        refine absurd ⟨hcomplete, ?_⟩ huncharged
        rw [hsound.uncharged hcomplete]
        exact LawfulPyFloat.truth_zero
    · exact Iff.rfl

/-- **The trades that a bar closes have paid, unless an entry that is still being filled is closed at it.** -/
theorem allPaid_barStep [LawfulPyFloat F] (h : Tidy env s) :
    AllPaid env (barStep env bars n j row s) ↔ AllPaid env s ∧ ¬ ClosesUnpaid env j row s := by
  have hafter : Tidy env (afterEntry env j row s) := continueEntry_tidy (beginEntry_tidy (exitAtOpen_tidy h))
  have hpaid : AllPaid env (barStep env bars n j row s) ↔
      AllPaid env (forceClose env n j row (intraBar env j row (afterEntry env j row s))) := by
    unfold AllPaid
    rw [trades_barStep]
  have hafterPaid : AllPaid env (afterEntry env j row s) ↔ AllPaid env (exitAtOpen env j row s) := by
    unfold AllPaid
    rw [trades_afterEntry]
  rw [hpaid, allPaid_forceClose (intraBar_tidy hafter), allPaid_intraBar hafter, hafterPaid, allPaid_exitAtOpen h]
  rfl

end

/-! ### The run -/

section
variable {F : Type} [PyFloat F] [LawfulPyFloat F] (env : Setting F) (fr : Frames F) (testStart testEnd : ℤ)

/-- **The trades behind a bar have paid exactly if at no bar so far an entry that is still being filled was closed.** -/
theorem allPaid_stateAt (j : ℕ) : AllPaid env (stateAt env fr testStart testEnd j) ↔
    ∀ i < j, ∀ row, fr.rowAt testStart testEnd i = some row →
      ¬ ClosesUnpaid env i row (stateAt env fr testStart testEnd i) := by
  induction j with
  | zero => exact iff_of_true (fun _ h => nomatch h) fun i hi => absurd hi (Nat.not_lt_zero i)
  | succ j ih =>
    rw [Nat.forall_lt_succ_right, ← ih]
    cases hrow : fr.rowAt testStart testEnd j with
    | some row =>
      rw [stateAt_succ env fr testStart testEnd hrow, allPaid_barStep (stateAt_tidy env fr testStart testEnd j)]
      refine and_congr_right fun _ => ?_
      simp only [Option.some.injEq, forall_eq']
    | none =>
      have hsame : stateAt env fr testStart testEnd (j + 1) = stateAt env fr testStart testEnd j := by
        change windowStep env fr (fr.window testStart testEnd) j (stateAt env fr testStart testEnd j) = _
        unfold windowStep
        unfold Frames.rowAt at hrow
        rw [hrow]
      rw [hsame]
      exact (and_iff_left fun _ h => (nomatch h)).symm

end

section
variable (env : Setting ℚ) (fr : Frames ℚ) (testStart testEnd : ℤ)

/-- Behind the last bar nothing is held. -/
theorem heldQty_end : (stateAt env fr testStart testEnd (fr.window testStart testEnd).length).heldQty = 0 := by
  cases hn : (fr.window testStart testEnd).length with
  | zero => rfl
  | succ j =>
    obtain ⟨row, hrow⟩ := @exists_rowAt ℚ fr testStart testEnd j (by omega)
    rw [stateAt_succ env fr testStart testEnd hrow]
    exact heldQty_barStep_last hn.symm (stateAt_tidy env fr testStart testEnd j)

/-- What a trade has brought. -/
theorem pnl_stateAt (j : ℕ) : ∀ t ∈ (stateAt env fr testStart testEnd j).trades,
    t.pnl = t.qty * t.exitPrice - t.qty * t.entryPrice - t.entryCommission - t.exitCommission :=
  stateAt_invariant env fr testStart testEnd
    (fun s => ∀ t ∈ s.trades, t.pnl = t.qty * t.exitPrice - t.qty * t.entryPrice - t.entryCommission - t.exitCommission)
    (fun _ h => nomatch h) (fun _ _ _ h => trades_invariant (fun _ _ _ _ => rfl) h) j

/-- Every trade has the commission of its entry, and cash has been charged with it once. -/
structure PaysEntry : Prop where
  /-- The trade. -/
  charged : ∀ t ∈ (replay env fr testStart testEnd).trades, t.entryCommission = commission env t.qty
  /-- The cash behind the last bar. -/
  deducted : (stateAt env fr testStart testEnd (replay env fr testStart testEnd).nBars).cash = env.cfg.initialCash +
    ((replay env fr testStart testEnd).trades.map fun t =>
      t.qty * t.exitPrice - t.qty * t.entryPrice - commission env t.qty - t.exitCommission).sum

/-- **Every trade of a replay pays its entry exactly if no stop or target is hit, where a commission is due, while an
entry is still being filled.** -/
theorem paysEntry_iff : PaysEntry env fr testStart testEnd ↔
    ∀ j < (fr.window testStart testEnd).length, ∀ row, fr.rowAt testStart testEnd j = some row →
      ¬ ClosesUnpaid env j row (stateAt env fr testStart testEnd j) := by
  rw [← allPaid_stateAt]
  constructor
  · intro h
    exact h.charged
  · intro h
    refine ⟨h, ?_⟩
    have hcash := (stateAt_books env fr testStart testEnd _).cash_of_nothing (heldQty_end env fr testStart testEnd)
    refine hcash.trans (congrArg (env.cfg.initialCash + ·) (congrArg List.sum (List.map_congr_left fun t ht => ?_)))
    rw [pnl_stateAt env fr testStart testEnd _ t ht, h t ht]

end

/-- A setting with a commission on each order. -/
def commissionSetting : Setting ℚ := { sampleSetting with cfg := ⟨100000, 5, 2, 0, 10, "fixed_qty_1"⟩ }

theorem length_signals (a b c : Bool) : [a, b, c].length = 3 := rfl

/-- Three days, with an entry on the first of them, of which the stop and the volume of the second are given. -/
def thinFrames (volume stop : ℚ) : Frames ℚ where
  bars := [sampleBar 0 100, { sampleBar 1 100 with volume := volume }, sampleBar 2 100]
  sorted := by simp [sampleBar, Frames.timestamp]
  entries := [true, false, false]
  entries_length := length_signals true false false
  exits := [false, false, false]
  exits_length := length_signals false false false
  stopPct := some [some stop, none, none]
  targetPct := none

/-- **A stop that is hit at a bar of which the volume allows a tenth of a share leaves a trade without the commission of
its entry.** -/
theorem not_paysEntry : ¬ ∀ (env : Setting ℚ) (fr : Frames ℚ) (testStart testEnd : ℤ),
    PaysEntry env fr testStart testEnd := by
  intro h
  have hcharged := (h commissionSetting (thinFrames 1 (1 / 1000)) 0 3).charged
  have hall : (replay commissionSetting (thinFrames 1 (1 / 1000)) 0 3).trades.all (fun t =>
      decide (t.entryCommission = commission commissionSetting t.qty)) = true :=
    List.all_eq_true.mpr fun t ht => decide_eq_true (hcharged t ht)
  exact absurd hall (by decide +kernel)

end StratTrader.Backtest
