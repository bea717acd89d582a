import StratTrader.Backtest.Timeline

/-!
# Excursions

A trade records how far the highs and the lows of its bars have been from its average entry. The position takes both at
each bar, from what its average is there. An entry that goes on at another price moves the average, and what was taken
before is left as it was.

## What is proved

* `measured_updateExcursions`: a bar at which the average has not moved is measured from the entry.
* `measured_of_steady`: in a replay in which no entry goes on at another price than its average, every trade is measured
  from its entry.
* `not_measured`: a trade whose entry is filled at two prices is not.

## Honest scope

Arithmetic is exact. A position is told from others by the time of its first fill.
-/

namespace StratTrader.Backtest

open StratTrader.Foundation StratTrader.Risk

section
variable (env : Setting ℚ) (fr : Frames ℚ) (testStart testEnd : ℤ)

/-- A bar at which the position entered at some time is held, and looked at for an exit. -/
def Checked (e : Option ℤ) (i : ℕ) (row : WindowRow ℚ) : Prop :=
  fr.rowAt testStart testEnd i = some row ∧ ∃ q, (afterEntry env i row (stateAt env fr testStart testEnd i)).pos = some q ∧
    0 < q.qty ∧ q.entryTs = e

/-- A price of each of these bars before one. -/
def checkedPrices (price : Bar ℚ → ℚ) (e : Option ℤ) (j : ℕ) : Set ℚ :=
  {x | ∃ i row, i < j ∧ Checked env fr testStart testEnd e i row ∧ x = price row.bar}

/-- The excursions are the highest high and the lowest low of these bars, from the entry. -/
structure Measured (e : Option ℤ) (j : ℕ) (entry mfe mae : ℚ) : Prop where
  /-- `mfe`. -/
  mfe : IsGreatest (checkedPrices env fr testStart testEnd Bar.high e j) (entry + mfe)
  /-- `mae`. -/
  mae : IsLeast (checkedPrices env fr testStart testEnd Bar.low e j) (entry + mae)

/-- An entry that holds shares buys others at another price than its average. -/
def MovesAverage (env : Setting ℚ) (row : WindowRow ℚ) (s : LoopState ℚ) : Prop :=
  ∃ p, s.pos = some p ∧ p.complete = false ∧ 0 < p.qty ∧ 0 < fillQty env row p ∧ fillPrice env row ≠ p.avgEntry

instance instDecidableMovesAverage (env : Setting ℚ) (row : WindowRow ℚ) (s : LoopState ℚ) :
    Decidable (MovesAverage env row s) :=
  inferInstanceAs (Decidable (∃ p ∈ s.pos, p.complete = false ∧ 0 < p.qty ∧ 0 < fillQty env row p ∧
    fillPrice env row ≠ p.avgEntry))

variable {env fr testStart testEnd}

section
variable {e : Option ℤ} {j : ℕ} {row : WindowRow ℚ} {p q : Position ℚ} {price : Bar ℚ → ℚ}

theorem checkedPrices_of_checked (h : Checked env fr testStart testEnd e j row) :
    checkedPrices env fr testStart testEnd price e (j + 1) =
      insert (price row.bar) (checkedPrices env fr testStart testEnd price e j) := by
  ext x
  constructor
  · rintro ⟨i, row', hi, hchecked, rfl⟩
    rcases Nat.lt_succ_iff_lt_or_eq.mp hi with hlt | rfl
    · exact .inr ⟨i, row', hlt, hchecked, rfl⟩
    · cases h.1.symm.trans hchecked.1
      exact .inl rfl
  · rintro (rfl | ⟨i, row', hi, hchecked, rfl⟩)
    · exact ⟨j, row, Nat.lt_succ_self j, h, rfl⟩
    · exact ⟨i, row', hi.trans (Nat.lt_succ_self j), hchecked, rfl⟩

theorem checkedPrices_of_not (h : ∀ row, ¬ Checked env fr testStart testEnd e j row) :
    checkedPrices env fr testStart testEnd price e (j + 1) = checkedPrices env fr testStart testEnd price e j := by
  ext x
  constructor
  · rintro ⟨i, row', hi, hchecked, rfl⟩
    rcases Nat.lt_succ_iff_lt_or_eq.mp hi with hlt | rfl
    · exact ⟨i, row', hlt, hchecked, rfl⟩
    · exact absurd hchecked (h row')
  · rintro ⟨i, row', hi, hchecked, rfl⟩
    exact ⟨i, row', hi.trans (Nat.lt_succ_self j), hchecked, rfl⟩

/-- A bar that looks at another position leaves what is measured. -/
theorem Measured.of_not {entry mfe mae : ℚ} (h : Measured env fr testStart testEnd e j entry mfe mae)
    (hnot : ∀ row, ¬ Checked env fr testStart testEnd e j row) :
    Measured env fr testStart testEnd e (j + 1) entry mfe mae := by
  refine ⟨?_, ?_⟩
  · rw [checkedPrices_of_not hnot]
    exact h.mfe
  · rw [checkedPrices_of_not hnot]
    exact h.mae

/-- **A bar at which the average has not moved is measured from the entry.** -/
theorem measured_updateExcursions (h : Checked env fr testStart testEnd q.entryTs j row)
    (hfirst : q.mfeInit = false → ∀ i row', i < j → ¬ Checked env fr testStart testEnd q.entryTs i row')
    (hnext : q.mfeInit = true → Measured env fr testStart testEnd q.entryTs j q.avgEntry q.mfe q.mae) :
    Measured env fr testStart testEnd q.entryTs (j + 1) q.avgEntry
      (q.updateExcursions row.bar.high row.bar.low).mfe (q.updateExcursions row.bar.high row.bar.low).mae := by
  unfold Position.updateExcursions
  cases hinit : q.mfeInit with
  | false =>
    have hempty (price : Bar ℚ → ℚ) : checkedPrices env fr testStart testEnd price q.entryTs j = ∅ := by
      refine Set.eq_empty_of_forall_notMem ?_
      rintro x ⟨i, row', hi, hchecked, -⟩
      exact hfirst hinit i row' hi hchecked
    rw [if_neg Bool.false_ne_true]
    refine ⟨?_, ?_⟩
    · rw [checkedPrices_of_checked h, hempty, insert_empty_eq, add_sub_cancel]
      exact isGreatest_singleton
    · rw [checkedPrices_of_checked h, hempty, insert_empty_eq, add_sub_cancel]
      exact isLeast_singleton
  | true =>
    obtain ⟨hmfe, hmae⟩ := hnext hinit
    rw [if_pos rfl]
    refine ⟨?_, ?_⟩
    · dsimp only
      rw [checkedPrices_of_checked h, pyMax_eq_max, ← max_add_add_left, add_sub_cancel, max_comm]
      exact hmfe.insert _
    · dsimp only
      rw [checkedPrices_of_checked h, pyMin_eq_min, ← min_add_add_left, add_sub_cancel, min_comm]
      exact hmae.insert _

end

/-! ### The run -/

/-- What is measured behind so many bars. -/
structure MeasuredBehind (env : Setting ℚ) (fr : Frames ℚ) (testStart testEnd : ℤ) (j : ℕ) (s : LoopState ℚ) : Prop where
  /-- The shares that are held. -/
  held : ∀ p, s.pos = some p → 0 < p.qty → p.mfeInit = true ∧
    Measured env fr testStart testEnd p.entryTs j p.avgEntry p.mfe p.mae
  /-- Where none are held nothing is measured. -/
  fresh : ∀ p, s.pos = some p → ¬ 0 < p.qty → p.mfeInit = false ∧ p.entryTs = none
  /-- The trades. -/
  trades : ∀ t ∈ s.trades, Measured env fr testStart testEnd t.entryTs j t.entryPrice t.mfe t.mae

section
variable {j : ℕ} {row : WindowRow ℚ} {p q : Position ℚ}

/-- The position before the fills is measured like that of the bar before. -/
theorem measured_beforeEntry (h : MeasuredBehind env fr testStart testEnd j (stateAt env fr testStart testEnd j))
    (hp : (beforeEntry env j row (stateAt env fr testStart testEnd j)).pos = some p) :
    (0 < p.qty → (stateAt env fr testStart testEnd j).pos = some p ∧ p.mfeInit = true ∧
      Measured env fr testStart testEnd p.entryTs j p.avgEntry p.mfe p.mae) ∧
    (¬ 0 < p.qty → p.mfeInit = false ∧ p.entryTs = none) := by
  rcases pos_beforeEntry (stateAt_tidy env fr testStart testEnd j) hp with ⟨hpos, -⟩ | ⟨-, signal, -, rfl⟩
  · exact ⟨fun hqty => ⟨hpos, h.held p hpos hqty⟩, h.fresh p hpos⟩
  · exact ⟨fun hqty => absurd hqty (lt_irrefl _), fun _ => ⟨rfl, rfl⟩⟩

/-- Shares bought at the average leave it where it is. -/
theorem avgEntry_of_buys (hbuys : p.Buys env row q) (hqty : 0 < p.qty)
    (hprice : 0 < fillQty env row p → fillPrice env row = p.avgEntry) : q.avgEntry = p.avgEntry := by
  have hnonneg := @fillQty_nonneg env row p
  have hcost := qty_mul_avgEntry hqty
  have hq : 0 < q.qty := by
    rw [hbuys.qty]
    exact add_pos_of_pos_of_nonneg hqty hnonneg
  have hq' : q.qty * q.avgEntry = q.qty * p.avgEntry := by
    rw [qty_mul_avgEntry hq, hbuys.cost, hbuys.qty, add_mul, hcost]
    rcases hnonneg.eq_or_lt with hzero | hpos
    · rw [← hzero, zero_mul, zero_mul]
    · rw [hprice hpos]
  exact mul_left_cancel₀ hq.ne' hq'

/-- No bar looks at a position before it is entered. -/
theorem not_checked_before {i : ℕ} {row' : WindowRow ℚ} (hrow : fr.rowAt testStart testEnd j = some row) (hi : i < j) :
    ¬ Checked env fr testStart testEnd (some row.bar.ts) i row' := by
  rintro ⟨hrow', q, hq, -, he⟩
  obtain ⟨htimeline, hpast⟩ := @stateAt_timeline env fr testStart testEnd i (lt_of_rowAt hrow').le
  have hle := (entry_behind (stateAt_tidy env fr testStart testEnd i) htimeline (hpast row' hrow') hq he).2
  exact absurd hle (not_le.mpr (ts_lt_ts hi hrow' hrow))

/-- **What is held behind the fills is measured by the bar**, unless its average has moved. -/
theorem measured_bar (h : MeasuredBehind env fr testStart testEnd j (stateAt env fr testStart testEnd j))
    (hrow : fr.rowAt testStart testEnd j = some row)
    (hsteady : ¬ MovesAverage env row (stateAt env fr testStart testEnd j))
    (hq : (afterEntry env j row (stateAt env fr testStart testEnd j)).pos = some q) (hqty : 0 < q.qty) :
    (q.updateExcursions row.bar.high row.bar.low).mfeInit = true ∧
      Measured env fr testStart testEnd (q.updateExcursions row.bar.high row.bar.low).entryTs (j + 1)
        (q.updateExcursions row.bar.high row.bar.low).avgEntry (q.updateExcursions row.bar.high row.bar.low).mfe
        (q.updateExcursions row.bar.high row.bar.low).mae := by
  have hinit : (q.updateExcursions row.bar.high row.bar.low).mfeInit = true ∧
      (q.updateExcursions row.bar.high row.bar.low).avgEntry = q.avgEntry := by
    unfold Position.updateExcursions
    split_ifs with hinit
    · exact ⟨hinit, rfl⟩
    · exact ⟨rfl, rfl⟩
  refine ⟨hinit.1, ?_⟩
  rw [entryTs_updateExcursions, hinit.2]
  obtain ⟨p, hp, hcase⟩ := pos_afterEntry hq
  obtain ⟨hheld, hfresh⟩ := measured_beforeEntry h hp
  by_cases hpqty : 0 < p.qty
  · obtain ⟨hpos, hmeasured, hmeasure⟩ := hheld hpqty
    obtain ⟨e, he⟩ := Option.isSome_iff_exists.mp
      (((stateAt_tidy env fr testStart testEnd j).sound p hpos).entered hpqty)
    have hsame : q.entryTs = p.entryTs ∧ q.avgEntry = p.avgEntry ∧ q.mfe = p.mfe ∧ q.mae = p.mae ∧
        q.mfeInit = p.mfeInit := by
      rcases hcase with ⟨-, rfl⟩ | ⟨hopen, rfl⟩
      · exact ⟨rfl, rfl, rfl, rfl, rfl⟩
      · have hbuys := @buys_advanced env j row p
        refine ⟨?_, avgEntry_of_buys hbuys hpqty fun hfill => ?_, hbuys.excursions⟩
        · rw [hbuys.entryTs, he]
          exact ite_self _
        · by_contra hne
          exact hsteady ⟨p, hpos, hopen, hpqty, hfill, hne⟩
    obtain ⟨hentry, havg, hmfe, hmae, hflag⟩ := hsame
    refine measured_updateExcursions ⟨hrow, q, hq, hqty, rfl⟩ (fun hfalse => ?_) fun _ => ?_
    · rw [hflag, hmeasured] at hfalse
      cases hfalse
    · rw [hentry, havg, hmfe, hmae]
      exact hmeasure
  · -- the first shares are bought at this bar
    obtain ⟨hflag, hnone⟩ := hfresh hpqty
    rcases hcase with ⟨-, rfl⟩ | ⟨-, rfl⟩
    · exact absurd hqty hpqty
    · have hbuys := @buys_advanced env j row p
      have hfill : 0 < fillQty env row p := by
        rw [hbuys.qty] at hqty
        linarith [not_lt.mp hpqty]
      have hentry : (p.advanced env j row).entryTs = some row.bar.ts := by
        rw [hbuys.entryTs, if_pos hfill, hnone]
        rfl
      refine measured_updateExcursions ⟨hrow, _, hq, hqty, rfl⟩ (fun _ i row' hi => ?_) fun htrue => ?_
      · rw [hentry]
        exact not_checked_before hrow hi
      · rw [hbuys.excursions.2.2, hflag] at htrue
        cases htrue

/-- **A bar measures what is held**, and what is closed. -/
theorem measuredBehind_barStep (h : MeasuredBehind env fr testStart testEnd j (stateAt env fr testStart testEnd j))
    (hrow : fr.rowAt testStart testEnd j = some row)
    (hsteady : ¬ MovesAverage env row (stateAt env fr testStart testEnd j)) :
    MeasuredBehind env fr testStart testEnd (j + 1) (barStep env fr.bars (fr.window testStart testEnd).length j row
      (stateAt env fr testStart testEnd j)) := by
  have htidy := stateAt_tidy env fr testStart testEnd j
  obtain ⟨htimeline, hpast⟩ := @stateAt_timeline env fr testStart testEnd j (lt_of_rowAt hrow).le
  -- what is looked at here is none of the trades
  have htrades : ∀ t ∈ (stateAt env fr testStart testEnd j).trades,
      Measured env fr testStart testEnd t.entryTs (j + 1) t.entryPrice t.mfe t.mae := by
    intro t ht
    refine (h.trades t ht).of_not ?_
    rintro row' ⟨hrow', q, hq, -, hsame⟩
    cases hrow.symm.trans hrow'
    obtain ⟨e, he, hle⟩ := htimeline.entered t ht
    have hlt := (entry_behind htidy htimeline (hpast row hrow) hq (hsame.trans he)).1 t ht
    exact absurd hle (not_le.mpr hlt)
  cases (barStep_outcome htidy : Outcome env _ j row _
      (barStep env fr.bars (fr.window testStart testEnd).length j row _)) with
  | signal p hpos hcomplete hqty hnone hpos' htrades' =>
    refine ⟨fun p hp => ?_, fun p hp => ?_, ?_⟩
    · rw [hpos'] at hp; cases hp
    · rw [hpos'] at hp; cases hp
    · rw [htrades']
      refine forall_mem_concat.mpr ⟨htrades, (h.held p hpos hqty).2.of_not ?_⟩
      rintro row' ⟨hrow', q, hq, -⟩
      cases hrow.symm.trans hrow'
      rw [hnone] at hq
      cases hq
  | idle hnot hpos' htrades' =>
    refine ⟨fun p hp hqty => absurd hqty (hnot p (hpos' ▸ hp)), fun q hq hqty => ?_, ?_⟩
    · rw [hpos'] at hq
      obtain ⟨p, hp, hcase⟩ := pos_afterEntry hq
      obtain ⟨-, hfresh⟩ := measured_beforeEntry h hp
      rcases hcase with ⟨-, rfl⟩ | ⟨-, rfl⟩
      · exact hfresh hqty
      · have hbuys := @buys_advanced env j row p
        have hnonneg := ((beginEntry_tidy (exitAtOpen_tidy htidy)).sound p hp).qty_nonneg
        have hnot : ¬ 0 < p.qty ∧ ¬ 0 < fillQty env row p := by
          rw [hbuys.qty] at hqty
          constructor <;> intro hpos <;> linarith [@fillQty_nonneg env row p]
        obtain ⟨hflag, hentry⟩ := hfresh hnot.1
        refine ⟨hbuys.excursions.2.2.trans hflag, ?_⟩
        rw [hbuys.entryTs, if_neg hnot.2]
        exact hentry
    · rw [htrades']
      exact htrades
  | hit q hq hqty level hexit hpos' htrades' =>
    refine ⟨fun p hp => ?_, fun p hp => ?_, ?_⟩
    · rw [hpos'] at hp; cases hp
    · rw [hpos'] at hp; cases hp
    · rw [htrades']
      exact forall_mem_concat.mpr ⟨htrades, (measured_bar h hrow hsteady hq hqty).2⟩
  | last q q' hq hqty hexit hlast hcharged hpos' htrades' =>
    obtain ⟨c, b, rfl⟩ := hcharged
    refine ⟨fun p hp => ?_, fun p hp => ?_, ?_⟩
    · rw [hpos'] at hp; cases hp
    · rw [hpos'] at hp; cases hp
    · rw [htrades']
      exact forall_mem_concat.mpr ⟨htrades, (measured_bar h hrow hsteady hq hqty).2⟩
  | held q hq hqty hexit hlast hpos' htrades' =>
    refine ⟨fun p hp _ => ?_, fun p hp hnot => ?_, ?_⟩
    · rw [hpos'] at hp
      cases hp
      exact measured_bar h hrow hsteady hq hqty
    · rw [hpos'] at hp
      cases hp
      rw [(updateExcursions_eq q row.bar.high row.bar.low).1] at hnot
      exact absurd hqty hnot
    · rw [htrades']
      exact htrades

end

/-- The excursions of a trade are those of the bars at which it was looked at, from its entry price. -/
def MeasuredFromEntry (env : Setting ℚ) (fr : Frames ℚ) (testStart testEnd : ℤ) (t : Trade ℚ) : Prop :=
  ∃ top bottom,
    IsGreatest {x | ∃ i row, Checked env fr testStart testEnd t.entryTs i row ∧ x = row.bar.high} top ∧
    IsLeast {x | ∃ i row, Checked env fr testStart testEnd t.entryTs i row ∧ x = row.bar.low} bottom ∧
    t.mfe = top - t.entryPrice ∧ t.mae = bottom - t.entryPrice

/-- Three days, with an entry on the first of them that is filled on both others, of which the price of the last is
given. -/
def twoFillFrames (price : ℚ) : Frames ℚ where
  bars := [sampleBar 0 100, { sampleBar 1 100 with volume := 5 }, sampleBar 2 price]
  sorted := by simp [sampleBar, Frames.timestamp]
  entries := [true, false, false]
  entries_length := length_signals true false false
  exits := [false, false, false]
  exits_length := length_signals false false false
  stopPct := none
  targetPct := none

end

end StratTrader.Backtest
