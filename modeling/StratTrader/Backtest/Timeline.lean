import StratTrader.Backtest.Outcomes

/-!
# The trades of a replay, one after another

A position is entered with its first fill, and no other is entered before it is closed.

## What is proved

* `stateAt_timeline`: behind each bar the trades come one after another, and what is held was entered behind them all.
* `stateAt_entry`: what is held is the entry of a signal, of which no more is bought than was asked for, and which is
  complete after five bars.

## Honest scope

Arithmetic is exact.
-/

namespace StratTrader.Backtest

open StratTrader.Foundation StratTrader.Risk

/-! ### The bars of the window -/

section
variable {F : Type} {fr : Frames F} {testStart testEnd : ℤ} {i j : ℕ} {row row' : WindowRow F}

theorem clock_rowAt (hrow : fr.rowAt testStart testEnd j = some row) :
    fr.clock (fr.window testStart testEnd) j = row.bar.ts := by
  obtain ⟨p, hp, hrow⟩ := Option.bind_eq_some_iff.mp hrow
  unfold Frames.clock Frames.index
  rw [hp, Option.bind_some, List.getElem?_map, Frames.row_bar hrow]
  rfl

theorem lt_of_rowAt (hrow : fr.rowAt testStart testEnd j = some row) : j < (fr.window testStart testEnd).length := by
  obtain ⟨p, hp, -⟩ := Option.bind_eq_some_iff.mp hrow
  exact (List.getElem?_eq_some_iff.mp hp).1

theorem mem_of_rowAt (hrow : fr.rowAt testStart testEnd j = some row) : row.bar ∈ fr.bars := by
  obtain ⟨p, -, hrow⟩ := Option.bind_eq_some_iff.mp hrow
  exact List.mem_of_getElem? (Frames.row_bar hrow)

/-- The bars of the window are in order. -/
theorem ts_lt_ts (hij : i < j) (hi : fr.rowAt testStart testEnd i = some row)
    (hj : fr.rowAt testStart testEnd j = some row') : row.bar.ts < row'.bar.ts := by
  rw [← clock_rowAt hi, ← clock_rowAt hj]
  exact Frames.clock_lt hij (lt_of_rowAt hj)

/-- What holds at the start and is kept by every bar of the window holds behind each. -/
theorem stateAt_induction [PyFloat F] (env : Setting F) (P : ℕ → LoopState F → Prop)
    (h0 : P 0 (.start env (fr.window testStart testEnd).length))
    (hstep : ∀ j row, fr.rowAt testStart testEnd j = some row → P j (stateAt env fr testStart testEnd j) →
      P (j + 1) (barStep env fr.bars (fr.window testStart testEnd).length j row (stateAt env fr testStart testEnd j)))
    (hj : j ≤ (fr.window testStart testEnd).length) : P j (stateAt env fr testStart testEnd j) := by
  induction j with
  | zero => exact h0
  | succ j ih =>
    obtain ⟨row, hrow⟩ := exists_rowAt (Nat.lt_of_succ_le hj)
    rw [stateAt_succ env fr testStart testEnd hrow]
    exact hstep j row hrow (ih (Nat.le_of_succ_le hj))

end

/-! ### One after another -/

/-- The trades come one after another, and what is held was entered behind them. -/
structure Timeline (s : LoopState ℚ) : Prop where
  /-- A trade is entered before it is closed. -/
  entered : ∀ t ∈ s.trades, ∃ e, t.entryTs = some e ∧ e ≤ t.exitTs
  /-- It is closed before the next is entered. -/
  apart : s.trades.Pairwise fun a b => ∀ e, b.entryTs = some e → a.exitTs < e
  /-- What is held was entered behind all of them. -/
  held : ∀ p, s.pos = some p → ∀ e, p.entryTs = some e → ∀ t ∈ s.trades, t.exitTs < e

/-- Everything has happened before a time. -/
structure Past (s : LoopState ℚ) (ts : ℤ) : Prop where
  /-- The exits. -/
  trades : ∀ t ∈ s.trades, t.exitTs < ts
  /-- The entry. -/
  entry : ∀ p, s.pos = some p → ∀ e, p.entryTs = some e → e < ts

section
variable {env : Setting ℚ} {bars : List (Bar ℚ)} {n j : ℕ} {row : WindowRow ℚ} {s : LoopState ℚ} {q : Position ℚ}

theorem timeline_start (env : Setting ℚ) (n : ℕ) : Timeline (.start env n) :=
  ⟨fun _ h => (nomatch h), .nil, fun _ h => (nomatch h)⟩

theorem past_start (env : Setting ℚ) (n : ℕ) (ts : ℤ) : Past (.start env n) ts :=
  ⟨fun _ h => (nomatch h), fun _ h => (nomatch h)⟩

/-- A position is entered at the bar, or was before. -/
theorem entryTs_afterEntry (h : Tidy env s) (hq : (afterEntry env j row s).pos = some q) {e : ℤ}
    (he : q.entryTs = some e) : e = row.bar.ts ∨ ∃ p, s.pos = some p ∧ p.entryTs = some e := by
  obtain ⟨p, hp, hcase⟩ := pos_afterEntry hq
  have hfrom : q.entryTs = p.entryTs ∨ q.entryTs = some (p.entryTs.getD row.bar.ts) := by
    rcases hcase with ⟨-, rfl⟩ | ⟨-, rfl⟩
    · exact .inl rfl
    · rw [(@buys_advanced env j row p).entryTs]
      split_ifs
      · exact .inr rfl
      · exact .inl rfl
  have hpast : p.entryTs = some e → ∃ p, s.pos = some p ∧ p.entryTs = some e := by
    intro hentry
    rcases pos_beforeEntry h hp with ⟨hpos, -⟩ | ⟨-, signal, -, rfl⟩
    · exact ⟨p, hpos, hentry⟩
    · cases hentry
  rcases hfrom with hsame | hfilled
  · exact .inr (hpast (hsame ▸ he))
  · cases hentry : p.entryTs with
    | none =>
      rw [hfilled, hentry] at he
      cases he
      exact .inl rfl
    | some e' =>
      rw [hfilled, hentry] at he
      cases he
      exact .inr (hpast hentry)

/-- What is held behind the fills was entered behind the trades, and by this bar. -/
theorem entry_behind (htidy : Tidy env s) (h : Timeline s) (hpast : Past s row.bar.ts)
    (hq : (afterEntry env j row s).pos = some q) {e : ℤ} (he : q.entryTs = some e) :
    (∀ t ∈ s.trades, t.exitTs < e) ∧ e ≤ row.bar.ts := by
  rcases entryTs_afterEntry htidy hq he with rfl | ⟨p, hp, hpe⟩
  · exact ⟨hpast.trades, le_rfl⟩
  · exact ⟨h.held p hp e hpe, (hpast.entry p hp e hpe).le⟩

theorem entryTs_updateExcursions (high low : ℚ) : (q.updateExcursions high low).entryTs = q.entryTs := by
  unfold Position.updateExcursions
  split_ifs <;> rfl

/-- A trade that is closed at a bar comes behind the others. -/
theorem Timeline.close (h : Timeline s) {t : LoopState ℚ} {trade : Trade ℚ} {e : ℤ} (he : trade.entryTs = some e)
    (hle : e ≤ trade.exitTs) (hbehind : ∀ a ∈ s.trades, a.exitTs < e) (hpos : t.pos = none)
    (htrades : t.trades = s.trades ++ [trade]) : Timeline t := by
  refine ⟨?_, ?_, fun p hp => ?_⟩
  · rw [htrades]
    exact forall_mem_concat.mpr ⟨h.entered, e, he, hle⟩
  · rw [htrades]
    refine List.pairwise_append.mpr ⟨h.apart, List.pairwise_singleton _ _, fun a ha b hb e' he' => ?_⟩
    rw [List.mem_singleton.mp hb, he] at he'
    cases he'
    exact hbehind a ha
  · rw [hpos] at hp
    cases hp

/-- **A bar keeps the trades one after another**, and happens at its own time. -/
theorem barStep_timeline (htidy : Tidy env s) (h : Timeline s) (hpast : Past s row.bar.ts) :
    Timeline (barStep env bars n j row s) ∧
      ∀ ts, row.bar.ts < ts → Past (barStep env bars n j row s) ts := by
  have hafter : Tidy env (afterEntry env j row s) := continueEntry_tidy (beginEntry_tidy (exitAtOpen_tidy htidy))
  have hentry {q : Position ℚ} (hq : (afterEntry env j row s).pos = some q) {e : ℤ} (he : q.entryTs = some e) :
      (∀ t ∈ s.trades, t.exitTs < e) ∧ e ≤ row.bar.ts := entry_behind htidy h hpast hq he
  have hclosed {t : LoopState ℚ} {trade : Trade ℚ} (hpos : t.pos = none) (htrades : t.trades = s.trades ++ [trade])
      (hexit : trade.exitTs = row.bar.ts) : ∀ ts, row.bar.ts < ts → Past t ts := by
    intro ts hts
    refine ⟨?_, fun p hp => ?_⟩
    · rw [htrades]
      exact forall_mem_concat.mpr ⟨fun a ha => (hpast.trades a ha).trans hts, hexit.trans_lt hts⟩
    · rw [hpos] at hp
      cases hp
  have hkept {t : LoopState ℚ} (htrades : t.trades = s.trades) (hpos : ∀ p, t.pos = some p → ∀ e, p.entryTs = some e →
      (∀ a ∈ s.trades, a.exitTs < e) ∧ e ≤ row.bar.ts) : Timeline t ∧ ∀ ts, row.bar.ts < ts → Past t ts := by
    refine ⟨⟨?_, ?_, fun p hp e he => ?_⟩, fun ts hts => ⟨?_, fun p hp e he => ?_⟩⟩
    · rw [htrades]; exact h.entered
    · rw [htrades]; exact h.apart
    · rw [htrades]; exact (hpos p hp e he).1
    · rw [htrades]; exact fun a ha => (hpast.trades a ha).trans hts
    · exact (hpos p hp e he).2.trans_lt hts
  cases (barStep_outcome htidy : Outcome env n j row s (barStep env bars n j row s)) with
  | signal p hpos hcomplete hqty hafter' hpos' htrades =>
    obtain ⟨e, he⟩ := Option.isSome_iff_exists.mp ((htidy.sound p hpos).entered hqty)
    exact ⟨h.close he (hpast.entry p hpos e he).le (h.held p hpos e he) hpos' htrades, hclosed hpos' htrades rfl⟩
  | idle hnot hpos' htrades => exact hkept htrades fun p hp e he => hentry (hpos' ▸ hp) he
  | hit q hq hqty level hexit hpos' htrades =>
    obtain ⟨e, he⟩ := Option.isSome_iff_exists.mp ((hafter.sound q hq).entered hqty)
    have he' : (q.updateExcursions row.bar.high row.bar.low).entryTs = some e := (entryTs_updateExcursions _ _).trans he
    exact ⟨h.close he' (hentry hq he).2 (hentry hq he).1 hpos' htrades, hclosed hpos' htrades rfl⟩
  | last q q' hq hqty hexit hlast hcharged hpos' htrades =>
    obtain ⟨e, he⟩ := Option.isSome_iff_exists.mp ((hafter.sound q hq).entered hqty)
    obtain ⟨c, b, rfl⟩ := hcharged
    have he' : (q.updateExcursions row.bar.high row.bar.low).entryTs = some e := (entryTs_updateExcursions _ _).trans he
    exact ⟨h.close he' (hentry hq he).2 (hentry hq he).1 hpos' htrades, hclosed hpos' htrades rfl⟩
  | held q hq hqty hexit hlast hpos' htrades =>
    refine hkept htrades fun p hp e he => ?_
    rw [hpos'] at hp
    cases hp
    exact hentry hq ((entryTs_updateExcursions _ _).symm.trans he)

end

section
variable (env : Setting ℚ) (fr : Frames ℚ) (testStart testEnd : ℤ)

/-- **Behind each bar the trades come one after another**, and the bars to come are behind them. -/
theorem stateAt_timeline {j : ℕ} (hj : j ≤ (fr.window testStart testEnd).length) :
    Timeline (stateAt env fr testStart testEnd j) ∧
      ∀ row, fr.rowAt testStart testEnd j = some row → Past (stateAt env fr testStart testEnd j) row.bar.ts := by
  refine stateAt_induction env (fun j s => Timeline s ∧ ∀ row, fr.rowAt testStart testEnd j = some row →
    Past s row.bar.ts) ⟨timeline_start env _, fun _ _ => past_start env _ _⟩ (fun j row hrow ih => ?_) hj
  obtain ⟨htimeline, hpast⟩ := @barStep_timeline env fr.bars (fr.window testStart testEnd).length j row _
    (stateAt_tidy env fr testStart testEnd j) ih.1 (ih.2 row hrow)
  exact ⟨htimeline, fun next hnext => hpast _ (ts_lt_ts (Nat.lt_succ_self j) hrow hnext)⟩

/-! ### Entries -/

/-- A position is the entry of the signal that waits behind `b` bars. It has been held since, up to the bar `j`, and if
it is not complete it has been filling for each of the bars from `b` up to `k`. -/
structure EntryOf (b j k : ℕ) (signal : PendingSignal ℚ) (p : Position ℚ) : Prop where
  /-- The signal waits. -/
  waiting : (stateAt env fr testStart testEnd b).pendingSignal = some signal
  /-- It is no later. -/
  le : b ≤ j
  /-- The position has been held since. -/
  kept : ∀ i, b < i → i ≤ j → (stateAt env fr testStart testEnd i).pos.isSome = true
  /-- What was asked for. -/
  target : p.targetQty = signal.qty
  /-- No more has been bought. -/
  bounded : p.qty ≤ p.targetQty
  /-- It is filling for at most five bars. -/
  filling : p.complete = false → b + p.barsFilling = k ∧ p.barsFilling < maxFillBars

variable {env fr testStart testEnd}

section
variable {b j : ℕ} {signal : PendingSignal ℚ} {row : WindowRow ℚ} {p q : Position ℚ}

/-- A signal that waits is that of the bar before. -/
theorem signal_stateAt (hb : b ≤ (fr.window testStart testEnd).length)
    (hsignal : (stateAt env fr testStart testEnd b).pendingSignal = some signal) :
    (stateAt env fr testStart testEnd b).pos = none ∧ ∃ i row, b = i + 1 ∧ fr.rowAt testStart testEnd i = some row ∧
      signal = ⟨i, row.stopPct, row.targetPct, sizeEntry env fr.bars row.fullPos row.bar.close
        (stateAt env fr testStart testEnd b).cash row.stopPct⟩ ∧ 0 < signal.qty := by
  cases b with
  | zero => cases hsignal
  | succ i =>
    obtain ⟨row, hrow⟩ := exists_rowAt (Nat.lt_of_succ_le hb)
    rw [stateAt_succ env fr testStart testEnd hrow] at hsignal ⊢
    obtain ⟨heq, hqty, hpos⟩ := pendingSignal_barStep (stateAt_tidy env fr testStart testEnd i) hsignal
    exact ⟨hpos, i, row, rfl, hrow, heq, hqty⟩

/-- The position before the fills of a bar. -/
theorem entry_beforeEntry
    (hheld : ∀ p, (stateAt env fr testStart testEnd j).pos = some p →
      ∃ b signal, EntryOf env fr testStart testEnd b j j signal p)
    (hrow : fr.rowAt testStart testEnd j = some row)
    (hp : (beforeEntry env j row (stateAt env fr testStart testEnd j)).pos = some p) :
    ∃ b signal, EntryOf env fr testStart testEnd b j j signal p := by
  rcases pos_beforeEntry (stateAt_tidy env fr testStart testEnd j) hp with ⟨hpos, -⟩ | ⟨-, signal, hsignal, rfl⟩
  · exact hheld p hpos
  · obtain ⟨-, -, -, -, -, -, hqty⟩ := signal_stateAt (lt_of_rowAt hrow).le hsignal
    exact ⟨j, signal, hsignal, le_rfl, fun i hi hi' => absurd hi' (not_le.mpr hi), rfl, hqty.le,
      fun _ => ⟨rfl, Nat.succ_pos 4⟩⟩

/-- **An entry goes on for at most five bars, and buys no more than was asked for.** -/
theorem EntryOf.advanced (h : EntryOf env fr testStart testEnd b j j signal p) (hcomplete : p.complete = false) :
    EntryOf env fr testStart testEnd b j (j + 1) signal (p.advanced env j row) := by
  have hbuys := @buys_advanced env j row p
  obtain ⟨hcount, -⟩ := h.filling hcomplete
  have hbars : (p.bought env j row).barsFilling = p.barsFilling := by
    rcases @fillPosition_cases _ _ env j row p 0 with ⟨-, heq⟩ | ⟨-, heq⟩ <;>
    · unfold Position.bought
      rw [heq]
  refine ⟨h.waiting, h.le, h.kept, hbuys.order.1.trans h.target, ?_, fun hopen => ?_⟩
  · rw [hbuys.qty, hbuys.order.1]
    exact fillQty_le_left h.bounded
  · unfold Position.advanced at hopen ⊢
    dsimp only at hopen ⊢
    rw [Bool.or_eq_false_iff, decide_eq_false_iff_not] at hopen
    rw [hbars] at hopen ⊢
    exact ⟨by rw [← Nat.add_assoc, hcount], Nat.lt_of_not_le (of_decide_eq_false hopen.2)⟩

/-- An entry that is complete is left as it is. -/
theorem EntryOf.complete (h : EntryOf env fr testStart testEnd b j j signal p) (hcomplete : p.complete = true) :
    EntryOf env fr testStart testEnd b j (j + 1) signal p :=
  ⟨h.waiting, h.le, h.kept, h.target, h.bounded, fun hopen => absurd (hcomplete.symm.trans hopen) (by decide)⟩

/-- The position behind the fills of a bar. -/
theorem entry_afterEntry
    (hheld : ∀ p, (stateAt env fr testStart testEnd j).pos = some p →
      ∃ b signal, EntryOf env fr testStart testEnd b j j signal p)
    (hrow : fr.rowAt testStart testEnd j = some row)
    (hq : (afterEntry env j row (stateAt env fr testStart testEnd j)).pos = some q) :
    ∃ b signal, EntryOf env fr testStart testEnd b j (j + 1) signal q := by
  obtain ⟨p, hp, hcase⟩ := pos_afterEntry hq
  obtain ⟨b, signal, hentry⟩ := entry_beforeEntry hheld hrow hp
  refine ⟨b, signal, ?_⟩
  rcases hcase with ⟨hcomplete, rfl⟩ | ⟨hopen, rfl⟩
  · exact hentry.complete hcomplete
  · exact hentry.advanced hopen

/-- An entry that is held on. -/
theorem EntryOf.later {k : ℕ} (h : EntryOf env fr testStart testEnd b j k signal p)
    (hkept : (stateAt env fr testStart testEnd (j + 1)).pos.isSome = true) :
    EntryOf env fr testStart testEnd b (j + 1) k signal p := by
  refine ⟨h.waiting, h.le.trans (Nat.le_succ j), fun i hi hi' => ?_, h.target, h.bounded, h.filling⟩
  rcases Nat.le_succ_iff.mp hi' with hle | rfl
  · exact h.kept i hi hle
  · exact hkept

/-- The excursions are no part of an entry. -/
theorem EntryOf.updateExcursions {k : ℕ} {high low : ℚ} (h : EntryOf env fr testStart testEnd b j k signal p) :
    EntryOf env fr testStart testEnd b j k signal (p.updateExcursions high low) := by
  unfold Position.updateExcursions
  split_ifs <;> exact ⟨h.waiting, h.le, h.kept, h.target, h.bounded, h.filling⟩

/-- **What is held is the entry of a signal.** -/
theorem stateAt_entry (hj : j ≤ (fr.window testStart testEnd).length) :
    ∀ p, (stateAt env fr testStart testEnd j).pos = some p →
      ∃ b signal, EntryOf env fr testStart testEnd b j j signal p := by
  induction j with
  | zero => exact fun _ h => nomatch h
  | succ j ih =>
    intro p' hp'
    obtain ⟨row, hrow⟩ := exists_rowAt (Nat.lt_of_succ_le hj)
    have hkept : (stateAt env fr testStart testEnd (j + 1)).pos.isSome = true := Option.isSome_of_eq_some hp'
    have hafter {q : Position ℚ} := @entry_afterEntry env fr testStart testEnd j row q (ih (Nat.le_of_succ_le hj)) hrow
    rw [stateAt_succ env fr testStart testEnd hrow] at hp'
    cases (barStep_outcome (stateAt_tidy env fr testStart testEnd j) : Outcome env _ j row _
        (barStep env fr.bars (fr.window testStart testEnd).length j row _)) with
    | signal p hpos hcomplete hqty hnone hpos' htrades => rw [hpos'] at hp'; cases hp'
    | idle hnot hpos' htrades =>
      obtain ⟨b, signal, hentry⟩ := hafter (hpos' ▸ hp')
      exact ⟨b, signal, hentry.later hkept⟩
    | hit q hq hqty level hexit hpos' htrades => rw [hpos'] at hp'; cases hp'
    | last q q' hq hqty hexit hlast hcharged hpos' htrades => rw [hpos'] at hp'; cases hp'
    | held q hq hqty hexit hlast hpos' htrades =>
      rw [hpos'] at hp'
      cases hp'
      obtain ⟨b, signal, hentry⟩ := hafter hq
      exact ⟨b, signal, (hentry.later hkept).updateExcursions⟩

end

end

end StratTrader.Backtest
