import StratTrader.Backtest.Commission

/-!
# What a bar does

An entry buys at the open what is left to buy, or what the volume allows. Behind it a bar closes what is held, in one
of three ways, or measures it and holds it on.

## What is proved

* `pos_afterEntry`: the position behind the fills of a bar.
* `barStep_outcome`: the position behind a bar, and the trade it closes.
* `pendingSignal_barStep`: the signal that waits behind a bar is its own.
* `fillPosition_cases`, `fillQty_le_cap`, `fillQty_le_left`: what a bar buys.

## Honest scope

How much is bought, and for how much, is said where arithmetic is exact. The rest is of any floats.
-/

namespace StratTrader.Backtest

open StratTrader.Foundation StratTrader.Risk

/-! ### Fills -/

section
variable {F : Type} [PyFloat F]

/-- What an entry buys at a bar. -/
def fillQty (env : Setting F) (row : WindowRow F) (p : Position F) : F :=
  let cap := vpp env * row.bar.volume
  let fill := if 0 < cap then pyMin (p.targetQty - p.qty) cap else 0
  if PyFloat.lit (1 / 10 ^ 12) < fill then fill else 0

/-- The price at which it is bought. -/
def fillPrice (env : Setting F) (row : WindowRow F) : F := row.bar.openPrice * (1 + slip env)

/-- A position with what is bought at a bar. -/
def Position.bought (env : Setting F) (j : ℕ) (row : WindowRow F) (p : Position F) : Position F :=
  (fillPosition env j row p 0).1

/-- An entry that goes on: what is bought at the bar, and whether it is complete behind it. -/
def Position.advanced (env : Setting F) (j : ℕ) (row : WindowRow F) (p : Position F) : Position F :=
  let q := p.bought env j row
  let complete := decide (q.targetQty - q.qty ≤ PyFloat.lit (1 / 10 ^ 9)) || decide (maxFillBars ≤ q.barsFilling + 1)
  { q with
    barsFilling := q.barsFilling + 1
    complete := complete
    entryCommission := if complete then commission env q.qty else q.entryCommission }

/-- The entry that a signal begins. -/
def PendingSignal.begun (j : ℕ) (signal : PendingSignal F) : Position F :=
  { targetQty := signal.qty, stopPct := signal.stopPct, targetPct := signal.targetPct, entryBar := j }

/-- The state behind the exit at the open and before the fills. -/
def beforeEntry (env : Setting F) (j : ℕ) (row : WindowRow F) (s : LoopState F) : LoopState F :=
  beginEntry j (exitAtOpen env j row s)

end

section
variable {F : Type} [PyFloat F] {env : Setting F} {bars : List (Bar F)} {n j : ℕ} {row : WindowRow F} {s : LoopState F}
  {p q : Position F}

/-- **A bar buys for an entry, or leaves it as it is.** -/
theorem fillPosition_cases (p : Position F) (cash : F) :
    fillQty env row p = 0 ∧ fillPosition env j row p cash = (p, cash) ∨
      dust < fillQty env row p ∧ fillPosition env j row p cash =
        ({ p with
            qty := p.qty + fillQty env row p
            cost := p.cost + fillQty env row p * fillPrice env row
            entryTs := some (p.entryTs.getD row.bar.ts)
            entryBar := if p.entryTs.isNone then j else p.entryBar },
          cash - fillQty env row p * fillPrice env row) := by
  unfold fillPosition fillQty
  dsimp only
  by_cases hfill : PyFloat.lit (1 / 10 ^ 12) <
      if 0 < vpp env * row.bar.volume then pyMin (p.targetQty - p.qty) (vpp env * row.bar.volume) else 0
  · rw [if_pos hfill, if_pos hfill]
    exact .inr ⟨hfill, rfl⟩
  · rw [if_neg hfill, if_neg hfill]
    exact .inl ⟨rfl, rfl⟩

/-- The position before the fills: that of the bar before, unless it is closed at the open, or a fresh one. -/
theorem pos_beforeEntry (h : Tidy env s) (hp : (beforeEntry env j row s).pos = some p) :
    (s.pos = some p ∧ ¬ (s.pendingExit = true ∧ p.complete = true ∧ 0 < p.qty)) ∨
      s.pos = none ∧ ∃ signal, s.pendingSignal = some signal ∧ p = signal.begun j := by
  unfold beforeEntry beginEntry exitAtOpen at hp
  cases hpos : s.pos with
  | none =>
    refine .inr ⟨rfl, ?_⟩
    rw [hpos] at hp
    dsimp only at hp
    cases hsignal : s.pendingSignal with
    | none => rw [hsignal, hpos] at hp; cases hp
    | some signal =>
      rw [hsignal, hpos] at hp
      cases hp
      exact ⟨signal, rfl, rfl⟩
  | some p' =>
    have hwaiting := h.waiting p' hpos
    rw [hpos] at hp
    dsimp only at hp
    split_ifs at hp with hexit
    · unfold close at hp
      dsimp only at hp
      rw [hwaiting] at hp
      cases hp
    · rw [hwaiting] at hp
      rw [hpos] at hp
      cases hp
      exact .inl ⟨rfl, hexit⟩

/-- An entry that goes on is held, or is given up where nothing has been bought in the end. -/
theorem pos_continueEntry (hpos : s.pos = some p) (hcomplete : p.complete = false) :
    (continueEntry env j row s).pos = some (p.advanced env j row) ∨
      (continueEntry env j row s).pos = none ∧ (p.advanced env j row).qty ≤ dust := by
  have hfill : fillPosition env j row p s.cash = (p.bought env j row, (fillPosition env j row p s.cash).2) := by
    unfold Position.bought fillPosition
    dsimp only
    split_ifs <;> rfl
  have hopen : (p.bought env j row).complete = false := by
    rcases @fillPosition_cases _ _ env j row p 0 with ⟨-, heq⟩ | ⟨-, heq⟩ <;>
    · unfold Position.bought
      rw [heq]
      exact hcomplete
  unfold continueEntry
  rw [hpos]
  dsimp only
  rw [hcomplete, if_neg Bool.false_ne_true, hfill]
  unfold Position.advanced
  dsimp only
  split_ifs with hdone hnothing
  · exact .inr ⟨rfl, hnothing⟩
  · rw [hdone]
    exact .inl rfl
  · rw [Bool.not_eq_true] at hdone
    rw [hdone, ← hopen]
    exact .inl rfl

/-- **The position behind the fills of a bar.** -/
theorem pos_afterEntry (hq : (afterEntry env j row s).pos = some q) :
    ∃ p, (beforeEntry env j row s).pos = some p ∧
      (p.complete = true ∧ q = p ∨ p.complete = false ∧ q = p.advanced env j row) := by
  change (continueEntry env j row (beforeEntry env j row s)).pos = some q at hq
  cases hpos : (beforeEntry env j row s).pos with
  | none =>
    unfold continueEntry at hq
    rw [hpos] at hq
    dsimp only at hq
    rw [hpos] at hq
    cases hq
  | some p =>
    refine ⟨p, rfl, ?_⟩
    cases hcomplete : p.complete with
    | true =>
      unfold continueEntry at hq
      rw [hpos] at hq
      dsimp only at hq
      rw [hcomplete, if_pos rfl, hpos] at hq
      cases hq
      exact .inl ⟨rfl, rfl⟩
    | false =>
      rcases @pos_continueEntry _ _ env j row _ p hpos hcomplete with heq | ⟨heq, -⟩
      · rw [heq] at hq
        cases hq
        exact .inr ⟨rfl, rfl⟩
      · rw [heq] at hq
        cases hq

/-! ### The outcome of a bar -/

/-- What a bar does with what is held. -/
inductive Outcome (env : Setting F) (n j : ℕ) (row : WindowRow F) (s t : LoopState F) : Prop
  /-- A position whose entry is complete is closed at the open. -/
  | signal (p : Position F) (hpos : s.pos = some p) (hcomplete : p.complete = true) (hqty : 0 < p.qty)
      (hafter : (afterEntry env j row s).pos = none) (hpos' : t.pos = none)
      (htrades : t.trades = s.trades ++ [closedTrade env p (row.bar.openPrice * (1 - slip env)) "signal" row.bar.ts j])
  /-- No shares are held. -/
  | idle (hafter : ∀ q, (afterEntry env j row s).pos = some q → ¬ 0 < q.qty)
      (hpos' : t.pos = (afterEntry env j row s).pos) (htrades : t.trades = s.trades)
  /-- A stop or a target is hit. -/
  | hit (q : Position F) (hafter : (afterEntry env j row s).pos = some q) (hqty : 0 < q.qty) (level : F × String)
      (hexit : q.checkExit row.bar.openPrice row.bar.high row.bar.low = some level) (hpos' : t.pos = none)
      (htrades : t.trades = s.trades ++ [closedTrade env (q.updateExcursions row.bar.high row.bar.low)
        (level.1 * (1 - slip env)) level.2 row.bar.ts j])
  /-- What is held at the last bar is closed. -/
  | last (q q' : Position F) (hafter : (afterEntry env j row s).pos = some q) (hqty : 0 < q.qty)
      (hexit : q.checkExit row.bar.openPrice row.bar.high row.bar.low = none) (hlast : j + 1 = n)
      (hcharged : ∃ c b, q' = { q.updateExcursions row.bar.high row.bar.low with entryCommission := c, complete := b })
      (hpos' : t.pos = none)
      (htrades : t.trades = s.trades ++ [closedTrade env q' (row.bar.close * (1 - slip env)) "force_close" row.bar.ts j])
  /-- It is held on. -/
  | held (q : Position F) (hafter : (afterEntry env j row s).pos = some q) (hqty : 0 < q.qty)
      (hexit : q.checkExit row.bar.openPrice row.bar.high row.bar.low = none) (hlast : j + 1 ≠ n)
      (hpos' : t.pos = some (q.updateExcursions row.bar.high row.bar.low)) (htrades : t.trades = s.trades)

/-- A bar that does not exit at the open closes no trade there. -/
theorem trades_exitAtOpen {q : Position F} (h : Tidy env s) (hq : (afterEntry env j row s).pos = some q) :
    (exitAtOpen env j row s).trades = s.trades := by
  obtain ⟨p, hp, -⟩ := pos_afterEntry hq
  unfold exitAtOpen
  cases hpos : s.pos with
  | none => rfl
  | some p' =>
    dsimp only
    rw [if_neg]
    rcases pos_beforeEntry h hp with ⟨hsame, hno⟩ | ⟨hnone, -⟩
    · rw [hpos] at hsame
      cases hsame
      exact hno
    · rw [hpos] at hnone
      cases hnone

/-- An exit at the open closes a position whose entry is complete, and nothing is held then. -/
theorem exitAtOpen_of_complete (h : Tidy env s) (hpos : s.pos = some p) (hexit : s.pendingExit = true)
    (hcomplete : p.complete = true) (hqty : 0 < p.qty) :
    exitAtOpen env j row s = { close env p (row.bar.openPrice * (1 - slip env)) "signal" row.bar.ts j s
        with pendingExit := false } ∧ (afterEntry env j row s).pos = none := by
  have hclosed : exitAtOpen env j row s = { close env p (row.bar.openPrice * (1 - slip env)) "signal" row.bar.ts j s
      with pendingExit := false } := by
    unfold exitAtOpen
    rw [hpos]
    exact if_pos ⟨hexit, hcomplete, hqty⟩
  refine ⟨hclosed, ?_⟩
  have hwaiting := h.waiting p hpos
  unfold afterEntry continueEntry beginEntry
  rw [hclosed]
  unfold close
  dsimp only
  rw [hwaiting]

/-- Where no shares are held behind the fills, the rest of the bar closes nothing. -/
theorem forceClose_of_idle (hnot : ∀ q, (afterEntry env j row s).pos = some q → ¬ 0 < q.qty) :
    forceClose env n j row (intraBar env j row (afterEntry env j row s)) = afterEntry env j row s := by
  have hintra : intraBar env j row (afterEntry env j row s) = afterEntry env j row s := by
    unfold intraBar
    split
    · exact if_neg (hnot _ ‹_›)
    · rfl
  rw [hintra]
  unfold forceClose
  split
  · exact if_neg fun h => hnot _ ‹_› h.2
  · rfl

/-- **What a bar does.** -/
theorem barStep_outcome (h : Tidy env s) : Outcome env n j row s (barStep env bars n j row s) := by
  by_cases hheld : ∃ q, (afterEntry env j row s).pos = some q ∧ 0 < q.qty
  · obtain ⟨q, hq, hqty⟩ := hheld
    have htrades : (afterEntry env j row s).trades = s.trades := trades_afterEntry.trans (trades_exitAtOpen h hq)
    obtain ⟨hsame, -, -⟩ := updateExcursions_eq q row.bar.high row.bar.low
    cases hexit : q.checkExit row.bar.openPrice row.bar.high row.bar.low with
    | some level =>
      have hintra : intraBar env j row (afterEntry env j row s) =
          close env (q.updateExcursions row.bar.high row.bar.low) (level.1 * (1 - slip env)) level.2 row.bar.ts j
            (afterEntry env j row s) := by
        unfold intraBar
        rw [hq]
        dsimp only
        rw [if_pos hqty, checkExit_updateExcursions, hexit]
      refine .hit q hq hqty level hexit ?_ ?_
      · rw [pos_barStep, hintra]
        rfl
      · rw [trades_barStep, hintra, ← htrades]
        rfl
    | none =>
      have hintra : intraBar env j row (afterEntry env j row s) =
          { afterEntry env j row s with pos := some (q.updateExcursions row.bar.high row.bar.low) } := by
        unfold intraBar
        rw [hq]
        dsimp only
        rw [if_pos hqty, checkExit_updateExcursions, hexit]
      rw [← hsame] at hqty
      by_cases hlast : j + 1 = n
      · have hclosed : ∃ q', (∃ c b, q' = { q.updateExcursions row.bar.high row.bar.low with
              entryCommission := c, complete := b }) ∧
            (forceClose env n j row (intraBar env j row (afterEntry env j row s))).pos = none ∧
            (forceClose env n j row (intraBar env j row (afterEntry env j row s))).trades = (afterEntry env j row s).trades ++
              [closedTrade env q' (row.bar.close * (1 - slip env)) "force_close" row.bar.ts j] := by
          rw [hintra]
          unfold forceClose
          dsimp only
          rw [if_pos ⟨hlast, hqty⟩]
          split_ifs
          · exact ⟨_, ⟨_, _, rfl⟩, rfl, rfl⟩
          · exact ⟨q.updateExcursions row.bar.high row.bar.low, ⟨_, _, rfl⟩, rfl, rfl⟩
        obtain ⟨q', hcharged, hpos', htrades'⟩ := hclosed
        refine .last q q' hq (hsame ▸ hqty) hexit hlast hcharged ?_ ?_
        · rw [pos_barStep, hpos']
        · rw [trades_barStep, htrades', htrades]
      · have hforce : forceClose env n j row (intraBar env j row (afterEntry env j row s)) =
            { afterEntry env j row s with pos := some (q.updateExcursions row.bar.high row.bar.low) } := by
          rw [hintra]
          unfold forceClose
          dsimp only
          rw [if_neg fun h => hlast h.1]
        refine .held q hq (hsame ▸ hqty) hexit hlast ?_ ?_
        · rw [pos_barStep, hforce]
        · rw [trades_barStep, hforce]
          exact htrades
  · have hnot : ∀ q, (afterEntry env j row s).pos = some q → ¬ 0 < q.qty := fun q hq hqty => hheld ⟨q, hq, hqty⟩
    have hidle := @forceClose_of_idle _ _ env n j row s hnot
    by_cases hclosed : ∃ p, s.pos = some p ∧ s.pendingExit = true ∧ p.complete = true ∧ 0 < p.qty
    · obtain ⟨p, hpos, hexit, hcomplete, hqty⟩ := hclosed
      obtain ⟨hopen, hafter⟩ := @exitAtOpen_of_complete _ _ env j row s p h hpos hexit hcomplete hqty
      refine .signal p hpos hcomplete hqty hafter ?_ ?_
      · rw [pos_barStep, hidle, hafter]
      · rw [trades_barStep, hidle, trades_afterEntry, hopen]
        rfl
    · refine .idle hnot ?_ ?_
      · rw [pos_barStep, hidle]
      · have hopen : exitAtOpen env j row s = s := by
          unfold exitAtOpen
          split
          next p hpos => exact if_neg fun hexit => hclosed ⟨p, hpos, hexit⟩
          next => rfl
        rw [trades_barStep, hidle, trades_afterEntry, hopen]

/-- Behind the fills of a bar no signal waits. -/
theorem pendingSignal_afterEntry (h : Tidy env s) : (afterEntry env j row s).pendingSignal = none := by
  have hcontinue (u : LoopState F) : (continueEntry env j row u).pendingSignal = u.pendingSignal := by
    unfold continueEntry
    split
    · dsimp only
      split_ifs <;> rfl
    · rfl
  have hopen : (exitAtOpen env j row s).pendingSignal = s.pendingSignal := by
    unfold exitAtOpen
    split
    · split_ifs <;> rfl
    · rfl
  unfold afterEntry
  rw [hcontinue]
  unfold beginEntry
  rw [hopen]
  cases hsignal : s.pendingSignal with
  | none => exact hopen.trans hsignal
  | some signal =>
    have hpos : s.pos = none := by
      cases hpos : s.pos with
      | none => rfl
      | some p => rw [h.waiting p hpos] at hsignal; cases hsignal
    have hidle : (exitAtOpen env j row s).pos = none := by
      unfold exitAtOpen
      rw [hpos]
      exact hpos
    rw [hidle]

theorem pendingSignal_newSignals {signal : PendingSignal F} (hnone : s.pendingSignal = none)
    (hsignal : (newSignals env bars n j row s).pendingSignal = some signal) :
    signal = ⟨j, row.stopPct, row.targetPct, sizeEntry env bars row.fullPos row.bar.close s.cash row.stopPct⟩ ∧
      0 < signal.qty ∧ s.pos = none := by
  unfold newSignals at hsignal
  dsimp only at hsignal
  split_ifs at hsignal with hboth hentry hqty hexit
  · rw [hnone] at hsignal
    cases hsignal
  · cases hsignal
    exact ⟨rfl, hqty, Option.isNone_iff_eq_none.mp hentry.2.1⟩
  · rw [hnone] at hsignal
    cases hsignal
  · rw [hnone] at hsignal
    cases hsignal
  · rw [hnone] at hsignal
    cases hsignal

/-- **A signal that waits behind a bar is of that bar**, with the size that is found there. -/
theorem pendingSignal_barStep (h : Tidy env s) {signal : PendingSignal F}
    (hsignal : (barStep env bars n j row s).pendingSignal = some signal) :
    signal = ⟨j, row.stopPct, row.targetPct, sizeEntry env bars row.fullPos row.bar.close
      (barStep env bars n j row s).cash row.stopPct⟩ ∧ 0 < signal.qty ∧ (barStep env bars n j row s).pos = none := by
  obtain ⟨u, hu⟩ : ∃ u, markEquity j row (forceClose env n j row (intraBar env j row (afterEntry env j row s))) = u :=
    ⟨_, rfl⟩
  have hbar : barStep env bars n j row s = newSignals env bars n j row u := by
    rw [← hu]
    rfl
  have hmark (v : LoopState F) : (markEquity j row v).pendingSignal = v.pendingSignal := by
    unfold markEquity
    split <;> rfl
  have hforce (v : LoopState F) : (forceClose env n j row v).pendingSignal = v.pendingSignal := by
    unfold forceClose
    split
    · dsimp only
      split_ifs <;> rfl
    · rfl
  have hintra (v : LoopState F) : (intraBar env j row v).pendingSignal = v.pendingSignal := by
    unfold intraBar
    split
    · dsimp only
      split_ifs
      · split <;> rfl
      · rfl
    · rfl
  have hnone : u.pendingSignal = none := by
    rw [← hu, hmark, hforce, hintra, pendingSignal_afterEntry h]
  rw [hbar] at hsignal ⊢
  rw [newSignals_eq.1, newSignals_eq.2.1]
  exact pendingSignal_newSignals hnone hsignal

end

/-! ### What is bought -/

section
variable {env : Setting ℚ} {bars : List (Bar ℚ)} {n j : ℕ} {row : WindowRow ℚ} {s : LoopState ℚ} {p q : Position ℚ}

theorem pyMin_eq_min (a b : ℚ) : pyMin a b = min a b := by
  unfold pyMin
  split_ifs with h
  · exact (min_eq_right (le_of_lt h)).symm
  · exact (min_eq_left (not_lt.mp h)).symm

theorem pyMax_eq_max (a b : ℚ) : pyMax a b = max a b := by
  unfold pyMax
  split_ifs with h
  · exact (max_eq_right (le_of_lt h)).symm
  · exact (max_eq_left (not_lt.mp h)).symm

theorem pyMin_le_left (a b : ℚ) : pyMin a b ≤ a := (pyMin_eq_min a b).trans_le (min_le_left a b)

theorem pyMin_le_right (a b : ℚ) : pyMin a b ≤ b := (pyMin_eq_min a b).trans_le (min_le_right a b)

theorem fillQty_nonneg : 0 ≤ fillQty env row p := by
  rcases @fillPosition_cases _ _ env 0 row p 0 with ⟨h, -⟩ | ⟨h, -⟩
  · exact h.ge
  · exact (dust_pos.trans h).le

/-- **No more is bought than the volume allows.** -/
theorem fillQty_le_cap (hcap : 0 ≤ vpp env * row.bar.volume) : fillQty env row p ≤ vpp env * row.bar.volume := by
  unfold fillQty
  dsimp only
  split_ifs
  · exact pyMin_le_right _ _
  · exact hcap
  · exact hcap
  · exact hcap

/-- **No more is bought than is left to buy.** -/
theorem fillQty_le_left (hleft : p.qty ≤ p.targetQty) : p.qty + fillQty env row p ≤ p.targetQty := by
  have hzero : p.qty + 0 ≤ p.targetQty := (add_zero _).trans_le hleft
  unfold fillQty
  dsimp only
  split_ifs
  · exact le_sub_iff_add_le'.mp (pyMin_le_left _ _)
  · exact hzero
  · exact hzero
  · exact hzero

/-- What is bought costs its price, and nothing else of a position changes. -/
structure Position.Buys (env : Setting ℚ) (row : WindowRow ℚ) (p q : Position ℚ) : Prop where
  /-- The shares. -/
  qty : q.qty = p.qty + fillQty env row p
  /-- The cost. -/
  cost : q.cost = p.cost + fillQty env row p * fillPrice env row
  /-- The time of the first of them. -/
  entryTs : q.entryTs = if 0 < fillQty env row p then some (p.entryTs.getD row.bar.ts) else p.entryTs
  /-- The order. -/
  order : q.targetQty = p.targetQty ∧ q.stopPct = p.stopPct ∧ q.targetPct = p.targetPct
  /-- The excursions. -/
  excursions : q.mfe = p.mfe ∧ q.mae = p.mae ∧ q.mfeInit = p.mfeInit

theorem buys_bought (p : Position ℚ) : p.Buys env row (p.bought env j row) := by
  unfold Position.bought
  rcases @fillPosition_cases _ _ env j row p 0 with ⟨hzero, heq⟩ | ⟨hpos, heq⟩
  · rw [heq]
    refine ⟨?_, ?_, ?_, ⟨rfl, rfl, rfl⟩, rfl, rfl, rfl⟩
    · rw [hzero, add_zero]
    · rw [hzero, zero_mul, add_zero]
    · rw [hzero, if_neg (lt_irrefl _)]
  · rw [heq]
    exact ⟨rfl, rfl, (if_pos (dust_pos.trans hpos)).symm, ⟨rfl, rfl, rfl⟩, rfl, rfl, rfl⟩

theorem buys_advanced (p : Position ℚ) : p.Buys env row (p.advanced env j row) := by
  obtain ⟨hqty, hcost, hentry, horder, hexcursions⟩ := @buys_bought env j row p
  exact ⟨hqty, hcost, hentry, horder, hexcursions⟩

end

end StratTrader.Backtest
