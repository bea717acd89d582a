import StratTrader.Backtest.ReplayEngine
import Mathlib.Data.List.Range
import Mathlib.Algebra.BigOperators.Group.List.Basic

/-!
# Strategy adapters

The contract of `backtest/strategies/base.py`, and `SmaCrossAdapter`: signals are a function of the bars and the
parameters, aligned with the bars.

## What is proved

* `smaCross_causal`: the signals of the first bars are the first signals.
* `smaCross_entry`, `smaCross_exit`: there is an entry where the fast mean comes to lie above the slow one, and
  an exit where it ceases to.
* `smaCross_alternates`: the signals up to a bar alternate, beginning with an entry, and end with one exactly if the
  fast mean lies above the slow one.

## Honest scope

Arithmetic is exact: how `rolling` sums up as it goes along is left out. A parameter is what `int` makes of it. No close
is missing.
-/

namespace StratTrader.Backtest

/-- What a sweep or an adapter may raise. -/
inductive RunError where
  /-- `BacktestError`, with its code. -/
  | backtest (code : String)
  /-- Another exception. -/
  | raised
  deriving DecidableEq

/-- The columns of a frame of signals. -/
structure Signals (F : Type) where
  /-- `entries`. -/
  entries : List Bool
  /-- `exits`. -/
  exits : List Bool
  /-- `stop_pct`, if there is such a column. -/
  stopPct : Option (List (Option F))
  /-- `target_pct`, if there is such a column. -/
  targetPct : Option (List (Option F))
  deriving DecidableEq

/-- The parameters of an adapter, by name. -/
abbrev Params : Type := List (String × ℤ)

/-- `BacktestStrategy`. -/
structure Adapter (F : Type) where
  /-- `warmup_bars`. -/
  warmupBars : ℤ
  /-- `generate_signals`. -/
  generateSignals : List (Bar F) → Params → Except RunError (Signals F)
  /-- The entries are indexed like the bars. -/
  entries_length : ∀ {bars params sig}, generateSignals bars params = .ok sig → sig.entries.length = bars.length
  /-- So are the exits. -/
  exits_length : ∀ {bars params sig}, generateSignals bars params = .ok sig → sig.exits.length = bars.length

/-- The first rows of the columns. -/
def Signals.take {F : Type} (sig : Signals F) (k : ℕ) : Signals F where
  entries := sig.entries.take k
  exits := sig.exits.take k
  stopPct := sig.stopPct.map fun cells => cells.take k
  targetPct := sig.targetPct.map fun cells => cells.take k

/-- An adapter does not look ahead: the signals of the first bars are the first signals. -/
def Adapter.Causal {F : Type} (adapter : Adapter F) : Prop :=
  ∀ bars params k, adapter.generateSignals (bars.take k) params =
    (adapter.generateSignals bars params).map fun sig => sig.take k

/-! ### `SmaCrossAdapter` -/

/-- `close.rolling(n, min_periods=n).mean()` at a row. -/
def meanAt (n : ℕ) (closes : List ℚ) (i : ℕ) : Option ℚ :=
  if 0 < n ∧ n ≤ i + 1 then some (((closes.take (i + 1)).drop (i + 1 - n)).sum / n) else none

/-- `close.rolling(n, min_periods=n).mean()`. -/
def rollingMean (n : ℕ) (closes : List ℚ) : List (Option ℚ) := (List.range closes.length).map (meanAt n closes)

/-- `a > b`, which is false where one is missing. -/
def gtCell (a b : Option ℚ) : Bool :=
  match a, b with
  | some a, some b => decide (b < a)
  | _, _ => false

/-- `shift(1, fill_value=False)`. -/
def shift (column : List Bool) : List Bool := (false :: column).take column.length

/-- The columns of the adapter, of the two means. -/
def crossSignals (smaFast smaSlow : List (Option ℚ)) : Signals ℚ :=
  let above := List.zipWith gtCell smaFast smaSlow
  let prevAbove := shift above
  let valid := List.zipWith (fun (a b : Option ℚ) => a.isSome && b.isSome) smaFast smaSlow
  { entries := List.zipWith and (List.zipWith (fun a b => a && !b) above prevAbove) valid
    exits := List.zipWith and (List.zipWith (fun a b => !a && b) above prevAbove) valid
    stopPct := none
    targetPct := none }

/-- `generate_signals` of `SmaCrossAdapter`. -/
def generateSmaCross (bars : List (Bar ℚ)) (params : Params) : Except RunError (Signals ℚ) :=
  match params.lookup "fast", params.lookup "slow" with
  | some fast, some slow =>
    if fast < 0 ∨ slow < 0 then .error .raised
    else
      let closes := bars.map (·.close)
      .ok (crossSignals (rollingMean fast.toNat closes) (rollingMean slow.toNat closes))
  | _, _ => .error .raised

section
variable {fast slow : ℕ} {closes : List ℚ} {bars : List (Bar ℚ)} {params : Params}

@[simp] theorem length_rollingMean (n : ℕ) (closes : List ℚ) : (rollingMean n closes).length = closes.length := by
  rw [rollingMean, List.length_map, List.length_range]

@[simp] theorem length_shift (column : List Bool) : (shift column).length = column.length := by
  simp [shift]

theorem length_crossSignals : (crossSignals (rollingMean fast closes) (rollingMean slow closes)).entries.length =
    closes.length ∧ (crossSignals (rollingMean fast closes) (rollingMean slow closes)).exits.length = closes.length := by
  simp [crossSignals]

/-- What is not raised are the columns of two means. -/
theorem generateSmaCross_ok {sig : Signals ℚ} (h : generateSmaCross bars params = .ok sig) :
    ∃ fast slow : ℕ, params.lookup "fast" = some (fast : ℤ) ∧ params.lookup "slow" = some (slow : ℤ) ∧
      sig = crossSignals (rollingMean fast (bars.map (·.close))) (rollingMean slow (bars.map (·.close))) := by
  unfold generateSmaCross at h
  split at h
  · case h_1 fast slow hfast hslow =>
    split_ifs at h with hneg
    rw [not_or, not_lt, not_lt] at hneg
    refine ⟨fast.toNat, slow.toNat, ?_, ?_, (Except.ok.inj h).symm⟩
    · rw [hfast, Int.toNat_of_nonneg hneg.1]
    · rw [hslow, Int.toNat_of_nonneg hneg.2]
  · cases h

end

/-- `SmaCrossAdapter`. -/
def smaCross : Adapter ℚ where
  warmupBars := 50
  generateSignals := generateSmaCross
  entries_length h := by
    obtain ⟨fast, slow, -, -, rfl⟩ := generateSmaCross_ok h
    rw [length_crossSignals.1, List.length_map]
  exits_length h := by
    obtain ⟨fast, slow, -, -, rfl⟩ := generateSmaCross_ok h
    rw [length_crossSignals.2, List.length_map]

/-! ### No look-ahead -/

section
variable {fast slow : ℕ} {closes : List ℚ}

theorem rollingMean_take (n k : ℕ) (closes : List ℚ) : rollingMean n (closes.take k) = (rollingMean n closes).take k := by
  refine List.ext_getElem (by simp) fun i hi hi' => ?_
  have hik : i < k := by
    rw [length_rollingMean, List.length_take] at hi
    omega
  have hrows : (closes.take k).take (i + 1) = closes.take (i + 1) := by
    rw [List.take_take, Nat.min_eq_left hik]
  simp only [rollingMean, List.getElem_take, List.getElem_map, List.getElem_range]
  unfold meanAt
  rw [hrows]

theorem shift_take (column : List Bool) (k : ℕ) : shift (column.take k) = (shift column).take k := by
  unfold shift
  rw [List.length_take, List.take_take]
  cases hk : min k column.length with
  | zero => rfl
  | succ n =>
    rw [List.take_succ_cons, List.take_succ_cons, List.take_take]
    congr 2
    omega

theorem crossSignals_take (smaFast smaSlow : List (Option ℚ)) (k : ℕ) :
    crossSignals (smaFast.take k) (smaSlow.take k) = (crossSignals smaFast smaSlow).take k := by
  simp only [crossSignals, Signals.take, ← List.take_zipWith, Option.map_none, shift_take]

end

/-- **The signals of the first bars** are the first signals. -/
theorem smaCross_causal : smaCross.Causal := by
  intro bars params k
  change generateSmaCross _ _ = (generateSmaCross _ _).map _
  unfold generateSmaCross
  cases params.lookup "fast" with
  | none => rfl
  | some fast =>
    cases params.lookup "slow" with
    | none => rfl
    | some slow =>
      dsimp only
      split_ifs
      · rfl
      · rw [List.map_take, rollingMean_take, rollingMean_take, crossSignals_take]
        rfl

/-! ### Crossings -/

/-- The fast mean lies above the slow one behind so many bars. -/
def Above (fast slow : ℕ) (closes : List ℚ) : ℕ → Bool
  | 0 => false
  | i + 1 => gtCell (meanAt fast closes i) (meanAt slow closes i)

section
variable {fast slow : ℕ} {closes : List ℚ} {i : ℕ}

theorem meanAt_isSome {n : ℕ} : (meanAt n closes i).isSome = true ↔ 0 < n ∧ n ≤ i + 1 := by
  unfold meanAt
  split_ifs with h
  · exact iff_of_true rfl h
  · exact iff_of_false (by simp) h

theorem gtCell_isSome {a b : Option ℚ} (h : gtCell a b = true) : a.isSome = true ∧ b.isSome = true := by
  unfold gtCell at h
  split at h
  · exact ⟨rfl, rfl⟩
  · cases h

theorem above_getElem? (hi : i < closes.length) :
    (List.zipWith gtCell (rollingMean fast closes) (rollingMean slow closes))[i]? =
      some (Above fast slow closes (i + 1)) := by
  simp [rollingMean, hi, Above]

theorem shift_above_getElem? (hi : i < closes.length) :
    (shift (List.zipWith gtCell (rollingMean fast closes) (rollingMean slow closes)))[i]? =
      some (Above fast slow closes i) := by
  have hlength : i < (List.zipWith gtCell (rollingMean fast closes) (rollingMean slow closes)).length := by
    simpa using hi
  rw [shift, List.getElem?_take_of_lt hlength]
  cases i with
  | zero => rfl
  | succ i =>
    rw [List.getElem?_cons_succ]
    exact above_getElem? (Nat.lt_of_succ_lt hi)

theorem valid_getElem? (hi : i < closes.length) :
    (List.zipWith (fun (a b : Option ℚ) => a.isSome && b.isSome) (rollingMean fast closes)
      (rollingMean slow closes))[i]? = some ((meanAt fast closes i).isSome && (meanAt slow closes i).isSome) := by
  simp [rollingMean, hi]

/-- Where the fast mean lies above the slow one, or did at the bar before, there are both. -/
theorem valid_of_above (h : Above fast slow closes (i + 1) = true ∨ Above fast slow closes i = true) :
    ((meanAt fast closes i).isSome && (meanAt slow closes i).isSome) = true := by
  rw [Bool.and_eq_true]
  rcases h with h | h
  · exact gtCell_isSome h
  · cases i with
    | zero => cases h
    | succ i =>
      obtain ⟨hfast, hslow⟩ := gtCell_isSome h
      rw [meanAt_isSome] at hfast hslow ⊢
      rw [meanAt_isSome]
      omega

/-- **An entry** is where the fast mean comes to lie above the slow one. -/
theorem smaCross_entry (hi : i < closes.length) :
    (crossSignals (rollingMean fast closes) (rollingMean slow closes)).entries[i]? =
      some (Above fast slow closes (i + 1) && !Above fast slow closes i) := by
  simp only [crossSignals, List.getElem?_zipWith, above_getElem? hi, shift_above_getElem? hi, valid_getElem? hi]
  rw [Option.some.injEq]
  cases hnow : Above fast slow closes (i + 1) with
  | false => rfl
  | true => rw [valid_of_above (.inl hnow), Bool.and_true]

/-- **An exit** is where it ceases to. -/
theorem smaCross_exit (hi : i < closes.length) :
    (crossSignals (rollingMean fast closes) (rollingMean slow closes)).exits[i]? =
      some (!Above fast slow closes (i + 1) && Above fast slow closes i) := by
  simp only [crossSignals, List.getElem?_zipWith, above_getElem? hi, shift_above_getElem? hi, valid_getElem? hi]
  rw [Option.some.injEq]
  cases hbefore : Above fast slow closes i with
  | false => rw [Bool.and_false, Bool.false_and]
  | true => rw [valid_of_above (.inr hbefore), Bool.and_true]

/-- The signals of the first bars, one after another: an entry is true, an exit is false. -/
def events (sig : Signals ℚ) (k : ℕ) : List Bool :=
  (List.range k).flatMap fun i =>
    (if sig.entries.getD i false then [true] else []) ++ if sig.exits.getD i false then [false] else []

/-- The signals of one bar. -/
theorem events_succ {sig : Signals ℚ} (k : ℕ) : events sig (k + 1) = events sig k ++
    ((if sig.entries.getD k false then [true] else []) ++ if sig.exits.getD k false then [false] else []) := by
  rw [events, List.range_succ, List.flatMap_append, List.flatMap_singleton]
  rfl

/-- So many signals that alternate, of which the first is an entry. -/
def alternating (n : ℕ) : List Bool := (List.range n).map fun j => decide (j % 2 = 0)

theorem alternating_succ (n : ℕ) : alternating (n + 1) = alternating n ++ [decide (n % 2 = 0)] := by
  rw [alternating, List.range_succ, List.map_append, List.map_singleton]
  rfl

/-- A bar crosses, or it does not. -/
theorem events_crossSignals {k : ℕ} (hk : k ≤ closes.length) :
    ∃ n, events (crossSignals (rollingMean fast closes) (rollingMean slow closes)) k = alternating n ∧
      (n % 2 = 1 ↔ Above fast slow closes k = true) := by
  induction k with
  | zero => exact ⟨0, rfl, by simp [Above]⟩
  | succ k ih =>
    obtain ⟨n, hevents, hside⟩ := ih (Nat.le_of_succ_le hk)
    rw [events_succ, hevents, List.getD_eq_getElem?_getD, List.getD_eq_getElem?_getD, smaCross_entry hk,
      smaCross_exit hk, Option.getD_some, Option.getD_some]
    cases hbefore : Above fast slow closes k with
    | false =>
      rw [hbefore] at hside
      cases hnow : Above fast slow closes (k + 1) with
      | false => exact ⟨n, by simp, hside⟩
      | true =>
        have heven : n % 2 = 0 := by simpa using hside
        exact ⟨n + 1, by simp [alternating_succ, heven], iff_of_true (by omega) rfl⟩
    | true =>
      rw [hbefore] at hside
      have hodd : n % 2 = 1 := hside.mpr rfl
      cases hnow : Above fast slow closes (k + 1) with
      | false => exact ⟨n + 1, by simp [alternating_succ, hodd], iff_of_false (by omega) Bool.false_ne_true⟩
      | true => exact ⟨n, by simp, hside⟩

end

/-- **The signals alternate**, the first is an entry, and the last one is an entry exactly if the fast mean lies above
the slow one: a trader who follows them is in the market while it does, and only then. -/
theorem smaCross_alternates {bars : List (Bar ℚ)} {params : Params} {sig : Signals ℚ}
    (h : smaCross.generateSignals bars params = .ok sig) :
    ∃ fast slow : ℕ, params.lookup "fast" = some (fast : ℤ) ∧ params.lookup "slow" = some (slow : ℤ) ∧
      ∀ k ≤ bars.length, ∃ n, events sig k = alternating n ∧
        (n % 2 = 1 ↔ Above fast slow (bars.map (·.close)) k = true) := by
  obtain ⟨fast, slow, hfast, hslow, rfl⟩ := generateSmaCross_ok h
  refine ⟨fast, slow, hfast, hslow, fun k hk => events_crossSignals ?_⟩
  rwa [List.length_map]

/-- Bars with these closes. -/
def barsWith (closes : List ℚ) : List (Bar ℚ) :=
  closes.zipIdx.map fun c => ⟨Frames.timestamp c.2, c.1, c.1, c.1, c.1, 1000⟩

theorem crossTwice : smaCross.generateSignals (barsWith [1, 2, 1, 3]) [("fast", 1), ("slow", 2)] =
    .ok ⟨[false, true, false, true], [false, false, true, false], none, none⟩ := by decide +kernel

/-- Two means that cross twice. -/
theorem smaCross_alternates_sample : ∃ fast slow : ℕ,
    [("fast", (1 : ℤ)), ("slow", 2)].lookup "fast" = some (fast : ℤ) ∧
    [("fast", (1 : ℤ)), ("slow", 2)].lookup "slow" = some (slow : ℤ) ∧
      ∀ k ≤ (barsWith [1, 2, 1, 3]).length, ∃ n,
        events ⟨[false, true, false, true], [false, false, true, false], none, none⟩ k = alternating n ∧
        (n % 2 = 1 ↔ Above fast slow ((barsWith [1, 2, 1, 3]).map (·.close)) k = true) :=
  smaCross_alternates (crossTwice : smaCross.generateSignals _ _ = _)

end StratTrader.Backtest
