import StratTrader.Backtest.LookAhead

/-!
# What is held

A position holds nothing, or more than what counts as nothing, and has been charged the commission of its entry exactly
if that is complete. No number is worked out for it: it holds of floats that are rounded too, of which only what is true
of these is asked.

## What is proved

* `fillPosition_sound`: what a fill leaves of a position that is not complete.
* `barStep_tidy`: every part of a bar keeps the position in order.
* `stateAt_tidy`: so it is behind every bar.
-/

namespace StratTrader.Backtest

open StratTrader.Foundation StratTrader.Risk

/-! ### Floats -/

/-- What counts as nothing: `1e-12`. -/
def dust {F : Type} [PyFloat F] : F := PyFloat.lit (1 / 10 ^ 12)

/-- What is asked of floats. A sum that is rounded is no less than a float that the sum is no less than. -/
class LawfulPyFloat (F : Type) [PyFloat F] : Prop where
  /-- `bool(0.0)`. -/
  truth_zero : PyFloat.truth (0 : F) = false
  /-- `0.0 < 0.0`. -/
  zero_irrefl : ¬ (0 : F) < 0
  /-- `0.0 <= 1e-12`. -/
  zero_le_dust : (0 : F) ≤ dust
  /-- More than `1e-12` is positive. -/
  pos_of_dust_lt : ∀ x : F, dust < x → 0 < x
  /-- And it is not as much. -/
  not_le_dust : ∀ x : F, dust < x → ¬ x ≤ dust
  /-- It stays so when it is added to nothing, or to what is more itself. -/
  dust_lt_add : ∀ x y : F, x = 0 ∨ dust < x → dust < y → dust < x + y

theorem dust_pos : (0 : ℚ) < dust := show (0 : ℚ) < 1 / 10 ^ 12 by norm_num

instance instLawfulPyFloatRat : LawfulPyFloat ℚ where
  truth_zero := rfl
  zero_irrefl := lt_irrefl 0
  zero_le_dust := dust_pos.le
  pos_of_dust_lt _ h := dust_pos.trans h
  not_le_dust _ h := not_le.mpr h
  dust_lt_add x y hx hy := by
    have hnonneg : 0 ≤ x := by
      rcases hx with rfl | hlt
      · exact le_rfl
      · exact (dust_pos.trans hlt).le
    exact lt_add_of_nonneg_of_lt hnonneg hy

/-! ### Positions -/

section
variable {F : Type} [PyFloat F]

/-- A position of which nothing is filled, or more than what counts as nothing. -/
structure Position.Sound (env : Setting F) (p : Position F) : Prop where
  /-- The shares. -/
  filled : p.qty = 0 ∧ p.cost = 0 ∧ p.complete = false ∨ dust < p.qty
  /-- The commission is charged when the entry is complete. -/
  charged : p.entryCommission = if p.complete then commission env p.qty else 0
  /-- Shares have been bought at some time. -/
  entered : 0 < p.qty → p.entryTs.isSome = true

/-- The position is in order. -/
structure Tidy (env : Setting F) (s : LoopState F) : Prop where
  /-- It is sound. -/
  sound : ∀ p, s.pos = some p → p.Sound env
  /-- No signal waits while there is one. -/
  waiting : ∀ p, s.pos = some p → s.pendingSignal = none

variable {env : Setting F} {bars : List (Bar F)} {n j : ℕ} {row : WindowRow F} {s : LoopState F} {p q : Position F}

/-- Shares that are held are more than what counts as nothing. -/
theorem Position.Sound.lt_qty [LawfulPyFloat F] (h : p.Sound env) (hqty : 0 < p.qty) : dust < p.qty := by
  rcases h.filled with ⟨hzero, -, -⟩ | hlt
  · rw [hzero] at hqty
    exact absurd hqty LawfulPyFloat.zero_irrefl
  · exact hlt

/-- An entry that is not complete has not been charged. -/
theorem Position.Sound.uncharged (h : p.Sound env) (hcomplete : p.complete = false) : p.entryCommission = 0 := by
  rw [h.charged, hcomplete]
  rfl

/-- One that is complete has. -/
theorem Position.Sound.paid (h : p.Sound env) (hcomplete : p.complete = true) :
    p.entryCommission = commission env p.qty := by
  rw [h.charged, hcomplete]
  rfl

theorem updateExcursions_eq (p : Position F) (high low : F) :
    (p.updateExcursions high low).qty = p.qty ∧ (p.updateExcursions high low).cost = p.cost ∧
      (p.updateExcursions high low).entryCommission = p.entryCommission := by
  unfold Position.updateExcursions
  split_ifs
  · exact ⟨rfl, rfl, rfl⟩
  · exact ⟨rfl, rfl, rfl⟩

/-- The excursions are no part of it. -/
theorem sound_updateExcursions (high low : F) (h : p.Sound env) : (p.updateExcursions high low).Sound env := by
  unfold Position.updateExcursions
  split_ifs
  · exact ⟨h.filled, h.charged, h.entered⟩
  · exact ⟨h.filled, h.charged, h.entered⟩

/-- What a fill leaves of a position that is not complete. -/
theorem fillPosition_sound [LawfulPyFloat F] {cash cash' : F} (hq : fillPosition env j row p cash = (q, cash'))
    (h : p.Sound env) (hcomplete : p.complete = false) : q.Sound env ∧ q.complete = false := by
  unfold fillPosition at hq
  dsimp only at hq
  generalize (if 0 < vpp env * row.bar.volume then pyMin (p.targetQty - p.qty) (vpp env * row.bar.volume) else 0) =
    fill at hq
  by_cases hfill : dust < fill
  · rw [if_pos (show PyFloat.lit (1 / 10 ^ 12) < fill from hfill)] at hq
    cases hq
    have hlt : dust < p.qty + fill := LawfulPyFloat.dust_lt_add _ _ (h.filled.imp_left And.left) hfill
    refine ⟨⟨.inr hlt, ?_, fun _ => rfl⟩, hcomplete⟩
    dsimp only
    rw [hcomplete]
    exact h.uncharged hcomplete
  · rw [if_neg (show ¬ PyFloat.lit (1 / 10 ^ 12) < fill from hfill)] at hq
    cases hq
    exact ⟨h, hcomplete⟩

/-! ### What a bar keeps -/

theorem tidy_of_none (hpos : s.pos = none) : Tidy env s := by
  refine ⟨fun p hp => ?_, fun p hp => ?_⟩
  · rw [hpos] at hp
    cases hp
  · rw [hpos] at hp
    cases hp

theorem tidy_of_some (hpos : s.pos = some p) (hsound : p.Sound env) (hwaiting : s.pendingSignal = none) :
    Tidy env s := by
  refine ⟨fun q hq => ?_, fun _ _ => hwaiting⟩
  rw [hpos] at hq
  cases hq
  exact hsound

theorem exitAtOpen_tidy (h : Tidy env s) : Tidy env (exitAtOpen env j row s) := by
  unfold exitAtOpen
  split
  · split_ifs
    · exact tidy_of_none rfl
    · exact h
  · exact h

theorem beginEntry_tidy [LawfulPyFloat F] (h : Tidy env s) : Tidy env (beginEntry j s) := by
  unfold beginEntry
  split
  · exact tidy_of_some rfl ⟨.inl ⟨rfl, rfl, rfl⟩, rfl, fun hqty => absurd hqty LawfulPyFloat.zero_irrefl⟩ rfl
  · exact h

theorem continueEntry_tidy [LawfulPyFloat F] (h : Tidy env s) : Tidy env (continueEntry env j row s) := by
  unfold continueEntry
  cases hpos : s.pos with
  | none => exact h
  | some p =>
    dsimp only
    cases hcomplete : p.complete with
    | true =>
      rw [if_pos rfl]
      exact h
    | false =>
      rw [if_neg Bool.false_ne_true]
      obtain ⟨⟨q, cash⟩, hq⟩ : ∃ q, fillPosition env j row p s.cash = q := ⟨_, rfl⟩
      obtain ⟨hsound, hopen⟩ := fillPosition_sound hq (h.sound p hpos) hcomplete
      have hwaiting := h.waiting p hpos
      rw [hq]
      dsimp only
      split_ifs with hdone hnothing
      · exact tidy_of_none rfl
      · have hlt : dust < q.qty := by
          rcases hsound.filled with ⟨hzero, -, -⟩ | hlt
          · rw [hzero] at hnothing
            exact absurd LawfulPyFloat.zero_le_dust hnothing
          · exact hlt
        exact tidy_of_some rfl ⟨.inr hlt, rfl, hsound.entered⟩ hwaiting
      · exact tidy_of_some rfl ⟨hsound.filled, hsound.charged, hsound.entered⟩ hwaiting

theorem intraBar_tidy (h : Tidy env s) : Tidy env (intraBar env j row s) := by
  unfold intraBar
  cases hpos : s.pos with
  | none => exact h
  | some p =>
    dsimp only
    split_ifs
    · split
      · exact tidy_of_none rfl
      · exact tidy_of_some rfl (sound_updateExcursions _ _ (h.sound p hpos)) (h.waiting p hpos)
    · exact h

theorem forceClose_tidy (h : Tidy env s) : Tidy env (forceClose env n j row s) := by
  unfold forceClose
  split
  · dsimp only
    split_ifs
    · exact tidy_of_none rfl
    · exact tidy_of_none rfl
    · exact h
  · exact h

theorem markEquity_tidy (h : Tidy env s) : Tidy env (markEquity j row s) := by
  unfold markEquity
  split
  · exact ⟨h.sound, h.waiting⟩
  · exact ⟨h.sound, h.waiting⟩

theorem newSignals_tidy (h : Tidy env s) : Tidy env (newSignals env bars n j row s) := by
  unfold newSignals
  dsimp only
  split_ifs with hboth hentry hqty hexit
  · exact h
  · exact tidy_of_none (Option.isNone_iff_eq_none.mp hentry.2.1)
  · exact h
  · exact ⟨h.sound, h.waiting⟩
  · exact h

/-- **A bar keeps the position in order.** -/
theorem barStep_tidy [LawfulPyFloat F] (h : Tidy env s) : Tidy env (barStep env bars n j row s) :=
  newSignals_tidy (markEquity_tidy (forceClose_tidy (intraBar_tidy (continueEntry_tidy (beginEntry_tidy
    (exitAtOpen_tidy h))))))

end

/-! ### The run -/

/-- The state behind so many bars of the window. -/
def stateAt {F : Type} [PyFloat F] (env : Setting F) (fr : Frames F) (testStart testEnd : ℤ) (j : ℕ) : LoopState F :=
  iterate (windowStep env fr (fr.window testStart testEnd)) (.start env (fr.window testStart testEnd).length) j

/-- The row of a bar of the window. -/
def Frames.rowAt {F : Type} (fr : Frames F) (testStart testEnd : ℤ) (j : ℕ) : Option (WindowRow F) :=
  ((fr.window testStart testEnd)[j]?).bind fr.row

/-- Every bar of the window has its row. -/
theorem exists_rowAt {F : Type} {fr : Frames F} {testStart testEnd : ℤ} {j : ℕ}
    (hj : j < (fr.window testStart testEnd).length) : ∃ row, fr.rowAt testStart testEnd j = some row := by
  have hp : (fr.window testStart testEnd)[j] < fr.index.length := fr.lt_of_mem_window (List.getElem_mem hj)
  unfold Frames.index at hp
  rw [List.length_map] at hp
  unfold Frames.rowAt Frames.row
  rw [List.getElem?_eq_getElem hj, Option.bind_some, List.getElem?_eq_getElem hp]
  exact ⟨_, rfl⟩

theorem stateAt_succ {F : Type} [PyFloat F] (env : Setting F) (fr : Frames F) (testStart testEnd : ℤ) {j : ℕ}
    {row : WindowRow F} (hrow : fr.rowAt testStart testEnd j = some row) :
    stateAt env fr testStart testEnd (j + 1) = barStep env fr.bars (fr.window testStart testEnd).length j row
      (stateAt env fr testStart testEnd j) := by
  change windowStep env fr (fr.window testStart testEnd) j (stateAt env fr testStart testEnd j) = _
  unfold windowStep
  unfold Frames.rowAt at hrow
  rw [hrow]

section
variable {F : Type} [PyFloat F] (env : Setting F) (fr : Frames F) (testStart testEnd : ℤ)

/-- What holds at the start and is kept by every bar holds behind every one. -/
theorem stateAt_invariant (I : LoopState F → Prop) (h0 : I (.start env (fr.window testStart testEnd).length))
    (hstep : ∀ j row s, I s → I (barStep env fr.bars (fr.window testStart testEnd).length j row s)) (j : ℕ) :
    I (stateAt env fr testStart testEnd j) := by
  induction j with
  | zero => exact h0
  | succ j ih =>
    cases hrow : fr.rowAt testStart testEnd j with
    | some row =>
      rw [stateAt_succ env fr testStart testEnd hrow]
      exact hstep j row _ ih
    | none =>
      change I (windowStep env fr (fr.window testStart testEnd) j (stateAt env fr testStart testEnd j))
      unfold windowStep
      unfold Frames.rowAt at hrow
      rw [hrow]
      exact ih

/-- Behind every bar the position is in order. -/
theorem stateAt_tidy [LawfulPyFloat F] (j : ℕ) : Tidy env (stateAt env fr testStart testEnd j) :=
  stateAt_invariant env fr testStart testEnd (Tidy env) (tidy_of_none rfl) (fun _ _ _ h => barStep_tidy h) j

end

end StratTrader.Backtest
