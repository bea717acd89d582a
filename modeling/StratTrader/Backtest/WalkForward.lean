import StratTrader.Backtest.Data
import StratTrader.Backtest.LookAhead
import StratTrader.Backtest.Sweep
import StratTrader.Backtest.Windows

/-!
# The walk-forward

`walk_forward` of `backtest/wf.py`: in each window the combinations of the grid are scored on the train segment, and
the best one is replayed on the test segment. `run_backtest` loads the bars of a symbol for it.

## What is proved

* `bestParams_congr`, `windowResult_congr`: the parameters of a window are made of the bars before its test segment,
  and its result of those before the end of it.
* `walkForward_extends`, `runSymbol_extends`: where a backtest is run again with a later end, and with more bars stored
  behind the end that it had, its windows have the same results.

## Honest scope

The metrics of a window are a parameter, and the curve of all windows is left out. The cancel flag is read before each
window.
-/

namespace StratTrader.Backtest

open StratTrader.Foundation

/-- A frame of bars: its index is in order. -/
structure BarFrame (F : Type) where
  /-- The bars. -/
  bars : List (Bar F)
  /-- The index is sorted and has no duplicates. -/
  sorted : bars.Pairwise (·.ts < ·.ts)

/-- `WindowResult`. -/
structure WindowResult (F M : Type) where
  /-- `window`. -/
  window : Window
  /-- `best_params`. -/
  bestParams : Params
  /-- `replay`. -/
  replay : ReplayResult F
  /-- `oos_metrics`. -/
  oosMetrics : M

section
variable {F S M : Type} (plan : Plan F S M)

/-- The frames of a replay. -/
def framesOf (frame : BarFrame F) (params : Params) (sig : Signals F)
    (h : plan.adapter.generateSignals frame.bars params = .ok sig) : Frames F where
  bars := frame.bars
  sorted := frame.sorted
  entries := sig.entries
  entries_length := plan.adapter.entries_length h
  exits := sig.exits
  exits_length := plan.adapter.exits_length h
  stopPct := sig.stopPct
  targetPct := sig.targetPct

/-- The best parameters of a window. -/
def bestParams [LinearOrder S] (frame : BarFrame F) (w : Window) : Except RunError Params :=
  bestOf plan frame.bars w.trainStart w.trainEnd

variable [PyFloat F] [LinearOrder S]

/-- The test segment of a window, with its best parameters. -/
def testResult (frame : BarFrame F) (w : Window) (best : Params) : Except RunError (WindowResult F M) :=
  match h : plan.adapter.generateSignals frame.bars best with
  | .error e => .error e
  | .ok sig =>
    let rr := replay plan.setting (framesOf plan frame best sig h) w.testStart w.testEnd
    .ok ⟨w, best, rr, plan.computeMetrics rr⟩

/-- The result of a window. -/
def windowResult (frame : BarFrame F) (w : Window) : Except RunError (WindowResult F M) :=
  bestParams plan frame w >>= testResult plan frame w

/-- The loop of `walk_forward`, with the cancel flag as it is read before each window. -/
def walkWindows (frame : BarFrame F) (shouldCancel : ℕ → Bool) : List Window → Except RunError (List (WindowResult F M))
  | [] => .ok []
  | w :: windows =>
    if shouldCancel w.index then .ok []
    else do
      let result ← windowResult plan frame w
      let rest ← walkWindows frame shouldCancel windows
      return result :: rest

/-- `walk_forward`. -/
def walkForward (frame : BarFrame F) (cfg : WFConfig) (shouldCancel : ℕ → Bool) :
    Option (Except RunError (List (WindowResult F M))) :=
  (computeWindows dateAdd cfg).map fun windows =>
    match windows with
    | .error _ => .error .raised
    | .ok windows => walkWindows plan frame shouldCancel windows

end

/-! ### The replay of a window -/

section
variable {F : Type} {A B : Frames F} {testStart testEnd : ℤ} {k : ℕ}

/-- Two pairs of frames agree on the first rows. -/
structure AgreeBefore (k : ℕ) (A B : Frames F) : Prop where
  /-- The bars. -/
  bars : A.bars.take k = B.bars.take k
  /-- The entries. -/
  entries : A.entries.take k = B.entries.take k
  /-- The exits. -/
  exits : A.exits.take k = B.exits.take k
  /-- The stops. -/
  stopPct : ∀ i < k, cell A.stopPct i = cell B.stopPct i
  /-- The targets. -/
  targetPct : ∀ i < k, cell A.targetPct i = cell B.targetPct i

theorem getElem?_of_take {α : Type} {as bs : List α} {k i : ℕ} (h : as.take k = bs.take k) (hi : i < k) :
    as[i]? = bs[i]? := by
  rw [← List.getElem?_take_of_lt hi, h, List.getElem?_take_of_lt hi]

/-- The row at an early position is the same. -/
theorem AgreeBefore.row (h : AgreeBefore k A B) {p : ℕ} (hp : p < k) : A.row p = B.row p := by
  have hbar := getElem?_of_take h.bars hp
  cases hA : A.bars[p]? with
  | none => rw [Frames.row, Frames.row, ← hbar, hA]; rfl
  | some bar =>
    rw [Frames.row, Frames.row, ← hbar, hA, Option.map_some, Option.map_some, List.getD_eq_getElem?_getD,
      List.getD_eq_getElem?_getD, List.getD_eq_getElem?_getD, List.getD_eq_getElem?_getD,
      getElem?_of_take h.entries hp, getElem?_of_take h.exits hp, h.stopPct p hp, h.targetPct p hp,
      Frames.idxOf_ts hA, Frames.idxOf_ts (hbar ▸ hA)]

theorem index_getElem? (fr : Frames F) (p : ℕ) : fr.index[p]? = fr.bars[p]?.map (·.ts) := by
  rw [Frames.index, List.getElem?_map]

/-- A window that ends by the limit has early positions only. -/
theorem lt_of_mem_window (hA : EndsBy A.bars testEnd k) {p : ℕ} (hp : p ∈ A.window testStart testEnd) : p < k := by
  rw [Frames.window, List.mem_filter] at hp
  obtain ⟨ts, hts, hmask⟩ := (Option.any_eq_true _ _).mp hp.2
  by_contra hk
  rw [index_getElem?] at hts
  obtain ⟨bar, hbar, rfl⟩ := Option.map_eq_some_iff.mp hts
  have hdrop : bar ∈ A.bars.drop k := by
    refine List.mem_of_getElem? (i := p - k) ?_
    rw [List.getElem?_drop, Nat.add_sub_cancel' (not_lt.mp hk), hbar]
  have hlt := of_decide_eq_true (Bool.and_eq_true_iff.mp hmask).2
  exact absurd hlt (not_lt.mpr (hA bar hdrop))

/-- The window is that of the early positions. -/
theorem window_eq_of_endsBy (fr : Frames F) (h : EndsBy fr.bars testEnd k) :
    fr.window testStart testEnd = (List.range k).filter fun p =>
      fr.index[p]?.any fun ts =>
        decide (Frames.timestamp testStart ≤ ts) && decide (ts < Frames.timestamp testEnd) := by
  have hlt : ((List.range k).filter fun p => fr.index[p]?.any fun ts =>
      decide (Frames.timestamp testStart ≤ ts) && decide (ts < Frames.timestamp testEnd)).Pairwise (· < ·) :=
    List.pairwise_lt_range.filter _
  have hfull : (fr.window testStart testEnd).Pairwise fun p q => id p < id q := fr.window_pairwise testStart testEnd
  refine eq_of_pairwise_lt hfull hlt fun p => ?_
  constructor
  · intro hp
    exact List.mem_filter.mpr ⟨List.mem_range.mpr (lt_of_mem_window h hp), (List.mem_filter.mp hp).2⟩
  · intro hp
    obtain ⟨-, hmask⟩ := List.mem_filter.mp hp
    obtain ⟨ts, hts, -⟩ := (Option.any_eq_true _ _).mp hmask
    obtain ⟨hlength, -⟩ := List.getElem?_eq_some_iff.mp hts
    exact List.mem_filter.mpr ⟨List.mem_range.mpr hlength, hmask⟩

/-- **A window is replayed** on the rows before its end. -/
theorem AgreeBefore.replay [PyFloat F] (env : Setting F) (h : AgreeBefore k A B) (hA : EndsBy A.bars testEnd k)
    (hB : EndsBy B.bars testEnd k) : replay env A testStart testEnd = replay env B testStart testEnd := by
  have hindex : ∀ p < k, A.index[p]? = B.index[p]? := by
    intro p hp
    rw [index_getElem?, index_getElem?, getElem?_of_take h.bars hp]
  have hwindow : B.window testStart testEnd = A.window testStart testEnd := by
    rw [window_eq_of_endsBy A hA, window_eq_of_endsBy B hB]
    exact List.filter_congr fun p hp => by rw [hindex p (List.mem_range.mp hp)]
  have hstep : ∀ j, windowStep env A (A.window testStart testEnd) j =
      windowStep env B (A.window testStart testEnd) j := by
    intro j
    funext s
    unfold windowStep
    cases hp : (A.window testStart testEnd)[j]? with
    | none => rfl
    | some p =>
      have hpk : p < k := lt_of_mem_window hA (List.mem_of_getElem? hp)
      rw [Option.bind_some, Option.bind_some, h.row hpk]
      cases hrow : B.row p with
      | none => rfl
      | some row =>
        refine barStep_congr ?_
        rw [Frames.row_fullPos hrow]
        have htake := congrArg (List.take (p + 1)) h.bars
        rwa [List.take_take, List.take_take, Nat.min_eq_left hpk] at htake
  unfold Backtest.replay
  rw [hwindow]
  have hstate := iterate_congr (fun j (_ : j < (A.window testStart testEnd).length) => hstep j)
    (.start env (A.window testStart testEnd).length)
  have hresult : (A.window testStart testEnd).filterMap (fun p => A.index[p]?) =
      (A.window testStart testEnd).filterMap fun p => B.index[p]? :=
    List.filterMap_congr fun p hp => hindex p (lt_of_mem_window hA hp)
  dsimp only
  rw [hstate, hresult]

end

/-! ### A window -/

section
variable {F S M : Type} {plan : Plan F S M} {A B : BarFrame F} {w : Window} {k : ℕ} {best : Params} {sig : Signals F}

theorem cell_take (column : Option (List (Option F))) {k i : ℕ} (hi : i < k) :
    cell (column.map fun cells => cells.take k) i = cell column i := by
  cases column with
  | none => rfl
  | some cells => exact congrArg Option.join (List.getElem?_take_of_lt hi)

theorem cell_of_take {column column' : Option (List (Option F))} {k i : ℕ}
    (h : (column.map fun cells => cells.take k) = column'.map fun cells => cells.take k) (hi : i < k) :
    cell column i = cell column' i := by
  rw [← cell_take column hi, h, cell_take column' hi]

/-- **The parameters of a window** depend on the bars before its test segment. -/
theorem bestParams_congr [LinearOrder S] (hcausal : plan.adapter.Causal) (hbars : A.bars.take k = B.bars.take k)
    (hA : EndsBy A.bars w.trainEnd k) (hB : EndsBy B.bars w.trainEnd k) :
    bestParams plan A w = bestParams plan B w := by
  unfold bestParams bestOf
  rw [← sweep_take hcausal hA, hbars, sweep_take hcausal hB]

variable [PyFloat F]

theorem testResult_ok (h : plan.adapter.generateSignals A.bars best = .ok sig) : testResult plan A w best =
    .ok ⟨w, best, replay plan.setting (framesOf plan A best sig h) w.testStart w.testEnd,
      plan.computeMetrics (replay plan.setting (framesOf plan A best sig h) w.testStart w.testEnd)⟩ := by
  unfold testResult
  split
  · case h_1 e he => exact nomatch h.symm.trans he
  · case h_2 sig' hsig =>
    cases h.symm.trans hsig
    rfl

theorem testResult_error {e : RunError} (h : plan.adapter.generateSignals A.bars best = .error e) :
    testResult plan A w best = .error e := by
  unfold testResult
  split
  · case h_1 e' he =>
    cases h.symm.trans he
    rfl
  · case h_2 sig' hsig => exact nomatch h.symm.trans hsig

/-- **A test segment** depends on the bars before its end. -/
theorem testResult_congr (hcausal : plan.adapter.Causal) (hbars : A.bars.take k = B.bars.take k)
    (hA : EndsBy A.bars w.testEnd k) (hB : EndsBy B.bars w.testEnd k) :
    testResult plan A w best = testResult plan B w best := by
  have hsignals : (plan.adapter.generateSignals A.bars best).map (·.take k) =
      (plan.adapter.generateSignals B.bars best).map (·.take k) := by
    rw [← hcausal, ← hcausal, hbars]
  cases hsA : plan.adapter.generateSignals A.bars best with
  | error e =>
    cases hsB : plan.adapter.generateSignals B.bars best with
    | error e' =>
      rw [hsA, hsB] at hsignals
      rw [testResult_error hsA, testResult_error hsB, Except.error.inj hsignals]
    | ok sig' =>
      rw [hsA, hsB] at hsignals
      cases hsignals
  | ok sig =>
    cases hsB : plan.adapter.generateSignals B.bars best with
    | error e' =>
      rw [hsA, hsB] at hsignals
      cases hsignals
    | ok sig' =>
      rw [hsA, hsB] at hsignals
      have htake : sig.take k = sig'.take k := Except.ok.inj hsignals
      have hagree : AgreeBefore k (framesOf plan A best sig hsA) (framesOf plan B best sig' hsB) :=
        ⟨hbars, congrArg Signals.entries htake, congrArg Signals.exits htake,
          fun i hi => cell_of_take (congrArg Signals.stopPct htake) hi,
          fun i hi => cell_of_take (congrArg Signals.targetPct htake) hi⟩
      rw [testResult_ok hsA, testResult_ok hsB, hagree.replay plan.setting hA hB]

/-- **The result of a window** depends on the bars before its end. -/
theorem windowResult_congr [LinearOrder S] (hcausal : plan.adapter.Causal) (hbars : A.bars.take k = B.bars.take k)
    (hA : EndsBy A.bars w.testEnd k) (hB : EndsBy B.bars w.testEnd k) (hw : w.trainEnd ≤ w.testEnd) :
    windowResult plan A w = windowResult plan B w := by
  unfold windowResult
  rw [bestParams_congr hcausal hbars (hA.mono hw) (hB.mono hw)]
  exact congrArg (bestParams plan B w >>= ·) (funext fun best => testResult_congr hcausal hbars hA hB)

end

/-! ### The windows -/

section
variable {cfg : WFConfig} {add : ℤ → ℤ → Except DateError ℤ} {later : ℤ}

/-- A turn of the loop that ends with windows. -/
theorem windowsFor_succ_ok {n : ℕ} {t : ℤ} {idx : ℕ} {ws : List Window}
    (h : windowsFor add cfg (n + 1) t idx = some (.ok ws)) :
    ∃ spanEnd, add t (cfg.trainDays + cfg.testDays) = .ok spanEnd ∧
      (cfg.endDay < spanEnd ∧ ws = [] ∨ spanEnd ≤ cfg.endDay ∧ ∃ window next rest,
        windowAt add cfg t idx = .ok window ∧ add t cfg.stepDays = .ok next ∧
          windowsFor add cfg n next (idx + 1) = some (.ok rest) ∧ ws = window :: rest) := by
  unfold windowsFor at h
  cases hspan : add t (cfg.trainDays + cfg.testDays) with
  | error e =>
    rw [hspan] at h
    cases h
  | ok spanEnd =>
    rw [hspan] at h
    dsimp only at h
    refine ⟨spanEnd, rfl, ?_⟩
    split_ifs at h with hfits
    · split at h
      · cases h
      · cases h
      · case h_3 window next hwindow hnext =>
        obtain ⟨rest, hrest, hcons⟩ := Option.map_eq_some_iff.mp h
        cases rest with
        | error e => cases hcons
        | ok rest =>
          cases hcons
          exact .inr ⟨hfits, window, next, rest, hwindow, hnext, hrest, rfl⟩
    · cases h
      exact .inl ⟨not_le.mp hfits, rfl⟩

/-- With a later end there are the same windows, and more behind them. -/
theorem windowsFor_extends (hlater : cfg.endDay ≤ later) {n n' : ℕ} {t : ℤ} {idx : ℕ} {ws ws' : List Window}
    (h : windowsFor add cfg n t idx = some (.ok ws))
    (h' : windowsFor add { cfg with endDay := later } n' t idx = some (.ok ws')) : ws <+: ws' := by
  induction n generalizing n' t idx ws ws' with
  | zero => cases h
  | succ n ih =>
    cases n' with
    | zero => cases h'
    | succ n' =>
      obtain ⟨spanEnd, hspan, hturn⟩ := windowsFor_succ_ok h
      obtain ⟨spanEnd', hspan', hturn'⟩ := windowsFor_succ_ok h'
      cases hspan.symm.trans hspan'
      rcases hturn with ⟨-, rfl⟩ | ⟨hfits, window, next, rest, hwindow, hnext, hrest, rfl⟩
      · exact List.nil_prefix
      · rcases hturn' with ⟨hover, -⟩ | ⟨-, window', next', rest', hwindow', hnext', hrest', rfl⟩
        · exact absurd (hfits.trans hlater) (not_le.mpr hover)
        · -- a window does not depend on the end
          have hsame : windowAt add { cfg with endDay := later } t idx = windowAt add cfg t idx := rfl
          cases hwindow.symm.trans (hsame.symm.trans hwindow')
          cases hnext.symm.trans hnext'
          exact List.cons_prefix_cons.mpr ⟨rfl, ih hrest hrest'⟩

theorem dateAdd_ok {t d r : ℤ} (h : dateAdd t d = .ok r) : r = t + d := by
  unfold dateAdd at h
  split_ifs at h
  exact (Except.ok.inj h).symm

theorem ends_of_windowAt (htest : 0 ≤ cfg.testDays) {t : ℤ} {idx : ℕ} {w : Window}
    (h : windowAt dateAdd cfg t idx = .ok w) :
    w.testEnd = t + (cfg.trainDays + cfg.testDays) ∧ w.trainEnd ≤ w.testEnd := by
  unfold windowAt at h
  cases htrainEnd : dateAdd t cfg.trainDays with
  | error e =>
    rw [htrainEnd] at h
    cases h
  | ok trainEnd =>
    rw [htrainEnd] at h
    change (dateAdd trainEnd cfg.testDays >>= fun testEnd => _) = _ at h
    cases htestEnd : dateAdd trainEnd cfg.testDays with
    | error e =>
      rw [htestEnd] at h
      cases h
    | ok testEnd =>
      rw [htestEnd] at h
      cases h
      have htrain := dateAdd_ok htrainEnd
      have htested := dateAdd_ok htestEnd
      dsimp only
      omega

/-- A window is tested by the end, and trained before it is tested. -/
theorem ends_of_windowsFor (htest : 0 ≤ cfg.testDays) {n : ℕ} {t : ℤ} {idx : ℕ} {ws : List Window}
    (h : windowsFor dateAdd cfg n t idx = some (.ok ws)) :
    ∀ w ∈ ws, w.testEnd ≤ cfg.endDay ∧ w.trainEnd ≤ w.testEnd := by
  induction n generalizing t idx ws with
  | zero => cases h
  | succ n ih =>
    obtain ⟨spanEnd, hspan, hturn⟩ := windowsFor_succ_ok h
    rcases hturn with ⟨-, rfl⟩ | ⟨hfits, window, next, rest, hwindow, hnext, hrest, rfl⟩
    · exact fun w hw => nomatch hw
    · intro w hw
      rcases List.mem_cons.mp hw with rfl | hw
      · obtain ⟨htested, htrained⟩ := ends_of_windowAt htest hwindow
        have hend := dateAdd_ok hspan
        exact ⟨by omega, htrained⟩
      · exact ih hrest w hw

end

/-! ### A backtest of a symbol -/

section
variable {F S M : Type} [PyFloat F] [LinearOrder S] {plan : Plan F S M} {A B : BarFrame F} {cfg : WFConfig}
  {shouldCancel : ℕ → Bool} {later : ℤ}

/-- Windows that have the same results in two frames, and more in one of them. -/
theorem walkWindows_extends {ws ws' : List Window} (hws : ws <+: ws')
    (hsame : ∀ w ∈ ws, windowResult plan A w = windowResult plan B w) {ra rb : List (WindowResult F M)}
    (hra : walkWindows plan A shouldCancel ws = .ok ra) (hrb : walkWindows plan B shouldCancel ws' = .ok rb) :
    ra <+: rb := by
  induction ws generalizing ws' ra rb with
  | nil =>
    cases hra
    exact List.nil_prefix
  | cons w ws ih =>
    obtain ⟨more, rfl⟩ := hws
    rw [List.cons_append] at hrb
    unfold walkWindows at hra hrb
    cases hcancel : shouldCancel w.index with
    | true =>
      rw [hcancel, if_pos rfl] at hra
      cases hra
      exact List.nil_prefix
    | false =>
      rw [hcancel, if_neg Bool.false_ne_true] at hra hrb
      rw [hsame w List.mem_cons_self] at hra
      cases hresult : windowResult plan B w with
      | error e =>
        rw [hresult] at hra
        cases hra
      | ok result =>
        rw [hresult] at hra hrb
        change (walkWindows plan A shouldCancel ws >>= fun rest => _) = _ at hra
        change (walkWindows plan B shouldCancel (ws ++ more) >>= fun rest => _) = _ at hrb
        cases hrest : walkWindows plan A shouldCancel ws with
        | error e =>
          rw [hrest] at hra
          cases hra
        | ok rest =>
          cases hrest' : walkWindows plan B shouldCancel (ws ++ more) with
          | error e =>
            rw [hrest'] at hrb
            cases hrb
          | ok rest' =>
            rw [hrest] at hra
            rw [hrest'] at hrb
            cases hra
            cases hrb
            refine List.cons_prefix_cons.mpr ⟨rfl, ih (List.prefix_append ws more) ?_ hrest hrest'⟩
            exact fun w' hw' => hsame w' (List.mem_cons_of_mem _ hw')

/-- **With a later end** and more bars behind the end, a walk-forward has the same results, and more behind them. -/
theorem walkForward_extends (hcausal : plan.adapter.Causal) (htest : 0 ≤ cfg.testDays) (hlater : cfg.endDay ≤ later)
    (hbars : A.bars.filter (fun bar => decide (bar.ts < Frames.timestamp cfg.endDay)) =
      B.bars.filter fun bar => decide (bar.ts < Frames.timestamp cfg.endDay))
    {ra rb : List (WindowResult F M)} (hra : walkForward plan A cfg shouldCancel = some (.ok ra))
    (hrb : walkForward plan B { cfg with endDay := later } shouldCancel = some (.ok rb)) : ra <+: rb := by
  obtain ⟨ws, hws, hwalk⟩ := Option.map_eq_some_iff.mp hra
  obtain ⟨ws', hws', hwalk'⟩ := Option.map_eq_some_iff.mp hrb
  cases ws with
  | error e => cases hwalk
  | ok ws =>
    cases ws' with
    | error e => cases hwalk'
    | ok ws' =>
      have htakeA := filter_lt_eq_take A.sorted (Frames.timestamp cfg.endDay)
      have htakeB := filter_lt_eq_take B.sorted (Frames.timestamp cfg.endDay)
      have hA : EndsBy A.bars cfg.endDay _ := fun bar hbar => limit_le_of_mem_drop A.sorted hbar
      have hB : EndsBy B.bars cfg.endDay _ := fun bar hbar => limit_le_of_mem_drop B.sorted hbar
      rw [← hbars] at hB htakeB
      refine walkWindows_extends (windowsFor_extends hlater hws hws') (fun w hw => ?_) hwalk hwalk'
      obtain ⟨htested, htrained⟩ := ends_of_windowsFor htest hws w hw
      exact windowResult_congr hcausal (htakeA.symm.trans htakeB) (hA.mono htested) (hB.mono htested) htrained

/-- A row that is loaded, as a bar of the frame: its index is in nanoseconds. -/
def barOf (r : Data.FrameRow F) : Bar F := ⟨r.ts * 1000, r.open_, r.high, r.low, r.close, PyFloat.lit r.volume⟩

theorem sorted_barOf {isoformat : ℤ → String} {percent : ℕ → ℕ → String} {upper : String → String}
    {stored : Table Marketdata.Bar.key} {symbol tf : String} {start endDate warmupBars : ℤ}
    {rows : List (Data.FrameRow F)}
    (h : Data.loadBars PyFloat.ofDecimal isoformat percent upper stored symbol tf start endDate warmupBars = .ok rows) :
    (rows.map barOf).Pairwise (·.ts < ·.ts) := by
  refine List.pairwise_map.mpr ((Data.loadBars_pairwise h).imp fun {a b} hlt => ?_)
  change a.ts * 1000 < b.ts * 1000
  omega

section
variable (isoformat : ℤ → String) (percent : ℕ → ℕ → String) (plan : Plan F S M)

/-- The bars of a symbol are loaded, and the walk-forward goes through them. -/
def runSymbol (stored : Table Marketdata.Bar.key) (tf : String) (cfg : WFConfig) (shouldCancel : ℕ → Bool) :
    Option (Except RunError (List (WindowResult F M))) :=
  match h : Data.loadBars PyFloat.ofDecimal isoformat percent plan.setting.upper stored plan.setting.symbol tf cfg.start
      cfg.endDay plan.adapter.warmupBars with
  | .error error => some (.error (.backtest error.code))
  | .ok rows => walkForward plan ⟨rows.map barOf, sorted_barOf h⟩ cfg shouldCancel

end

variable {isoformat : ℤ → String} {percent : ℕ → ℕ → String} {stored stored' : Table Marketdata.Bar.key} {tf : String}

/-- What has run has loaded its bars. -/
theorem runSymbol_ok {results : List (WindowResult F M)}
    (h : runSymbol isoformat percent plan stored tf cfg shouldCancel = some (.ok results)) :
    ∃ rows, ∃ hrows : Data.loadBars PyFloat.ofDecimal isoformat percent plan.setting.upper stored plan.setting.symbol tf
        cfg.start cfg.endDay plan.adapter.warmupBars = .ok rows,
      walkForward plan ⟨rows.map barOf, sorted_barOf hrows⟩ cfg shouldCancel = some (.ok results) := by
  unfold runSymbol at h
  split at h
  · cases h
  · case h_2 rows hrows => exact ⟨rows, hrows, h⟩

/-- **A backtest that is run again** with a later end, when more bars are stored behind the end that it had, has the
same windows with the same parameters, trades and metrics, and more behind them. -/
theorem runSymbol_extends (hcausal : plan.adapter.Causal) (htest : 0 ≤ cfg.testDays) (hlater : cfg.endDay ≤ later)
    (hstored : ∀ ts < Data.toUtcMidnight cfg.endDay,
      stored.find? (plan.setting.upper plan.setting.symbol, tf, ts) =
        stored'.find? (plan.setting.upper plan.setting.symbol, tf, ts))
    {ra rb : List (WindowResult F M)}
    (hra : runSymbol isoformat percent plan stored tf cfg shouldCancel = some (.ok ra))
    (hrb : runSymbol isoformat percent plan stored' tf { cfg with endDay := later } shouldCancel = some (.ok rb)) :
    ra <+: rb := by
  obtain ⟨rows, hrows, hwalk⟩ := runSymbol_ok hra
  obtain ⟨rows', hrows', hwalk'⟩ := runSymbol_ok hrb
  refine walkForward_extends hcausal htest hlater ?_ hwalk hwalk'
  have hfirst := Data.loadBars_filter hlater ((Data.loadBars_congr hstored).symm.trans hrows) hrows'
  have hbefore (r : Data.FrameRow F) : decide ((barOf r).ts < Frames.timestamp cfg.endDay) =
      decide (r.ts < Data.toUtcMidnight cfg.endDay) := by
    refine decide_eq_decide.mpr ?_
    change r.ts * 1000 < _ ↔ _
    unfold Frames.timestamp Data.toUtcMidnight Marketdata.dayMicros
    omega
  dsimp only
  rw [List.filter_map, List.filter_map]
  simp only [Function.comp_def, hbefore]
  rw [hfirst, Data.loadBars_before hrows]

end

/-! ### A run of a few days -/

/-- The bars of the first days of the calendar. -/
def sampleStored (days : List ℤ) : Table Marketdata.Bar.key :=
  Table.empty.putAll (days.map fun day => ⟨"AAPL", "1d", day * Marketdata.dayMicros, 1, 2, 1, 2, 100, "FMP"⟩)

/-- How many windows have been run. -/
def windowCount {F M : Type} (r : Option (Except RunError (List (WindowResult F M)))) : Option ℕ :=
  match r with
  | some (.ok results) => some results.length
  | _ => none

theorem windowCount_eq_some {F M : Type} {r : Option (Except RunError (List (WindowResult F M)))} {n : ℕ}
    (h : windowCount r = some n) : ∃ results, r = some (.ok results) ∧ results.length = n := by
  unfold windowCount at h
  split at h
  · exact ⟨_, rfl, Option.some.inj h⟩
  · cases h

/-- One window, and two of them when the backtest ends a day later and there is a bar of that day. -/
theorem runSymbol_extends_sample : ∃ ra rb,
    runSymbol toString (fun _ _ => "") samplePlan (sampleStored [1, 2]) "1d" ⟨1, 3, 1, 1, 1, false⟩ (fun _ => false) =
        some (.ok ra) ∧
      runSymbol toString (fun _ _ => "") samplePlan (sampleStored [1, 2, 3]) "1d" ⟨1, 4, 1, 1, 1, false⟩
        (fun _ => false) = some (.ok rb) ∧
      ra.length = 1 ∧ rb.length = 2 ∧ ra <+: rb := by
  have hfirst : windowCount (runSymbol toString (fun _ _ => "") samplePlan (sampleStored [1, 2]) "1d"
      ⟨1, 3, 1, 1, 1, false⟩ (fun _ => false)) = some 1 := by decide +kernel
  have hagain : windowCount (runSymbol toString (fun _ _ => "") samplePlan (sampleStored [1, 2, 3]) "1d"
      ⟨1, 4, 1, 1, 1, false⟩ (fun _ => false)) = some 2 := by decide +kernel
  obtain ⟨ra, hra, hlength⟩ := windowCount_eq_some hfirst
  obtain ⟨rb, hrb, hlength'⟩ := windowCount_eq_some hagain
  refine ⟨ra, rb, hra, hrb, hlength, hlength', ?_⟩
  refine runSymbol_extends smaCross_causal (by decide) (by decide) (fun ts hts => ?_) hra hrb
  have hput : sampleStored [1, 2, 3] = (sampleStored [1, 2]).put
    ⟨"AAPL", "1d", 3 * Marketdata.dayMicros, 1, 2, 1, 2, 100, "FMP"⟩ := rfl
  have hne : (samplePlan.setting.upper samplePlan.setting.symbol, "1d", ts) ≠
      Marketdata.Bar.key ⟨"AAPL", "1d", 3 * Marketdata.dayMicros, 1, 2, 1, 2, 100, "FMP"⟩ := by
    intro hkey
    have htime : ts = 3 * Marketdata.dayMicros := congrArg (fun k : String × String × ℤ => k.2.2) hkey
    rw [htime] at hts
    exact absurd hts (lt_irrefl _)
  rw [hput, Table.find?_put, if_neg hne]

end StratTrader.Backtest
