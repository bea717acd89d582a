import StratTrader.Backtest.Strategies
import StratTrader.Foundation.Ordered
import Mathlib.Data.String.Basic

/-!
# The parameter sweep

`make_combos` and `VectorbtSweepEngine.run` of `backtest/vbt_engine.py`: the combinations of a grid are scored on a
segment of the bars, so many at a time, and ranked.

## What is proved

* `mem_product`: the combinations of a grid are those of one value for each of its names.
* `sweep_take`: a segment is scored on the bars before its end.
* `sweep_eq`: the sweep in chunks is the sweep of each combination by itself.
* `bestOf_spec`: what is taken is a combination with the best score of all, and the first of them.

## Honest scope

vectorbt is a parameter: what it makes of the rows of a segment and of the shifted signals, one score for each column,
none of them missing. The costs and the metric are those of the parameter.
-/

namespace StratTrader.Backtest

open StratTrader.Foundation

/-! ### The grid -/

/-- `_MAX_COMBOS`. -/
def maxCombos : ℕ := 500

/-- `_CHUNK`. -/
def chunkSize : ℕ := 100

/-- `itertools.product`, with the names of the keys. -/
def product : List (String × List ℤ) → List Params
  | [] => [[]]
  | (key, values) :: rest => values.flatMap fun value => (product rest).map ((key, value) :: ·)

/-- `make_combos`. -/
def makeCombos (grid : List (String × List ℤ)) : Except RunError (List Params) :=
  let combos := product (orderBy Prod.fst grid)
  if maxCombos < combos.length then .error (.backtest "BACKTEST_GRID_TOO_LARGE") else .ok combos

/-- `_chunks`, in so many turns. -/
def chunks {α : Type} (size : ℕ) : ℕ → List α → List (List α)
  | 0, _ => []
  | n + 1, seq => if seq.isEmpty then [] else seq.take size :: chunks size n (seq.drop size)

/-! ### The sweep -/

/-- `SweepResult`. -/
structure SweepResult (S : Type) where
  /-- `combos`. -/
  combos : List Params
  /-- `scores`. -/
  scores : List S

/-- `ranked`: the best first, and combinations with one score as they come. -/
def SweepResult.ranked {S : Type} [LinearOrder S] (r : SweepResult S) : List (Params × S) :=
  orderByDesc Prod.snd (r.combos.zip r.scores)

/-- `top`. -/
def SweepResult.top {S : Type} [LinearOrder S] (r : SweepResult S) : Except RunError Params :=
  match r.ranked with
  | [] => .error .raised
  | best :: _ => .ok best.1

/-- What `from_signals` is given. -/
structure SweepInput (F : Type) where
  /-- `close`. -/
  close : List F
  /-- `price`. -/
  price : List F
  /-- `entries`, shifted. -/
  entries : List (List Bool)
  /-- `exits`, shifted. -/
  exits : List (List Bool)

/-- What a walk-forward keeps over its windows. -/
structure Plan (F S M : Type) where
  /-- `adapter`. -/
  adapter : Adapter F
  /-- `grid`. -/
  grid : List (String × List ℤ)
  /-- The scores of a portfolio, with its costs and its metric. -/
  metricValues : SweepInput F → Except RunError (List S)
  /-- `replay_cfg`, `symbol` and `profile`. -/
  setting : Setting F
  /-- `compute_metrics`. -/
  computeMetrics : ReplayResult F → M

/-- A row of a mask is picked. -/
def inMask (start endDay : ℤ) (ts : ℤ) : Bool := decide (Frames.timestamp start ≤ ts) && decide (ts < Frames.timestamp endDay)

/-- `column.loc[mask]`. -/
def loc {F α : Type} (bars : List (Bar F)) (start endDay : ℤ) (column : List α) : List α :=
  ((bars.zip column).filter fun row => inMask start endDay row.1.ts).map Prod.snd

section
variable {F S M : Type} (plan : Plan F S M)

/-- `_portfolio`. -/
def portfolio (bars : List (Bar F)) (start endDay : ℤ) (combos : List Params) : Except RunError (SweepInput F) := do
  let signals ← combos.mapM (plan.adapter.generateSignals bars)
  return {
    close := loc bars start endDay (bars.map (·.close))
    price := loc bars start endDay (bars.map (·.openPrice))
    entries := signals.map fun sig => shift (loc bars start endDay sig.entries)
    exits := signals.map fun sig => shift (loc bars start endDay sig.exits) }

/-- `run` of the engine. -/
def sweep (bars : List (Bar F)) (start endDay : ℤ) : Except RunError (SweepResult S) := do
  let combos ← makeCombos plan.grid
  let scores ← (chunks chunkSize combos.length combos).mapM fun chunk =>
    portfolio plan bars start endDay chunk >>= plan.metricValues
  return ⟨combos, scores.flatten⟩


/-- What is taken. -/
def bestOf [LinearOrder S] (bars : List (Bar F)) (start endDay : ℤ) : Except RunError Params :=
  sweep plan bars start endDay >>= SweepResult.top

end

/-! ### The bars before a limit -/

section
variable {F S M : Type} {bars : List (Bar F)} {start endDay : ℤ} {k : ℕ}

/-- The rows behind so many are not in the mask. -/
def EndsBy (bars : List (Bar F)) (endDay : ℤ) (k : ℕ) : Prop := ∀ bar ∈ bars.drop k, Frames.timestamp endDay ≤ bar.ts

theorem EndsBy.mono {endDay' : ℤ} (h : EndsBy bars endDay k) (hle : endDay' ≤ endDay) : EndsBy bars endDay' k :=
  fun bar hbar => le_trans (by unfold Frames.timestamp; omega) (h bar hbar)

/-- The rows of a mask are among the first ones. -/
theorem loc_take {α : Type} (h : EndsBy bars endDay k) (column : List α) :
    loc (bars.take k) start endDay (column.take k) = loc bars start endDay column := by
  have htake : (bars.take k).zip (column.take k) = (bars.zip column).take k := List.take_zipWith.symm
  unfold loc
  rw [htake]
  have hsplit := List.take_append_drop k (bars.zip column)
  have hnone : ((bars.zip column).drop k).filter (fun row => inMask start endDay row.1.ts) = [] := by
    refine List.filter_eq_nil_iff.mpr fun row hrow hmask => ?_
    have hdrop : (bars.zip column).drop k = (bars.drop k).zip (column.drop k) := List.drop_zipWith
    rw [hdrop] at hrow
    have hlate := h row.1 (List.of_mem_zip hrow).1
    have hearly := of_decide_eq_true (Bool.and_eq_true_iff.mp hmask).2
    exact absurd hearly (not_lt.mpr hlate)
  conv_rhs => rw [← hsplit, List.filter_append, hnone, List.append_nil]

/-- What is mapped over what raises or not. -/
theorem mapM_map {α β γ : Type} {f : α → Except RunError β} {f' : α → Except RunError γ} {g : β → γ}
    (h : ∀ a, f' a = (f a).map g) (as : List α) : as.mapM f' = (as.mapM f).map (List.map g) := by
  induction as with
  | nil => rfl
  | cons a as ih =>
    rw [List.mapM_cons, List.mapM_cons, ih, h]
    cases f a with
    | error e => rfl
    | ok b =>
      cases as.mapM f with
      | error e => rfl
      | ok bs => rfl

variable {plan : Plan F S M}

/-- **A segment is scored** on the bars before its end. -/
theorem portfolio_take (hcausal : plan.adapter.Causal) (h : EndsBy bars endDay k) (combos : List Params) :
    portfolio plan (bars.take k) start endDay combos = portfolio plan bars start endDay combos := by
  unfold portfolio
  rw [mapM_map (fun params => hcausal bars params k) combos, List.map_take, loc_take h, List.map_take, loc_take h]
  cases combos.mapM (plan.adapter.generateSignals bars) with
  | error e => rfl
  | ok signals =>
    change Except.ok _ = Except.ok _
    simp only [List.map_map, Function.comp_def, Signals.take, loc_take h]

theorem sweep_take (hcausal : plan.adapter.Causal) (h : EndsBy bars endDay k) :
    sweep plan (bars.take k) start endDay = sweep plan bars start endDay := by
  unfold sweep
  simp only [portfolio_take hcausal h]

end

/-! ### The best combination -/

section
variable {F S M : Type} {plan : Plan F S M} {bars : List (Bar F)} {start endDay : ℤ}

theorem mem_product {grid : List (String × List ℤ)} {params : Params} : params ∈ product grid ↔
    List.Forall₂ (fun choice key => choice.1 = key.1 ∧ choice.2 ∈ key.2) params grid := by
  induction grid generalizing params with
  | nil => simp [product]
  | cons key grid ih =>
    obtain ⟨name, values⟩ := key
    simp only [product, List.mem_flatMap, List.mem_map, ih]
    constructor
    · rintro ⟨value, hvalue, rest, hrest, rfl⟩
      exact .cons ⟨rfl, hvalue⟩ hrest
    · intro h
      cases h with
      | @cons choice _ rest _ hchoice hrest =>
        obtain ⟨name', value⟩ := choice
        obtain ⟨hname, hvalue⟩ := hchoice
        dsimp only at hname
        exact ⟨value, hvalue, rest, hrest, by rw [hname]⟩

/-- The chunks are the whole, in order. -/
theorem flatten_chunks {α : Type} {size : ℕ} (hsize : 0 < size) {n : ℕ} {seq : List α} (hn : seq.length ≤ n) :
    (chunks size n seq).flatten = seq := by
  induction n generalizing seq with
  | zero =>
    rw [List.length_eq_zero_iff.mp (Nat.le_zero.mp hn)]
    rfl
  | succ n ih =>
    unfold chunks
    cases seq with
    | nil => rfl
    | cons a seq =>
      have hrest : ((a :: seq).drop size).length ≤ n := by
        rw [List.length_drop]
        simp only [List.length_cons] at *
        omega
      rw [List.isEmpty_cons, if_neg Bool.false_ne_true, List.flatten_cons, ih hrest, List.take_append_drop]

/-- What is done to each of the parts is done to the whole. -/
theorem mapM_flatten {α β : Type} (f : α → Except RunError β) (parts : List (List α)) :
    (parts.mapM fun part : List α => part.mapM f).map List.flatten = parts.flatten.mapM f := by
  induction parts with
  | nil => rfl
  | cons part parts ih =>
    rw [List.mapM_cons, List.flatten_cons, List.mapM_append, ← ih]
    cases part.mapM f with
    | error e => rfl
    | ok bs =>
      cases parts.mapM fun part : List α => part.mapM f with
      | error e => rfl
      | ok bss => rfl

/-- The score of a combination, by itself. -/
def scoreOf (adapter : Adapter F) (score : List F → List F → List Bool → List Bool → S) (bars : List (Bar F))
    (start endDay : ℤ) (params : Params) : Except RunError S :=
  (adapter.generateSignals bars params).map fun sig =>
    score (loc bars start endDay (bars.map (·.close))) (loc bars start endDay (bars.map (·.openPrice)))
      (shift (loc bars start endDay sig.entries)) (shift (loc bars start endDay sig.exits))

/-- **The sweep in chunks** is the sweep of each combination by itself, where a portfolio scores its columns one by
one. -/
theorem sweep_eq {score : List F → List F → List Bool → List Bool → S}
    (hcolumns : ∀ input : SweepInput F, plan.metricValues input =
      .ok (List.zipWith (score input.close input.price) input.entries input.exits)) :
    sweep plan bars start endDay = makeCombos plan.grid >>= fun combos =>
      (combos.mapM (scoreOf plan.adapter score bars start endDay)).map fun scores => ⟨combos, scores⟩ := by
  have hchunk (chunk : List Params) : (portfolio plan bars start endDay chunk >>= plan.metricValues) =
      chunk.mapM (scoreOf plan.adapter score bars start endDay) := by
    have hscores : chunk.mapM (scoreOf plan.adapter score bars start endDay) =
        Except.map (List.map _) (chunk.mapM (plan.adapter.generateSignals bars)) := mapM_map (fun params => rfl) chunk
    rw [hscores]
    unfold portfolio
    cases chunk.mapM (plan.adapter.generateSignals bars) with
    | error e => rfl
    | ok signals =>
      change plan.metricValues _ = .ok _
      rw [hcolumns, List.zipWith_map, List.zipWith_self]
  unfold sweep
  cases makeCombos plan.grid with
  | error e => rfl
  | ok combos =>
    change ((chunks chunkSize combos.length combos).mapM
      (fun chunk => portfolio plan bars start endDay chunk >>= plan.metricValues) >>= fun scores =>
        Except.ok (SweepResult.mk combos scores.flatten)) =
        (combos.mapM (scoreOf plan.adapter score bars start endDay)).map fun scores => SweepResult.mk combos scores
    simp only [hchunk]
    have hflatten := mapM_flatten (scoreOf plan.adapter score bars start endDay) (chunks chunkSize combos.length combos)
    rw [flatten_chunks (by decide) le_rfl] at hflatten
    rw [← hflatten]
    cases (chunks chunkSize combos.length combos).mapM fun part : List Params =>
      part.mapM (scoreOf plan.adapter score bars start endDay) with
    | error e => rfl
    | ok scores => rfl

/-- Each has its own score. -/
theorem mapM_ok {α β : Type} {f : α → Except RunError β} {as : List α} {bs : List β} (h : as.mapM f = .ok bs) :
    List.Forall₂ (fun a b => f a = .ok b) as bs := by
  induction as generalizing bs with
  | nil =>
    cases h
    exact .nil
  | cons a as ih =>
    rw [List.mapM_cons] at h
    cases ha : f a with
    | error e =>
      rw [ha] at h
      cases h
    | ok b =>
      rw [ha] at h
      cases has : as.mapM f with
      | error e =>
        rw [has] at h
        cases h
      | ok bs' =>
        rw [has] at h
        cases h
        exact .cons ha (ih has)

theorem mem_zip_of_forall₂ {α β : Type} {R : α → β → Prop} {as : List α} {bs : List β} (h : List.Forall₂ R as bs) :
    (as.zip bs).map Prod.fst = as ∧ ∀ x ∈ as.zip bs, R x.1 x.2 := by
  induction h with
  | nil => exact ⟨rfl, fun x hx => nomatch hx⟩
  | cons hab _ ih =>
    refine ⟨congrArg _ ih.1, fun x hx => ?_⟩
    rcases List.mem_cons.mp hx with rfl | hx
    · exact hab
    · exact ih.2 x hx

/-- **What is taken** is a combination of the grid with the best score of all, and the first of
them, however the combinations are cut into chunks. -/
theorem bestOf_spec [LinearOrder S] {score : List F → List F → List Bool → List Bool → S}
    (hcolumns : ∀ input : SweepInput F, plan.metricValues input =
      .ok (List.zipWith (score input.close input.price) input.entries input.exits))
    {best : Params} (h : bestOf plan bars start endDay = .ok best) :
    ∃ before after s, makeCombos plan.grid = .ok (before ++ best :: after) ∧
      scoreOf plan.adapter score bars start endDay best = .ok s ∧
      (∀ params ∈ before, ∃ t < s, scoreOf plan.adapter score bars start endDay params = .ok t) ∧
      ∀ params ∈ after, ∃ t ≤ s, scoreOf plan.adapter score bars start endDay params = .ok t := by
  unfold bestOf at h
  rw [sweep_eq hcolumns] at h
  cases hcombos : makeCombos plan.grid with
  | error e =>
    rw [hcombos] at h
    cases h
  | ok combos =>
    rw [hcombos] at h
    change ((combos.mapM (scoreOf plan.adapter score bars start endDay)).map
      (SweepResult.mk combos) >>= SweepResult.top) = _ at h
    cases hscores : combos.mapM (scoreOf plan.adapter score bars start endDay) with
    | error e =>
      rw [hscores] at h
      cases h
    | ok scores =>
      rw [hscores] at h
      change SweepResult.top ⟨combos, scores⟩ = _ at h
      unfold SweepResult.top at h
      split at h
      · cases h
      · case h_2 first rest hranked =>
        obtain ⟨hnames, hown⟩ := mem_zip_of_forall₂ (mapM_ok hscores)
        obtain ⟨before, after, hzip, hbefore, hafter⟩ := orderBy_head hranked
        cases h
        refine ⟨before.map Prod.fst, after.map Prod.fst, first.2, ?_, ?_, ?_, ?_⟩
        · rw [← hnames, hzip, List.map_append, List.map_cons]
        · exact hown first (hzip ▸ List.mem_append_right _ List.mem_cons_self)
        · intro params hparams
          obtain ⟨x, hx, rfl⟩ := List.mem_map.mp hparams
          exact ⟨x.2, hbefore x hx, hown x (hzip ▸ List.mem_append_left _ hx)⟩
        · intro params hparams
          obtain ⟨x, hx, rfl⟩ := List.mem_map.mp hparams
          exact ⟨x.2, hafter x hx, hown x (hzip ▸ List.mem_append_right _ (List.mem_cons_of_mem _ hx))⟩

end

/-- The return of a portfolio without a trade. -/
def flatReturn (_close _price : List ℚ) (_entries _exits : List Bool) : ℚ := 0

/-- The demo strategy on a small grid, where no segment of a bar has a trade. -/
def samplePlan : Plan ℚ ℚ ℕ where
  adapter := smaCross
  grid := [("slow", [2, 3]), ("fast", [1])]
  metricValues input := .ok (List.zipWith (flatReturn input.close input.price) input.entries input.exits)
  setting := ⟨"AAPL", ⟨100000, 5, 0, 0, 10, "fixed_qty_1"⟩, none, id⟩
  computeMetrics result := result.trades.length

/-- The first of two combinations with one score. -/
theorem bestOf_spec_sample : ∃ before after s,
    makeCombos samplePlan.grid = .ok (before ++ [("fast", 1), ("slow", 2)] :: after) ∧
      scoreOf smaCross flatReturn (barsWith [1, 2, 1]) 0 1 [("fast", 1), ("slow", 2)] = .ok s ∧
      (∀ params ∈ before, ∃ t < s, scoreOf smaCross flatReturn (barsWith [1, 2, 1]) 0 1 params = .ok t) ∧
      ∀ params ∈ after, ∃ t ≤ s, scoreOf smaCross flatReturn (barsWith [1, 2, 1]) 0 1 params = .ok t := by
  have hbest : bestOf samplePlan (barsWith [1, 2, 1]) 0 1 = .ok [("fast", 1), ("slow", 2)] := by decide +kernel
  exact bestOf_spec (fun _ => rfl) hbest

end StratTrader.Backtest
