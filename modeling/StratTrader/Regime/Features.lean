import StratTrader.Backtest.ReplayEngine

/-!
# The features of a market regime

`regime/features.py`: the raw features of a day are computed from its inputs, where an input that is missing counts as
zero, and each is standardized by its rolling history, unless it is to be neutral.

## What is proved

* `mem_neutralFeatureKeys_of_critical`: the features of a critical input that is missing are neutral.
* `not_mem_neutralFeatureKeys`: those of another input are not.

## Honest scope

What floats do is free, and no price is NaN. The hash of the features is left out.
-/

namespace StratTrader.Regime

open Backtest (PyFloat pyMin pyMax)

/-- What is asked of floats here. -/
class RegimeFloat (F : Type) extends PyFloat F where
  /-- The mean of an array. -/
  mean : List F → F
  /-- Its standard deviation. -/
  std : List F → F
  /-- `round(x, n)`. -/
  round : F → ℕ → F
  /-- `abs(x)`. -/
  abs : F → F

/-- A feature of `FEATURE_ORDER`. -/
inductive Feature where
  /-- `pct_above_50sma`. -/
  | pctAbove50sma
  /-- `pct_above_200sma`. -/
  | pctAbove200sma
  /-- `ad_ratio`. -/
  | adRatio
  /-- `nh_nl_diff`. -/
  | nhNlDiff
  /-- `mcclellan_osc`. -/
  | mcclellanOsc
  /-- `vix`. -/
  | vix
  /-- `vix_term_ratio`. -/
  | vixTermRatio
  /-- `move`. -/
  | move
  /-- `hy_oas`. -/
  | hyOas
  /-- `ig_oas`. -/
  | igOas
  /-- `mom_50`. -/
  | mom50
  /-- `mom_200`. -/
  | mom200
  /-- `rsi_14`. -/
  | rsi14
  /-- `yield_spread`. -/
  | yieldSpread
  /-- `dxy`. -/
  | dxy
  deriving DecidableEq

/-- The key of a feature. -/
def Feature.name : Feature → String
  | pctAbove50sma => "pct_above_50sma"
  | pctAbove200sma => "pct_above_200sma"
  | adRatio => "ad_ratio"
  | nhNlDiff => "nh_nl_diff"
  | mcclellanOsc => "mcclellan_osc"
  | vix => "vix"
  | vixTermRatio => "vix_term_ratio"
  | move => "move"
  | hyOas => "hy_oas"
  | igOas => "ig_oas"
  | mom50 => "mom_50"
  | mom200 => "mom_200"
  | rsi14 => "rsi_14"
  | yieldSpread => "yield_spread"
  | dxy => "dxy"

/-- `FEATURE_ORDER`. -/
def featureOrder : List Feature :=
  [.pctAbove50sma, .pctAbove200sma, .adRatio, .nhNlDiff, .mcclellanOsc, .vix, .vixTermRatio, .move, .hyOas, .igOas,
    .mom50, .mom200, .rsi14, .yieldSpread, .dxy]

/-- An input that is fetched every day. -/
inductive Source where
  /-- `spy_closes`. -/
  | spyCloses
  /-- `vix`. -/
  | vix
  /-- `hy_oas`. -/
  | hyOas
  /-- `ig_oas`. -/
  | igOas
  /-- `y10`. -/
  | y10
  /-- `y2`. -/
  | y2
  /-- `dxy`. -/
  | dxy
  deriving DecidableEq

/-- The features that are computed from an input. -/
def featuresOf : Source → List Feature
  | .spyCloses => [.mom50, .mom200, .rsi14]
  | .vix => [.vix, .vixTermRatio]
  | .hyOas => [.hyOas]
  | .igOas => [.igOas]
  | .y10 | .y2 => [.yieldSpread]
  | .dxy => [.dxy]

/-- `CRITICAL_INPUTS`. -/
def criticalInputs : List Source := [.vix, .hyOas, .igOas]

/-- `_INPUT_TO_FEATURES.get(k, ())`. -/
def inputToFeatures : Source → List Feature
  | .vix => [.vix, .vixTermRatio]
  | .hyOas => [.hyOas]
  | .igOas => [.igOas]
  | _ => []

/-- `neutral_feature_keys`. -/
def neutralFeatureKeys (missing : List Source) : List Feature := missing.flatMap inputToFeatures

/-- The inputs of a day. -/
structure Inputs (F : Type) where
  /-- `spy_closes`. -/
  spyCloses : List F := []
  /-- `constituents`, without their names. -/
  constituents : List (List F) := []
  /-- `mcclellan_osc`. -/
  mcclellanOsc : Option F := none
  /-- `vix`. -/
  vix : Option F := none
  /-- `vix3m`. -/
  vix3m : Option F := none
  /-- `move`. -/
  move : Option F := none
  /-- `hy_oas`. -/
  hyOas : Option F := none
  /-- `ig_oas`. -/
  igOas : Option F := none
  /-- `y10`. -/
  y10 : Option F := none
  /-- `y2`. -/
  y2 : Option F := none
  /-- `dxy`. -/
  dxy : Option F := none

/-- Whether an input is `None` or an empty list. -/
def Inputs.isAbsent {F : Type} (inputs : Inputs F) : Source → Bool
  | .spyCloses => inputs.spyCloses.isEmpty
  | .vix => inputs.vix.isNone
  | .hyOas => inputs.hyOas.isNone
  | .igOas => inputs.igOas.isNone
  | .y10 => inputs.y10.isNone
  | .y2 => inputs.y2.isNone
  | .dxy => inputs.dxy.isNone

/-- `Z_CLIP`. -/
def zClip : ℚ := 4

/-- `ROLL_WINDOW`. -/
def rollWindow : ℕ := 252

/-- `xs.tail(n)`. -/
def tailOf {α : Type} (n : ℕ) (xs : List α) : List α := xs.drop (xs.length - n)

section
variable {F : Type} [RegimeFloat F]

/-- `x or 0.0`. -/
def orZero : Option F → F
  | none => 0
  | some x => if PyFloat.truth x then x else 0

/-- Whether `missing_critical_inputs` takes a value for missing. -/
def isUnusable : Option F → Bool
  | none => true
  | some x => ! PyFloat.truth x

/-- Whether `missing_critical_inputs` takes an input for missing. -/
def Inputs.isMissing (inputs : Inputs F) : Source → Bool
  | .vix => isUnusable inputs.vix
  | .hyOas => isUnusable inputs.hyOas
  | .igOas => isUnusable inputs.igOas
  | .y10 => isUnusable inputs.y10
  | .y2 => isUnusable inputs.y2
  | .dxy => isUnusable inputs.dxy
  -- a list is none of `None`, `""` and `0`
  | .spyCloses => false

/-- `missing_critical_inputs`. -/
def missingCriticalInputs (inputs : Inputs F) : List Source := criticalInputs.filter inputs.isMissing

/-- `xs.iloc[-n]`. -/
def fromEnd (xs : List F) (n : ℕ) : F := (xs[xs.length - n]?).getD 0

/-- `_rsi`. -/
def rsi (closes : List F) (period : ℕ) : F :=
  if closes.length < period + 1 then PyFloat.lit 50
  else
    let delta := closes.zipWith (fun prev next => next - prev) closes.tail
    let gain := RegimeFloat.mean (tailOf period (delta.map fun d => pyMax d 0))
    let loss := RegimeFloat.mean (tailOf period (delta.map fun d => 0 - pyMin d 0))
    if PyFloat.truth loss then PyFloat.lit 100 - PyFloat.lit 100 / (1 + gain / loss) else PyFloat.lit 100

/-- `_mom`. -/
def mom (closes : List F) (n : ℕ) : F :=
  if closes.length ≤ n then 0
  else
    let prev := fromEnd closes (n + 1)
    if PyFloat.truth prev then fromEnd closes 1 / prev - 1 else 0

/-- The constituents with enough closes. -/
def longConstituents (inputs : Inputs F) : List (List F) := inputs.constituents.filter fun c => decide (200 ≤ c.length)

/-- How many of them are so, if there are any. -/
def breadth (inputs : Inputs F) (p : List F → Bool) : Option ℕ :=
  if longConstituents inputs = [] then none else some ((longConstituents inputs).countP p)

/-- `above / total * 100.0`. -/
def percentOf (inputs : Inputs F) (p : List F → Bool) : Option F :=
  (breadth inputs p).map fun n => PyFloat.lit n / PyFloat.lit (longConstituents inputs).length * PyFloat.lit 100

/-- Whether the last close is above the mean of the last `n`. -/
def isAboveMean (n : ℕ) (c : List F) : Bool := decide (RegimeFloat.mean (tailOf n c) < fromEnd c 1)

/-- Whether the last close is not below the one before. -/
def isAdvance (c : List F) : Bool := decide (fromEnd c 2 ≤ fromEnd c 1)

/-- Whether the last close is the highest of the window. -/
def isNewHigh (c : List F) : Bool := decide ((tailOf rollWindow c).foldl pyMax (fromEnd c 1) ≤ fromEnd c 1)

/-- Whether the last close is the lowest of the window. -/
def isNewLow (c : List F) : Bool := decide (fromEnd c 1 ≤ (tailOf rollWindow c).foldl pyMin (fromEnd c 1))

/-- `feats.get(k)`. -/
def featureValue (inputs : Inputs F) : Feature → Option F
  | .pctAbove50sma => percentOf inputs (isAboveMean 50)
  | .pctAbove200sma => percentOf inputs (isAboveMean 200)
  | .adRatio => do
    let adv ← breadth inputs isAdvance
    let dec ← breadth inputs fun c => ! isAdvance c
    return PyFloat.lit adv / PyFloat.lit (max dec 1 : ℕ)
  | .nhNlDiff => do
    let nh ← breadth inputs isNewHigh
    let nl ← breadth inputs isNewLow
    return PyFloat.lit (nh - nl : ℤ)
  | .mcclellanOsc => some (orZero inputs.mcclellanOsc)
  | .vix => some (orZero inputs.vix)
  | .vixTermRatio => some (orZero inputs.vix / pyMax (orZero inputs.vix3m) (PyFloat.lit (1 / 100)))
  | .move => some (orZero inputs.move)
  | .hyOas => some (orZero inputs.hyOas)
  | .igOas => some (orZero inputs.igOas)
  | .mom50 => if 1 < inputs.spyCloses.length then some (mom inputs.spyCloses 50) else none
  | .mom200 => if 1 < inputs.spyCloses.length then some (mom inputs.spyCloses 200) else none
  | .rsi14 => if 1 < inputs.spyCloses.length then some (rsi inputs.spyCloses 14) else none
  | .yieldSpread => some (orZero inputs.y10 - orZero inputs.y2)
  | .dxy => some (orZero inputs.dxy)

/-- `compute_raw_features`. -/
def computeRawFeatures (inputs : Inputs F) (f : Feature) : F := orZero (featureValue inputs f)

/-- The z-score of a value in its history. -/
def zScore (history : List F) (x : F) : F :=
  let hist := tailOf rollWindow history
  if 2 ≤ hist.length then
    let sd := RegimeFloat.std hist
    if PyFloat.truth sd then (x - RegimeFloat.mean hist) / sd else 0
  else 0

/-- `standardize`. -/
def standardize (raw : Feature → F) (history : Feature → List F) (neutral : List Feature) (f : Feature) : F :=
  if f ∈ neutral then 0 else pyMax (PyFloat.lit (-zClip)) (pyMin (PyFloat.lit zClip) (zScore (history f) (raw f)))

/-! ### Which features are neutral -/

theorem Inputs.isMissing_of_isAbsent {inputs : Inputs F} {i : Source} (h : inputs.isAbsent i = true)
    (hi : i ∈ criticalInputs) : inputs.isMissing i = true := by
  have hnone {x : Option F} (hx : x.isNone = true) : isUnusable x = true := by
    rw [Option.isNone_iff_eq_none.mp hx]
    rfl
  cases i with
  | vix | hyOas | igOas => exact hnone h
  | spyCloses | y10 | y2 | dxy => exact absurd hi (by decide)

/-- **The features of a critical input that is missing are neutral.** -/
theorem mem_neutralFeatureKeys_of_critical {inputs : Inputs F} {i : Source} (h : inputs.isAbsent i = true)
    (hi : i ∈ criticalInputs) {f : Feature} (hf : f ∈ featuresOf i) :
    f ∈ neutralFeatureKeys (missingCriticalInputs inputs) := by
  refine List.mem_flatMap.mpr ⟨i, List.mem_filter.mpr ⟨hi, Inputs.isMissing_of_isAbsent h hi⟩, ?_⟩
  cases i with
  | vix | hyOas | igOas => exact hf
  | spyCloses | y10 | y2 | dxy => exact absurd hi (by decide)

theorem not_mem_inputToFeatures (i j : Source) : i ∉ criticalInputs → ∀ f ∈ featuresOf i, f ∉ inputToFeatures j := by
  cases i <;> cases j <;> decide

/-- **Those of another input are not.** -/
theorem not_mem_neutralFeatureKeys {i : Source} (hi : i ∉ criticalInputs) {f : Feature} (hf : f ∈ featuresOf i)
    (missing : List Source) : f ∉ neutralFeatureKeys missing := by
  intro hmem
  obtain ⟨j, -, hj⟩ := List.mem_flatMap.mp hmem
  exact not_mem_inputToFeatures i j hi f hf hj

end

end StratTrader.Regime
