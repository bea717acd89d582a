import StratTrader.Regime.Features
import StratTrader.Foundation.Python
import Mathlib.Data.List.Sort
import Mathlib.Data.Nat.Sqrt

/-!
# The features of every day, and the rules over them

`regime/tasks.py` and `regime/rule_classifier.py`: the inputs of a day are fetched, each as well as it goes, their
features are standardized by those that are stored, classified by weighted rules, and stored in turn, raw ones without
those that are neutral.

## What is proved

* `mem_rollingHistory`: the history of a feature is made of what was stored of it.
* `missing_inputs_neutral_iff`: a missing input is neutral exactly where it is one of the critical ones.

## Honest scope

The snapshots are those of one scope. What the hidden Markov model adds to an observation is left out, and so is the hash
of a snapshot. A weight is a number, so that it makes zero of zero.
-/

namespace StratTrader.Regime

open Backtest (PyFloat pyMin pyMax)

/-! ### The rules -/

/-- `RuleResult`. -/
structure RuleResult (F : Type) where
  /-- `score`. -/
  score : F
  /-- `bucket`; `none` if no threshold is reached. -/
  bucket : Option String
  /-- `contributions`. -/
  contributions : List (String × F)
  /-- `top_features`. -/
  topFeatures : List (String × F)

section
variable {F : Type} [RegimeFloat F]

/-- `DEFAULT_WEIGHTS`. -/
def defaultWeights : List (String × F) :=
  [("pct_above_50sma", 3 / 2), ("pct_above_200sma", 3 / 2), ("ad_ratio", 1), ("nh_nl_diff", 1), ("mcclellan_osc", 4 / 5),
    ("vix", -9 / 5), ("vix_term_ratio", -1), ("move", -1), ("hy_oas", -9 / 5), ("ig_oas", -6 / 5), ("mom_50", 6 / 5),
    ("mom_200", 6 / 5), ("rsi_14", 1 / 2), ("yield_spread", 3 / 5), ("dxy", -1 / 2)].map fun (name, w) =>
      (name, PyFloat.lit w)

/-- `BUCKETS`. -/
def buckets : List (ℚ × String) := [(70, "RISK_ON"), (50, "NEUTRAL"), (30, "RISK_OFF"), (0, "PANIC")]

/-- `_SCALE`. -/
def scale : ℚ := 6

/-- `float(features.get(name, 0.0) or 0.0)`. -/
def zOf (features : Feature → F) (name : String) : F :=
  orZero ((featureOrder.find? fun f => decide (f.name = name)).map features)

/-- `classify`, by some weights. -/
def classify (weights : List (String × F)) (features : Feature → F) : RuleResult F :=
  let contributions := weights.map fun (name, w) => (name, w * zOf features name)
  let total := contributions.foldl (fun t c => t + c.2) 0
  let score := pyMax 0 (pyMin (PyFloat.lit 100) (PyFloat.lit 50 + PyFloat.lit scale * total))
  { score := RegimeFloat.round score 2
    bucket := (buckets.find? fun b => decide (PyFloat.lit b.1 ≤ score)).map Prod.snd
    contributions := contributions
    topFeatures :=
      ((weights.map fun (name, _) => (name, RegimeFloat.round (zOf features name) 3)).insertionSort fun a b =>
        RegimeFloat.abs b.2 ≤ RegimeFloat.abs a.2).take 3 }

/-! ### The snapshots -/

/-- `FeatureVectorSnapshot`. -/
structure Snapshot (F : Type) where
  /-- `ts`. -/
  ts : ℤ
  /-- `features`. -/
  features : Feature → F
  /-- `raw_features`. -/
  rawFeatures : Feature → Option F

/-- What the providers return for a day; `none` if the fetch fails. -/
structure Fetched (F : Type) where
  /-- The closes of SPY, the newest first. -/
  bars : Option (List F)
  /-- The values of a series. -/
  series : String → Option (List F)

/-- `gather_daily_inputs`. -/
def gatherDailyInputs (fetched : Fetched F) : Inputs F where
  spyCloses := tailOf 300 (fetched.bars.getD []).reverse
  vix := last "VIXCLS"
  hyOas := last "BAMLH0A0HYM2"
  igOas := last "BAMLC0A0CM"
  y10 := last "DGS10"
  y2 := last "DGS2"
  dxy := last "DTWEXBGS"
where
  /-- `_fred_last`. -/
  last (seriesId : String) : Option F := (fetched.series seriesId).bind List.getLast?

/-- `_rolling_history`. -/
def rollingHistory (store : List (Snapshot F)) (f : Feature) : List F :=
  ((store.insertionSort fun a b => b.ts ≤ a.ts).take rollWindow).reverse.filterMap fun snap => snap.rawFeatures f

/-- `update_or_create`. -/
def updateOrCreate (store : List (Snapshot F)) (snap : Snapshot F) : List (Snapshot F) :=
  if store.any fun old => decide (old.ts = snap.ts) then store.map fun old => if old.ts = snap.ts then snap else old
  else store ++ [snap]

/-- The snapshot of a day. -/
def snapshotOf (store : List (Snapshot F)) (inputs : Inputs F) (ts : ℤ) : Snapshot F :=
  let raw := computeRawFeatures inputs
  let neutral := neutralFeatureKeys (missingCriticalInputs inputs)
  { ts := ts
    features := standardize raw (rollingHistory store) neutral
    rawFeatures := fun f => if f ∈ neutral then none else some (raw f) }

/-- `run_daily_feature_pipeline`: the snapshots behind it. -/
def runDailyFeaturePipeline (store : List (Snapshot F)) (day : Inputs F × ℤ) : List (Snapshot F) :=
  updateOrCreate store (snapshotOf store day.1 day.2)

/-! ### What is stored -/

/-- A missing input is neutral: its features contribute nothing, and are not stored. -/
def Neutral (weights : List (String × F)) (store : List (Snapshot F)) (inputs : Inputs F) (ts : ℤ) : Prop :=
  ∀ i, inputs.isAbsent i = true → ∀ f ∈ featuresOf i,
    (∀ c, (f.name, c) ∈ (classify weights (snapshotOf store inputs ts).features).contributions → c = 0) ∧
      (snapshotOf store inputs ts).rawFeatures f = none

omit [RegimeFloat F] in
/-- The history of a feature is made of what was stored of it. -/
theorem mem_rollingHistory {store : List (Snapshot F)} {f : Feature} {x : F} (h : x ∈ rollingHistory store f) :
    ∃ snap ∈ store, snap.rawFeatures f = some x := by
  obtain ⟨snap, hsnap, hx⟩ := List.mem_filterMap.mp h
  have hsorted := List.mem_of_mem_take (List.mem_reverse.mp hsnap)
  exact ⟨snap, (List.mem_insertionSort _).mp hsorted, hx⟩

omit [RegimeFloat F] in
theorem mem_updateOrCreate {store : List (Snapshot F)} {snap old : Snapshot F} (h : old ∈ updateOrCreate store snap) :
    old = snap ∨ old ∈ store := by
  unfold updateOrCreate at h
  split_ifs at h
  · obtain ⟨other, hother, rfl⟩ := List.mem_map.mp h
    split_ifs
    · exact .inl rfl
    · exact .inr hother
  · obtain h | h := List.mem_append.mp h
    · exact .inr h
    · exact .inl (List.mem_singleton.mp h)

/-- What is stored behind some days is from before, or the snapshot of one of them. -/
theorem stored_of_days {store : List (Snapshot F)} {days : List (Inputs F × ℤ)} {snap : Snapshot F}
    (h : snap ∈ days.foldl runDailyFeaturePipeline store) :
    snap ∈ store ∨ ∃ day ∈ days, ∃ before, snap = snapshotOf before day.1 day.2 := by
  induction days generalizing store with
  | nil => exact .inl h
  | cons day days ih =>
    obtain hstore | ⟨later, hlater, hsnap⟩ := ih h
    · obtain rfl | hold := mem_updateOrCreate hstore
      · exact .inr ⟨day, .head _, store, rfl⟩
      · exact .inl hold
    · exact .inr ⟨later, .tail _ hlater, hsnap⟩

/-- What is stored of a feature is its raw value, where it is not neutral. -/
theorem rawFeatures_snapshotOf {store : List (Snapshot F)} {inputs : Inputs F} {ts : ℤ} {f : Feature} {x : F}
    (h : (snapshotOf store inputs ts).rawFeatures f = some x) :
    f ∉ neutralFeatureKeys (missingCriticalInputs inputs) ∧ x = computeRawFeatures inputs f := by
  simp only [snapshotOf] at h
  split_ifs at h with hneutral
  exact ⟨hneutral, (Option.some.inj h).symm⟩

/-- The z-score of a feature is found by its name. -/
theorem zOf_name (features : Feature → F) (f : Feature) : zOf features f.name = orZero (some (features f)) := by
  have hfound : featureOrder.find? (fun g => decide (g.name = f.name)) = some f := by cases f <;> rfl
  rw [zOf, hfound]
  rfl

theorem orZero_zero : orZero (some (0 : F)) = 0 := ite_self 0

/-- **A missing input is neutral exactly where it is a critical one**, and then no later day has a feature of it in its
history. -/
theorem missing_inputs_neutral_iff (weights : List (String × F)) (hweights : ∀ p ∈ weights, p.2 * 0 = 0) :
    (∀ (store : List (Snapshot F)) (inputs : Inputs F) (ts : ℤ), Neutral weights store inputs ts ↔
      ∀ i, inputs.isAbsent i = true → i ∈ criticalInputs) ∧
      ∀ (store : List (Snapshot F)) (days : List (Inputs F × ℤ)),
        (∀ day ∈ days, ∀ i, day.1.isAbsent i = true → i ∈ criticalInputs) →
          ∀ f, ∀ x ∈ rollingHistory (days.foldl runDailyFeaturePipeline store) f,
            (∃ snap ∈ store, snap.rawFeatures f = some x) ∨
              ∃ day ∈ days, (∀ i, f ∈ featuresOf i → day.1.isAbsent i = false) ∧ x = computeRawFeatures day.1 f := by
  constructor
  · intro store inputs ts
    constructor
    · intro hneutral i habsent
      by_contra hi
      obtain ⟨f, hf⟩ : ∃ f, f ∈ featuresOf i := List.exists_mem_of_ne_nil _ (by cases i <;> exact List.cons_ne_nil _ _)
      have hnone := (hneutral i habsent f hf).2
      simp only [snapshotOf, if_neg (not_mem_neutralFeatureKeys hi hf _)] at hnone
      cases hnone
    · intro hcritical i habsent f hf
      have hmem := mem_neutralFeatureKeys_of_critical habsent (hcritical i habsent) hf
      have hzero : (snapshotOf store inputs ts).features f = 0 := if_pos hmem
      refine ⟨fun c hc => ?_, if_pos hmem⟩
      obtain ⟨⟨name, w⟩, hw, hpair⟩ := List.mem_map.mp hc
      obtain ⟨rfl, rfl⟩ := Prod.mk.inj hpair
      rw [zOf_name, hzero, orZero_zero]
      exact hweights _ hw
  · intro store days hdays f x hx
    obtain ⟨snap, hsnap, hraw⟩ := mem_rollingHistory hx
    obtain hold | ⟨day, hday, before, rfl⟩ := stored_of_days hsnap
    · exact .inl ⟨snap, hold, hraw⟩
    · obtain ⟨hneutral, rfl⟩ := rawFeatures_snapshotOf hraw
      refine .inr ⟨day, hday, fun i hf => ?_, rfl⟩
      by_contra hpresent
      have habsent : day.1.isAbsent i = true := Bool.eq_true_of_not_eq_false hpresent
      exact hneutral (mem_neutralFeatureKeys_of_critical habsent (hdays day hday i habsent) hf)

end

/-- The square root, rounded down where it is not rational. -/
def ratSqrt (q : ℚ) : ℚ := Nat.sqrt (q.num.natAbs * q.den) / q.den

/-- Floats without rounding. -/
instance instRegimeFloatRat : RegimeFloat ℚ where
  mean xs := xs.sum / xs.length
  std xs := ratSqrt ((xs.map fun x => (x - xs.sum / xs.length) ^ 2).sum / xs.length)
  round x n := Foundation.Decimal.roundHalfEven (x * 10 ^ n) / 10 ^ n
  abs x := |x|

/-- Two days with a dollar index around 120. -/
def twoDays : List (Snapshot ℚ) :=
  [⟨1, fun _ => 0, fun f => if f = .dxy then some 119 else none⟩,
    ⟨2, fun _ => 0, fun f => if f = .dxy then some 121 else none⟩]

/-- A day with all inputs but the dollar index. -/
def withoutDxy : Inputs ℚ :=
  { spyCloses := [100, 101], vix := some 15, hyOas := some 3, igOas := some 1, y10 := some 4, y2 := some 3 }

/-- **A dollar index that is missing is taken for zero, and moves the score to risk-on.** -/
theorem not_missing_inputs_neutral :
    ¬ ∀ (store : List (Snapshot ℚ)) (inputs : Inputs ℚ) (ts : ℤ), Neutral defaultWeights store inputs ts := by
  intro h
  have hdxy := (h twoDays withoutDxy 3 .dxy rfl .dxy (.head _)).1 2
  exact absurd (hdxy (by decide +kernel)) (by decide)

/-- A day without the volatility index is neutral. -/
theorem missing_vix_neutral :
    Neutral [("vix", (-9 / 5 : ℚ))] twoDays { withoutDxy with vix := none, dxy := some 120 } 3 := by
  refine ((missing_inputs_neutral_iff [("vix", (-9 / 5 : ℚ))] (by decide +kernel)).1 _ _ _).mpr fun i habsent => ?_
  cases i with
  | vix | hyOas | igOas => decide
  | spyCloses | y10 | y2 | dxy => cases habsent

end StratTrader.Regime
