import StratTrader.Foundation.Lots
import StratTrader.Foundation.Python
import Mathlib.Data.Rat.Floor
import Mathlib.Order.Monotone.Basic

/-!
# Sizing an order

`compute_size` of `risk/sizing.py`: a quantity made of the equity at risk and the distance of the
stop, scaled by regime, sentiment and drawdown, and cut down to what the profile, the leverage
and the request allow.

## What is proved

* `computeSize_cases`: an order is accepted exactly if nothing rejects it before and anything is
  left, and then with the quantity that is left.
* `computeSize_ceilings`: every ceiling holds of a quantity that is accepted.
* `computeSize_monotone`: in which direction it goes with each input.

## Honest scope

Arithmetic is exact. What `str.upper` does is a parameter.
-/

namespace StratTrader.Risk

open StratTrader.Foundation

/-! ### Inputs -/

/-- `REGIME_SCALE`. -/
def regimeScale : List (String × ℚ) :=
  [("CRISIS", 0), ("BEAR", 3 / 10), ("CHOP", 6 / 10), ("NEUTRAL", 6 / 10), ("BULL", 1)]

/-- `_LONG_SIDES`. -/
def longSides : List String := ["LONG", "BUY", "BUY_TO_OPEN", "BUY_TO_CLOSE"]

/-- `_DEFAULT_STOP_FRAC`. -/
def defaultStopFrac : ℚ := 2 / 100

/-- `SizingInputs`. -/
structure SizingInputs where
  /-- `requested_qty`. -/
  requestedQty : ℚ
  /-- `side`. -/
  side : String
  /-- `symbol`. -/
  symbol : String
  /-- `price`. -/
  price : ℚ
  /-- `equity`. -/
  equity : ℚ
  /-- `regime_label`. -/
  regimeLabel : String := "NEUTRAL"
  /-- `sentiment_polarity`. -/
  sentimentPolarity : ℚ := 0
  /-- `intraday_dd_pct`. -/
  intradayDdPct : ℚ := 0
  /-- `atr14`. -/
  atr14 : Option ℚ := none
  /-- `stop_distance`. -/
  stopDistance : Option ℚ := none
  /-- `contract_multiplier`. -/
  contractMultiplier : ℚ := 1
  /-- `lot_size`. -/
  lotSize : ℚ := 1

/-- The columns of `RiskProfile` that sizing reads, where some may be missing. -/
structure RiskProfile where
  /-- `risk_per_trade_pct`. -/
  riskPerTradePct : ℚ
  /-- `max_position_pct`. -/
  maxPositionPct : ℚ
  /-- `leverage_cap`. -/
  leverageCap : Option ℚ
  /-- `soft_stop_pct`. -/
  softStopPct : ℚ
  /-- `hard_stop_pct`. -/
  hardStopPct : Option ℚ
  /-- `strict_mode`. -/
  strictMode : Bool
  /-- `atr_factor`. -/
  atrFactor : ℚ

/-! ### Results -/

/-- `round(x, digits)`. -/
def roundTo (digits : ℕ) (x : ℚ) : ℚ := Decimal.roundHalfEven (x * 10 ^ digits) / 10 ^ digits

/-- What is returned beside a quantity. -/
inductive SizingMeta where
  /-- Nothing. -/
  | none
  /-- The drawdown and the stop that it is at. -/
  | hardStop (intradayDdPct hardStopPct : ℚ)
  /-- What the quantity was computed from. -/
  | sized (regimeLabel : String) (regimeScale riskPct stopDist rawQty maxQtyByPos sentiment : ℚ)
      (softStopApplied : Bool) (leverageCap : ℚ) (maxQtyByLeverage : Option ℚ)
      (requestedQty contractMultiplier : ℚ)

/-- `SizingResult`. -/
structure SizingResult where
  /-- Whether it is accepted. -/
  ok : Bool
  /-- The quantity. -/
  qty : ℚ
  /-- Why it is not. -/
  reason : String
  /-- What it was computed from. -/
  details : SizingMeta

/-- `SizingResult.reject`. -/
def SizingResult.reject (reason : String) (details : SizingMeta) : SizingResult := ⟨false, 0, reason, details⟩

/-- `SizingResult.accept`. -/
def SizingResult.accept (qty : ℚ) (details : SizingMeta) : SizingResult := ⟨true, qty, "", details⟩

/-! ### Sizing -/

/-- `x or 1`. -/
def orOne (x : ℚ) : ℚ := if x = 0 then 1 else x

/-- `_round_to_lot`. -/
def roundToLot (qty lot : ℚ) : ℚ := floorTo (orOne lot) qty

/-- `(inp.regime_label or "NEUTRAL").upper()`. -/
def regimeLabelOf (upper : String → String) (regimeLabel : String) : String :=
  upper (if regimeLabel = "" then "NEUTRAL" else regimeLabel)

/-- `REGIME_SCALE.get(label, 0.6)`. -/
def scaleOf (label : String) : ℚ := (regimeScale.lookup label).getD (6 / 10)

section
variable (inp : SizingInputs) (profile : RiskProfile)

/-- Whether the order is on a long side. -/
def SizingInputs.isLong (upper : String → String) : Bool := decide (upper inp.side ∈ longSides)

/-- The price, of at least a cent. -/
def SizingInputs.priceFloor : ℚ := max inp.price (1 / 100)

/-- `max(stop_distance, atr_factor * atr14)`. -/
def effectiveStop : ℚ := max (inp.stopDistance.getD 0) (profile.atrFactor * inp.atr14.getD 0)

/-- `stop_dist`. -/
def stopDist : ℚ :=
  if effectiveStop inp profile ≤ 0 then inp.priceFloor * defaultStopFrac else effectiveStop inp profile

/-- `risk_pct`. -/
def riskPct (scale : ℚ) : ℚ := profile.riskPerTradePct * scale

/-- `raw_qty`. -/
def rawQty (scale : ℚ) : ℚ :=
  inp.equity * (riskPct profile scale / 100) / (stopDist inp profile * orOne inp.contractMultiplier)

/-- `max_qty_by_pos`. -/
def maxQtyByPos : ℚ :=
  inp.equity * profile.maxPositionPct / 100 / (inp.priceFloor * orOne inp.contractMultiplier)

/-- `max_qty_by_leverage`. -/
def maxQtyByLeverage : Option ℚ :=
  if 0 < profile.leverageCap.getD 0 then
    some (inp.equity * profile.leverageCap.getD 0 / (inp.priceFloor * orOne inp.contractMultiplier))
  else none

/-- What sentiment does to the quantity. -/
def sentimentFactor (isLong : Bool) (polarity : ℚ) : ℚ :=
  if 7 / 10 < polarity ∧ isLong = true then 11 / 10
  else if polarity < -1 / 2 ∧ isLong = true then 1 / 2
  else 1

/-- `soft_applied`. -/
def softApplied (dd : ℚ) : Bool := decide (profile.softStopPct ≤ dd)

/-- What a drawdown at the soft stop does to it. -/
def softFactor (dd : ℚ) : ℚ := if softApplied profile dd then 1 / 2 else 1

/-- The quantity that was requested, if any. -/
def requestedCap : Option ℚ := if 0 < inp.requestedQty then some inp.requestedQty else none

theorem sentimentFactor_pos (isLong : Bool) (polarity : ℚ) : 0 < sentimentFactor isLong polarity := by
  unfold sentimentFactor
  split_ifs <;> norm_num

theorem softFactor_pos (dd : ℚ) : 0 < softFactor profile dd := by
  unfold softFactor
  split_ifs <;> norm_num

/-- What the quantity is made of. -/
def sizingTerms (scale : ℚ) (isLong : Bool) : Terms ℚ where
  raw := rawQty inp profile scale
  base := maxQtyByPos inp profile
  factor := sentimentFactor isLong inp.sentimentPolarity * softFactor profile inp.intradayDdPct
  factor_pos := mul_pos (sentimentFactor_pos isLong _) (softFactor_pos profile _)
  next := maxQtyByLeverage inp profile
  last := requestedCap inp

/-- `meta`. -/
def sizingMeta (label : String) (scale : ℚ) : SizingMeta :=
  .sized label scale (roundTo 4 (riskPct profile scale)) (roundTo 4 (stopDist inp profile))
    (roundTo 6 (rawQty inp profile scale)) (roundTo 6 (maxQtyByPos inp profile)) inp.sentimentPolarity
    (softApplied profile inp.intradayDdPct) (profile.leverageCap.getD 0)
    ((maxQtyByLeverage inp profile).map (roundTo 6)) inp.requestedQty (orOne inp.contractMultiplier)

/-- `compute_size`. -/
def computeSize (upper : String → String) : SizingResult :=
  let label := regimeLabelOf upper inp.regimeLabel
  let scale := scaleOf label
  let isLong := inp.isLong upper
  let hardStop := profile.hardStopPct.getD 0
  if profile.strictMode = true ∧ label ∈ ["BEAR", "CRISIS"] ∧ isLong = true then
    .reject "REGIME_SIDE_MISMATCH" .none
  else if label = "CRISIS" ∨ scale ≤ 0 then .reject "REGIME_CRISIS" .none
  else if 0 < hardStop ∧ hardStop ≤ inp.intradayDdPct then
    .reject "HARD_STOP" (.hardStop inp.intradayDdPct hardStop)
  else
    -- the quantity is scaled under the first ceiling, and cut down to all of them behind it
    let qty := roundToLot (sizingTerms inp profile scale isLong).amount inp.lotSize
    if qty ≤ 0 then .reject "SIZING_ZERO" (sizingMeta inp profile label scale)
    else .accept qty (sizingMeta inp profile label scale)

end

/-! ### What is returned -/

/-- Nothing rejects the order before its quantity is computed. -/
structure Admitted (inp : SizingInputs) (profile : RiskProfile) (upper : String → String) : Prop where
  /-- The strict mode. -/
  side : ¬ (profile.strictMode = true ∧ regimeLabelOf upper inp.regimeLabel ∈ ["BEAR", "CRISIS"] ∧
    inp.isLong upper = true)
  /-- The regime. -/
  regime : ¬ (regimeLabelOf upper inp.regimeLabel = "CRISIS" ∨ scaleOf (regimeLabelOf upper inp.regimeLabel) ≤ 0)
  /-- The hard stop. -/
  hardStop : ¬ (0 < profile.hardStopPct.getD 0 ∧ profile.hardStopPct.getD 0 ≤ inp.intradayDdPct)

/-- What the quantity of an order is made of. -/
def termsOf (inp : SizingInputs) (profile : RiskProfile) (upper : String → String) : Terms ℚ :=
  sizingTerms inp profile (scaleOf (regimeLabelOf upper inp.regimeLabel)) (inp.isLong upper)

section
variable {inp : SizingInputs} {profile : RiskProfile} {upper : String → String}

theorem orOne_of_pos {x : ℚ} (h : 0 < x) : orOne x = x := if_neg h.ne'

/-- **An order is accepted exactly if it is admitted and anything is left**, and then with that quantity. -/
theorem computeSize_cases (hlot : 0 < inp.lotSize) :
    Admitted inp profile upper ∧ 0 < (termsOf inp profile upper).quantity inp.lotSize ∧
      (∃ details, computeSize inp profile upper = .accept ((termsOf inp profile upper).quantity inp.lotSize) details) ∨
    ¬ (Admitted inp profile upper ∧ 0 < (termsOf inp profile upper).quantity inp.lotSize) ∧
      ∃ reason details, computeSize inp profile upper = .reject reason details := by
  have hround : roundToLot (termsOf inp profile upper).amount inp.lotSize =
      (termsOf inp profile upper).quantity inp.lotSize := by
    unfold roundToLot Terms.quantity
    rw [orOne_of_pos hlot]
  rw [← hround]
  unfold computeSize termsOf
  dsimp only
  split_ifs with hside hregime hhard hzero
  · exact .inr ⟨fun h => h.1.side hside, _, _, rfl⟩
  · exact .inr ⟨fun h => h.1.regime hregime, _, _, rfl⟩
  · exact .inr ⟨fun h => h.1.hardStop hhard, _, _, rfl⟩
  · exact .inr ⟨fun h => h.2.not_ge hzero, _, _, rfl⟩
  · exact .inl ⟨⟨hside, hregime, hhard⟩, not_le.mp hzero, _, rfl⟩

/-- The quantity that is returned. -/
def sizedQty (upper : String → String) (profile : RiskProfile) (inp : SizingInputs) : ℚ :=
  (computeSize inp profile upper).qty

theorem priceFloor_pos (inp : SizingInputs) : 0 < inp.priceFloor :=
  lt_of_lt_of_le (by norm_num) (le_max_right inp.price (1 / 100))

theorem stopDist_pos (inp : SizingInputs) (profile : RiskProfile) : 0 < stopDist inp profile := by
  unfold stopDist
  split_ifs with hstop
  · exact mul_pos (priceFloor_pos inp) (by norm_num [defaultStopFrac])
  · exact not_le.mp hstop

theorem sentimentFactor_le (isLong : Bool) (polarity : ℚ) : sentimentFactor isLong polarity ≤ 11 / 10 := by
  unfold sentimentFactor
  split_ifs <;> norm_num

theorem softFactor_le (profile : RiskProfile) (dd : ℚ) : softFactor profile dd ≤ 1 := by
  unfold softFactor
  split_ifs <;> norm_num

/-- What is left is at most a tenth more than the quantity to begin with. -/
theorem amount_le_raw (h : 0 < (termsOf inp profile upper).amount) :
    (termsOf inp profile upper).amount ≤ (termsOf inp profile upper).raw * (11 / 10) := by
  obtain ⟨hraw, -⟩ := Terms.pos_of_amount_pos h
  have hfactor : (termsOf inp profile upper).factor ≤ 11 / 10 := by
    calc (termsOf inp profile upper).factor
        ≤ 11 / 10 * 1 := mul_le_mul (sentimentFactor_le _ _) (softFactor_le _ _) (softFactor_pos _ _).le (by norm_num)
      _ = 11 / 10 := mul_one _
  calc (termsOf inp profile upper).amount
      ≤ min (termsOf inp profile upper).raw (termsOf inp profile upper).base * (termsOf inp profile upper).factor :=
        Terms.amount_le_scaled _
    _ ≤ (termsOf inp profile upper).raw * (11 / 10) :=
        mul_le_mul (min_le_left _ _) hfactor (Terms.factor_pos _).le hraw.le

end

/-- **Every ceiling holds of a quantity that is accepted.** -/
theorem computeSize_ceilings {upper : String → String} {inp : SizingInputs} {profile : RiskProfile} {q : ℚ}
    (hmultiplier : 0 < inp.contractMultiplier) (hlot : 0 < inp.lotSize)
    (hok : (computeSize inp profile upper).ok = true) (hqty : (computeSize inp profile upper).qty = q) :
    0 < q ∧ (∃ k : ℤ, q = k * inp.lotSize) ∧ (0 < inp.requestedQty → q ≤ inp.requestedQty) ∧
      q * max inp.price (1 / 100) * inp.contractMultiplier ≤ inp.equity * profile.maxPositionPct / 100 ∧
      (∀ cap, profile.leverageCap = some cap → 0 < cap →
        q * max inp.price (1 / 100) * inp.contractMultiplier ≤ inp.equity * cap) ∧
      q * stopDist inp profile * inp.contractMultiplier ≤
        11 / 10 * inp.equity * profile.riskPerTradePct * scaleOf (regimeLabelOf upper inp.regimeLabel) / 100 := by
  rcases computeSize_cases hlot with ⟨-, hpos, details, hresult⟩ | ⟨-, reason, details, hresult⟩
  · rw [hresult] at hqty
    have hqty : (termsOf inp profile upper).quantity inp.lotSize = q := hqty
    have hle : q ≤ (termsOf inp profile upper).amount := by
      rw [← hqty]
      exact floorTo_le hlot
    rw [hqty] at hpos
    have hprice : 0 < inp.priceFloor * inp.contractMultiplier := mul_pos (priceFloor_pos inp) hmultiplier
    refine ⟨hpos, ⟨_, hqty.symm⟩, ?_, ?_, ?_, ?_⟩
    · intro hrequested
      exact hle.trans (Terms.amount_le_last _ (if_pos hrequested))
    · have hbase : q ≤ inp.equity * profile.maxPositionPct / 100 / (inp.priceFloor * inp.contractMultiplier) := by
        have h := hle.trans (Terms.amount_le_base _)
        unfold termsOf sizingTerms maxQtyByPos at h
        rw [orOne_of_pos hmultiplier] at h
        exact h
      rw [le_div_iff₀ hprice, ← mul_assoc] at hbase
      exact hbase
    · intro cap hcap hcappos
      have hnext : (termsOf inp profile upper).next =
          some (inp.equity * cap / (inp.priceFloor * inp.contractMultiplier)) := by
        unfold termsOf sizingTerms maxQtyByLeverage
        rw [hcap, orOne_of_pos hmultiplier]
        exact if_pos hcappos
      have hleverage := hle.trans (Terms.amount_le_next _ hnext)
      rw [le_div_iff₀ hprice, ← mul_assoc] at hleverage
      exact hleverage
    · have hraw := hle.trans (amount_le_raw (hpos.trans_le hle))
      unfold termsOf sizingTerms rawQty riskPct at hraw
      rw [orOne_of_pos hmultiplier, div_mul_eq_mul_div,
        le_div_iff₀ (mul_pos (stopDist_pos inp profile) hmultiplier)] at hraw
      calc q * stopDist inp profile * inp.contractMultiplier
          = q * (stopDist inp profile * inp.contractMultiplier) := mul_assoc _ _ _
        _ ≤ _ := hraw
        _ = _ := by ring
  · rw [hresult] at hok
    cases hok

/-- A profile with round numbers. -/
def sampleProfile : RiskProfile where
  riskPerTradePct := 1
  maxPositionPct := 20
  leverageCap := some 1
  softStopPct := 5
  hardStopPct := some 10
  strictMode := false
  atrFactor := 3 / 2

/-- An order for shares in a market that is bullish and well disposed. -/
def sampleInputs : SizingInputs where
  requestedQty := 150
  side := "BUY"
  symbol := "AAPL"
  price := 100
  equity := 100000
  regimeLabel := "BULL"
  sentimentPolarity := 9 / 10
  atr14 := some 5
  lotSize := 10

/-- Of 146 shares, fourteen lots are bought. -/
theorem computeSize_ceilings_sample : (140 : ℚ) * stopDist sampleInputs sampleProfile * 1 ≤
    11 / 10 * 100000 * 1 * scaleOf (regimeLabelOf id "BULL") / 100 :=
  (computeSize_ceilings (by norm_num [sampleInputs]) (by norm_num [sampleInputs])
    (by decide +kernel : (computeSize sampleInputs sampleProfile id).ok = true)
    (by decide +kernel : (computeSize sampleInputs sampleProfile id).qty = 140)).2.2.2.2.2

/-! ### In which direction the quantity goes -/

section
variable {inp inp' : SizingInputs} {profile : RiskProfile} {upper : String → String}

/-- **An order that is admitted when another is, and made of no less, is not sized below it.** -/
theorem sizedQty_le (hlot : 0 < inp.lotSize) (hlots : inp'.lotSize = inp.lotSize)
    (hadmitted : Admitted inp profile upper → Admitted inp' profile upper)
    (hbelow : Admitted inp profile upper → (termsOf inp profile upper).Below (termsOf inp' profile upper)) :
    sizedQty upper profile inp ≤ sizedQty upper profile inp' := by
  have hlot' : 0 < inp'.lotSize := hlots ▸ hlot
  unfold sizedQty
  rcases computeSize_cases hlot with ⟨hadm, hpos, details, hresult⟩ | ⟨-, reason, details, hresult⟩
  · have hmono := Terms.quantity_mono hlot (hbelow hadm) hpos
    have hpos' := hpos.trans_le hmono
    rw [← hlots] at hpos'
    rcases computeSize_cases hlot' with ⟨-, -, details', hresult'⟩ | ⟨hnot, -⟩
    · rw [hresult, hresult', hlots]
      exact hmono
    · exact absurd ⟨hadmitted hadm, hpos'⟩ hnot
  · rw [hresult]
    change 0 ≤ _
    rcases computeSize_cases hlot' with ⟨-, hpos', details', hresult'⟩ | ⟨-, reason', details', hresult'⟩
    · rw [hresult']
      exact hpos'.le
    · rw [hresult']
      exact le_rfl

/-- A quotient that is positive does not sink when its numerator does not, nor its denominator grows. -/
theorem quotient_le {n n' d d' : ℚ} (hd' : 0 < d') (hle : d' ≤ d) (hn : 0 < n → n ≤ n') (hpos : 0 < n / d) :
    n / d ≤ n' / d' := by
  have hnum : 0 < n := (div_pos_iff_of_pos_right (hd'.trans_le hle)).mp hpos
  exact div_le_div₀ (hnum.le.trans (hn hnum)) (hn hnum) hd' hle

/-- What an order is made of does not sink when these do not. -/
structure Compares (inp inp' : SizingInputs) (profile : RiskProfile) (upper : String → String) : Prop where
  /-- The equity. -/
  equity : 0 < inp.equity ∧ inp.equity ≤ inp'.equity
  /-- The scale. -/
  scale : 0 ≤ scaleOf (regimeLabelOf upper inp.regimeLabel) ∧
    scaleOf (regimeLabelOf upper inp.regimeLabel) ≤ scaleOf (regimeLabelOf upper inp'.regimeLabel)
  /-- The multiplier. -/
  multiplier : 0 < inp'.contractMultiplier ∧ inp'.contractMultiplier ≤ inp.contractMultiplier
  /-- The price. -/
  price : inp'.priceFloor ≤ inp.priceFloor
  /-- The distance of the stop. -/
  stop : stopDist inp' profile ≤ stopDist inp profile
  /-- What the quantity is scaled by. -/
  factor : sentimentFactor (inp.isLong upper) inp.sentimentPolarity * softFactor profile inp.intradayDdPct ≤
    sentimentFactor (inp'.isLong upper) inp'.sentimentPolarity * softFactor profile inp'.intradayDdPct
  /-- The request. -/
  requested : NotBelow (requestedCap inp') (requestedCap inp)

theorem Compares.below (h : Compares inp inp' profile upper) :
    (termsOf inp profile upper).Below (termsOf inp' profile upper) := by
  obtain ⟨hequity, hle⟩ := h.equity
  obtain ⟨hmult', hmult⟩ := h.multiplier
  have horOne := orOne_of_pos (hmult'.trans_le hmult)
  have horOne' := orOne_of_pos hmult'
  have hprice : inp'.priceFloor * inp'.contractMultiplier ≤ inp.priceFloor * inp.contractMultiplier :=
    mul_le_mul h.price hmult hmult'.le (priceFloor_pos inp).le
  have hprice' : 0 < inp'.priceFloor * inp'.contractMultiplier := mul_pos (priceFloor_pos inp') hmult'
  constructor
  · -- the risk is a part of the equity
    intro hpos
    unfold termsOf sizingTerms rawQty riskPct at hpos ⊢
    dsimp only at hpos ⊢
    rw [horOne] at hpos ⊢
    rw [horOne']
    refine quotient_le (mul_pos (stopDist_pos inp' profile) hmult') ?_ ?_ hpos
    · exact mul_le_mul h.stop hmult hmult'.le (stopDist_pos inp profile).le
    · intro hnum
      have hrisk : 0 < profile.riskPerTradePct * scaleOf (regimeLabelOf upper inp.regimeLabel) / 100 :=
        (mul_pos_iff_of_pos_left hequity).mp hnum
      have hpct : 0 < profile.riskPerTradePct :=
        pos_of_mul_pos_left ((div_pos_iff_of_pos_right (by norm_num)).mp hrisk) h.scale.1
      have hscaled : profile.riskPerTradePct * scaleOf (regimeLabelOf upper inp.regimeLabel) / 100 ≤
          profile.riskPerTradePct * scaleOf (regimeLabelOf upper inp'.regimeLabel) / 100 :=
        div_le_div_of_nonneg_right (mul_le_mul_of_nonneg_left h.scale.2 hpct.le) (by norm_num)
      exact mul_le_mul hle hscaled hrisk.le (hequity.le.trans hle)
  · intro hpos
    unfold termsOf sizingTerms maxQtyByPos at hpos ⊢
    dsimp only at hpos ⊢
    rw [horOne] at hpos ⊢
    rw [horOne']
    refine quotient_le hprice' hprice ?_ hpos
    intro hnum
    have hpct : 0 < profile.maxPositionPct :=
      (mul_pos_iff_of_pos_left hequity).mp ((div_pos_iff_of_pos_right (by norm_num)).mp hnum)
    exact div_le_div_of_nonneg_right (mul_le_mul_of_nonneg_right hle hpct.le) (by norm_num)
  · exact h.factor
  · intro c' hc'
    unfold termsOf sizingTerms maxQtyByLeverage at hc' ⊢
    dsimp only at hc' ⊢
    rw [horOne'] at hc'
    rw [horOne]
    split_ifs at hc' ⊢ with hcap
    refine ⟨_, rfl, fun hpos => ?_⟩
    rw [← Option.some_inj.mp hc']
    exact quotient_le hprice' hprice (fun _ => mul_le_mul_of_nonneg_right hle hcap.le) hpos
  · exact h.requested

end

/-- The order of the regimes, in which one that has no scale of its own stands with `NEUTRAL`. -/
def regimeRank (label : String) : ℕ :=
  if label = "CRISIS" then 0 else if label = "BEAR" then 1 else if label = "BULL" then 3 else 2

theorem scaleOf_eq (label : String) : scaleOf label =
    if label = "CRISIS" then 0 else if label = "BEAR" then 3 / 10 else if label = "BULL" then 1 else 6 / 10 := by
  split_ifs with hcrisis hbear hbull
  · rw [hcrisis]
    rfl
  · rw [hbear]
    rfl
  · rw [hbull]
    rfl
  · unfold scaleOf regimeScale
    simp only [List.lookup_cons, List.lookup_nil, beq_eq_false_iff_ne.mpr hcrisis, beq_eq_false_iff_ne.mpr hbear,
      beq_eq_false_iff_ne.mpr hbull]
    cases label == "CHOP" <;> cases label == "NEUTRAL" <;> rfl

theorem regimeRank_eq_zero {label : String} : regimeRank label = 0 ↔ label = "CRISIS" := by
  unfold regimeRank
  split_ifs <;> simp_all

theorem mem_bearish_iff {label : String} : label ∈ ["BEAR", "CRISIS"] ↔ regimeRank label ≤ 1 := by
  unfold regimeRank
  split_ifs <;> simp_all

theorem scaleOf_nonneg (label : String) : 0 ≤ scaleOf label := by
  rw [scaleOf_eq]
  split_ifs <;> norm_num

theorem scaleOf_mono {label label' : String} (h : regimeRank label ≤ regimeRank label') :
    scaleOf label ≤ scaleOf label' := by
  rw [scaleOf_eq, scaleOf_eq]
  unfold regimeRank at h
  split_ifs at h ⊢ <;> first | omega | norm_num

theorem sentimentFactor_mono {isLong : Bool} (hlong : isLong = true) {polarity polarity' : ℚ}
    (h : polarity ≤ polarity') : sentimentFactor isLong polarity ≤ sentimentFactor isLong polarity' := by
  unfold sentimentFactor
  simp only [hlong, and_true]
  split_ifs <;> linarith

theorem softFactor_anti (profile : RiskProfile) {dd dd' : ℚ} (h : dd ≤ dd') :
    softFactor profile dd' ≤ softFactor profile dd := by
  unfold softFactor softApplied
  simp only [decide_eq_true_eq]
  split_ifs <;> linarith

theorem priceFloor_mono {price price' : ℚ} (h : price ≤ price') (inp : SizingInputs) :
    SizingInputs.priceFloor { inp with price := price } ≤ SizingInputs.priceFloor { inp with price := price' } :=
  max_le_max h le_rfl

theorem stopDist_mono {price price' : ℚ} (h : price ≤ price') (inp : SizingInputs) (profile : RiskProfile) :
    stopDist { inp with price := price } profile ≤ stopDist { inp with price := price' } profile := by
  unfold stopDist
  have heffective : effectiveStop { inp with price := price } profile =
      effectiveStop { inp with price := price' } profile := rfl
  rw [heffective]
  split_ifs
  · exact mul_le_mul_of_nonneg_right (priceFloor_mono h inp) (by norm_num [defaultStopFrac])
  · exact le_rfl

/-- An order compares with itself. -/
theorem Compares.refl (inp : SizingInputs) (profile : RiskProfile) (upper : String → String) (hequity : 0 < inp.equity)
    (hmultiplier : 0 < inp.contractMultiplier) : Compares inp inp profile upper where
  equity := ⟨hequity, le_rfl⟩
  scale := ⟨scaleOf_nonneg _, le_rfl⟩
  multiplier := ⟨hmultiplier, le_rfl⟩
  price := le_rfl
  stop := le_rfl
  factor := le_rfl
  requested := NotBelow.refl _

/-- A regime that is no worse admits what a worse one does. -/
theorem admitted_of_rank {inp : SizingInputs} {profile : RiskProfile} {upper : String → String} {label label' : String}
    (h : regimeRank (regimeLabelOf upper label) ≤ regimeRank (regimeLabelOf upper label'))
    (hadm : Admitted { inp with regimeLabel := label } profile upper) :
    Admitted { inp with regimeLabel := label' } profile upper := by
  obtain ⟨hside, hregime, hhard⟩ := hadm
  dsimp only at hside hregime hhard
  obtain ⟨hcrisis, hscale⟩ := not_or.mp hregime
  rw [← regimeRank_eq_zero] at hcrisis
  refine ⟨?_, ?_, hhard⟩
  · rintro ⟨hstrict, hlabel, hlong⟩
    rw [mem_bearish_iff] at hlabel
    exact hside ⟨hstrict, mem_bearish_iff.mpr (h.trans hlabel), hlong⟩
  · rintro (hlabel | hzero)
    · rw [← regimeRank_eq_zero] at hlabel
      dsimp only at hlabel
      omega
    · exact hscale ((scaleOf_mono h).trans hzero)

/-- **The quantity of an order goes with its equity, request, regime and sentiment, and against its price, multiplier,
drawdown and stop.** -/
theorem computeSize_monotone {inp : SizingInputs} (upper : String → String) (profile : RiskProfile)
    (hequity : 0 < inp.equity) (hmultiplier : 0 < inp.contractMultiplier) (hlot : 0 < inp.lotSize) :
    MonotoneOn (fun equity => sizedQty upper profile { inp with equity := equity }) (Set.Ioi 0) ∧
    MonotoneOn (fun requestedQty => sizedQty upper profile { inp with requestedQty := requestedQty }) (Set.Ioi 0) ∧
    (upper inp.side ∈ longSides → ∀ label label',
      regimeRank (regimeLabelOf upper label) ≤ regimeRank (regimeLabelOf upper label') →
      sizedQty upper profile { inp with regimeLabel := label } ≤
        sizedQty upper profile { inp with regimeLabel := label' }) ∧
    (upper inp.side ∈ longSides →
      Monotone fun polarity => sizedQty upper profile { inp with sentimentPolarity := polarity }) ∧
    AntitoneOn (fun price => sizedQty upper profile { inp with price := price }) (Set.Ioi 0) ∧
    AntitoneOn (fun multiplier => sizedQty upper profile { inp with contractMultiplier := multiplier }) (Set.Ioi 0) ∧
    Antitone (fun dd => sizedQty upper profile { inp with intradayDdPct := dd }) ∧
    (∀ stop stop' atr atr', 0 < effectiveStop { inp with stopDistance := stop, atr14 := atr } profile →
      effectiveStop { inp with stopDistance := stop, atr14 := atr } profile ≤
        effectiveStop { inp with stopDistance := stop', atr14 := atr' } profile →
      sizedQty upper profile { inp with stopDistance := stop', atr14 := atr' } ≤
        sizedQty upper profile { inp with stopDistance := stop, atr14 := atr }) := by
  refine ⟨?_, ?_, ?_, ?_, ?_, ?_, ?_, ?_⟩
  · intro equity hpos equity' _ hle
    refine sizedQty_le hlot rfl (fun h => ⟨h.side, h.regime, h.hardStop⟩) fun _ => Compares.below ?_
    exact { Compares.refl { inp with equity := equity } profile upper hpos hmultiplier with equity := ⟨hpos, hle⟩ }
  · intro requested hpos requested' hpos' hle
    refine sizedQty_le hlot rfl (fun h => ⟨h.side, h.regime, h.hardStop⟩) fun _ => Compares.below ?_
    refine { Compares.refl inp profile upper hequity hmultiplier with requested := ?_ }
    intro cap hcap
    have hcap : some requested' = some cap := (if_pos hpos').symm.trans hcap
    refine ⟨requested, if_pos hpos, fun _ => ?_⟩
    rw [← Option.some_inj.mp hcap]
    exact hle
  · intro _ label label' hrank
    refine sizedQty_le hlot rfl (admitted_of_rank hrank) fun _ => Compares.below ?_
    exact { Compares.refl inp profile upper hequity hmultiplier with scale := ⟨scaleOf_nonneg _, scaleOf_mono hrank⟩ }
  · intro hlong polarity polarity' hle
    refine sizedQty_le hlot rfl (fun h => ⟨h.side, h.regime, h.hardStop⟩) fun _ => Compares.below ?_
    refine { Compares.refl inp profile upper hequity hmultiplier with factor := ?_ }
    exact mul_le_mul_of_nonneg_right (sentimentFactor_mono (decide_eq_true hlong) hle) (softFactor_pos _ _).le
  · intro price _ price' _ hle
    refine sizedQty_le hlot rfl (fun h => ⟨h.side, h.regime, h.hardStop⟩) fun _ => Compares.below ?_
    exact { Compares.refl inp profile upper hequity hmultiplier with
      price := priceFloor_mono hle inp
      stop := stopDist_mono hle inp profile }
  · intro multiplier hpos multiplier' hpos' hle
    refine sizedQty_le hlot rfl (fun h => ⟨h.side, h.regime, h.hardStop⟩) fun _ => Compares.below ?_
    exact { Compares.refl { inp with contractMultiplier := multiplier } profile upper hequity hpos with multiplier := ⟨hpos, hle⟩ }
  · intro dd dd' hle
    refine sizedQty_le hlot rfl (fun h => ⟨h.side, h.regime, ?_⟩) fun _ => Compares.below ?_
    · exact fun hhard => h.hardStop ⟨hhard.1, hhard.2.trans hle⟩
    · refine { Compares.refl inp profile upper hequity hmultiplier with factor := ?_ }
      exact mul_le_mul_of_nonneg_left (softFactor_anti profile hle) (sentimentFactor_pos _ _).le
  · intro stop stop' atr atr' hpos hle
    refine sizedQty_le hlot rfl (fun h => ⟨h.side, h.regime, h.hardStop⟩) fun _ => Compares.below ?_
    refine { Compares.refl inp profile upper hequity hmultiplier with stop := ?_ }
    unfold stopDist
    rw [if_neg hpos.not_ge, if_neg (hpos.trans_le hle).not_ge]
    exact hle

/-- The sample is not sized below what it would be in a bearish market. -/
theorem computeSize_monotone_sample : sizedQty id sampleProfile { sampleInputs with regimeLabel := "BEAR" } ≤
    sizedQty id sampleProfile { sampleInputs with regimeLabel := "BULL" } :=
  (computeSize_monotone id sampleProfile (by norm_num [sampleInputs] : 0 < sampleInputs.equity)
    (by norm_num [sampleInputs]) (by norm_num [sampleInputs])).2.2.1 (by decide +kernel) "BEAR" "BULL" (by decide)

end StratTrader.Risk
