import StratTrader.Brokers.Models
import StratTrader.Risk.Sizing
import StratTrader.Risk.TwoPolls

/-!
# Sizing decisions

`apply_sizing` of `risk/integration.py`: what it reads of the profile, the positions, the broker and the
market, and what it writes on each of its ways out. A rejection writes a decision and an event, and so
does a size; a hard stop halts the user besides.

## What is proved

* `applySizing_ways`: the ways out of a call.
* `applySizing_audited`: whatever is read, a result that is returned has been written down as the one
  decision of the call, with its verdict, its reason and its quantity.
* `paper_of_unsized`: `None` is returned only if sizing is off, or for an account that is not live.
* `decisions_of_raised`: when the call raises, nothing has been written down, as long as halts have new keys.
* `truncate_reason`: the reasons are known, and fit the columns they are written to.

## Honest scope

Arithmetic is exact. Of an infinite equity or price only the ways through `apply_sizing` are followed:
what `compute_size` makes of its floats is a parameter. Metrics and logs are left out.
-/

namespace StratTrader.Risk

open StratTrader.Brokers StratTrader.Foundation

/-! ### What is read -/

/-- A figure, as `_dec` reads it: what is no number is 0. -/
inductive Figure where
  /-- A number. -/
  | finite (x : ℚ)
  /-- `Infinity`. -/
  | infinite
  /-- `-Infinity`. -/
  | negInfinite
  /-- `NaN`. -/
  | nan
  deriving DecidableEq

/-- `x > 0`, which raises on `NaN`. -/
def Figure.isPositive : Figure → Option Bool
  | .finite x => some (decide (0 < x))
  | .infinite => some true
  | .negInfinite => some false
  | .nan => none

/-- What comes of `adapter.get_account`. -/
inductive AccountRead where
  /-- It raises. -/
  | raises
  /-- What it returns has no equity. -/
  | malformed
  /-- It returns an account. -/
  | report (equity lastEquity : Figure)

/-- `Bar`. -/
structure Bar where
  /-- `symbol`. -/
  symbol : String
  /-- `tf`. -/
  tf : String
  /-- `high`. -/
  high : ℚ
  /-- `low`. -/
  low : ℚ
  /-- `close`. -/
  close : ℚ

/-- `RiskProfile`, with the columns that `apply_sizing` reads itself. -/
structure SizingProfile extends RiskProfile where
  /-- `max_concurrent`. -/
  maxConcurrent : ℕ
  /-- `permitted_asset_classes`. -/
  permittedAssetClasses : List String

/-- The reasons of `compute_size`, and none. -/
def sizeReasons : List String := ["", "REGIME_SIDE_MISMATCH", "REGIME_CRISIS", "HARD_STOP", "SIZING_ZERO"]

/-- The arguments of `apply_sizing`, and what it reads of them. -/
structure SizingCall where
  /-- `alert.user`. -/
  user : UserId
  /-- `alert`. -/
  alert : AlertId
  /-- `order`. -/
  order : String
  /-- `order.strategy`. -/
  strategy : Option StrategyId
  /-- `order.asset_class`. -/
  assetClass : String
  /-- `order.future_root`. -/
  futureRoot : String
  /-- `account.mode`. -/
  mode : Mode
  /-- `requested_qty`. -/
  requestedQty : ℚ
  /-- `side`. -/
  side : String
  /-- `symbol`. -/
  symbol : String
  /-- `price_hint`. -/
  priceHint : Option ℚ

/-- What `apply_sizing` finds. -/
structure SizingReads where
  /-- `is_enabled("SIZING_V1_ENABLED")`. -/
  enabled : Bool
  /-- The user's profile. -/
  profile : Option SizingProfile
  /-- The symbols of the user's positions that are not flat. -/
  openPositions : List String
  /-- `get_account`. -/
  account : AccountRead
  /-- `get_quote`: none if the adapter has none, or it raises, or it returns `None`. -/
  quote : Option Figure
  /-- The bars, the latest first. -/
  bars : List Bar
  /-- The scopes and labels of the regime observations, the latest first. -/
  regimes : List (String × String)
  /-- The scopes and polarities of the sentiment scores, the latest first. -/
  sentiments : List (String × ℚ)
  /-- `compute_size` of an infinite equity or price; none if it raises. -/
  infiniteSize : Option { r : SizingResult // r.reason ∈ sizeReasons }
  /-- The halts. -/
  halts : List TradingHalt
  /-- The key of a new halt. -/
  haltId : HaltId
  /-- The time. -/
  now : ℤ

/-! ### What is made of it -/

/-- `_latest_regime_label`. -/
def latestRegimeLabel (regimes : List (String × String)) : String :=
  ((regimes.find? fun obs => decide (obs.1 = "MARKET")).map Prod.snd).getD "NEUTRAL"

/-- `_latest_sentiment`. -/
def latestSentiment (sentiments : List (String × ℚ)) (symbol : String) : ℚ :=
  let latest (scope : String) := sentiments.find? fun score => decide (score.1 = scope)
  (((latest ("SYMBOL:" ++ symbol)).or (latest "MARKET")).map Prod.snd).getD 0

/-- `_latest_price`. -/
def latestPrice (upper : String → String) (bars : List Bar) (symbol : String) : Option ℚ :=
  (bars.find? fun bar => decide (bar.symbol = upper symbol)).map Bar.close

/-- The true range of a bar, from the close of the bar before. -/
def trueRange (bar before : Bar) : ℚ :=
  max (max (bar.high - bar.low) |bar.high - before.close|) |bar.low - before.close|

/-- `_atr14`. -/
def atr14 (upper : String → String) (bars : List Bar) (symbol : String) : Option ℚ :=
  let daily := (bars.filter fun bar => decide (bar.symbol = upper symbol) && decide (bar.tf = "1d")).take 15
  let trs := List.zipWith trueRange daily daily.tail
  if trs = [] then none else some (trs.foldl (· + ·) 0 / trs.length)

/-- The price of the latest bar, if it is positive. -/
def barPrice (upper : String → String) (bars : List Bar) (symbol : String) : Option Figure :=
  ((latestPrice upper bars symbol).filter fun close => decide (0 < close)).map .finite

/-- `_resolve_price`; none if it raises. -/
def resolvePrice (upper : String → String) (reads : SizingReads) (symbol : String) (priceHint : Option ℚ) :
    Option (Option Figure) :=
  match priceHint.filter fun hint => decide (0 < hint) with
  | some hint => some (some (.finite hint))
  | none =>
    match reads.quote with
    | none => some (barPrice upper reads.bars symbol)
    | some quote =>
      quote.isPositive.map fun positive => if positive then some quote else barPrice upper reads.bars symbol

/-- `intraday_dd_pct`, of a positive equity; none if it raises. -/
def intradayDd : Figure → Figure → Option ℚ
  | .finite equity, .finite last =>
    some (if 0 < last ∧ equity < last then (last - equity) / last * 100 else 0)
  -- an infinite quotient has no value
  | .finite _, .infinite => none
  | _, .nan => none
  | _, _ => some 0

/-- `FUTURE_MULTIPLIERS`. -/
def futureMultipliers : List (String × ℚ) :=
  [("ES", 50), ("MES", 5), ("NQ", 20), ("MNQ", 2), ("YM", 5), ("RTY", 50), ("CL", 1000), ("GC", 100), ("MGC", 10),
    ("ZB", 1000), ("ZN", 1000), ("6E", 125000)]

/-- `contract_multiplier_for`. -/
def contractMultiplierFor (upper : String → String) (assetClass futureRoot : String) : ℚ :=
  if upper assetClass = "OPTION" then 100
  else if upper assetClass = "FUTURE" then (futureMultipliers.lookup (upper futureRoot)).getD 50
  else 1

/-- `SizingInputs`, of numbers. -/
def sizingInputs (upper : String → String) (call : SizingCall) (reads : SizingReads) (equity price dd : ℚ) :
    SizingInputs where
  requestedQty := call.requestedQty
  side := call.side
  symbol := call.symbol
  price := price
  equity := equity
  regimeLabel := latestRegimeLabel reads.regimes
  sentimentPolarity := latestSentiment reads.sentiments call.symbol
  intradayDdPct := dd
  atr14 := atr14 upper reads.bars call.symbol
  contractMultiplier := contractMultiplierFor upper call.assetClass call.futureRoot

/-- `compute_size`; none if it raises. -/
def sizeOf (upper : String → String) (call : SizingCall) (reads : SizingReads) (profile : RiskProfile)
    (equity price : Figure) (dd : ℚ) : Option SizingResult :=
  match equity, price with
  | .finite equity, .finite price => some (computeSize (sizingInputs upper call reads equity price dd) profile upper)
  | _, _ => reads.infiniteSize.map Subtype.val

/-! ### What is written and returned -/

/-- What a decision was made from. -/
structure DecisionInputs where
  /-- What `compute_size` returns. -/
  details : SizingMeta := .none
  /-- The asset class, and those permitted. -/
  assetClass : Option (String × List String) := none
  /-- The open positions, and how many there may be. -/
  openPositions : Option (ℕ × ℕ) := none
  /-- The equity. -/
  equity : Option Figure := none
  /-- The price. -/
  price : Option Figure := none

/-- `SizingDecision.Result`. -/
inductive DecisionResult where
  /-- `OK`. -/
  | ok
  /-- `REJECT`. -/
  | reject
  deriving DecidableEq

/-- `SizingDecision`. -/
structure SizingDecision where
  /-- `user`. -/
  user : UserId
  /-- `order`. -/
  order : String
  /-- `alert`. -/
  alert : AlertId
  /-- `strategy`. -/
  strategy : Option StrategyId
  /-- `symbol`. -/
  symbol : String
  /-- `requested_qty`. -/
  requestedQty : ℚ
  /-- `computed_qty`. -/
  computedQty : ℚ
  /-- `result`. -/
  result : DecisionResult
  /-- `reject_reason`. -/
  rejectReason : String
  /-- `inputs`. -/
  inputs : DecisionInputs

/-- `RiskEvent`, of the types that sizing creates. -/
inductive SizingEvent where
  /-- `SIZING_REJECT`. -/
  | sizingReject (user : UserId) (reason symbol : String)
  /-- `SOFT_STOP`, with what its details have for the drawdown. -/
  | softStop (user : UserId) (symbol : String) (intradayDdPct : Bool)
  /-- The event of a halt. -/
  | ofHalt (event : RiskEvent)
  deriving DecidableEq

/-- `SizingResult`, with what `apply_sizing` returns beside it. -/
structure AppliedSize where
  /-- `ok`. -/
  ok : Bool
  /-- `qty`. -/
  qty : ℚ
  /-- `reason`. -/
  reason : String
  /-- `meta`. -/
  inputs : DecisionInputs

/-- What `apply_sizing` comes to. -/
inductive Applied where
  /-- It raises. -/
  | raised
  /-- It returns `None`. -/
  | unsized
  /-- It returns a result. -/
  | result (size : AppliedSize)

/-- What a call of `apply_sizing` has done. -/
structure SizingRun where
  /-- The decisions that it has written. -/
  decisions : List SizingDecision := []
  /-- The events. -/
  events : List SizingEvent := []
  /-- The halts. -/
  halts : List TradingHalt
  /-- Who is flattened. -/
  onCommit : Option FlattenCall := none
  /-- What comes of it. -/
  applied : Applied

/-- The decision for a call. -/
def SizingCall.decision (call : SizingCall) (ok : Bool) (qty : ℚ) (reason : String) (inputs : DecisionInputs) :
    SizingDecision where
  user := call.user
  order := call.order
  alert := call.alert
  strategy := call.strategy
  symbol := call.symbol
  requestedQty := call.requestedQty
  computedQty := qty
  result := if ok then .ok else .reject
  rejectReason := reason
  inputs := inputs

/-- `_persist_reject`. -/
def persistReject (call : SizingCall) (reads : SizingReads) (reason : String) (inputs : DecisionInputs) : SizingRun where
  decisions := [call.decision false 0 reason inputs]
  events := [.sizingReject call.user reason call.symbol]
  halts := reads.halts
  applied := .result ⟨false, 0, reason, inputs⟩

/-- An exception before anything is written. -/
def raiseEarly (reads : SizingReads) : SizingRun where
  halts := reads.halts
  applied := .raised

/-- `None`, with nothing written. -/
def leaveUnsized (reads : SizingReads) : SizingRun where
  halts := reads.halts
  applied := .unsized

/-- The call of `trigger_halt` on a hard stop. -/
def hardStopCall (user : UserId) : TriggerCall where
  user := some user
  level := .l2
  reason := "HARD_STOP"
  auto := true
  flatten := true

/-- `meta.get("soft_stop_applied")`. -/
def SizingMeta.softStopApplied : SizingMeta → Bool
  | .none | .hardStop _ _ => false
  | .sized _ _ _ _ _ _ _ softStopApplied _ _ _ _ => softStopApplied

/-- What is written of a result of `compute_size`, which is returned then. -/
def persistResult (call : SizingCall) (reads : SizingReads) (r : SizingResult) (equity price : Figure) : SizingRun :=
  let decisions := [call.decision r.ok r.qty r.reason { details := r.details, equity := some equity, price := some price }]
  let applied := Applied.result ⟨r.ok, r.qty, r.reason, { details := r.details }⟩
  if r.ok = false then
    let events := [SizingEvent.sizingReject call.user r.reason call.symbol]
    if r.reason = "HARD_STOP" then
      match triggerHalt reads.halts (hardStopCall call.user) reads.haltId reads.now with
      | none => { decisions, events, halts := reads.halts, applied := .raised }
      | some halted =>
        { decisions
          events := events ++ (haltEvents reads.halts (hardStopCall call.user) halted).map .ofHalt
          halts := halted.halts
          onCommit := halted.onCommit
          applied }
    else { decisions, events, halts := reads.halts, applied }
  else if r.details.softStopApplied then
    { decisions, events := [.softStop call.user call.symbol true], halts := reads.halts, applied }
  else { decisions, halts := reads.halts, applied }

/-- `apply_sizing`, from the reading of the account on. -/
def sizeAccount (upper : String → String) (call : SizingCall) (reads : SizingReads) (profile : RiskProfile) :
    SizingRun :=
  match reads.account with
  | .raises => persistReject call reads "SIZING_NO_EQUITY" {}
  | .malformed => raiseEarly reads
  | .report equity lastEquity =>
    match equity.isPositive with
    | none => raiseEarly reads
    | some false => persistReject call reads "SIZING_NO_EQUITY" {}
    | some true =>
      match intradayDd equity lastEquity with
      | none => raiseEarly reads
      | some dd =>
        match resolvePrice upper reads call.symbol call.priceHint with
        | none => raiseEarly reads
        | some none => persistReject call reads "SIZING_NO_PRICE" { equity := some equity }
        | some (some price) =>
          match sizeOf upper call reads profile equity price dd with
          | none => raiseEarly reads
          | some r => persistResult call reads r equity price

/-- The asset class is none of those that are permitted. -/
def SizingProfile.blocks (profile : SizingProfile) (assetClass : String) : Bool :=
  decide (profile.permittedAssetClasses ≠ []) && decide (assetClass ≠ "") &&
    decide (assetClass ∉ profile.permittedAssetClasses)

/-- The order would open a position too many. -/
def SizingProfile.isFull (profile : SizingProfile) (upper : String → String) (openPositions : List String)
    (symbol : String) : Bool :=
  decide (0 < profile.maxConcurrent) && decide (upper symbol ∉ openPositions.map upper) &&
    decide (profile.maxConcurrent ≤ openPositions.length)

/-- `apply_sizing`. -/
def applySizing (upper : String → String) (call : SizingCall) (reads : SizingReads) : SizingRun :=
  if reads.enabled = false then leaveUnsized reads
  else
    match reads.profile with
    | none => if call.mode = .live then persistReject call reads "NO_RISK_PROFILE" {} else leaveUnsized reads
    | some profile =>
      if profile.blocks call.assetClass then
        persistReject call reads "SIZING_ASSET_CLASS_BLOCKED"
          { assetClass := some (call.assetClass, profile.permittedAssetClasses) }
      else if profile.isFull upper reads.openPositions call.symbol then
        persistReject call reads "SIZING_MAX_CONCURRENT"
          { openPositions := some (reads.openPositions.length, profile.maxConcurrent) }
      else sizeAccount upper call reads profile.toRiskProfile

/-! ### Every way out -/

/-- The decision says what the result says. -/
structure SizingDecision.Records (d : SizingDecision) (r : AppliedSize) : Prop where
  /-- The verdict. -/
  result : d.result = if r.ok then .ok else .reject
  /-- The reason. -/
  reason : d.rejectReason = r.reason
  /-- The quantity. -/
  qty : d.computedQty = r.qty

/-- A result that is returned is on record as one decision, and only once. -/
def SizingRun.Audited (run : SizingRun) : Prop :=
  ∀ r, run.applied = .result r → ∃ d, run.decisions = [d] ∧ d.Records r

variable {upper : String → String} {call : SizingCall} {reads : SizingReads}

theorem persistReject_audited (call : SizingCall) (reads : SizingReads) (reason : String) (inputs : DecisionInputs) :
    (persistReject call reads reason inputs).Audited := by
  rintro r ⟨⟩
  exact ⟨_, rfl, rfl, rfl, rfl⟩

theorem raiseEarly_audited (reads : SizingReads) : (raiseEarly reads).Audited := by
  rintro r ⟨⟩

theorem leaveUnsized_audited (reads : SizingReads) : (leaveUnsized reads).Audited := by
  rintro r ⟨⟩

theorem persistResult_audited (call : SizingCall) (reads : SizingReads) (r : SizingResult) (equity price : Figure) :
    (persistResult call reads r equity price).Audited := by
  have hrecords : ∀ inputs inputs', (call.decision r.ok r.qty r.reason inputs).Records ⟨r.ok, r.qty, r.reason, inputs'⟩ :=
    fun _ _ => ⟨rfl, rfl, rfl⟩
  intro size hsize
  unfold persistResult at hsize ⊢
  dsimp only at hsize ⊢
  split_ifs at hsize ⊢
  · cases htrigger : triggerHalt reads.halts (hardStopCall call.user) reads.haltId reads.now with
    | none =>
      rw [htrigger] at hsize
      cases hsize
    | some halted =>
      rw [htrigger] at hsize
      cases hsize
      exact ⟨_, rfl, hrecords _ _⟩
  all_goals
    cases hsize
    exact ⟨_, rfl, hrecords _ _⟩

/-- The reasons that `apply_sizing` itself has. -/
def rejectReasons : List String :=
  ["NO_RISK_PROFILE", "SIZING_ASSET_CLASS_BLOCKED", "SIZING_MAX_CONCURRENT", "SIZING_NO_EQUITY", "SIZING_NO_PRICE"]

theorem computeSize_reason (inp : SizingInputs) (profile : RiskProfile) (upper : String → String) :
    (computeSize inp profile upper).reason ∈ sizeReasons := by
  unfold computeSize
  dsimp only
  split_ifs <;> simp [sizeReasons, SizingResult.reject, SizingResult.accept]

theorem sizeOf_reason {profile : RiskProfile} {equity price : Figure} {dd : ℚ} {r : SizingResult}
    (h : sizeOf upper call reads profile equity price dd = some r) : r.reason ∈ sizeReasons := by
  unfold sizeOf at h
  split at h
  · cases h
    exact computeSize_reason _ _ _
  · obtain ⟨⟨r, hr⟩, -, rfl⟩ := Option.map_eq_some_iff.mp h
    exact hr

section
variable {P : SizingRun → Prop} (hraise : P (raiseEarly reads))
  (hreject : ∀ reason ∈ rejectReasons, ∀ inputs, P (persistReject call reads reason inputs))
  (hresult : ∀ r equity price, r.reason ∈ sizeReasons → P (persistResult call reads r equity price))
include hraise hreject hresult

theorem sizeAccount_ways (profile : RiskProfile) : P (sizeAccount upper call reads profile) := by
  unfold sizeAccount
  cases reads.account with
  | raises => exact hreject _ (by decide) _
  | malformed => exact hraise
  | report equity lastEquity =>
    dsimp only
    cases equity.isPositive with
    | none => exact hraise
    | some positive =>
      cases positive with
      | false => exact hreject _ (by decide) _
      | true =>
        dsimp only
        cases intradayDd equity lastEquity with
        | none => exact hraise
        | some dd =>
          dsimp only
          rcases resolvePrice upper reads call.symbol call.priceHint with _ | _ | price
          · exact hraise
          · exact hreject _ (by decide) _
          · dsimp only
            cases hsize : sizeOf upper call reads profile equity price dd with
            | none => exact hraise
            | some r => exact hresult r equity price (sizeOf_reason hsize)

/-- **The ways out of `apply_sizing`**: it returns `None`, raises before it has written anything, rejects the order
itself, or goes by what `compute_size` says. -/
theorem applySizing_ways
    (hunsized : reads.enabled = false ∨ (reads.profile = none ∧ call.mode ≠ .live) → P (leaveUnsized reads)) :
    P (applySizing upper call reads) := by
  unfold applySizing
  by_cases hoff : reads.enabled = false
  · rw [if_pos hoff]
    exact hunsized (.inl hoff)
  · rw [if_neg hoff]
    cases hprofile : reads.profile with
    | none =>
      dsimp only
      split_ifs with hlive
      · exact hreject _ (by decide) _
      · exact hunsized (.inr ⟨hprofile, hlive⟩)
    | some profile =>
      dsimp only
      split_ifs
      · exact hreject _ (by decide) _
      · exact hreject _ (by decide) _
      · exact sizeAccount_ways hraise hreject hresult _

end

/-- **A result that is returned is on record**, as the one decision of the call. -/
theorem applySizing_audited (upper : String → String) (call : SizingCall) (reads : SizingReads) :
    (applySizing upper call reads).Audited :=
  applySizing_ways (raiseEarly_audited reads) (fun reason _ inputs => persistReject_audited call reads reason inputs)
    (fun r equity price _ => persistResult_audited call reads r equity price) fun _ => leaveUnsized_audited reads

/-- What `compute_size` says is no `None`. -/
theorem persistResult_ne_unsized (call : SizingCall) (reads : SizingReads) (r : SizingResult) (equity price : Figure) :
    (persistResult call reads r equity price).applied ≠ .unsized := by
  unfold persistResult
  dsimp only
  split_ifs
  · cases triggerHalt reads.halts (hardStopCall call.user) reads.haltId reads.now <;> exact fun h => (nomatch h)
  all_goals exact fun h => (nomatch h)

/-- `None` is for sizing that is off, and for a paper account without a profile. -/
theorem paper_of_unsized (h : (applySizing upper call reads).applied = .unsized) :
    reads.enabled = false ∨ (reads.profile = none ∧ call.mode ≠ .live) := by
  revert h
  refine applySizing_ways (P := fun run => run.applied = .unsized →
    reads.enabled = false ∨ (reads.profile = none ∧ call.mode ≠ .live)) ?_ ?_ ?_ ?_
  · exact fun h => (nomatch h)
  · exact fun _ _ _ h => (nomatch h)
  · exact fun r equity price _ h => absurd h (persistResult_ne_unsized call reads r equity price)
  · exact fun hwhy _ => hwhy

/-- With `None`, nothing has been written down. -/
theorem decisions_of_unsized (h : (applySizing upper call reads).applied = .unsized) :
    (applySizing upper call reads).decisions = [] := by
  revert h
  refine applySizing_ways (P := fun run => run.applied = .unsized → run.decisions = []) ?_ ?_ ?_ ?_
  · exact fun _ => rfl
  · exact fun _ _ _ h => (nomatch h)
  · exact fun r equity price _ h => absurd h (persistResult_ne_unsized call reads r equity price)
  · exact fun _ _ => rfl

/-- A halt with a new key is made, or there is one. -/
theorem isSome_triggerHalt {halts : List TradingHalt} {id : HaltId} (hfresh : ∀ h ∈ halts, h.id ≠ id)
    (trigger : TriggerCall) (now : ℤ) : ∃ halted, triggerHalt halts trigger id now = some halted := by
  unfold triggerHalt
  cases firstById (halts.filter trigger.inScope) with
  | some existing => exact ⟨_, rfl⟩
  | none =>
    dsimp only
    rw [if_neg]
    · exact ⟨_, rfl⟩
    · simpa using hfresh

/-- When the call raises, nothing has been written down. -/
theorem decisions_of_raised (hfresh : ∀ h ∈ reads.halts, h.id ≠ reads.haltId)
    (h : (applySizing upper call reads).applied = .raised) : (applySizing upper call reads).decisions = [] := by
  revert h
  refine applySizing_ways (P := fun run => run.applied = .raised → run.decisions = []) ?_ ?_ ?_ ?_
  · exact fun _ => rfl
  · exact fun _ _ _ h => (nomatch h)
  · intro r equity price _
    obtain ⟨halted, hhalted⟩ := isSome_triggerHalt hfresh (hardStopCall call.user) reads.now
    unfold persistResult
    dsimp only
    rw [hhalted]
    split_ifs <;> exact fun h => (nomatch h)
  · exact fun _ _ => rfl

/-- The reason of a result is one of those that are known. -/
theorem reason_of_result {r : AppliedSize} (h : (applySizing upper call reads).applied = .result r) :
    r.reason ∈ sizeReasons ++ rejectReasons := by
  revert h
  refine applySizing_ways (P := fun run => run.applied = .result r → r.reason ∈ sizeReasons ++ rejectReasons) ?_ ?_ ?_ ?_
  · exact fun h => (nomatch h)
  · rintro reason hreason inputs ⟨⟩
    exact List.mem_append_right _ hreason
  · intro result equity price hreason hresult
    have hsame : r.reason = result.reason := by
      unfold persistResult at hresult
      dsimp only at hresult
      split_ifs at hresult
      · cases htrigger : triggerHalt reads.halts (hardStopCall call.user) reads.haltId reads.now with
        | none =>
          rw [htrigger] at hresult
          cases hresult
        | some halted =>
          rw [htrigger] at hresult
          cases hresult
          rfl
      all_goals
        cases hresult
        rfl
    rw [hsame]
    exact List.mem_append_left _ hreason
  · exact fun _ h => (nomatch h)

/-- The columns hold every reason. -/
theorem truncate_reason {r : AppliedSize} (h : (applySizing upper call reads).applied = .result r) :
    truncate r.reason 48 = r.reason ∧ truncate r.reason 64 = r.reason := by
  have hall : ∀ reason ∈ sizeReasons ++ rejectReasons, truncate reason 48 = reason ∧ truncate reason 64 = reason := by
    decide
  exact hall _ (reason_of_result h)

end StratTrader.Risk
