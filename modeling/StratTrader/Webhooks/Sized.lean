import StratTrader.Orders.Positions
import StratTrader.Risk.Integration
import StratTrader.Webhooks.Columns
import StratTrader.Webhooks.Placing

/-!
# Orders are sized as decided

`process_alert` with the `apply_sizing` that it calls: what sizing writes down, and what becomes of the
order.

## What is proved

* `processAlert_asked`, `placed_of_not_asked`: a run either comes to its call of `apply_sizing`, or places
  no order.
* `sizing_obeyed`: a result of sizing is on record as one decision, and an accepted order is placed with
  the quantity of that decision, while a rejected one is rejected for its reason; no live account goes
  unsized for want of a profile.

## Honest scope

The database takes every row, and new halts have new keys. The rows that sizing writes are kept beside
the state of `process_alert`, which does not read them.
-/

namespace StratTrader.Brokers

/-- The text of an asset class. -/
def AssetClass.value : AssetClass → String
  | .stock => "STOCK"
  | .etf => "ETF"
  | .option => "OPTION"
  | .future => "FUTURE"

end StratTrader.Brokers

namespace StratTrader.Webhooks

open StratTrader.Brokers StratTrader.Foundation StratTrader.Orders StratTrader.Risk

/-! ### The call of `apply_sizing` -/

/-- What sizing is called with. -/
def sizingCall (rt : Runtime) (alert : AlertMessage) (order : Order) (account : BrokerAccount) (qty : ℚ)
    (priceHint : Option ℚ) : SizingCall where
  user := alert.user
  alert := alert.id
  order := order.clientOrderId
  strategy := order.strategy
  assetClass := order.assetClass.value
  futureRoot := order.futureRoot
  mode := account.mode
  requestedQty := qty
  side := (orderSideOf (actionOf rt alert.bodyJson)).value
  symbol := symbolOf rt alert.bodyJson
  priceHint := priceHint

/-- What `process_alert` makes of a call. -/
def Sizing.ofRun (run : SizingRun) : Sizing :=
  match run.applied with
  | .raised => .raises
  | .unsized => .off
  | .result r => if r.ok then .sized r.qty else .refused r.reason

/-- The environment whose sizing is `apply_sizing`. -/
def WorkerEnv.sizedBy (env : WorkerEnv) (rt : Runtime) (reads : SizingReads) : WorkerEnv :=
  { env with
    sizing := fun alert order account qty priceHint =>
      .ofRun (applySizing rt.upper (sizingCall rt alert order account qty priceHint) reads) }

/-- What sizing does about the order of an alert. -/
def sizingRunOf (rt : Runtime) (reads : SizingReads) (alert : AlertMessage) (account : BrokerAccount)
    (intent : Intent) : SizingRun :=
  applySizing rt.upper (sizingCall rt alert (resolvedOrder rt alert account intent) account (qtyOf alert.bodyJson)
    intent.limitPrice) reads

/-- A run of `process_alert` comes to its call of `apply_sizing`. -/
structure SizingAsked (rt : Runtime) (env : WorkerEnv) (s : State) (alertId : AlertId) (alert : AlertMessage)
    (account : BrokerAccount) (intent : Intent) (adapter : Adapter) : Prop where
  /-- The alert is loaded, and admitted for the account. -/
  loaded : ∃ strategy, s.loadAlert alertId = some (alert, strategy) ∧ admitted rt s alert strategy = .ok account
  /-- It has not been processed. -/
  received : alert.status = .received
  /-- It has no order. -/
  unordered : s.db.orders.find? (clientOrderIdOf rt alert) = none
  /-- It is valid. -/
  valid : validate rt alert.bodyJson = .ok intent
  /-- The adapter is built. -/
  built : env.buildAdapter account = .ok adapter

section
variable {rt : Runtime} {env : WorkerEnv} {s : State} {alertId : AlertId} {alert : AlertMessage}
  {account : BrokerAccount} {intent : Intent} {adapter : Adapter} (haccepts : ∀ order, env.accepts order = true)
include haccepts

/-- A valid order whose adapter is built is sized and placed, with its row resolved. -/
theorem submit_run (horder : s.db.orders.find? (clientOrderIdOf rt alert) = some (newOrder rt alert account)) :
    (submit rt env alert account).run s =
      match validate rt alert.bodyJson with
      | .error reason => (reject env (clientOrderIdOf rt alert) alert.id reason).run s
      | .ok intent =>
        let t := s.setOrder (clientOrderIdOf rt alert) (intent.resolve (orderSideOf (actionOf rt alert.bodyJson)))
        match env.buildAdapter account with
        | .error (.broker exc) => (reject env (clientOrderIdOf rt alert) alert.id exc.code).run t
        | .error (.other _) => (t, none)
        | .ok adapter =>
          (sizeAndPlace env adapter alert account (clientOrderIdOf rt alert) (resolvedOrder rt alert account intent)
            intent).run t := by
  unfold submit
  dsimp only
  cases validate rt alert.bodyJson with
  | error reason => rfl
  | ok intent =>
    dsimp only
    rw [updateOrder_bind_run _ _ horder, if_pos (haccepts _)]
    have hread := find?_setOrder (f := intent.resolve (orderSideOf (actionOf rt alert.bodyJson))) (fun _ => rfl) horder
    simp only [Bool.not_true, Bool.false_eq_true, if_false, loadOrder, Prog.read_bind, Prog.run_act, id]
    rw [hread]
    dsimp only
    cases env.buildAdapter account with
    | error exc => cases exc <;> rfl
    | ok adapter => rfl

/-- The order of an admitted alert is created, and submitted. -/
theorem processAlert_created {strategy : Strategy} (hload : s.loadAlert alertId = some (alert, strategy))
    (hreceived : alert.status = .received) (hadmitted : admitted rt s alert strategy = .ok account)
    (hnew : s.db.orders.find? (clientOrderIdOf rt alert) = none) :
    (processAlert rt env alertId).run s =
        (submit rt env alert account).run (s.addOrder (newOrder rt alert account)) ∧
      (s.addOrder (newOrder rt alert account)).db.orders.find? (clientOrderIdOf rt alert) =
        some (newOrder rt alert account) := by
  refine ⟨?_, ?_⟩
  · rw [processAlert_new hload hreceived hadmitted hnew, if_pos (haccepts _)]
  · have hput := Table.find?_put_self s.db.orders (newOrder rt alert account)
    rwa [newOrder_clientOrderId] at hput

/-- **A run that comes to sizing** sizes the resolved order and places it. -/
theorem processAlert_asked (h : SizingAsked rt env s alertId alert account intent adapter) :
    ∃ t, (processAlert rt env alertId).run s =
        (sizeAndPlace env adapter alert account (clientOrderIdOf rt alert) (resolvedOrder rt alert account intent)
          intent).run t ∧
      t.placed = s.placed ∧ t.alerts = s.alerts ∧
      t.db.orders.find? (clientOrderIdOf rt alert) = some (resolvedOrder rt alert account intent) := by
  obtain ⟨strategy, hload, hadmitted⟩ := h.loaded
  obtain ⟨hrun, horder⟩ := processAlert_created haccepts hload h.received hadmitted h.unordered
  rw [submit_run haccepts horder, h.valid] at hrun
  dsimp only at hrun
  rw [h.built] at hrun
  exact ⟨_, hrun, rfl, rfl, find?_setOrder (fun _ => rfl) horder⟩

/-- **A run that does not come to sizing places no order.** -/
theorem placed_of_not_asked
    (h : ∀ alert account intent adapter, ¬ SizingAsked rt env s alertId alert account intent adapter) :
    ((processAlert rt env alertId).run s).1.placed = s.placed := by
  cases hload : s.loadAlert alertId with
  | none =>
    unfold processAlert
    rw [Prog.read_bind, Prog.run_act, id, hload]
    rfl
  | some loaded =>
    obtain ⟨alert, strategy⟩ := loaded
    by_cases hreceived : alert.status = .received
    · cases hadmitted : admitted rt s alert strategy with
      | error reason =>
        rw [processAlert_refused hload hreceived hadmitted]
        rfl
      | ok account =>
        cases hnew : s.db.orders.find? (clientOrderIdOf rt alert) with
        | some order =>
          rw [processAlert_duplicate hload hreceived hadmitted hnew]
        | none =>
          obtain ⟨hrun, horder⟩ := processAlert_created haccepts hload hreceived hadmitted hnew
          rw [hrun, submit_run haccepts horder]
          cases hvalid : validate rt alert.bodyJson with
          | error reason => rfl
          | ok intent =>
            dsimp only
            cases hbuilt : env.buildAdapter account with
            | error exc => cases exc <;> rfl
            | ok adapter => exact absurd ⟨⟨strategy, hload, hadmitted⟩, hreceived, hnew, hvalid, hbuilt⟩ (h _ _ _ _)
    · unfold processAlert
      rw [Prog.read_bind, Prog.run_act, id, hload]
      simp only [ne_eq, hreceived, not_false_eq_true, if_true]
      rfl

end

/-! ### What becomes of the order -/

section
variable {env : WorkerEnv} {adapter : Adapter} {t : State}

/-- Placing an order is one call, whatever comes of it. -/
theorem place_placed (env : WorkerEnv) (adapter : Adapter) (call : PlaceCall) (t : State) :
    ((place env adapter call).run t).1.placed = t.placed ++ [call] := by
  have hrest : ∀ {p : Prog State (Option Outcome)}, p.Always Untouched → ∀ u, (p.run u).1.placed = u.placed :=
    fun hp u => (hp.ends (framed_untouched.refl) (fun hst htu =>
      ⟨htu.1.trans hst.1, htu.2.1.trans hst.2.1, htu.2.2.trans hst.2.2⟩) u).2.2
  unfold place callPlaceOrder
  rw [Prog.atomic_bind, Prog.run_act]
  rcases adapter call.request call.clientOrderId with (exc | exc) | ack
  · dsimp only
    split_ifs
    · exact hrest (framed_untouched.needsReconcile env _ _ _) _
    · exact hrest (framed_untouched.reject env _ _ _) _
  · exact hrest (framed_untouched.needsReconcile env _ _ _) _
  · exact hrest (framed_untouched.recordAck env _ _ _) _

end

/-- The order is rejected for a reason, and none is placed. -/
structure RejectedFor (s : State) (alertId : AlertId) (clientOrderId reason : String) (after : State × Option Outcome) :
    Prop where
  /-- No order is placed. -/
  placed : after.1.placed = s.placed
  /-- What is returned. -/
  outcome : after.2 = some (.rejected clientOrderId reason)
  /-- The row of the order. -/
  order : ∃ order, after.1.db.orders.find? clientOrderId = some order ∧ order.status = .rejected ∧ order.reason = reason
  /-- The row of the alert. -/
  alert : ∃ alert, after.1.alerts.find? alertId = some alert ∧ alert.status = .rejected ∧ alert.rejectReason = reason

/-- A reason that fits is what the order and the alert are rejected for. -/
theorem reject_rejectedFor {env : WorkerEnv} {s t : State} {alert : AlertMessage} {order : Order}
    {clientOrderId reason : String} (hplaced : t.placed = s.placed) (halert : t.alerts.find? alert.id = some alert)
    (horder : t.db.orders.find? clientOrderId = some order)
    (hfits : truncate reason 48 = reason ∧ truncate reason 64 = reason) :
    RejectedFor s alert.id clientOrderId reason ((reject env clientOrderId alert.id reason).run t) := by
  refine ⟨hplaced, rfl, ?_, ?_⟩
  · refine ⟨{ order with status := .rejected, reason := truncate reason 64 }, ?_, rfl, hfits.2⟩
    exact find?_setOrder (fun _ => rfl) horder
  · refine ⟨{ alert with status := .rejected, rejectReason := truncate reason 48, processedAt := some env.now },
      ?_, rfl, hfits.1⟩
    have hfind := Table.find?_modify t.alerts alert.id (f := fun alert : AlertMessage =>
      { alert with status := .rejected, rejectReason := truncate reason 48, processedAt := some env.now })
      (fun _ => rfl) alert.id
    rw [if_pos rfl, halert] at hfind
    exact hfind

/-- What is claimed of a run that comes to sizing, by what sizing comes to. -/
structure SizingObeyed (reads : SizingReads) (s : State) (alert : AlertMessage) (account : BrokerAccount)
    (intent : Intent) (clientOrderId : String) (run : SizingRun) (after : State × Option Outcome) : Prop where
  /-- A result is on record, and accepted: the order is placed with the quantity of the decision. -/
  accepted : ∀ r, run.applied = .result r → r.ok = true → ∃ d, run.decisions = [d] ∧ d.Records r ∧
    after.1.placed = s.placed ++ [⟨clientOrderId, alert, account, intent.buildReq d.computedQty⟩]
  /-- A result is on record, and not accepted: the order is rejected for the reason of the decision. -/
  rejected : ∀ r, run.applied = .result r → r.ok = false → ∃ d, run.decisions = [d] ∧ d.Records r ∧
    RejectedFor s alert.id clientOrderId d.rejectReason after
  /-- Sizing raises, without a decision: the order is rejected. -/
  raised : run.applied = .raised → run.decisions = [] ∧ RejectedFor s alert.id clientOrderId "SIZING_ERROR" after
  /-- `None`, without a decision: the order, of a paper account without a profile, is placed as it was requested. -/
  unsized : run.applied = .unsized → run.decisions = [] ∧ account.mode ≠ .live ∧ reads.profile = none ∧
    after.1.placed = s.placed ++ [⟨clientOrderId, alert, account, intent.buildReq (qtyOf alert.bodyJson)⟩]

variable {rt : Runtime} {env : WorkerEnv} {reads : SizingReads} {s : State} {alertId : AlertId} {alert : AlertMessage}
  {account : BrokerAccount} {intent : Intent} {adapter : Adapter}

/-- **A run that comes to sizing goes by it.** -/
theorem sizingObeyed_of_asked (haccepts : ∀ order, env.accepts order = true)
    (hfresh : ∀ h ∈ reads.halts, h.id ≠ reads.haltId) (hon : reads.enabled = true)
    (h : SizingAsked rt (env.sizedBy rt reads) s alertId alert account intent adapter) :
    SizingObeyed reads s alert account intent (clientOrderIdOf rt alert) (sizingRunOf rt reads alert account intent)
      ((processAlert rt (env.sizedBy rt reads) alertId).run s) := by
  have haccepts : ∀ order, (env.sizedBy rt reads).accepts order = true := haccepts
  obtain ⟨t, hrun, hplaced, halerts, horder⟩ := processAlert_asked haccepts h
  obtain ⟨strategy, hload, -⟩ := h.loaded
  have halert : t.alerts.find? alert.id = some alert := by
    obtain ⟨hfind, hid⟩ := id_of_loadAlert hload
    rw [halerts, hid, hfind]
  have hsizing : (env.sizedBy rt reads).sizing alert (resolvedOrder rt alert account intent) account
      (qtyOf alert.bodyJson) intent.limitPrice = .ofRun (sizingRunOf rt reads alert account intent) := rfl
  unfold sizeAndPlace at hrun
  dsimp only at hrun
  rw [hsizing] at hrun
  unfold Sizing.ofRun at hrun
  refine ⟨fun r hr hok => ?_, fun r hr hnot => ?_, fun hraised => ?_, fun hunsized => ?_⟩
  · obtain ⟨d, hd, hrecords⟩ := applySizing_audited _ _ _ r hr
    refine ⟨d, hd, hrecords, ?_⟩
    rw [hr] at hrun
    simp only [hok, if_true] at hrun
    rw [updateOrder_bind_run _ _ horder, if_pos (haccepts _)] at hrun
    simp only [Bool.not_true, Bool.false_eq_true, if_false] at hrun
    rw [hrun, place_placed, hrecords.qty]
    exact congrArg (· ++ [_]) hplaced
  · obtain ⟨d, hd, hrecords⟩ := applySizing_audited _ _ _ r hr
    refine ⟨d, hd, hrecords, ?_⟩
    rw [hr] at hrun
    simp only [hnot, Bool.false_eq_true, if_false] at hrun
    rw [hrun, hrecords.reason]
    exact reject_rejectedFor hplaced halert horder (truncate_reason hr)
  · refine ⟨decisions_of_raised hfresh hraised, ?_⟩
    rw [hraised] at hrun
    dsimp only at hrun
    rw [hrun]
    exact reject_rejectedFor hplaced halert horder (by decide)
  · rcases paper_of_unsized hunsized with hoff | ⟨hnone, hpaper⟩
    · rw [hon] at hoff
      cases hoff
    · refine ⟨decisions_of_unsized hunsized, hpaper, hnone, ?_⟩
      rw [hunsized] at hrun
      dsimp only at hrun
      rw [hrun, place_placed, hplaced]

/-- **Sizing decisions are complete and obeyed**, while sizing is on: a result that is returned is the one decision on
record, no live account without a profile gets `None`, and a run of `process_alert` goes by the decision, or places no
order. -/
theorem sizing_obeyed (haccepts : ∀ order, env.accepts order = true)
    (hfresh : ∀ h ∈ reads.halts, h.id ≠ reads.haltId) (hon : reads.enabled = true) :
    (∀ call, (applySizing rt.upper call reads).Audited) ∧
    (∀ call : SizingCall, call.mode = .live → reads.profile = none → (applySizing rt.upper call reads).applied ≠ .unsized) ∧
    ∀ s alertId,
      (∀ alert account intent adapter, SizingAsked rt (env.sizedBy rt reads) s alertId alert account intent adapter →
        SizingObeyed reads s alert account intent (clientOrderIdOf rt alert) (sizingRunOf rt reads alert account intent)
          ((processAlert rt (env.sizedBy rt reads) alertId).run s)) ∧
      ((∀ alert account intent adapter, ¬ SizingAsked rt (env.sizedBy rt reads) s alertId alert account intent adapter) →
        ((processAlert rt (env.sizedBy rt reads) alertId).run s).1.placed = s.placed) := by
  have haccepts' : ∀ order, (env.sizedBy rt reads).accepts order = true := haccepts
  refine ⟨fun call => applySizing_audited _ _ _, fun call hlive hnone hunsized => ?_, fun s alertId => ⟨?_, ?_⟩⟩
  · rcases paper_of_unsized hunsized with hoff | ⟨-, hpaper⟩
    · rw [hon] at hoff
      cases hoff
    · exact hpaper hlive
  · exact fun alert account intent adapter h => sizingObeyed_of_asked haccepts hfresh hon h
  · exact placed_of_not_asked haccepts'

/-! ### Samples -/

/-- A profile that allows a fifth of the equity for a position, an equity of 100000 and a quote of 100. -/
def sampleReads : SizingReads where
  enabled := true
  profile := some
    { riskPerTradePct := 1, maxPositionPct := 20, leverageCap := some 1, softStopPct := 5, hardStopPct := some 10,
      strictMode := false, atrFactor := 3 / 2, maxConcurrent := 5, permittedAssetClasses := ["STOCK"] }
  openPositions := []
  account := .report (.finite 100000) (.finite 100000)
  quote := some (.finite 100)
  bars := []
  regimes := []
  sentiments := []
  infiniteSize := none
  halts := []
  haltId := "h1"
  now := 1

/-- The account of the sample state. -/
def sampleAccount : BrokerAccount := ⟨"acct", "u", "ALPACA", .paper, true, .connected, 0⟩

/-- The intent of its alerts. -/
def sampleIntent : Intent := ⟨.buy, "AAPL", .mkt, none, none, .day, .stock, none, none⟩

deriving instance DecidableEq for Intent

/-- Its first alert comes to sizing. -/
theorem sampleAsked (adapter : Adapter) :
    SizingAsked sampleRuntime ((workerEnvOf adapter).sizedBy sampleRuntime sampleReads) sampleState "a1"
      (sampleAlert "a1" "k") sampleAccount sampleIntent adapter where
  loaded := ⟨⟨"st", true, none⟩, by decide +kernel, by rfl⟩
  received := rfl
  unordered := by decide +kernel
  valid := by decide +kernel
  built := rfl

/-- It is placed with the quantity of the decision. -/
theorem sizing_obeyed_sample :
    ((processAlert sampleRuntime (sampleWorkerEnv.sizedBy sampleRuntime sampleReads) "a1").run sampleState).1.placed =
      [⟨clientOrderIdOf sampleRuntime (sampleAlert "a1" "k"), sampleAlert "a1" "k", sampleAccount,
        sampleIntent.buildReq 10⟩] := by
  have hall := @sizing_obeyed sampleRuntime sampleWorkerEnv sampleReads (fun _ => rfl)
    (fun _ h => absurd h List.not_mem_nil) rfl
  have hobeyed := (hall.2.2 sampleState "a1").1 _ _ _ _ (sampleAsked _)
  have hdecided : ((sizingRunOf sampleRuntime sampleReads (sampleAlert "a1" "k") sampleAccount sampleIntent).decisions.map
      fun d => (d.result, d.computedQty)) = [(.ok, 10)] := by decide +kernel
  have happlied : (match (sizingRunOf sampleRuntime sampleReads (sampleAlert "a1" "k") sampleAccount
      sampleIntent).applied with | .result r => r.ok | _ => false) = true := by decide +kernel
  cases hrun : (sizingRunOf sampleRuntime sampleReads (sampleAlert "a1" "k") sampleAccount sampleIntent).applied with
  | raised =>
    rw [hrun] at happlied
    cases happlied
  | unsized =>
    rw [hrun] at happlied
    cases happlied
  | result r =>
    rw [hrun] at happlied
    obtain ⟨d, hd, -, hplaced⟩ := hobeyed.accepted r hrun happlied
    rw [hd] at hdecided
    have hqty : d.computedQty = 10 := congrArg Prod.snd (List.cons.inj hdecided).1
    rw [hplaced, hqty]
    rfl

end StratTrader.Webhooks
