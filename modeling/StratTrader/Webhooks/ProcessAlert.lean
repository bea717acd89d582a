import StratTrader.Webhooks.Models

/-!
# Processing an alert

The tasks of `webhooks/tasks.py`: `process_alert`, which makes an order of an alert and
places it, and `redispatch_stranded_alerts`. A task is a program whose actions are its
queries and its call of `place_order`, so that a crash may come between any two, and other
tasks too.

A task gives `none` when it raises. What it may run into is part of its environment: which
rows the database refuses, whether the adapter can be built, what sizing says, and what
the adapter's `place_order` returns or raises.

## What is proved

`submit_ways`: what is to be shown of a property of programs, for it to hold of what is done with an
order that has been created.

What a run of `process_alert` does alone with an alert in status `RECEIVED`: it rejects the
alert (`processAlert_refused`), finds an order with the client order id
(`processAlert_duplicate`), or creates the order and goes on with it (`processAlert_new`).

## Honest scope

Pushes, audit entries, metrics and spans are left out, and with them the reloads of rows
that only these read. Sizing is a parameter, with the rows it writes for itself. Fills that
come in while an order is placed are a matter of the runs.
-/

namespace StratTrader.Webhooks

open StratTrader.Brokers StratTrader.Foundation StratTrader.Orders StratTrader.Risk

/-! ### The environment -/

/-- The adapter's `place_order`. -/
abbrev Adapter := OrderRequest → String → Except Raised OrderAck

/-- What `apply_sizing` does. -/
inductive Sizing where
  /-- It raises. -/
  | raises
  /-- `None`: sizing is off. -/
  | off
  /-- The order is refused. -/
  | refused (reason : String)
  /-- The order is sized. -/
  | sized (qty : ℚ)

/-- The environment of a run of `process_alert`. -/
structure WorkerEnv where
  /-- `timezone.now()`. -/
  now : ℤ
  /-- Whether the database takes an order's row: its columns are bounded. -/
  accepts : Order → Bool
  /-- `build_adapter`. -/
  buildAdapter : BrokerAccount → Except Raised Adapter
  /-- `apply_sizing`, of the alert, the order, the account, the quantity asked for and the price hint. -/
  sizing : AlertMessage → Order → BrokerAccount → ℚ → Option ℚ → Sizing

/-- What `process_alert` returns. -/
inductive Outcome where
  /-- There is no such alert. -/
  | alertNotFound
  /-- The alert has been processed. -/
  | alreadyProcessed
  /-- The alert is rejected, and no order is made. -/
  | alertRejected (reason : String)
  /-- There is an order with the identifier. -/
  | duplicateClientOrderId (orderId : String)
  /-- The order is rejected. -/
  | rejected (orderId reason : String)
  /-- The order may be at the broker. -/
  | needsReconcile (orderId reason : String)
  /-- The order is placed. -/
  | submitted (orderId : String) (status : Status) (brokerOrderId : String)
  deriving DecidableEq

/-! ### From the alert to the order -/

section
variable (rt : Runtime) (body : Payload)

/-- The side at the broker of an action. -/
def sideOf (action : String) : Option Side :=
  [("buy", Side.buy), ("sell", .sell), ("exit", .sell), ("buy_to_open", .buy), ("sell_to_open", .sell),
    ("buy_to_close", .buy), ("sell_to_close", .sell)].lookup action

/-- The side of our order of an action. -/
def orderSideOf (action : String) : OrderSide :=
  ([("buy", OrderSide.buy), ("sell", .sell), ("exit", .sell), ("buy_to_open", .buyToOpen),
    ("sell_to_open", .sellToOpen), ("buy_to_close", .buyToClose),
    ("sell_to_close", .sellToClose)].lookup action).getD .buy

/-- `ot_map`. -/
def orderTypeOf (raw : String) : Option Brokers.OrderType :=
  [("MKT", Brokers.OrderType.mkt), ("LMT", .lmt), ("STP", .stp), ("STP_LMT", .stpLmt)].lookup raw

/-- The asset class, if it is one of those supported. -/
def assetClassOf (raw : String) : Option AssetClass :=
  [("STOCK", AssetClass.stock), ("ETF", .etf), ("OPTION", .option), ("FUTURE", .future)].lookup raw

/-- The time in force; `DAY` is the default. -/
def tifOf (raw : String) : TimeInForce :=
  ([("DAY", TimeInForce.day), ("GTC", .gtc), ("IOC", .ioc)].lookup raw).getD .day

/-- `action`. -/
def actionOf : String := rt.lower (body.getStr "action" (.string ""))

/-- `symbol`. -/
def symbolOf : String := strip (rt.upper (body.getStr "symbol" (.string "")))

/-- `asset_raw`: an empty text is `STOCK`. -/
def assetRawOf : String :=
  let raw := strip (rt.upper (body.getStr "asset_class" (.string "STOCK")))
  if raw = "" then "STOCK" else raw

/-- `tif_raw`. -/
def tifRawOf : String :=
  strip (rt.upper (body.getStr "tif" ((body.lookup "time_in_force").getD (.string "DAY"))))

/-- `qty`: what is no finite number is zero. -/
def qtyOf : ℚ :=
  match Decimal.ofText (body.getStr "qty" .null) with
  | some (.finite qty) => qty
  | some .nonFinite => 0
  | none => 0

/-- `idem_key`. -/
def idemKeyOf : String := strip (body.getStr "idempotency_key" (.string ""))

/-- `client_order_id`: of the idempotency key, and of the alert when there is none. -/
def clientOrderIdOf (alert : AlertMessage) : String :=
  let idemKey := idemKeyOf alert.bodyJson
  if idemKey ≠ "" then "stp-" ++ truncate (rt.sha256 (alert.user ++ ":" ++ idemKey)) 32
  else "stp-" ++ alert.id

/-- The order that is created for an alert. -/
def newOrder (alert : AlertMessage) (account : BrokerAccount) : Order where
  clientOrderId := clientOrderIdOf rt alert
  user := alert.user
  strategy := some alert.strategy
  brokerAccount := some account.id
  rawAlert := some alert.id
  symbol := symbolOf rt alert.bodyJson
  side := orderSideOf (actionOf rt alert.bodyJson)
  qty := if 0 < qtyOf alert.bodyJson then qtyOf alert.bodyJson else 0

@[simp] theorem newOrder_clientOrderId (alert : AlertMessage) (account : BrokerAccount) :
    (newOrder rt alert account).clientOrderId = clientOrderIdOf rt alert := by
  simp only [newOrder]

/-- What an alert asks for, validated. -/
structure Intent where
  /-- The side at the broker. -/
  side : Side
  /-- The symbol. -/
  symbol : String
  /-- The order type. -/
  orderType : Brokers.OrderType
  /-- The limit price. -/
  limitPrice : Option ℚ
  /-- The stop price. -/
  stopPrice : Option ℚ
  /-- The time in force. -/
  timeInForce : TimeInForce
  /-- The asset class. -/
  assetClass : AssetClass
  /-- The option contract. -/
  option : Option OptionContract
  /-- The future contract. -/
  future : Option FutureContract

/-- A finite positive number, or a rejection. -/
def positive (text : String) (reason : String) : Except String ℚ :=
  match (Decimal.ofText text).bind Decimal.positive? with
  | some q => .ok q
  | none => .error reason

/-- The limit price, which limit orders must have. -/
def limitPriceOf (orderType : Brokers.OrderType) : Except String (Option ℚ) :=
  match orderType with
  | .lmt | .stpLmt =>
    (positive (body.getStr "limit_price" ((body.lookup "price").getD .null)) "ORDER_INVALID_LIMIT").map some
  | .mkt | .stp => .ok none

/-- The stop price, which stop orders must have. -/
def stopPriceOf (orderType : Brokers.OrderType) : Except String (Option ℚ) :=
  match orderType with
  | .stp | .stpLmt => (positive (body.getStr "stop_price" .null) "ORDER_INVALID_STOP").map some
  | .mkt | .lmt => .ok none

/-- The option contract, when the alert of an option names its expiry and strike. -/
def optionOf (assetClass : AssetClass) : Except String (Option OptionContract) :=
  if assetClass = .option ∧ body.truthy "option_expiry" ∧ body.truthy "option_strike" then
    let expiry := body.getStr "option_expiry" .null
    if rt.parsesDate expiry then
      (positive (body.getStr "option_strike" .null) "ORDER_INVALID_OPTION").map fun strike =>
        some ⟨expiry, strike, rt.upper (body.getStr "option_right" (.string "CALL"))⟩
    else .error "ORDER_INVALID_OPTION"
  else .ok none

/-- The future contract of the alert of a future. -/
def futureOf (symbol : String) (assetClass : AssetClass) : Option FutureContract :=
  if assetClass = .future then
    some ⟨rt.upper (body.getStr "future_root" (.string symbol)), body.getStr "future_expiry" (.string "")⟩
  else none

/-- The validation before an order is submitted: the intent, or why the order is rejected. -/
def validate : Except String Intent := do
  let some side := sideOf (actionOf rt body) | .error "INVALID_ACTION"
  if qtyOf body ≤ 0 then .error "INVALID_QTY"
  let symbol := symbolOf rt body
  if symbol = "" then .error "ORDER_UNSUPPORTED_ASSET"
  let some assetClass := assetClassOf (assetRawOf rt body) | .error "ORDER_UNSUPPORTED_ASSET"
  if '/' ∈ symbol.toList ∧ assetClass ≠ .future then .error "ORDER_UNSUPPORTED_ASSET"
  let some orderType := orderTypeOf (strip (rt.upper (body.getStr "order_type" (.string "MKT"))))
    | .error "ORDER_UNSUPPORTED_TYPE"
  let limitPrice ← limitPriceOf body orderType
  let stopPrice ← stopPriceOf body orderType
  let option ← optionOf rt body assetClass
  return {
    side, symbol, orderType, limitPrice, stopPrice, assetClass, option
    timeInForce := tifOf (tifRawOf rt body)
    future := futureOf rt body symbol assetClass }

end

/-- The order's row with the intent. -/
def Intent.resolve (intent : Intent) (orderSide : OrderSide) (order : Order) : Order :=
  { order with
    orderType := intent.orderType
    limitPrice := intent.limitPrice
    stopPrice := intent.stopPrice
    timeInForce := intent.timeInForce
    assetClass := intent.assetClass
    optionExpiry := intent.option.map OptionContract.expiry
    optionStrike := intent.option.map OptionContract.strike
    optionRight := (intent.option.map OptionContract.right).getD ""
    futureRoot := (intent.future.map FutureContract.root).getD ""
    futureExpiry := (intent.future.map FutureContract.expiry).getD ""
    side := orderSide }

/-- `_build_req`. -/
def Intent.buildReq (intent : Intent) (qty : ℚ) : OrderRequest where
  symbol := intent.symbol
  side := intent.side
  qty := qty
  orderType := intent.orderType
  limitPrice := intent.limitPrice
  stopPrice := intent.stopPrice
  timeInForce := intent.timeInForce
  assetClass := intent.assetClass
  option := intent.option
  future := intent.future

/-! ### Queries -/

/-- The alert with its strategy. -/
def State.loadAlert (s : State) (alertId : AlertId) : Option (AlertMessage × Strategy) :=
  (s.alerts.find? alertId).bind fun alert =>
    (s.strategies.find? alert.strategy).map fun strategy => (alert, strategy)

/-- The row of an order. -/
def loadOrder (clientOrderId : String) : Prog State (Option Order) :=
  .read fun s => s.db.orders.find? clientOrderId

/-- Reject an alert that no order is made for. -/
def rejectAlert (env : WorkerEnv) (alertId : AlertId) (reason : String) : Prog State (Option Outcome) := do
  .write fun s => s.setAlert alertId fun alert =>
    { alert with status := .rejected, rejectReason := reason, processedAt := some env.now }
  return some (.alertRejected reason)

/-- The account an alert is routed to, or why it is rejected. An alert that names a broker is
placed there or not at all. -/
def route (rt : Runtime) (alert : AlertMessage) : Prog State (Except String BrokerAccount) := do
  let account ← .read fun s => defaultAccount s.accounts alert.user
  let broker := strip (rt.upper (alert.bodyJson.getStr "broker" (.string "")))
  if broker ≠ "" then
    let override ← .read fun s => accountAt s.accounts alert.user broker
    match override with
    | some account => return .ok account
    | none => return .error "BROKER_NOT_CONNECTED"
  else
    match account with
    | some account => return .ok account
    | none => return .error "NO_BROKER_CONNECTED"

/-- `Order.objects.get_or_create`: whether the order was created; `none` is an exception. -/
def getOrCreate (env : WorkerEnv) (order : Order) : Prog State (Option Bool) :=
  .atomic
    (fun s => if (s.db.orders.find? order.clientOrderId).isNone ∧ env.accepts order then s.addOrder order
      else s)
    fun s => match s.db.orders.find? order.clientOrderId with
      | some _ => some false
      | none => if env.accepts order then some true else none

/-- `UPDATE` an order; `false` is an exception, and then nothing changes. -/
def updateOrder (env : WorkerEnv) (clientOrderId : String) (f : Order → Order) : Prog State Bool :=
  .atomic
    (fun s => if (s.db.orders.find? clientOrderId).all fun order => env.accepts (f order) then
        s.setOrder clientOrderId f
      else s)
    fun s => (s.db.orders.find? clientOrderId).all fun order => env.accepts (f order)

/-- `_reject`. -/
def reject (env : WorkerEnv) (clientOrderId : String) (alertId : AlertId) (reason : String) :
    Prog State (Option Outcome) := do
  .write fun s => s.setOrder clientOrderId fun order =>
    { order with status := .rejected, reason := truncate reason 64 }
  .write fun s => s.setAlert alertId fun alert =>
    { alert with status := .rejected, rejectReason := truncate reason 48, processedAt := some env.now }
  return some (.rejected clientOrderId reason)

/-- `_needs_reconcile`. -/
def needsReconcile (env : WorkerEnv) (clientOrderId : String) (alertId : AlertId) (reason : String) :
    Prog State (Option Outcome) := do
  .write fun s => s.setOrder clientOrderId fun order =>
    { order with status := .needsReconcile, reason := truncate reason 64 }
  .write fun s => s.setAlert alertId fun alert =>
    { alert with status := .accepted, processedAt := some env.now }
  return some (.needsReconcile clientOrderId reason)

/-! ### Placing the order -/

/-- `adapter.place_order`. -/
def callPlaceOrder (adapter : Adapter) (call : PlaceCall) : Prog State (Except Raised OrderAck) :=
  .atomic (fun s => { s with placed := s.placed ++ [call] })
    fun _ => adapter call.request call.clientOrderId

/-- Record the broker's identifier, if there is one. -/
def recordBrokerId (env : WorkerEnv) (clientOrderId brokerOrderId : String) : Prog State Bool :=
  if brokerOrderId ≠ "" then
    updateOrder env clientOrderId fun order => { order with brokerOrderId := brokerOrderId }
  else pure true

/-- What is recorded of an acknowledged order. The status moves only if no fill has moved it. -/
def recordAck (env : WorkerEnv) (clientOrderId : String) (alertId : AlertId) (ack : OrderAck) :
    Prog State (Option Outcome) := do
  let ok ← recordBrokerId env clientOrderId ack.brokerOrderId
  if !ok then return none
  .write fun s => s.setOrder clientOrderId fun order =>
    if order.status = .pendingSubmit then { order with status := .submitted } else order
  let some order ← loadOrder clientOrderId | return none
  .write fun s => s.setAlert alertId fun alert =>
    { alert with status := .accepted, processedAt := some env.now }
  return some (.submitted clientOrderId order.status order.brokerOrderId)

/-- Place the order, and settle the alert by what comes of it. -/
def place (env : WorkerEnv) (adapter : Adapter) (call : PlaceCall) : Prog State (Option Outcome) := do
  let result ← callPlaceOrder adapter call
  match result with
  | .ok ack => recordAck env call.clientOrderId call.alert.id ack
  | .error (.broker exc) =>
    if exc.retryable then needsReconcile env call.clientOrderId call.alert.id exc.code
    else reject env call.clientOrderId call.alert.id exc.code
  | .error (.other _) => needsReconcile env call.clientOrderId call.alert.id BrokerErrorCode.unknown

/-- Size the order and place it. -/
def sizeAndPlace (env : WorkerEnv) (adapter : Adapter) (alert : AlertMessage) (account : BrokerAccount)
    (clientOrderId : String) (order : Order) (intent : Intent) : Prog State (Option Outcome) := do
  let qty := qtyOf alert.bodyJson
  match env.sizing alert order account qty intent.limitPrice with
  | .raises => reject env clientOrderId alert.id "SIZING_ERROR"
  | .refused reason => reject env clientOrderId alert.id reason
  | .off => place env adapter ⟨clientOrderId, alert, account, intent.buildReq qty⟩
  | .sized qty =>
    let ok ← updateOrder env clientOrderId fun order => { order with qty := qty }
    if !ok then return none
    place env adapter ⟨clientOrderId, alert, account, intent.buildReq qty⟩

/-- What is done with an order that has just been created. -/
def submit (rt : Runtime) (env : WorkerEnv) (alert : AlertMessage) (account : BrokerAccount) :
    Prog State (Option Outcome) := do
  let clientOrderId := clientOrderIdOf rt alert
  match validate rt alert.bodyJson with
  | .error reason => reject env clientOrderId alert.id reason
  | .ok intent =>
    let ok ← updateOrder env clientOrderId (intent.resolve (orderSideOf (actionOf rt alert.bodyJson)))
    if !ok then return none
    let some order ← loadOrder clientOrderId | return none
    match env.buildAdapter account with
    | .error (.broker exc) => reject env clientOrderId alert.id exc.code
    | .error (.other _) => return none
    | .ok adapter => sizeAndPlace env adapter alert account clientOrderId order intent

/-! ### The tasks -/

/-- `process_alert`; `none` is an exception. -/
def processAlert (rt : Runtime) (env : WorkerEnv) (alertId : AlertId) : Prog State (Option Outcome) := do
  let some (alert, strategy) ← .read fun s => s.loadAlert alertId | return some .alertNotFound
  if alert.status ≠ .received then return some .alreadyProcessed
  if strategy.isOff then rejectAlert env alertId "STRATEGY_DISABLED"
  else
    match ← route rt alert with
    | .error reason => rejectAlert env alertId reason
    | .ok account =>
      match ← .read fun s => isBlocked s.halts alert.user alert.strategy with
      | some reason => rejectAlert env alertId reason
      | none =>
        match ← getOrCreate env (newOrder rt alert account) with
        | none => return none
        | some false => return some (.duplicateClientOrderId (clientOrderIdOf rt alert))
        | some true => submit rt env alert account

/-- The alerts received before `cutoff` that are in status `RECEIVED`. -/
def State.stranded (s : State) (cutoff : ℤ) : List AlertId :=
  (s.alerts.rows.filter fun alert => decide (alert.status = .received) && decide (alert.receivedAt < cutoff)).map
    AlertMessage.id

/-- `process_alert.delay`, once for each. -/
def dispatchAll : List AlertId → Prog State PUnit
  | [] => return
  | alertId :: alertIds => do
    .write fun s => { s with dispatched := s.dispatched ++ [alertId] }
    dispatchAll alertIds

/-- `redispatch_stranded_alerts`: how many are sent. -/
def redispatchStrandedAlerts (cutoff : ℤ) : Prog State ℕ := do
  let stranded ← .read fun s => s.stranded cutoff
  dispatchAll stranded
  return stranded.length

/-! ### The ways through `submit` -/

section
variable {rt : Runtime} {env : WorkerEnv} {alert : AlertMessage} {account : BrokerAccount}
  {P : Prog State (Option Outcome) → Prop}

/-- Placing an order is the call, and then one of three ways out. -/
theorem place_ways {call : PlaceCall} {adapter : Adapter} {Q : Prog State (Option Outcome) → Prop}
    (hack : ∀ ack, P (recordAck env call.clientOrderId call.alert.id ack))
    (hreconcile : ∀ reason, P (needsReconcile env call.clientOrderId call.alert.id reason))
    (hreject : ∀ reason, P (reject env call.clientOrderId call.alert.id reason))
    (hcall : ∀ next, (∀ result, P (next result)) → Q (callPlaceOrder adapter call >>= next)) :
    Q (place env adapter call) := by
  refine hcall _ fun result => ?_
  rcases result with (exc | exc) | ack
  · dsimp only
    split_ifs
    · exact hreconcile _
    · exact hreject _
  · exact hreconcile _
  · exact hack ack

section
variable {clientOrderId : String} (hraise : P (.ret none))
  (hreject : ∀ reason, P (reject env clientOrderId alert.id reason))
  (hupdate : ∀ f next, (∀ ok, P (next ok)) → P (updateOrder env clientOrderId f >>= next))
include hraise hreject hupdate

theorem sizeAndPlace_ways {adapter : Adapter} (order : Order) (intent : Intent)
    (hplace : ∀ request, P (place env adapter ⟨clientOrderId, alert, account, request⟩)) :
    P (sizeAndPlace env adapter alert account clientOrderId order intent) := by
  unfold sizeAndPlace
  dsimp only
  cases env.sizing alert order account (qtyOf alert.bodyJson) intent.limitPrice with
  | raises => exact hreject _
  | refused reason => exact hreject reason
  | off => exact hplace _
  | sized qty =>
    refine hupdate _ _ fun ok => ?_
    cases ok with
    | false => exact hraise
    | true => exact hplace _

/-- **The ways through `submit`**: what holds of its ways out, and is kept by the writes and the read
before them, holds of it. -/
theorem submit_ways (hid : clientOrderId = clientOrderIdOf rt alert)
    (hload : ∀ next, (∀ order, P (next order)) → P (loadOrder clientOrderId >>= next))
    (hplace : ∀ adapter request, env.buildAdapter account = .ok adapter →
      P (place env adapter ⟨clientOrderId, alert, account, request⟩)) :
    P (submit rt env alert account) := by
  subst hid
  unfold submit
  dsimp only
  cases validate rt alert.bodyJson with
  | error reason => exact hreject reason
  | ok intent =>
    refine hupdate _ _ fun ok => ?_
    cases ok with
    | false => exact hraise
    | true =>
      refine hload _ fun order => ?_
      cases order with
      | none => exact hraise
      | some order =>
        dsimp only
        cases hadapter : env.buildAdapter account with
        | error exc =>
          cases exc with
          | broker exc => exact hreject exc.code
          | other exc => exact hraise
        | ok adapter =>
          exact sizeAndPlace_ways hraise hreject hupdate order intent fun request =>
            hplace adapter request hadapter

end

end

/-! ### A run alone -/

/-- The account `route` gives. -/
def accountFor (rt : Runtime) (accounts : List BrokerAccount) (alert : AlertMessage) :
    Except String BrokerAccount :=
  let broker := strip (rt.upper (alert.bodyJson.getStr "broker" (.string "")))
  if broker ≠ "" then
    match accountAt accounts alert.user broker with
    | some account => .ok account
    | none => .error "BROKER_NOT_CONNECTED"
  else
    match defaultAccount accounts alert.user with
    | some account => .ok account
    | none => .error "NO_BROKER_CONNECTED"

/-- The account an order of the alert would be placed on, or why the alert is rejected before any
order is looked up. -/
def admitted (rt : Runtime) (s : State) (alert : AlertMessage) (strategy : Strategy) :
    Except String BrokerAccount :=
  if strategy.isOff then .error "STRATEGY_DISABLED"
  else
    match accountFor rt s.accounts alert with
    | .error reason => .error reason
    | .ok account =>
      match isBlocked s.halts alert.user alert.strategy with
      | some reason => .error reason
      | none => .ok account

theorem route_run (rt : Runtime) (alert : AlertMessage) (s : State) :
    (route rt alert).run s = (s, accountFor rt s.accounts alert) := by
  unfold route accountFor
  simp only [Prog.read_bind, Prog.run_act, id]
  split_ifs
  · simp only [Prog.run_act, id]
    cases accountAt s.accounts alert.user (strip (rt.upper (alert.bodyJson.getStr "broker" (.string "")))) <;> rfl
  · cases defaultAccount s.accounts alert.user <;> rfl

section
variable {rt : Runtime} {env : WorkerEnv} {s : State} {alertId : AlertId} {alert : AlertMessage}
  {strategy : Strategy} {account : BrokerAccount}

theorem id_of_loadAlert (h : s.loadAlert alertId = some (alert, strategy)) :
    s.alerts.find? alertId = some alert ∧ alert.id = alertId := by
  obtain ⟨a, ha, hs⟩ := Option.bind_eq_some_iff.mp h
  obtain ⟨t, -, heq⟩ := Option.map_eq_some_iff.mp hs
  obtain rfl : a = alert := (Prod.mk.inj heq).1
  exact ⟨ha, Table.key_of_find? ha⟩

/-- The part of a run after the alert is loaded and found to be in status `RECEIVED`. -/
theorem processAlert_run (h : s.loadAlert alertId = some (alert, strategy))
    (hreceived : alert.status = .received) :
    (processAlert rt env alertId).run s =
      match admitted rt s alert strategy with
      | .error reason => (rejectAlert env alertId reason).run s
      | .ok account =>
        (getOrCreate env (newOrder rt alert account) >>= fun created => match created with
          | none => return none
          | some false => return some (.duplicateClientOrderId (clientOrderIdOf rt alert))
          | some true => submit rt env alert account).run s := by
  unfold processAlert admitted
  rw [Prog.read_bind, Prog.run_act, id, h]
  simp only [hreceived, ne_eq, not_true_eq_false, if_false]
  split_ifs
  · rfl
  · rw [Prog.run_bind, route_run]
    cases accountFor rt s.accounts alert with
    | error reason => rfl
    | ok account =>
      simp only [Prog.read_bind, Prog.run_act, id]
      cases isBlocked s.halts alert.user alert.strategy <;> rfl

/-- An alert that is not admitted is rejected. -/
theorem processAlert_refused (h : s.loadAlert alertId = some (alert, strategy))
    (hreceived : alert.status = .received) {reason : String}
    (hadmitted : admitted rt s alert strategy = .error reason) :
    (processAlert rt env alertId).run s = (rejectAlert env alertId reason).run s := by
  rw [processAlert_run h hreceived, hadmitted]

/-- When there is an order with the client order id, nothing is done. -/
theorem processAlert_duplicate (h : s.loadAlert alertId = some (alert, strategy))
    (hreceived : alert.status = .received) (hadmitted : admitted rt s alert strategy = .ok account)
    {order : Order} (horder : s.db.orders.find? (clientOrderIdOf rt alert) = some order) :
    (processAlert rt env alertId).run s = (s, some (.duplicateClientOrderId (clientOrderIdOf rt alert))) := by
  rw [processAlert_run h hreceived, hadmitted]
  simp only [getOrCreate, Prog.atomic_bind, Prog.run_act, newOrder_clientOrderId, horder,
    Option.isNone_some, Bool.false_eq_true, false_and, if_false]
  rfl

/-- When there is none, the order is created, unless the database refuses it, and submitted. -/
theorem processAlert_new (h : s.loadAlert alertId = some (alert, strategy))
    (hreceived : alert.status = .received) (hadmitted : admitted rt s alert strategy = .ok account)
    (horder : s.db.orders.find? (clientOrderIdOf rt alert) = none) :
    (processAlert rt env alertId).run s =
      if env.accepts (newOrder rt alert account) then
        (submit rt env alert account).run (s.addOrder (newOrder rt alert account))
      else (s, none) := by
  rw [processAlert_run h hreceived, hadmitted]
  simp only [getOrCreate, Prog.atomic_bind, Prog.run_act, newOrder_clientOrderId, horder,
    Option.isNone_none, true_and]
  split_ifs <;> rfl

end

/-! ### Samples -/

/-- A change of every character. -/
def mapChars (f : Char → Char) (s : String) : String := String.ofList (s.toList.map f)

/-- The libraries, as they treat ASCII texts and the text `u:k`. -/
def sampleRuntime : Runtime where
  upper := mapChars Char.toUpper
  lower := mapChars Char.toLower
  sha256 s := if s = "u:k" then "ed1c5fb31de7acab679ea707ff093f8b20aaa9a3d5391f4dd911176893f51cf0" else ""
  parsesDate _ := false
  schemaError _ _ := none
  printable _ := true

/-- An alert that buys 10 of `AAPL`. -/
def sampleAlert (id : AlertId) (idempotencyKey : String) : AlertMessage where
  id := id
  user := "u"
  strategy := "st"
  bodyJson := [("qty", .number "10"), ("action", .string "buy"), ("symbol", .string "AAPL"),
    ("idempotency_key", .string idempotencyKey)]
  idempotencyKey := idempotencyKey
  receivedAt := 0

/-- Two alerts whose keys differ by a blank, an enabled strategy, and an account. -/
def sampleState : State where
  db := ⟨Table.empty, Table.empty, Table.empty⟩
  alerts := (Table.empty.put (sampleAlert "a1" "k")).put (sampleAlert "a2" " k")
  strategies := Table.empty.put ⟨"st", true, none⟩
  accounts := [⟨"acct", "u", "ALPACA", .paper, true, .connected, 0⟩]
  halts := []
  configs := Table.empty
  cache _ := none

/-- An environment without sizing, in which nothing is refused. -/
def workerEnvOf (adapter : Adapter) : WorkerEnv where
  now := 1
  accepts _ := true
  buildAdapter _ := .ok adapter
  sizing _ _ _ _ _ := .off

/-- A broker that takes every order. -/
def sampleWorkerEnv : WorkerEnv :=
  workerEnvOf fun request clientOrderId => .ok ⟨clientOrderId, "b1", .submitted, request.symbol, request.qty, 0⟩

example : ((processAlert sampleRuntime sampleWorkerEnv "a1").run sampleState).2 =
    some (.submitted "stp-ed1c5fb31de7acab679ea707ff093f8b" .submitted "b1") := by decide +kernel

end StratTrader.Webhooks
