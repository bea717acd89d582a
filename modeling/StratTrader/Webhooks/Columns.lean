import StratTrader.Webhooks.Settling

/-!
# What the columns of an order take

The body of an alert is free text in most of its members, and `process_alert` writes what
it makes of them into columns of bounded length. Postgres refuses a row with a value that
does not fit, the task raises, and the alert stays in status `RECEIVED`. The rows are
written at four places: when the order is created, when the intent is resolved, when the
order is sized, and when the broker's identifier is recorded.

## What is proved

* `concluded_iff`: a run that finds no order with the alert's client order id accepts or
  rejects the alert if and only if the alert is not admitted, or each value it writes fits
  the column it is written to and `build_adapter` raises nothing but `BrokerError`.

## Honest scope

Postgres rounds a number to the places of its column first, half away from zero, and Python
rounds half to even: the largest number with the column's digits is odd, so that they agree
on what fits. The database is taken to refuse a row for too long a text or for too many digits
only, not for a number of decimal places that it cannot hold at all. The columns with choices hold
texts of the code, which fit.
-/

namespace StratTrader.Orders

open StratTrader.Brokers StratTrader.Foundation

/-- A `CharField` takes the text. -/
def fitsLength (maxLength : ℕ) (s : String) : Bool := decide (s.length ≤ maxLength)

/-- A `DecimalField` takes the number: rounded to its places, it has no more digits than allowed. -/
def fitsDigits (maxDigits places : ℕ) (q : ℚ) : Bool :=
  decide ((Decimal.roundHalfEven (q * 10 ^ places)).natAbs < 10 ^ maxDigits)

/-- The columns of `Order` take the values of a row. -/
def Order.fitsColumns (order : Order) : Bool :=
  fitsLength 128 order.clientOrderId && fitsLength 128 order.brokerOrderId && fitsLength 32 order.symbol &&
    fitsDigits 18 8 order.qty && order.limitPrice.all (fitsDigits 18 4) && order.stopPrice.all (fitsDigits 18 4) &&
    order.optionStrike.all (fitsDigits 18 4) && fitsLength 4 order.optionRight && fitsLength 8 order.futureRoot &&
    fitsLength 8 order.futureExpiry && fitsLength 64 order.reason && fitsDigits 18 8 order.filledQty

end StratTrader.Orders

namespace StratTrader.Webhooks

open StratTrader.Brokers StratTrader.Foundation StratTrader.Orders StratTrader.Risk

/-! ### What has to fit -/

/-- The columns take the resolved intent. -/
structure Intent.Fits (intent : Intent) : Prop where
  /-- `limit_price`. -/
  limitPrice : intent.limitPrice.all (fitsDigits 18 4) = true
  /-- `stop_price`. -/
  stopPrice : intent.stopPrice.all (fitsDigits 18 4) = true
  /-- `option_strike`. -/
  optionStrike : (intent.option.map OptionContract.strike).all (fitsDigits 18 4) = true
  /-- `option_right`. -/
  optionRight : fitsLength 4 ((intent.option.map OptionContract.right).getD "") = true
  /-- `future_root`. -/
  futureRoot : fitsLength 8 ((intent.future.map FutureContract.root).getD "") = true
  /-- `future_expiry`. -/
  futureExpiry : fitsLength 8 ((intent.future.map FutureContract.expiry).getD "") = true

/-- The quantity that is placed, when sizing neither fails nor refuses the order. -/
def Sizing.placedQty (requested : ℚ) : Sizing → Option ℚ
  | .off => some requested
  | .sized qty => some qty
  | .raises | .refused _ => none

section
variable (rt : Runtime) (env : WorkerEnv) (alert : AlertMessage) (account : BrokerAccount)

/-- The order's row when its intent has been resolved. -/
def resolvedOrder (intent : Intent) : Order :=
  intent.resolve (orderSideOf (actionOf rt alert.bodyJson)) (newOrder rt alert account)

/-- What sizing says of the resolved order. -/
def sizingOf (intent : Intent) : Sizing :=
  env.sizing alert (resolvedOrder rt alert account intent) account (qtyOf alert.bodyJson) intent.limitPrice

/-- What an alert with a valid intent comes to fits the columns it is written to. -/
structure IntentFits (intent : Intent) : Prop where
  /-- The columns of the intent. -/
  columns : intent.Fits
  /-- `build_adapter` raises nothing but `BrokerError`. -/
  builds : ∀ exc, env.buildAdapter account ≠ .error (.other exc)
  /-- The quantity that is placed. -/
  qty : ∀ adapter, env.buildAdapter account = .ok adapter →
    ∀ qty, (sizingOf rt env alert account intent).placedQty (qtyOf alert.bodyJson) = some qty →
      fitsDigits 18 8 qty = true
  /-- The broker's identifier. -/
  brokerOrderId : ∀ adapter, env.buildAdapter account = .ok adapter →
    ∀ qty, (sizingOf rt env alert account intent).placedQty (qtyOf alert.bodyJson) = some qty →
      ∀ ack, adapter (intent.buildReq qty) (clientOrderIdOf rt alert) = .ok ack →
        fitsLength 128 ack.brokerOrderId = true

/-- Every value that is written for an alert fits the column it is written to. -/
structure AlertFits : Prop where
  /-- `symbol`. -/
  symbol : fitsLength 32 (symbolOf rt alert.bodyJson) = true
  /-- `qty`, when it is positive. -/
  qty : 0 < qtyOf alert.bodyJson → fitsDigits 18 8 (qtyOf alert.bodyJson) = true
  /-- What comes after the validation. -/
  resolved : ∀ intent, validate rt alert.bodyJson = .ok intent → IntentFits rt env alert account intent

end

/-! ### The writes -/

section
variable {rt : Runtime} {env : WorkerEnv} {s : State} {alert : AlertMessage} {account : BrokerAccount}
  {clientOrderId : String} {order : Order}

theorem fitsDigits_zero (maxDigits places : ℕ) : fitsDigits maxDigits places 0 = true := by
  have hround : Decimal.roundHalfEven 0 = 0 := by decide +kernel
  simp [fitsDigits, hround]

theorem truncate_length_le (t : String) (n : ℕ) : (truncate t n).length ≤ n := by
  simp [truncate]

/-- The client order id of an alert whose primary key is a UUID. -/
theorem fitsLength_clientOrderIdOf (rt : Runtime) (hid : alert.id.length ≤ 36) :
    fitsLength 128 (clientOrderIdOf rt alert) = true := by
  have hstp : ("stp-" : String).length = 4 := rfl
  rw [fitsLength, decide_eq_true_eq]
  by_cases hkey : idemKeyOf alert.bodyJson = ""
  · have hvalue : clientOrderIdOf rt alert = "stp-" ++ alert.id := if_neg (not_not.mpr hkey)
    rw [hvalue, String.length_append]
    omega
  · have hvalue : clientOrderIdOf rt alert =
        "stp-" ++ truncate (rt.sha256 (alert.user ++ ":" ++ idemKeyOf alert.bodyJson)) 32 := if_pos hkey
    have hdigest := truncate_length_le (rt.sha256 (alert.user ++ ":" ++ idemKeyOf alert.bodyJson)) 32
    rw [hvalue, String.length_append]
    omega

/-- A new order fits if its symbol and its quantity do. -/
theorem newOrder_fitsColumns (rt : Runtime) (account : BrokerAccount) (hid : alert.id.length ≤ 36) :
    (newOrder rt alert account).fitsColumns = true ↔
      fitsLength 32 (symbolOf rt alert.bodyJson) = true ∧
        (0 < qtyOf alert.bodyJson → fitsDigits 18 8 (qtyOf alert.bodyJson) = true) := by
  have hclient := fitsLength_clientOrderIdOf rt hid
  have hempty : ∀ n, fitsLength n "" = true := fun n => by simp [fitsLength]
  have hqty : fitsDigits 18 8 (if 0 < qtyOf alert.bodyJson then qtyOf alert.bodyJson else 0) = true ↔
      (0 < qtyOf alert.bodyJson → fitsDigits 18 8 (qtyOf alert.bodyJson) = true) := by
    split_ifs with hpos
    · simp [hpos]
    · simp [hpos, fitsDigits_zero]
  simp only [Order.fitsColumns, newOrder, hclient, hempty, fitsDigits_zero, Option.all_none, Bool.and_true,
    Bool.true_and, Bool.and_eq_true, hqty]

/-- A resolved order fits if the intent does, where the order did. -/
theorem resolve_fitsColumns {intent : Intent} {side : OrderSide} (h : order.fitsColumns = true) :
    (intent.resolve side order).fitsColumns = true ↔ intent.Fits := by
  simp only [Order.fitsColumns, Bool.and_eq_true] at h
  obtain ⟨⟨⟨⟨⟨⟨⟨⟨⟨⟨⟨hclient, hbroker⟩, hsymbol⟩, hqty⟩, -⟩, -⟩, -⟩, -⟩, -⟩, -⟩, hreason⟩, hfilled⟩ := h
  simp only [Order.fitsColumns, Intent.resolve, hclient, hbroker, hsymbol, hqty, hreason, hfilled, Bool.true_and,
    Bool.and_true, Bool.and_eq_true]
  constructor
  · rintro ⟨⟨⟨⟨⟨hlimit, hstop⟩, hstrike⟩, hright⟩, hroot⟩, hexpiry⟩
    exact ⟨hlimit, hstop, hstrike, hright, hroot, hexpiry⟩
  · rintro ⟨hlimit, hstop, hstrike, hright, hroot, hexpiry⟩
    exact ⟨⟨⟨⟨⟨hlimit, hstop⟩, hstrike⟩, hright⟩, hroot⟩, hexpiry⟩

theorem sized_fitsColumns (qty : ℚ) (h : order.fitsColumns = true) :
    { order with qty := qty }.fitsColumns = true ↔ fitsDigits 18 8 qty = true := by
  simp only [Order.fitsColumns, Bool.and_eq_true] at h
  obtain ⟨⟨⟨⟨⟨⟨⟨⟨⟨⟨⟨hclient, hbroker⟩, hsymbol⟩, -⟩, hlimit⟩, hstop⟩, hstrike⟩, hright⟩, hroot⟩, hexpiry⟩, hreason⟩, hfilled⟩ :=
    h
  simp only [Order.fitsColumns, hclient, hbroker, hsymbol, hlimit, hstop, hstrike, hright, hroot, hexpiry, hreason,
    hfilled, Bool.true_and, Bool.and_true]

theorem acknowledged_fitsColumns (brokerOrderId : String) (h : order.fitsColumns = true) :
    { order with brokerOrderId := brokerOrderId }.fitsColumns = true ↔ fitsLength 128 brokerOrderId = true := by
  simp only [Order.fitsColumns, Bool.and_eq_true] at h
  obtain ⟨⟨⟨⟨⟨⟨⟨⟨⟨⟨⟨hclient, -⟩, hsymbol⟩, hqty⟩, hlimit⟩, hstop⟩, hstrike⟩, hright⟩, hroot⟩, hexpiry⟩, hreason⟩, hfilled⟩ :=
    h
  simp only [Order.fitsColumns, hclient, hsymbol, hqty, hlimit, hstop, hstrike, hright, hroot, hexpiry, hreason,
    hfilled, Bool.true_and, Bool.and_true]

end

/-! ### The runs -/

section
variable {rt : Runtime} {env : WorkerEnv} {s : State} {alert : AlertMessage} {account : BrokerAccount}
  {clientOrderId : String} {order : Order}

/-- An update of an order's row goes through if the columns take the new row. -/
theorem updateOrder_run (f : Order → Order) (horder : s.db.orders.find? clientOrderId = some order) :
    (updateOrder env clientOrderId f).run s =
      if env.accepts (f order) then (s.setOrder clientOrderId f, true) else (s, false) := by
  unfold updateOrder
  rw [Prog.run_atomic, horder, Option.all_some]
  split_ifs with h
  · rw [h]
  · rw [Bool.eq_false_iff.mpr h]

theorem updateOrder_bind_run {α : Type} (f : Order → Order) (next : Bool → Prog State α)
    (horder : s.db.orders.find? clientOrderId = some order) :
    (updateOrder env clientOrderId f >>= next).run s =
      if env.accepts (f order) then (next true).run (s.setOrder clientOrderId f) else (next false).run s := by
  rw [Prog.run_bind, updateOrder_run f horder]
  by_cases h : env.accepts (f order) = true
  · rw [if_pos h, if_pos h]
  · rw [if_neg h, if_neg h]

theorem find?_setOrder {f : Order → Order} (hf : ∀ o, (f o).clientOrderId = o.clientOrderId)
    (horder : s.db.orders.find? clientOrderId = some order) :
    (s.setOrder clientOrderId f).db.orders.find? clientOrderId = some (f order) := by
  simp [State.setOrder, Table.find?_modify s.db.orders clientOrderId hf, horder]

variable (haccepts : env.accepts = Order.fitsColumns) (hfits : order.fitsColumns = true)
  (horder : s.db.orders.find? clientOrderId = some order)
include haccepts hfits horder

/-- The broker's identifier is recorded if it fits, and the order keeps its row. -/
theorem recordBrokerId_run (brokerOrderId : String) :
    ((recordBrokerId env clientOrderId brokerOrderId).run s).2 = fitsLength 128 brokerOrderId ∧
      (((recordBrokerId env clientOrderId brokerOrderId).run s).1.db.orders.find? clientOrderId).isSome := by
  unfold recordBrokerId
  split_ifs with hne
  · rw [updateOrder_run _ horder, haccepts]
    have hiff := acknowledged_fitsColumns brokerOrderId hfits
    split_ifs with h
    · have hread := find?_setOrder
        (f := fun order : Order => { order with brokerOrderId := brokerOrderId }) (fun _ => rfl) horder
      refine ⟨(hiff.mp h).symm, ?_⟩
      rw [hread]
      rfl
    · refine ⟨(Bool.eq_false_iff.mpr fun hid => h (hiff.mpr hid)).symm, ?_⟩
      rw [horder]
      rfl
  · rw [not_not.mp hne, Prog.run_pure, horder]
    exact ⟨by simp [fitsLength], rfl⟩

theorem recordAck_returns (alertId : AlertId) (ack : OrderAck) :
    ((recordAck env clientOrderId alertId ack).run s).2.isSome = true ↔
      fitsLength 128 ack.brokerOrderId = true := by
  obtain ⟨hok, hrow⟩ := recordBrokerId_run haccepts hfits horder ack.brokerOrderId
  unfold recordAck
  rw [Prog.run_bind, hok]
  cases fitsLength 128 ack.brokerOrderId with
  | false => simp
  | true =>
    -- the row is there when it is read back
    generalize ((recordBrokerId env clientOrderId ack.brokerOrderId).run s).1 = t at hrow
    obtain ⟨row, hrow⟩ := Option.isSome_iff_exists.mp hrow
    have hread := find?_setOrder (f := fun order : Order =>
      if order.status = .pendingSubmit then { order with status := .submitted } else order)
      (fun o => by split_ifs <;> rfl) hrow
    simp only [Bool.not_true, Bool.false_eq_true, if_false, Prog.write, Prog.atomic_bind, Prog.run_act, loadOrder,
      Prog.read_bind, id]
    rw [hread]
    exact iff_true_intro rfl

/-- Placing the order fails only at the broker's identifier. -/
theorem place_returns {adapter : Adapter} {call : PlaceCall} (hcall : call.clientOrderId = clientOrderId) :
    ((place env adapter call).run s).2.isSome = true ↔
      ∀ ack, adapter call.request clientOrderId = .ok ack → fitsLength 128 ack.brokerOrderId = true := by
  subst hcall
  unfold place
  rw [callPlaceOrder, Prog.atomic_bind, Prog.run_act]
  rcases adapter call.request call.clientOrderId with (exc | exc) | ack
  · dsimp only
    split_ifs
    · exact iff_of_true rfl (by intro _ h; cases h)
    · exact iff_of_true rfl (by intro _ h; cases h)
  · exact iff_of_true rfl (by intro _ h; cases h)
  · dsimp only
    rw [recordAck_returns (s := { s with placed := s.placed ++ [call] }) haccepts hfits horder]
    constructor
    · rintro h _ ⟨⟩
      exact h
    · intro h
      exact h ack rfl

end

theorem pos_of_validate {rt : Runtime} {alert : AlertMessage} {intent : Intent} (h : validate rt alert.bodyJson = .ok intent) :
    0 < qtyOf alert.bodyJson := by
  by_contra hpos
  unfold validate at h
  cases hside : sideOf (actionOf rt alert.bodyJson) with
  | none =>
    rw [hside] at h
    cases h
  | some side =>
    rw [hside] at h
    simp only [not_lt.mp hpos, if_true] at h
    cases h

section
variable {rt : Runtime} {env : WorkerEnv} {s : State} {alert : AlertMessage} {account : BrokerAccount}
  (haccepts : env.accepts = Order.fitsColumns)
include haccepts

/-- Sizing the order and placing it fails only at the quantity and the broker's identifier. -/
theorem sizeAndPlace_returns {adapter : Adapter} {clientOrderId : String} {order : Order} {intent : Intent}
    (hfits : order.fitsColumns = true)
    (horder : s.db.orders.find? clientOrderId = some order)
    (hqty : fitsDigits 18 8 (qtyOf alert.bodyJson) = true) :
    ((sizeAndPlace env adapter alert account clientOrderId order intent).run s).2.isSome = true ↔
      ∀ qty, (env.sizing alert order account (qtyOf alert.bodyJson) intent.limitPrice).placedQty
          (qtyOf alert.bodyJson) = some qty →
        fitsDigits 18 8 qty = true ∧ ∀ ack, adapter (intent.buildReq qty) clientOrderId = .ok ack →
          fitsLength 128 ack.brokerOrderId = true := by
  unfold sizeAndPlace
  dsimp only
  cases env.sizing alert order account (qtyOf alert.bodyJson) intent.limitPrice with
  | raises => exact iff_of_true rfl (by intro _ h; cases h)
  | refused reason => exact iff_of_true rfl (by intro _ h; cases h)
  | off =>
    dsimp only
    rw [place_returns haccepts hfits horder rfl]
    constructor
    · rintro h _ ⟨⟩
      exact ⟨hqty, h⟩
    · intro h
      exact (h _ rfl).2
  | sized qty =>
    dsimp only
    rw [updateOrder_bind_run _ _ horder, haccepts]
    have hiff := sized_fitsColumns qty hfits
    by_cases hsized : { order with qty := qty }.fitsColumns = true
    · have hread := find?_setOrder (f := fun order : Order => { order with qty := qty }) (fun _ => rfl) horder
      rw [if_pos hsized]
      simp only [Bool.not_true, Bool.false_eq_true, if_false]
      rw [place_returns haccepts hsized hread rfl]
      constructor
      · rintro h _ ⟨⟩
        exact ⟨hiff.mp hsized, h⟩
      · intro h
        exact (h _ rfl).2
    · rw [if_neg hsized]
      exact iff_of_false (by intro h; cases h) fun h => hsized (hiff.mpr (h qty rfl).1)

/-- **Once the order has been created, what is done with it fails only at a value that does not fit
its column, or at an adapter that cannot be built.** -/
theorem submit_returns (hfits : (newOrder rt alert account).fitsColumns = true)
    (horder : s.db.orders.find? (clientOrderIdOf rt alert) = some (newOrder rt alert account))
    (hqty : 0 < qtyOf alert.bodyJson → fitsDigits 18 8 (qtyOf alert.bodyJson) = true) :
    ((submit rt env alert account).run s).2.isSome = true ↔
      ∀ intent, validate rt alert.bodyJson = .ok intent → IntentFits rt env alert account intent := by
  unfold submit
  dsimp only
  cases hvalid : validate rt alert.bodyJson with
  | error reason => exact iff_of_true rfl (by intro _ h; cases h)
  | ok intent =>
    dsimp only
    have hresolved : intent.resolve (orderSideOf (actionOf rt alert.bodyJson)) (newOrder rt alert account) =
      resolvedOrder rt alert account intent := rfl
    rw [updateOrder_bind_run _ _ horder, haccepts, hresolved]
    have hiff : (resolvedOrder rt alert account intent).fitsColumns = true ↔ intent.Fits :=
      resolve_fitsColumns hfits
    by_cases hcolumns : (resolvedOrder rt alert account intent).fitsColumns = true
    · have hread := find?_setOrder (f := intent.resolve (orderSideOf (actionOf rt alert.bodyJson)))
        (fun _ => rfl) horder
      rw [hresolved] at hread
      rw [if_pos hcolumns]
      simp only [Bool.not_true, Bool.false_eq_true, if_false, loadOrder, Prog.read_bind, Prog.run_act, id]
      rw [hread]
      dsimp only
      cases hbuild : env.buildAdapter account with
      | error exc =>
        cases exc with
        | broker exc =>
          refine iff_of_true rfl ?_
          rintro _ ⟨⟩
          exact ⟨hiff.mp hcolumns, by simp [hbuild], by simp [hbuild], by simp [hbuild]⟩
        | other exc => exact iff_of_false (by intro h; cases h) fun h => (h intent rfl).builds exc hbuild
      | ok adapter =>
        dsimp only
        rw [sizeAndPlace_returns haccepts hcolumns hread (hqty (pos_of_validate hvalid))]
        constructor
        · rintro h _ ⟨⟩
          refine ⟨hiff.mp hcolumns, by simp [hbuild], ?_, ?_⟩
          · intro other hother qty hplaced
            exact (h qty hplaced).1
          · intro other hother qty hplaced
            obtain rfl : adapter = other := by simpa [hbuild] using hother
            exact (h qty hplaced).2
        · intro h qty hplaced
          exact ⟨(h intent rfl).qty adapter hbuild qty hplaced, (h intent rfl).brokerOrderId adapter hbuild qty hplaced⟩
    · rw [if_neg hcolumns]
      exact iff_of_false (by intro h; cases h) fun h => hcolumns (hiff.mpr (h intent rfl).columns)

/-- **A run that finds no order of its alert accepts or rejects the alert if and only if** the alert is
not admitted, or every value that is written fits its column and the adapter can be built. -/
theorem concluded_iff {alertId : AlertId} {strategy : Strategy}
    (hload : s.loadAlert alertId = some (alert, strategy)) (hreceived : alert.status = .received)
    (hid : alert.id.length ≤ 36) (horder : s.db.orders.find? (clientOrderIdOf rt alert) = none) :
    ((processAlert rt env alertId).run s).2.isSome = true ∧ Concluded alertId ((processAlert rt env alertId).run s).1 ↔
      ∀ account, admitted rt s alert strategy = .ok account → AlertFits rt env alert account := by
  obtain ⟨halert, rfl⟩ := id_of_loadAlert hload
  have hrow : (s.alerts.find? alert.id).isSome := by rw [halert]; rfl
  cases hadmitted : admitted rt s alert strategy with
  | error reason =>
    rw [processAlert_refused hload hreceived hadmitted]
    exact iff_of_true ⟨rfl, rejectAlert_concludes env reason s hrow rfl⟩ (by intro _ h; cases h)
  | ok account =>
    rw [processAlert_new hload hreceived hadmitted horder, haccepts]
    have hnew := newOrder_fitsColumns rt account hid
    split_ifs with hcolumns
    · have hread : (s.addOrder (newOrder rt alert account)).db.orders.find? (clientOrderIdOf rt alert) =
          some (newOrder rt alert account) := by
        have hput := Table.find?_put_self s.db.orders (newOrder rt alert account)
        rwa [newOrder_clientOrderId] at hput
      have hreturns := submit_returns haccepts hcolumns hread (hnew.mp hcolumns).2
      constructor
      · rintro ⟨hsome, -⟩ _ ⟨⟩
        exact ⟨(hnew.mp hcolumns).1, (hnew.mp hcolumns).2, hreturns.mp hsome⟩
      · intro h
        have hsome := hreturns.mpr (h account rfl).resolved
        have hconcludes := submit_concludes env rt alert account (s.addOrder (newOrder rt alert account)) hrow
        unfold Prog.Ends at hconcludes
        exact ⟨hsome, hconcludes hsome⟩
    · refine iff_of_false (by rintro ⟨h, -⟩; cases h) fun h => ?_
      exact hcolumns (hnew.mpr ⟨(h account rfl).symbol, (h account rfl).qty⟩)

end

/-! ### The default schema -/

/-- The value is a text. -/
def isText : Json → Bool
  | .string _ => true
  | .null | .bool _ | .number _ | .container _ _ => false

/-- The value is a number. -/
def isNumber : Json → Bool
  | .number _ => true
  | .null | .bool _ | .string _ | .container _ _ => false

/-- The value is one of some texts. -/
def isOneOf (texts : List String) : Json → Bool
  | .string s => decide (s ∈ texts)
  | .null | .bool _ | .number _ | .container _ _ => false

/-- `REQUIRED_WEBHOOK_KEYS`. -/
def requiredWebhookKeys : List String := ["strategy", "action", "symbol", "qty", "order_type"]

/-- The `properties` of `default_json_schema`. -/
def defaultProperties : List (String × (Json → Bool)) :=
  [("strategy", isText), ("action", isOneOf ["buy", "sell", "exit"]), ("symbol", isText), ("qty", isNumber),
    ("order_type", isOneOf ["MKT", "LMT", "STP", "STP_LMT"]),
    ("asset_class", isOneOf ["STOCK", "ETF", "OPTION", "FUTURE"]), ("sig", isText), ("idempotency_key", isText)]

/-- `default_json_schema` admits the body; other members may be anything. -/
def admittedByDefaultSchema (body : Payload) : Bool :=
  (requiredWebhookKeys.all fun name => (body.lookup name).isSome) &&
    defaultProperties.all fun property => (body.lookup property.1).all property.2

/-! ### Samples -/

/-- An alert that buys a future, with a date for its expiry. -/
def futureAlert : AlertMessage where
  id := "f1"
  user := "u"
  strategy := "st"
  bodyJson := [("strategy", .string "s"), ("action", .string "buy"), ("symbol", .string "ES"), ("qty", .number "1"),
    ("order_type", .string "MKT"), ("asset_class", .string "FUTURE"), ("future_expiry", .string "2026-12-18")]
  receivedAt := 0

/-- The alert that buys 10 of `AAPL`, and the one that buys a future. -/
def columnsState : State :=
  { sampleState with alerts := (Table.empty.put (sampleAlert "a1" "k")).put futureAlert }

/-- The sample environment over the columns of `Order`. -/
def columnsEnv : WorkerEnv := { sampleWorkerEnv with accepts := Order.fitsColumns }

/-- The first run for `a1` ends as what it writes decides. -/
theorem concluded_sample :
    ((processAlert sampleRuntime columnsEnv "a1").run columnsState).2.isSome = true ∧
        Concluded "a1" ((processAlert sampleRuntime columnsEnv "a1").run columnsState).1 ↔
      ∀ account, admitted sampleRuntime columnsState (sampleAlert "a1" "k") ⟨"st", true, none⟩ = .ok account →
        AlertFits sampleRuntime columnsEnv (sampleAlert "a1" "k") account :=
  concluded_iff rfl rfl rfl (by decide) (by decide +kernel)

/-- The expiry of the future is a date, which its column does not take. -/
theorem not_concluded_futureExpiry :
    ¬ ∀ (rt : Runtime) (env : WorkerEnv) (s : State) (alertId : AlertId) (alert : AlertMessage) (strategy : Strategy),
      env.accepts = Order.fitsColumns → (∀ account, ∃ adapter, env.buildAdapter account = .ok adapter) →
      (∃ account, account ∈ s.accounts ∧ account.user = alert.user ∧ account.status = .connected) →
      admittedByDefaultSchema alert.bodyJson = true → s.loadAlert alertId = some (alert, strategy) →
      alert.status = .received → alert.id.length ≤ 36 → s.db.orders.find? (clientOrderIdOf rt alert) = none →
      ((processAlert rt env alertId).run s).2.isSome = true ∧ Concluded alertId ((processAlert rt env alertId).run s).1 := by
  intro h
  have hrun := h sampleRuntime columnsEnv columnsState "f1" futureAlert ⟨"st", true, none⟩ rfl
    (fun account => ⟨_, rfl⟩) ⟨_, List.mem_singleton.mpr rfl, rfl, rfl⟩ (by decide +kernel) rfl rfl (by decide)
    (by decide +kernel)
  exact absurd hrun.1 (by decide +kernel)

end StratTrader.Webhooks
