import StratTrader.Brokers.Models
import StratTrader.Foundation.Atomic
import StratTrader.Foundation.JsonColumn
import StratTrader.Orders.Models
import StratTrader.Risk.KillSwitch

/-!
# Alerts, and what their processing works on

The rows of `webhooks/models.py`, the columns read of strategies and webhook
configurations, and the shared state: these tables, the cache, the tasks sent to the
workers, and a record of the calls of `place_order`, which no program reads.

What Python's and Django's libraries compute of texts beyond what is defined here is a
parameter (`Runtime`).

## Honest scope

A cached value is a number: the `"1"` of an idempotency key is 1. That cached values
expire is a matter of the runs. Rows of alerts are never deleted.
-/

namespace StratTrader.Webhooks

open StratTrader.Brokers StratTrader.Foundation StratTrader.Orders StratTrader.Risk

/-! ### Rows -/

/-- `AlertMessage.Status`. -/
inductive AlertStatus where
  /-- `RECEIVED`. -/
  | received
  /-- `ACCEPTED`. -/
  | accepted
  /-- `REJECTED`. -/
  | rejected
  /-- `DUPLICATE`. -/
  | duplicate
  /-- `INVALID`. -/
  | invalid
  deriving DecidableEq

/-- `AlertMessage`. -/
structure AlertMessage where
  /-- The primary key, as text. -/
  id : AlertId
  /-- The owner. -/
  user : UserId
  /-- The strategy. -/
  strategy : StrategyId
  /-- The body without `sig`, as the column gives it back. -/
  bodyJson : Payload
  /-- The anchor: unique for a user unless empty. -/
  idempotencyKey : String := ""
  /-- The status. -/
  status : AlertStatus := .received
  /-- Why it was rejected. -/
  rejectReason : String := ""
  /-- When it was received, in microseconds. -/
  receivedAt : ℤ
  /-- When it was processed, in microseconds. -/
  processedAt : Option ℤ := none
  deriving DecidableEq

/-- `Strategy`. -/
structure Strategy where
  /-- The primary key, as text. -/
  id : StrategyId
  /-- The toggle of live execution. -/
  isEnabled : Bool
  /-- When it was deleted, in microseconds. -/
  deletedAt : Option ℤ
  deriving DecidableEq

/-- Paused or deleted. -/
def Strategy.isOff (strategy : Strategy) : Bool := strategy.deletedAt.isSome || !strategy.isEnabled

/-- `WebhookConfig`. -/
structure WebhookConfig where
  /-- The owner. -/
  user : UserId
  /-- The strategy. -/
  strategy : StrategyId
  /-- The secret, decrypted. -/
  secret : String
  /-- The JSON schema, unless it is empty. -/
  jsonSchema : Option String
  deriving DecidableEq

/-- `unique_together = ("user", "strategy")`. -/
def WebhookConfig.key (config : WebhookConfig) : UserId × StrategyId := (config.user, config.strategy)

/-- A call of `adapter.place_order`. -/
structure PlaceCall where
  /-- The identifier it is called with. -/
  clientOrderId : String
  /-- The alert it is made for. -/
  alert : AlertMessage
  /-- The account. -/
  account : BrokerAccount
  /-- The request. -/
  request : OrderRequest
  deriving DecidableEq

/-! ### The shared state -/

/-- The database, the cache, the tasks sent, and the calls made. -/
structure State where
  /-- The tables of the orders app. -/
  db : Db
  /-- The alerts. -/
  alerts : Table AlertMessage.id
  /-- The strategies. -/
  strategies : Table Strategy.id
  /-- The accounts, in the order of their primary key. -/
  accounts : List BrokerAccount
  /-- The halts. -/
  halts : List TradingHalt
  /-- The webhook configurations. -/
  configs : Table WebhookConfig.key
  /-- The cache. -/
  cache : String → Option ℕ
  /-- The arguments of `process_alert.delay`, in order. -/
  dispatched : List AlertId := []
  /-- The calls of `adapter.place_order`, in order. -/
  placed : List PlaceCall := []

/-- What the libraries make of texts. -/
structure Runtime where
  /-- `str.upper`. -/
  upper : String → String
  /-- `str.lower`. -/
  lower : String → String
  /-- `hashlib.sha256(s.encode()).hexdigest()`. -/
  sha256 : String → String
  /-- Whether `parse_date` gives a date: it gives none and does not raise. -/
  parsesDate : String → Bool
  /-- `jsonschema.validate`: the message of a `ValidationError`. -/
  schemaError : Payload → String → Option String
  /-- `str.isprintable` of a character that is not ASCII. -/
  printable : Char → Bool

/-! ### Writes -/

/-- `UPDATE` an alert. -/
def State.setAlert (s : State) (id : AlertId) (f : AlertMessage → AlertMessage) : State :=
  { s with alerts := s.alerts.modify id f }

/-- `UPDATE` an order. -/
def State.setOrder (s : State) (clientOrderId : String) (f : Order → Order) : State :=
  { s with db := { s.db with orders := s.db.orders.modify clientOrderId f } }

/-- `INSERT` an order that is not there. -/
def State.addOrder (s : State) (order : Order) : State :=
  { s with db := { s.db with orders := s.db.orders.put order } }

/-- Whether the constraints let an alert be inserted. -/
def State.canInsert (s : State) (alert : AlertMessage) : Bool :=
  s.alerts.rows.all fun a => decide (a.id ≠ alert.id) &&
    (decide (alert.idempotencyKey = "") ||
      decide (¬ (a.user = alert.user ∧ a.idempotencyKey = alert.idempotencyKey)))

/-- `INSERT` an alert; nothing happens on an `IntegrityError`. -/
def State.insertAlert (s : State) (alert : AlertMessage) : State :=
  if s.canInsert alert then { s with alerts := s.alerts.put alert } else s

section
variable (s : State)

@[simp] theorem State.setOrder_alerts (clientOrderId : String) (f : Order → Order) :
    (s.setOrder clientOrderId f).alerts = s.alerts := rfl

@[simp] theorem State.addOrder_alerts (order : Order) : (s.addOrder order).alerts = s.alerts := rfl

@[simp] theorem State.insertAlert_db (alert : AlertMessage) : (s.insertAlert alert).db = s.db := by
  unfold State.insertAlert; split_ifs <;> rfl

@[simp] theorem State.insertAlert_placed (alert : AlertMessage) :
    (s.insertAlert alert).placed = s.placed := by
  unfold State.insertAlert; split_ifs <;> rfl

end

/-! ### The account of an alert -/

/-- The earliest created of some accounts. -/
def earliest : List BrokerAccount → Option BrokerAccount
  | [] => none
  | account :: accounts => match earliest accounts with
    | some other => if other.createdAt < account.createdAt then some other else some account
    | none => some account

/-- The user's default account, or else the oldest. -/
def defaultAccount (accounts : List BrokerAccount) (user : UserId) : Option BrokerAccount :=
  let own := accounts.filter fun a => decide (a.user = user)
  (own.find? fun a => a.isDefault).or (earliest own)

/-- The user's account at a broker: a default first, the older first. -/
def accountAt (accounts : List BrokerAccount) (user : UserId) (broker : String) : Option BrokerAccount :=
  let own := accounts.filter fun a => decide (a.user = user) && decide (a.broker = broker)
  (earliest (own.filter fun a => a.isDefault)).or (earliest own)

end StratTrader.Webhooks
