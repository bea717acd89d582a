import StratTrader.Brokers.Base
import StratTrader.Foundation.Table

/-!
# Orders, fills and positions

The rows of `orders/models.py`. A row is identified by its unique key: an order by
its `client_order_id`, which is unique and never changes, a fill by its account and
execution id, a position by its account and symbol. The surrogate primary keys are
not kept, and a foreign key is the unique key of the row it points to. The columns
`created_at` and `updated_at` of an order, which nothing here reads, are left out.

A row holds the numbers that are written to it. What the columns keep of them, in the
decimals of their `DecimalField`s, is `stored` (`StratTrader.Orders.Stored`).
-/

namespace StratTrader.Orders

open StratTrader.Brokers StratTrader.Foundation

/-- `Order.Side`: the broker's sides and the open and close sides of options. -/
inductive OrderSide where
  /-- `BUY`. -/
  | buy
  /-- `SELL`. -/
  | sell
  /-- `BUY_TO_OPEN`. -/
  | buyToOpen
  /-- `SELL_TO_OPEN`. -/
  | sellToOpen
  /-- `BUY_TO_CLOSE`. -/
  | buyToClose
  /-- `SELL_TO_CLOSE`. -/
  | sellToClose
  deriving DecidableEq

/-- Membership in `_BUY_SIDES`. -/
def OrderSide.isBuy : OrderSide → Bool
  | .buy | .buyToOpen | .buyToClose => true
  | .sell | .sellToOpen | .sellToClose => false

/-- `Order.Status`. -/
inductive Status where
  /-- `PENDING_SUBMIT`. -/
  | pendingSubmit
  /-- `SUBMITTED`. -/
  | submitted
  /-- `PARTIAL`. -/
  | partiallyFilled
  /-- `FILLED`. -/
  | filled
  /-- `CANCELLED`. -/
  | cancelled
  /-- `REJECTED`. -/
  | rejected
  /-- `NEEDS_RECONCILE`. -/
  | needsReconcile
  deriving DecidableEq

/-- The statuses the code treats as final. -/
def Status.isTerminal : Status → Bool
  | .filled | .cancelled | .rejected => true
  | .pendingSubmit | .submitted | .partiallyFilled | .needsReconcile => false

/-- The status column written for a broker's status, `ack.status.value`. -/
def Status.ofAck : OrderStatus → Status
  | .pendingSubmit => .pendingSubmit
  | .submitted => .submitted
  | .partiallyFilled => .partiallyFilled
  | .filled => .filled
  | .cancelled => .cancelled
  | .rejected => .rejected

/-- `Order`. -/
structure Order where
  /-- The idempotency anchor at the broker. -/
  clientOrderId : String
  /-- The owner. -/
  user : UserId
  /-- The strategy. -/
  strategy : Option StrategyId
  /-- The account the order is placed on. -/
  brokerAccount : Option AccountId
  /-- The alert the order comes from. -/
  rawAlert : Option AlertId
  /-- The broker's identifier. -/
  brokerOrderId : String := ""
  /-- The symbol. -/
  symbol : String
  /-- The side. -/
  side : OrderSide
  /-- The ordered quantity. -/
  qty : ℚ
  /-- The order type. -/
  orderType : Brokers.OrderType := .mkt
  /-- The limit price. -/
  limitPrice : Option ℚ := none
  /-- The stop price. -/
  stopPrice : Option ℚ := none
  /-- The time in force. -/
  timeInForce : TimeInForce := .day
  /-- The asset class. -/
  assetClass : AssetClass := .stock
  /-- The option's expiry. -/
  optionExpiry : Option String := none
  /-- The option's strike. -/
  optionStrike : Option ℚ := none
  /-- The option's right. -/
  optionRight : String := ""
  /-- The future's root. -/
  futureRoot : String := ""
  /-- The future's expiry. -/
  futureExpiry : String := ""
  /-- The status. -/
  status : Status := .pendingSubmit
  /-- Why the order has its status. -/
  reason : String := ""
  /-- How much of the order has been filled. -/
  filledQty : ℚ := 0
  deriving DecidableEq

/-- `Fill`: an execution. -/
structure Fill where
  /-- The order it belongs to. -/
  order : String
  /-- The order's account, kept here for the unique constraint. -/
  brokerAccount : Option AccountId
  /-- The quantity. -/
  qty : ℚ
  /-- The price. -/
  price : ℚ
  /-- When it happened, in microseconds. -/
  ts : ℤ
  /-- The execution's identifier at the broker. -/
  brokerExecId : String
  deriving DecidableEq

/-- `unique_together = ("broker_account", "broker_exec_id")`. -/
def Fill.key (f : Fill) : Option AccountId × String := (f.brokerAccount, f.brokerExecId)

/-- `Position`. -/
structure Position where
  /-- The owner. -/
  user : UserId
  /-- The account. -/
  brokerAccount : AccountId
  /-- The symbol. -/
  symbol : String
  /-- The signed quantity. -/
  qty : ℚ
  /-- The average cost. -/
  avgCost : ℚ
  /-- The last mark. -/
  marketPrice : Option ℚ
  deriving DecidableEq

/-- `unique_together = ("broker_account", "symbol")`. -/
def Position.key (p : Position) : AccountId × String := (p.brokerAccount, p.symbol)

/-- The tables of the orders app. -/
structure Db where
  /-- The orders. -/
  orders : Table Order.clientOrderId
  /-- The fills. -/
  fills : Table Fill.key
  /-- The positions. -/
  positions : Table Position.key

/-- Our quantity of a symbol on an account; no row is a flat position. -/
def Db.positionQty (db : Db) (account : AccountId) (symbol : String) : ℚ :=
  match db.positions.find? (account, symbol) with
  | none => 0
  | some pos => pos.qty

end StratTrader.Orders
