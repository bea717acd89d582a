import Mathlib.Algebra.Order.Ring.Rat

/-!
# The broker-neutral contract

The enumerations and records of `brokers/base.py`, in which everything above an
adapter speaks, and the error taxonomy of `brokers/errors.py`.

A `Decimal` is a rational number: sums, products and comparisons are exact. Python's
`NaN` and infinities never reach these records from a well-formed message, and are
dealt with where a text is parsed.
-/

namespace StratTrader.Brokers

/-- A user's primary key, as text. -/
abbrev UserId := String

/-- A broker account's primary key, as text. -/
abbrev AccountId := String

/-- A strategy's primary key, as text. -/
abbrev StrategyId := String

/-- An alert's primary key, as text. -/
abbrev AlertId := String

/-- `Side`. -/
inductive Side where
  /-- `BUY`. -/
  | buy
  /-- `SELL`. -/
  | sell
  deriving DecidableEq

/-- `OrderType`. -/
inductive OrderType where
  /-- `MKT`. -/
  | mkt
  /-- `LMT`. -/
  | lmt
  /-- `STP`. -/
  | stp
  /-- `STP_LMT`. -/
  | stpLmt
  deriving DecidableEq

/-- `TimeInForce`. -/
inductive TimeInForce where
  /-- `DAY`. -/
  | day
  /-- `GTC`. -/
  | gtc
  /-- `IOC`. -/
  | ioc
  deriving DecidableEq

/-- `AssetClass`. -/
inductive AssetClass where
  /-- `STOCK`. -/
  | stock
  /-- `ETF`. -/
  | etf
  /-- `OPTION`. -/
  | option
  /-- `FUTURE`. -/
  | future
  deriving DecidableEq

/-- `OrderStatus`: what a broker says of an order. -/
inductive OrderStatus where
  /-- `PENDING_SUBMIT`. -/
  | pendingSubmit
  /-- `SUBMITTED`. -/
  | submitted
  /-- `PARTIAL`. -/
  | partiallyFilled
  /-- `FILLED`. -/
  | filled
  /-- `CANCELLED`. -/
  | cancelled
  /-- `REJECTED`. -/
  | rejected
  deriving DecidableEq

/-- `PositionDTO`, without the side, which nothing here reads. -/
structure PositionDTO where
  /-- The symbol. -/
  symbol : String
  /-- The signed quantity. -/
  qty : ℚ
  /-- The average entry price. -/
  avgCost : ℚ
  /-- The current price, when the broker gives one. -/
  marketPrice : Option ℚ
  deriving DecidableEq

/-- `OptionContract`. -/
structure OptionContract where
  /-- The ISO date. -/
  expiry : String
  /-- The strike. -/
  strike : ℚ
  /-- `CALL` or `PUT`. -/
  right : String
  deriving DecidableEq

/-- `FutureContract`. -/
structure FutureContract where
  /-- The root, such as `ES`. -/
  root : String
  /-- The expiry. -/
  expiry : String
  deriving DecidableEq

/-- `OrderRequest`: what the caller wants placed. -/
structure OrderRequest where
  /-- The symbol. -/
  symbol : String
  /-- The side. -/
  side : Side
  /-- The quantity. -/
  qty : ℚ
  /-- The order type. -/
  orderType : OrderType
  /-- The limit price. -/
  limitPrice : Option ℚ
  /-- The stop price. -/
  stopPrice : Option ℚ
  /-- The time in force. -/
  timeInForce : TimeInForce
  /-- The asset class. -/
  assetClass : AssetClass
  /-- The option contract. -/
  option : Option OptionContract
  /-- The future contract. -/
  future : Option FutureContract
  deriving DecidableEq

/-- `OrderAck`. -/
structure OrderAck where
  /-- Our identifier of the order. -/
  clientOrderId : String
  /-- The broker's identifier of the order. -/
  brokerOrderId : String
  /-- The broker's status of the order. -/
  status : OrderStatus
  /-- The symbol. -/
  symbol : String
  /-- The quantity. -/
  qty : ℚ
  /-- How much of it has been filled. -/
  filledQty : ℚ
  deriving DecidableEq

/-- `FillEvent`: a normalized `trade_updates` event. -/
structure FillEvent where
  /-- The execution's identifier: the dedup anchor. -/
  brokerExecId : String
  /-- Our identifier of the order. -/
  clientOrderId : String
  /-- The broker's identifier of the order. -/
  brokerOrderId : String
  /-- The symbol. -/
  symbol : String
  /-- The side. -/
  side : Side
  /-- `fill`, `partial_fill`, `canceled`, `rejected`, `new`, or what the feed says. -/
  eventType : String
  /-- The quantity of this execution. -/
  qty : ℚ
  /-- The price of this execution. -/
  price : ℚ
  /-- The timestamp, as text. -/
  ts : Option String
  /-- The broker's cumulative filled quantity of the order. -/
  filledQty : ℚ
  deriving DecidableEq

/-! ### Errors -/

/-- `BrokerError`. -/
structure BrokerError where
  /-- One of the codes of `BrokerErrorCode`. -/
  code : String
  /-- The text for people. -/
  message : String
  /-- Whether the failure is transient. -/
  retryable : Bool
  /-- The HTTP status the broker answered with. -/
  status : Option ℕ
  deriving DecidableEq

namespace BrokerErrorCode

/-- `AUTH_FAILED`. -/
def authFailed := "BROKER_AUTH_FAILED"
/-- `LIVE_TRADING_DISABLED`. -/
def liveTradingDisabled := "BROKER_LIVE_TRADING_DISABLED"
/-- `RATE_LIMITED`. -/
def rateLimited := "BROKER_RATE_LIMITED"
/-- `UNSUPPORTED_ASSET`. -/
def unsupportedAsset := "ORDER_UNSUPPORTED_ASSET"
/-- `UNSUPPORTED_ORDER_TYPE`. -/
def unsupportedOrderType := "ORDER_UNSUPPORTED_TYPE"
/-- `UNAVAILABLE`. -/
def unavailable := "BROKER_UNAVAILABLE"
/-- `DISABLED`. -/
def disabled := "BROKER_DISABLED"
/-- `ORDER_REJECTED`. -/
def orderRejected := "BROKER_ORDER_REJECTED"
/-- `UNKNOWN`. -/
def unknown := "BROKER_UNKNOWN_ERROR"

end BrokerErrorCode

/-- An exception that is not a `BrokerError`, as a vendor's SDK raises it: an
attribute that is missing, or is no integer, is `none`. -/
structure Exc where
  /-- `exc.status_code`. -/
  statusCode : Option ℤ
  /-- `exc.code`. -/
  code : Option ℤ
  /-- `str(exc)`. -/
  text : String
  /-- `exc.__class__.__name__`. -/
  className : String
  deriving DecidableEq

/-- What a call into an adapter may raise. -/
inductive Raised where
  /-- A `BrokerError`. -/
  | broker (err : BrokerError)
  /-- Any other exception. -/
  | other (exc : Exc)
  deriving DecidableEq

end StratTrader.Brokers
