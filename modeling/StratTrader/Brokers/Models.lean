import StratTrader.Brokers.Base

/-!
# Broker accounts

The columns of `BrokerAccount` that decide where its orders and its stream go.
-/

namespace StratTrader.Brokers

/-- `BrokerAccount.Mode`. -/
inductive Mode where
  /-- `PAPER`. -/
  | paper
  /-- `LIVE`. -/
  | live
  deriving DecidableEq

/-- `BrokerAccount.Status`. -/
inductive AccountStatus where
  /-- `PENDING`. -/
  | pending
  /-- `CONNECTED`. -/
  | connected
  /-- `DEGRADED`. -/
  | degraded
  /-- `DOWN`. -/
  | down
  /-- `ERROR`. -/
  | error
  deriving DecidableEq

/-- `BrokerAccount`. -/
structure BrokerAccount where
  /-- The primary key, as text. -/
  id : AccountId
  /-- The owner. -/
  user : UserId
  /-- The broker. -/
  broker : String
  /-- Whether its orders are of real money. -/
  mode : Mode
  /-- Whether it is the owner's default. -/
  isDefault : Bool
  /-- The status. -/
  status : AccountStatus
  /-- When it was created, in microseconds. -/
  createdAt : ℤ
  deriving DecidableEq

end StratTrader.Brokers
