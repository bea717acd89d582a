import StratTrader.Brokers.Base
import StratTrader.Foundation.Numeral

/-!
# TradeStation payloads

`from_ts_order_event` of `brokers/tradestation/mapping.py`: from an order event of the broker's
stream to a `FillEvent`.

## Honest scope

`str.upper` is a parameter. A quantity that is an infinity or a NaN has no event: the columns it
would be written to refuse it.
-/

namespace StratTrader.Brokers.TradeStation

open StratTrader.Brokers StratTrader.Foundation

/-- `_TS_STATUS`. -/
def tsStatus : List (String × OrderStatus) :=
  [("ACK", .submitted), ("OPN", .submitted), ("RECEIVED", .submitted), ("FLL", .filled), ("FILLED", .filled),
    ("FPR", .partiallyFilled), ("PARTIALLYFILLED", .partiallyFilled), ("CAN", .cancelled), ("CANCELED", .cancelled),
    ("EXP", .cancelled), ("REJ", .rejected), ("REJECTED", .rejected), ("TSC", .cancelled)]

/-- `_BUY_TO`. -/
def buyTo : List String := ["BUY", "BUY_TO_OPEN", "BUY_TO_CLOSE"]

/-- `_dec`: `none` is an infinity or a NaN. -/
def dec (v : Json) : Option Numeral :=
  match v with
  | .null => some .zero
  | v =>
    match Numeral.ofText v.str with
    | .invalid => some .zero
    | .nonFinite => none
    | .finite n => some n.1

/-- `d.get(name)`. -/
def get (d : Payload) (name : String) : Json := (d.lookup name).getD .null

/-- `str(d.get(name, "") or "")`. -/
def getText (d : Payload) (name : String) : String := if (get d name).truthy then (get d name).str else ""

/-- The event that a status stands for. -/
def eventOf : OrderStatus → String
  | .filled => "fill"
  | .partiallyFilled => "partial_fill"
  | .cancelled => "canceled"
  | .rejected => "rejected"
  | .pendingSubmit | .submitted => "new"

section
variable (upper : String → String)

/-- `str(d.get("Status", "")).upper()`. -/
def statusOf (d : Payload) : String := upper (d.getStr "Status" (.string ""))

/-- The identifier of the execution: the broker's, or one that is made up of the order, the status and the quantity. -/
def execId (d : Payload) (filled : Numeral) : String :=
  if (get d "ExecutionID").truthy then (get d "ExecutionID").str
  else getText d "OrderID" ++ ":" ++ statusOf upper d ++ ":" ++ filled.str

/-- `from_ts_order_event`. -/
def fromTsOrderEvent (d : Payload) : Option FillEvent := do
  let filled ← dec (get d "FilledQuantity")
  -- without a quantity of its own an execution is taken to be of all that is filled
  let qty ← if (get d "ExecutionQuantity").truthy then dec (get d "ExecutionQuantity") else some filled
  let price ← dec (if (get d "ExecutionPrice").truthy then get d "ExecutionPrice" else get d "FilledPrice")
  return {
    brokerExecId := execId upper d filled
    clientOrderId := getText d "ClientOrderID"
    brokerOrderId := getText d "OrderID"
    symbol := d.getStr "Symbol" (.string "")
    side := if upper (d.getStr "TradeAction" (.string "BUY")) ∈ buyTo then .buy else .sell
    eventType := eventOf ((tsStatus.lookup (statusOf upper d)).getD .submitted)
    qty := qty.value
    price := price.value
    ts := none
    filledQty := filled.value }

end

end StratTrader.Brokers.TradeStation
