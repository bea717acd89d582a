import StratTrader.Brokers.Base
import StratTrader.Foundation.Table

/-!
# The positions of the fake broker

`FakeBrokerAdapter._apply_position` of `brokers/fake.py`: what a scripted fill does to the positions
that the adapter holds in memory.

## Honest scope

The dictionary is a table by symbol, in the order of the insertions. The side that a position
carries is left out, as it is from the positions of the other adapters.
-/

namespace StratTrader.Brokers.Fake

open StratTrader.Brokers StratTrader.Foundation

/-- `_BUY_SIDES`. -/
def buySides : List String := ["BUY", "BUY_TO_OPEN", "BUY_TO_CLOSE"]

/-- `_apply_position`, `side` being the text of the side's value. -/
def applyPosition (positions : Table PositionDTO.symbol) (symbol side : String) (qty price : ℚ) :
    Table PositionDTO.symbol :=
  let signed := if side ∈ buySides then qty else -qty
  let opened := positions.put ⟨symbol, signed, price, some price⟩
  match positions.find? symbol with
  | none => opened
  | some cur =>
    if cur.qty = 0 then opened
    else
      let newQty := cur.qty + signed
      let avg :=
        if newQty = 0 then 0
        else if decide (0 < cur.qty) = decide (0 < signed) then
          -- same direction: weighted average cost
          (cur.avgCost * |cur.qty| + price * qty) / |newQty|
        else if decide (0 < cur.qty) ≠ decide (0 < newQty) then
          -- flipped through zero: the residual takes the price of the fill
          price
        else cur.avgCost
      positions.put ⟨symbol, newQty, avg, some price⟩

end StratTrader.Brokers.Fake
