import StratTrader.Brokers.Fake
import StratTrader.Foundation.AverageCost
import StratTrader.Orders.Conservation

/-!
# The average cost of a position

A position's row and the position that the fake broker keeps are two holdings, moved by two
functions. Both do with a fill what is done with a holding in general (`Foundation.AverageCost`),
and the law of average cost follows for any fills of any sides.

## What is proved

* `holding_applyFill`, `fakeHolding_applyPosition`: either function is `Holding.fill`.
* `averageCost_law`: the average, the cash and the fake broker's position, for every sequence of fills.

## Honest scope

Arithmetic is exact: the columns' rounding is left out.
-/

namespace StratTrader.Orders

open StratTrader.Brokers StratTrader.Foundation

/-- The text of a side, `Order.Side.value`. -/
def OrderSide.value : OrderSide → String
  | .buy => "BUY"
  | .sell => "SELL"
  | .buyToOpen => "BUY_TO_OPEN"
  | .sellToOpen => "SELL_TO_OPEN"
  | .buyToClose => "BUY_TO_CLOSE"
  | .sellToClose => "SELL_TO_CLOSE"

/-- The two sets of buying sides are one. -/
theorem value_mem_buySides (side : OrderSide) : side.value ∈ Fake.buySides ↔ side.isBuy = true := by
  cases side <;> decide

/-! ### Fills of a position -/

/-- A fill of an order for the symbol on the account. -/
structure PositionFill (account : AccountId) (symbol : String) where
  /-- The order. -/
  order : Order
  /-- It is on the account. -/
  order_account : order.brokerAccount = some account
  /-- It is for the symbol. -/
  order_symbol : order.symbol = symbol
  /-- The side. -/
  side : OrderSide
  /-- The quantity. -/
  qty : ℚ
  /-- It is positive. -/
  qty_pos : 0 < qty
  /-- The price. -/
  price : ℚ
  /-- It is positive. -/
  price_pos : 0 < price

variable {account : AccountId} {symbol : String}

/-- The signed quantity. -/
def PositionFill.signed (f : PositionFill account symbol) : ℚ := signedQty f.side f.qty

/-- The signed quantity and the price. -/
def PositionFill.leg (f : PositionFill account symbol) : ℚ × ℚ := (f.signed, f.price)

theorem PositionFill.signed_ne (f : PositionFill account symbol) : f.signed ≠ 0 := by
  unfold PositionFill.signed signedQty
  split_ifs
  · exact f.qty_pos.ne'
  · exact neg_ne_zero.mpr f.qty_pos.ne'

theorem PositionFill.abs_signed (f : PositionFill account symbol) : |f.signed| = f.qty := by
  unfold PositionFill.signed signedQty
  split_ifs
  · exact abs_of_pos f.qty_pos
  · rw [abs_neg, abs_of_pos f.qty_pos]

/-- Our positions behind a fill. -/
def applyFill (positions : Table Position.key) (f : PositionFill account symbol) : Table Position.key :=
  applyFillToPosition positions f.order account f.side f.qty f.price

/-- The fake broker's positions behind a fill. -/
def fakeFill (positions : Table PositionDTO.symbol) (f : PositionFill account symbol) : Table PositionDTO.symbol :=
  Fake.applyPosition positions symbol f.side.value f.qty f.price

/-- What we hold. -/
def holding (positions : Table Position.key) (account : AccountId) (symbol : String) : Holding ℚ :=
  match positions.find? (account, symbol) with
  | none => ⟨0, 0⟩
  | some pos => ⟨pos.qty, pos.avgCost⟩

/-- What the fake broker holds. -/
def fakeHolding (positions : Table PositionDTO.symbol) (symbol : String) : Holding ℚ :=
  match positions.find? symbol with
  | none => ⟨0, 0⟩
  | some pos => ⟨pos.qty, pos.avgCost⟩

/-! ### Either function is a fill of a holding -/

/-- Whether two quantities that are not zero have one sign. -/
theorem decide_pos_eq_iff {a b : ℚ} (ha : a ≠ 0) (hb : b ≠ 0) : decide (0 < a) = decide (0 < b) ↔ 0 < a * b := by
  rw [decide_eq_decide, mul_pos_iff]
  rcases lt_or_gt_of_ne ha with ha' | ha' <;> rcases lt_or_gt_of_ne hb with hb' | hb' <;>
    simp [ha', hb', ha'.not_gt, hb'.not_gt]

/-- A fill of what is held, with the comparisons that the code makes. -/
theorem fill_of_held {h : Holding ℚ} (hheld : h.qty ≠ 0) (f : PositionFill account symbol) :
    h.fill f.signed f.price = ⟨h.qty + f.signed,
      if h.qty + f.signed = 0 then 0
      else if decide (0 < h.qty) = decide (0 < f.signed) then (h.avg * |h.qty| + f.price * f.qty) / |h.qty + f.signed|
      else if decide (0 < h.qty) ≠ decide (0 < h.qty + f.signed) then f.price
      else h.avg⟩ := by
  unfold Holding.fill
  by_cases hnet : h.qty + f.signed = 0
  · rw [if_pos hnet, if_pos hnet]
  · simp only [decide_pos_eq_iff hheld f.signed_ne, decide_pos_eq_iff hheld hnet, ne_eq, ite_not, f.abs_signed]

/-- **A fill of our position.** -/
theorem holding_applyFill (positions : Table Position.key) (f : PositionFill account symbol) :
    holding (applyFill positions f) account symbol = (holding positions account symbol).fill f.signed f.price := by
  obtain ⟨pos, hpos⟩ : ∃ pos, positionRow positions f.order.user account symbol = pos := ⟨_, rfl⟩
  have hbefore : holding positions account symbol = ⟨pos.qty, pos.avgCost⟩ := by
    rw [← hpos]
    unfold holding positionRow
    cases positions.find? (account, symbol) <;> rfl
  have hafter : holding (applyFill positions f) account symbol =
      ⟨pos.qty + f.signed, averageCost pos f.signed (pos.qty + f.signed) f.qty f.price⟩ := by
    unfold holding applyFill applyFillToPosition
    rw [Table.find?_put, filledPosition_key, f.order_symbol, if_pos rfl]
    dsimp only
    unfold filledPosition
    rw [f.order_symbol, hpos]
    rfl
  rw [hafter, hbefore]
  unfold averageCost
  by_cases hflat : pos.qty = 0
  · rw [Holding.fill_of_flat hflat f.signed_ne, if_pos (.inl hflat), hflat, zero_add, if_pos f.signed_ne]
  · rw [fill_of_held hflat]
    by_cases hnet : pos.qty + f.signed = 0
    · rw [if_pos (.inr hnet), if_pos hnet, if_neg (not_not.mpr hnet)]
    · rw [if_neg (not_or.mpr ⟨hflat, hnet⟩), if_neg hnet]

/-- **A fill of the fake broker's position.** -/
theorem fakeHolding_fakeFill (positions : Table PositionDTO.symbol) (f : PositionFill account symbol) :
    fakeHolding (fakeFill positions f) symbol = (fakeHolding positions symbol).fill f.signed f.price := by
  have hsigned : (if f.side.value ∈ Fake.buySides then f.qty else -f.qty) = f.signed := by
    simp only [value_mem_buySides]
    rfl
  have hput : ∀ avg qty, fakeHolding (positions.put ⟨symbol, qty, avg, some f.price⟩) symbol = ⟨qty, avg⟩ := by
    intro avg qty
    unfold fakeHolding
    rw [Table.find?_put, if_pos rfl]
  unfold fakeFill Fake.applyPosition
  rw [hsigned]
  cases hrow : positions.find? symbol with
  | none =>
    have hflat : fakeHolding positions symbol = ⟨0, 0⟩ := by
      unfold fakeHolding
      rw [hrow]
    dsimp only
    rw [hput, hflat, Holding.fill_of_flat rfl f.signed_ne]
  | some cur =>
    have hheld : fakeHolding positions symbol = ⟨cur.qty, cur.avgCost⟩ := by
      unfold fakeHolding
      rw [hrow]
    dsimp only
    by_cases hflat : cur.qty = 0
    · rw [if_pos hflat, hput, hheld, Holding.fill_of_flat hflat f.signed_ne]
    · rw [if_neg hflat, hput, hheld, fill_of_held hflat]

/-! ### Sequences of fills -/

/-- Our positions behind a sequence of fills. -/
def applyFills (positions : Table Position.key) (fills : List (PositionFill account symbol)) : Table Position.key :=
  fills.foldl applyFill positions

/-- The fake broker's positions behind a sequence of fills. -/
def fakeFills (positions : Table PositionDTO.symbol) (fills : List (PositionFill account symbol)) :
    Table PositionDTO.symbol := fills.foldl fakeFill positions

/-- The profit that a sequence of fills realises: each unit it closes, at the price of the fill less the average cost
that our row has then. -/
def realised (positions : Table Position.key) : List (PositionFill account symbol) → ℚ
  | [] => 0
  | f :: fs =>
    Holding.closed (holding positions account symbol).qty f.signed * (f.price - (holding positions account symbol).avg) +
      realised (applyFill positions f) fs

theorem holding_applyFills (positions : Table Position.key) (fills : List (PositionFill account symbol)) :
    holding (applyFills positions fills) account symbol =
      (holding positions account symbol).after (fills.map PositionFill.leg) := by
  induction fills generalizing positions with
  | nil => rfl
  | cons f fs ih => exact (ih _).trans (congrArg (Holding.after · _) (holding_applyFill positions f))

theorem fakeHolding_fakeFills (positions : Table PositionDTO.symbol) (fills : List (PositionFill account symbol)) :
    fakeHolding (fakeFills positions fills) symbol =
      (fakeHolding positions symbol).after (fills.map PositionFill.leg) := by
  induction fills generalizing positions with
  | nil => rfl
  | cons f fs ih => exact (ih _).trans (congrArg (Holding.after · _) (fakeHolding_fakeFill positions f))

theorem realised_eq (positions : Table Position.key) (fills : List (PositionFill account symbol)) :
    realised positions fills = (holding positions account symbol).realised (fills.map PositionFill.leg) := by
  induction fills generalizing positions with
  | nil => rfl
  | cons f fs ih =>
    unfold realised
    rw [ih, holding_applyFill]
    rfl

/-- The law of average cost, behind a sequence of fills of a flat position. -/
structure AverageCostLaw (positions : Table Position.key) (fake : Table PositionDTO.symbol)
    (fills : List (PositionFill account symbol)) : Prop where
  /-- A position that has been closed has no cost. -/
  flat : (holding (applyFills positions fills) account symbol).qty = 0 →
    fills ≠ [] ∨ (holding positions account symbol).avg = 0 → (holding (applyFills positions fills) account symbol).avg = 0
  /-- The cost lies between the prices of the fills in the position's direction. -/
  between : (holding (applyFills positions fills) account symbol).qty ≠ 0 →
    Holding.Between (Holding.pricesAfter 0 [] (fills.map PositionFill.leg))
      (holding (applyFills positions fills) account symbol).avg
  /-- A last fill that reduces the position, on its side of zero, leaves the cost. -/
  reduces : ∀ init f, fills = init ++ [f] →
    0 < (holding (applyFills positions init) account symbol).qty * (holding (applyFills positions fills) account symbol).qty →
    |(holding (applyFills positions fills) account symbol).qty| < |(holding (applyFills positions init) account symbol).qty| →
    (holding (applyFills positions fills) account symbol).avg = (holding (applyFills positions init) account symbol).avg
  /-- What has been paid. -/
  cash : (fills.map fun f => -f.signed * f.price).sum = realised positions fills -
    (holding (applyFills positions fills) account symbol).qty * (holding (applyFills positions fills) account symbol).avg
  /-- The fake broker holds the same quantity. -/
  fakeQty : (fakeHolding (fakeFills fake fills) symbol).qty = (holding (applyFills positions fills) account symbol).qty
  /-- It holds it at the same cost. -/
  fakeAvg : (holding (applyFills positions fills) account symbol).qty ≠ 0 →
    (fakeHolding (fakeFills fake fills) symbol).avg = (holding (applyFills positions fills) account symbol).avg

/-- **The law of average cost**: for every sequence of fills of a position that is flat, here and at the fake broker. -/
theorem averageCost_law {positions : Table Position.key} {fake : Table PositionDTO.symbol}
    (hflat : (holding positions account symbol).qty = 0) (hfake : (fakeHolding fake symbol).qty = 0)
    (fills : List (PositionFill account symbol)) : AverageCostLaw positions fake fills := by
  have hlegs : ∀ l ∈ fills.map PositionFill.leg, l.1 ≠ 0 := by
    intro l hl
    obtain ⟨f, -, rfl⟩ := List.mem_map.mp hl
    exact f.signed_ne
  have hagree := Holding.after_congr (hfake.trans hflat.symm) (fun hne => absurd hflat hne) (fills.map PositionFill.leg)
  refine ⟨fun hclosed hsome => ?_, fun hheld => ?_, fun init f hfills hside hless => ?_, ?_, ?_, fun hheld => ?_⟩
  · rw [holding_applyFills] at hclosed ⊢
    exact Holding.avg_after_of_flat hlegs (hsome.imp_left fun hne => mt List.map_eq_nil_iff.mp hne) hclosed
  · rw [holding_applyFills] at hheld ⊢
    have hnothing : (holding positions account symbol).qty ≠ 0 →
        Holding.Between [] (holding positions account symbol).avg := fun hne => absurd hflat hne
    have hbetween := Holding.between_after hlegs hnothing hheld
    rwa [hflat] at hbetween
  · have hlast : holding (applyFills positions fills) account symbol =
        (holding (applyFills positions init) account symbol).fill f.signed f.price := by
      rw [hfills]
      unfold applyFills
      rw [List.foldl_append]
      exact holding_applyFill _ f
    rw [hlast] at hside hless ⊢
    exact (Holding.fill_spec _ f.price f.signed_ne).avg_of_less hside hless
  · have hcash := Holding.cash_after (h := holding positions account symbol) hlegs
    rw [realised_eq, holding_applyFills]
    rw [hflat, zero_mul, sub_zero, List.map_map] at hcash
    rw [← hcash]
    exact congrArg List.sum (List.map_congr_left fun f _ => neg_mul f.signed f.price)
  · rw [fakeHolding_fakeFills, holding_applyFills]
    exact hagree.1
  · rw [holding_applyFills] at hheld
    rw [fakeHolding_fakeFills, holding_applyFills]
    exact hagree.2 hheld

/-- Two units bought, one more at another price, and five sold to close: the position is flipped. -/
def costFills : List (PositionFill "acct" "AAPL") :=
  [⟨sampleOrder, rfl, rfl, .buy, 2, by decide, 100, by decide⟩, ⟨sampleOrder, rfl, rfl, .buyToOpen, 1, by decide, 130, by decide⟩,
    ⟨sampleOrder, rfl, rfl, .sellToClose, 5, by decide, 120, by decide⟩]

theorem averageCost_law_sample : AverageCostLaw Table.empty Table.empty costFills ∧
    realised Table.empty costFills = 30 ∧ (holding (applyFills Table.empty costFills) "acct" "AAPL").qty = -2 :=
  ⟨averageCost_law rfl rfl costFills, by decide +kernel, by decide +kernel⟩

end StratTrader.Orders
