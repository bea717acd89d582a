import StratTrader.Orders.Stored
import Mathlib.Algebra.BigOperators.Group.List.Basic
import Mathlib.Data.List.Induction
import Mathlib.Tactic.Linarith

/-!
# Conservation of fills

Three rows change when an execution is ingested: the fill, the position and the
order's counter. The position is moved incrementally, by the signed quantity of the
execution, so it is right only if it has been moved exactly once for every fill on
record. This is what is looked at here: the position of a symbol on an account beside the
signed sum of the fills on record for that account and symbol.

A fill row has no symbol and no side: both are those of its order. The balance
therefore rests on the order's intent never changing once the order is on record. And each
row is rounded for itself: an execution of more than eight decimals may leave the position
a unit of the eighth decimal away from the fills.

## What is proved

* `abs_imbalance_ingestStored`: what one call of `ingest_fill_event` does to the balance,
  whatever the event, the order, the side and the clock.
* `ingestStored_keeps_recorded`: a call for an execution on record changes no fill and no
  position, and lowers no filled quantity.
* `fills_conserved`: the three parts of conservation over every sequence of calls.

## Honest scope

Only ingestion is run here. What reconciliation does to the balance is the subject of
`StratTrader.Orders.Snap`.
-/

namespace StratTrader.Orders

open StratTrader.Brokers StratTrader.Foundation

/-! ### The net of the fills on record -/

/-- What a fill on record contributes to the position of a symbol on an account. -/
def fillLeg (orders : Table Order.clientOrderId) (account : AccountId) (symbol : String)
    (f : Fill) : ℚ :=
  match orders.find? f.order with
  | some order =>
    if f.brokerAccount = some account ∧ order.symbol = symbol then signedQty order.side f.qty else 0
  | none => 0

/-- The signed sum of the fills on record for a symbol on an account. -/
def netFilled (db : Db) (account : AccountId) (symbol : String) : ℚ :=
  (db.fills.rows.map (fillLeg db.orders account symbol)).sum

/-- How far a position is from the net of the fills on record. -/
def imbalance (db : Db) (account : AccountId) (symbol : String) : ℚ :=
  db.positionQty account symbol - netFilled db account symbol

/-- Writing an order with the same intent changes the contribution of no fill. -/
theorem fillLeg_put {orders : Table Order.clientOrderId} {o o' : Order}
    (ho : orders.find? o.clientOrderId = some o) (h : o.SameIntent o') (account : AccountId)
    (symbol : String) : fillLeg (orders.put o') account symbol = fillLeg orders account symbol := by
  funext f
  unfold fillLeg
  rw [Table.find?_put, h.clientOrderId]
  split_ifs with hk
  · rw [hk, ho]
    simp only [h.symbol, h.side]
  · rfl

/-! ### The position row -/

theorem positionRow_key (positions : Table Position.key) (user : UserId) (account : AccountId)
    (symbol : String) : (positionRow positions user account symbol).key = (account, symbol) := by
  unfold positionRow
  split
  · exact Table.key_of_find? ‹_›
  · rfl

theorem positionRow_qty (db : Db) (user : UserId) (account : AccountId) (symbol : String) :
    (positionRow db.positions user account symbol).qty = db.positionQty account symbol := by
  unfold positionRow Db.positionQty
  cases db.positions.find? (account, symbol) <;> rfl

theorem filledPosition_key (positions : Table Position.key) (o : Order) (account : AccountId)
    (side : OrderSide) (qty price : ℚ) :
    (filledPosition positions o account side qty price).key = (account, o.symbol) :=
  positionRow_key positions o.user account o.symbol

/-- A fill moves the position of its account and symbol by the signed quantity, and no other. -/
theorem positionQty_applyFill (db : Db) (orders : Table Order.clientOrderId) (fills : Table Fill.key)
    (o : Order) (a : AccountId) (qty price : ℚ) (account : AccountId) (symbol : String) :
    (Db.mk orders fills (applyFillToPosition db.positions o a o.side qty price)).positionQty
        account symbol =
      db.positionQty account symbol +
        if a = account ∧ o.symbol = symbol then signedQty o.side qty else 0 := by
  rw [Db.positionQty, applyFillToPosition, Table.find?_put, filledPosition_key]
  by_cases hk : a = account ∧ o.symbol = symbol
  · obtain ⟨rfl, rfl⟩ := hk
    rw [if_pos rfl, if_pos ⟨rfl, rfl⟩, ← positionRow_qty db o.user]
    rfl
  · rw [if_neg hk, add_zero, if_neg]
    · rfl
    · intro e
      obtain ⟨rfl, rfl⟩ := Prod.mk.inj e
      exact hk ⟨rfl, rfl⟩

/-! ### What is stored -/

theorem hasPlaces_signedQty {side : OrderSide} {qty : ℚ} (h : HasPlaces 8 qty) : HasPlaces 8 (signedQty side qty) := by
  unfold signedQty
  split_ifs
  · exact h
  · exact h.neg

/-- A stored fill contributes what its column keeps. -/
theorem fillLeg_stored (db : Db) (account : AccountId) (symbol : String) (f : Fill) :
    fillLeg db.stored.orders account symbol f.stored = toPlaces 8 (fillLeg db.orders account symbol f) := by
  unfold fillLeg
  rw [find?_orders_stored, show f.stored.order = f.order from rfl]
  cases db.orders.find? f.order with
  | none => exact (toPlaces_zero 8).symm
  | some o =>
    show (if f.brokerAccount = some account ∧ o.symbol = symbol then signedQty o.side (toPlaces 8 f.qty) else 0) = _
    dsimp only
    split_ifs
    · unfold signedQty
      split_ifs
      · rfl
      · exact (toPlaces_neg 8 f.qty).symm
    · exact (toPlaces_zero 8).symm

/-- The net of what is stored. -/
theorem netFilled_stored (db : Db) (account : AccountId) (symbol : String) :
    netFilled db.stored account symbol =
      (db.fills.rows.map fun f => toPlaces 8 (fillLeg db.orders account symbol f)).sum := by
  unfold netFilled
  rw [show db.stored.fills.rows = db.fills.rows.map Fill.stored from rfl, List.map_map]
  refine congrArg List.sum (List.map_congr_left fun f _ => fillLeg_stored db account symbol f)

/-- The fills that are stored already contribute what they have contributed. -/
theorem Db.IsStored.sum_fillLeg {db : Db} (h : db.IsStored) (account : AccountId) (symbol : String) :
    (db.fills.rows.map fun f => toPlaces 8 (fillLeg db.orders account symbol f)).sum = netFilled db account symbol := by
  refine congrArg List.sum (List.map_congr_left fun f hf => toPlaces_of_hasPlaces ?_)
  have hqty : HasPlaces 8 f.qty := hasPlaces_iff.mpr (congrArg Fill.qty (h.fills f hf))
  unfold fillLeg
  split
  · split_ifs
    · exact hasPlaces_signedQty hqty
    · exact hasPlaces_zero 8
  · exact hasPlaces_zero 8

/-! ### One call -/

/-- Whether a call records an execution of more than eight decimals, for an account and symbol. -/
def recordsFiner (db : Db) (account : AccountId) (symbol : String) (fill : FillEvent) : Bool :=
  isExecution fill && (db.fills.find? (some account, fill.brokerExecId)).isNone &&
    ((findOrder db fill).any fun o => decide (o.brokerAccount = some account ∧ o.symbol = symbol)) &&
      decide (¬ HasPlaces 8 fill.qty)

/-- What is added to the balance when the position and the fill are rounded, each for itself. -/
theorem abs_toPlaces_add_sub_le {p x : ℚ} (hp : HasPlaces 8 p) :
    |toPlaces 8 (p + x) - (p + toPlaces 8 x)| ≤ if HasPlaces 8 x then 0 else 1 / 10 ^ 8 := by
  split_ifs with hx
  · rw [toPlaces_of_hasPlaces (hp.add hx), toPlaces_of_hasPlaces hx, sub_self, abs_zero]
  · have hsum := abs_toPlaces_sub_le 8 (p + x)
    have hleg := abs_toPlaces_sub_le 8 x
    rw [abs_le] at hsum hleg ⊢
    constructor <;> linarith

/-- Where a new execution is rounded, one of more decimals is recorded. -/
theorem roundingOf_le {db : Db} {fill : FillEvent} {o : Order} {a account : AccountId} {symbol : String}
    (ho : findOrder db fill = some o) (ha : o.brokerAccount = some a) (hexec : isExecution fill = true)
    (hnew : db.fills.find? (some a, fill.brokerExecId) = none) :
    (if HasPlaces 8 (if a = account ∧ o.symbol = symbol then signedQty o.side fill.qty else 0) then (0 : ℚ)
      else 1 / 10 ^ 8) ≤ if recordsFiner db account symbol fill then 1 / 10 ^ 8 else 0 := by
  by_cases hmatch : a = account ∧ o.symbol = symbol
  · rw [if_pos hmatch]
    obtain ⟨rfl, hsymbol⟩ := hmatch
    by_cases hplaces : HasPlaces 8 fill.qty
    · rw [if_pos (hasPlaces_signedQty hplaces)]
      split_ifs <;> norm_num
    · have hfiner : recordsFiner db a symbol fill = true := by
        simp [recordsFiner, hexec, hnew, ho, ha, hsymbol, hplaces]
      rw [if_pos hfiner]
      split_ifs <;> norm_num
  · rw [if_neg hmatch, if_pos (hasPlaces_zero 8)]
    split_ifs <;> norm_num

/-- **What a call does to the balance**: it changes it by a unit of the last decimal at most, and not at all
but by an execution of more decimals. -/
theorem abs_imbalance_ingestStored {db : Db} (h : db.IsStored) (clk : Clock) (fill : FillEvent) (account : AccountId)
    (symbol : String) :
    |imbalance (ingestStored clk db fill) account symbol| ≤
      |imbalance db account symbol| + if recordsFiner db account symbol fill then 1 / 10 ^ 8 else 0 := by
  have hle : |imbalance db account symbol| ≤
      |imbalance db account symbol| + if recordsFiner db account symbol fill then 1 / 10 ^ 8 else 0 := by
    refine le_add_of_nonneg_right ?_
    split_ifs <;> norm_num
  have hsame {orders : Table Order.clientOrderId}
      (hlegs : fillLeg orders account symbol = fillLeg db.orders account symbol) :
      imbalance (Db.stored { db with orders := orders }) account symbol = imbalance db account symbol := by
    unfold imbalance
    rw [positionQty_stored, netFilled_stored]
    dsimp only
    rw [hlegs, h.sum_fillLeg]
    exact congrArg (· - _) (toPlaces_of_hasPlaces (h.positionQty account symbol))
  unfold ingestStored ingest
  cases hr : ingestFillEvent clk fill db with
  | none => exact (congrArg abs (hsame rfl)).trans_le hle
  | some p =>
    obtain ⟨db', r⟩ := p
    rcases ingest_cases hr with ⟨-, rfl⟩ | ⟨o, ho, -, rfl⟩ | ⟨o, a, ts, ho, ha, hexec, hnew, rfl⟩
    · exact (congrArg abs (hsame rfl)).trans_le hle
    · -- the order's row alone
      have hlegs := fillLeg_put (find?_of_findOrder ho) (afterEvent_sameIntent o fill false) account symbol
      exact (congrArg abs (hsame hlegs)).trans_le hle
    · -- a new execution: both sides move by the same signed quantity, and are rounded
      have hlegs := fillLeg_put (find?_of_findOrder ho) (afterEvent_sameIntent o fill true) account symbol
      have hleg : fillLeg db.orders account symbol
          ⟨o.clientOrderId, some a, fill.qty, fill.price, ts, fill.brokerExecId⟩ =
            if a = account ∧ o.symbol = symbol then signedQty o.side fill.qty else 0 := by
        simp only [fillLeg, find?_of_findOrder ho, Option.some.injEq]
      unfold imbalance
      rw [positionQty_stored, netFilled_stored]
      dsimp only
      rw [positionQty_applyFill, hlegs, Table.rows_put_new hnew, List.map_append, List.sum_append, h.sum_fillLeg,
        List.map_singleton, List.sum_singleton, hleg]
      have hround := abs_toPlaces_add_sub_le (x := if a = account ∧ o.symbol = symbol then signedQty o.side fill.qty else 0)
        (h.positionQty account symbol)
      have hfiner := hround.trans (roundingOf_le ho ha hexec hnew)
      refine le_trans (le_of_eq (congrArg abs ?_)) ((abs_add_le _ _).trans (add_le_add_right hfiner _))
      ring

/-! ### Recorded executions -/

/-- The filled quantity is not lowered. -/
def Order.NotLowered (o o' : Order) : Prop := o.filledQty ≤ o'.filledQty

theorem Order.NotLowered.refl (o : Order) : o.NotLowered o := le_refl o.filledQty

theorem Order.NotLowered.trans (o p q : Order) (h : o.NotLowered p) (h' : p.NotLowered q) :
    o.NotLowered q :=
  le_trans h h'

/-- The filled quantity of no order on record is lower than before. -/
def NoneLowered (db db' : Db) : Prop := Table.Kept Order.NotLowered db.orders db'.orders

theorem NoneLowered.refl (db : Db) : NoneLowered db db := Table.Kept.refl Order.NotLowered.refl _

theorem NoneLowered.trans {db db' db'' : Db} (h : NoneLowered db db') (h' : NoneLowered db' db'') :
    NoneLowered db db'' :=
  Table.Kept.trans Order.NotLowered.trans h h'

/-- No call lowers a filled quantity. -/
theorem noneLowered_ingest (clk : Clock) (db : Db) (fill : FillEvent) :
    NoneLowered db (ingest clk db fill) := by
  cases hr : ingestFillEvent clk fill db with
  | none => simpa only [ingest, hr] using NoneLowered.refl db
  | some p =>
    obtain ⟨db', r⟩ := p
    have hdb : ingest clk db fill = db' := by simp only [ingest, hr]
    rw [hdb]
    rcases ingest_cases hr with ⟨-, rfl⟩ | ⟨o, ho, -, rfl⟩ | ⟨o, a, ts, ho, -, hexec, -, rfl⟩
    · exact NoneLowered.refl db'
    · exact Table.Kept.put Order.NotLowered.refl (find?_of_findOrder ho)
        (afterEvent_clientOrderId o fill false) (le_afterEvent_filledQty o fill false (by simp))
    · exact Table.Kept.put Order.NotLowered.refl (find?_of_findOrder ho)
        (afterEvent_clientOrderId o fill true)
        (le_afterEvent_filledQty o fill true fun _ => (isExecution_iff.mp hexec).2)

/-- No call lowers a filled quantity that is stored. -/
theorem noneLowered_ingestStored {db : Db} (h : db.IsStored) (clk : Clock) (fill : FillEvent) :
    NoneLowered db (ingestStored clk db fill) := by
  intro k o ho
  obtain ⟨o', ho', hle⟩ := noneLowered_ingest clk db fill k o ho
  refine ⟨o'.stored, by rw [ingestStored, find?_orders_stored, ho', Option.map_some], ?_⟩
  have hround := toPlaces_mono 8 hle
  rwa [toPlaces_of_hasPlaces (h.order ho).2] at hround

/-- The event's execution is on record for the account of the order it is about. -/
def Recorded (db : Db) (fill : FillEvent) : Prop :=
  ∃ o f, findOrder db fill = some o ∧ db.fills.find? (o.brokerAccount, fill.brokerExecId) = some f

/-- A call for an execution on record changes no fill and no position. -/
theorem ingestStored_keeps_recorded {db : Db} (hdb : db.IsStored) {fill : FillEvent} (h : Recorded db fill)
    (clk : Clock) :
    (ingestStored clk db fill).fills = db.fills ∧ (ingestStored clk db fill).positions = db.positions := by
  obtain ⟨o, f, ho, hf⟩ := h
  have hkeep := ingest_unmoved (fun p hp _ => by
    rw [ho] at hp
    obtain rfl := Option.some.inj hp
    exact Option.isSome_iff_exists.mpr ⟨f, hf⟩) clk
  exact hdb.stored_unmoved hkeep.1 hkeep.2

/-! ### Every sequence of calls -/

/-- The tables after a sequence of calls, each at its own time. -/
def ingestStoredCalls (db : Db) (calls : List (Clock × FillEvent)) : Db :=
  calls.foldl (fun db call => ingestStored call.1 db call.2) db

/-- How many of the calls record an execution of more than eight decimals, for an account and symbol. -/
def finerCalls (account : AccountId) (symbol : String) : Db → List (Clock × FillEvent) → ℕ
  | _, [] => 0
  | db, call :: calls =>
    (if recordsFiner db account symbol call.2 then 1 else 0) +
      finerCalls account symbol (ingestStored call.1 db call.2) calls

theorem isStored_ingestStoredCalls {db : Db} (h : db.IsStored) (calls : List (Clock × FillEvent)) :
    (ingestStoredCalls db calls).IsStored := by
  induction calls generalizing db with
  | nil => exact h
  | cons call calls ih => exact ih (isStored_stored _)

/-- **What a sequence of calls does to the balance.** -/
theorem abs_imbalance_ingestStoredCalls {db : Db} (h : db.IsStored) (calls : List (Clock × FillEvent))
    (account : AccountId) (symbol : String) :
    |imbalance (ingestStoredCalls db calls) account symbol| ≤
      |imbalance db account symbol| + finerCalls account symbol db calls / 10 ^ 8 := by
  induction calls generalizing db with
  | nil => simp [ingestStoredCalls, finerCalls]
  | cons call calls ih =>
    have hfirst := abs_imbalance_ingestStored h call.1 call.2 account symbol
    have hrest := ih (isStored_stored (ingest call.1 db call.2))
    refine hrest.trans ((add_le_add_left hfirst _).trans (le_of_eq ?_))
    rw [finerCalls, add_assoc, Nat.cast_add, add_div]
    split_ifs <;> simp [ingestStored]

/-- **Fills are conserved**: from no fills and no positions, after every sequence of
ingested events, every position is the net of the fills on record but for a unit of the eighth
decimal for every execution of more than eight decimals that has been recorded for it, an execution is on
record once for an account, and ingesting an execution on record again changes no fill
and no position and lowers no filled quantity. -/
theorem fills_conserved {db : Db} (hdb : db.IsStored) (hf : db.fills = Table.empty)
    (hp : db.positions = Table.empty) (calls : List (Clock × FillEvent)) :
    (∀ account symbol,
      |(ingestStoredCalls db calls).positionQty account symbol - netFilled (ingestStoredCalls db calls) account symbol| ≤
        finerCalls account symbol db calls / 10 ^ 8) ∧
    ((ingestStoredCalls db calls).fills.rows.map Fill.key).Nodup ∧
    ∀ clk fill, Recorded (ingestStoredCalls db calls) fill →
      (ingestStored clk (ingestStoredCalls db calls) fill).fills = (ingestStoredCalls db calls).fills ∧
      (ingestStored clk (ingestStoredCalls db calls) fill).positions = (ingestStoredCalls db calls).positions ∧
      NoneLowered (ingestStoredCalls db calls) (ingestStored clk (ingestStoredCalls db calls) fill) := by
  have hstored := isStored_ingestStoredCalls hdb calls
  refine ⟨fun account symbol => ?_, Table.nodup _, fun clk fill hrec => ?_⟩
  · have hstart : imbalance db account symbol = 0 := by
      simp only [imbalance, Db.positionQty, netFilled, hf, hp, Table.find?_empty]
      exact sub_self (0 : ℚ)
    have hle := abs_imbalance_ingestStoredCalls hdb calls account symbol
    rwa [hstart, abs_zero, zero_add] at hle
  · have hkeep := ingestStored_keeps_recorded hstored hrec clk
    exact ⟨hkeep.1, hkeep.2, noneLowered_ingestStored hstored clk fill⟩

/-! ### Samples -/

/-- An order to sell 10, submitted. -/
def sampleSale : Order := { sampleOrder with clientOrderId := "c2", side := .sell }

/-- A database with the sample order and the sale. -/
def twoOrdersDb : Db := ⟨(Table.empty.put sampleOrder).put sampleSale, Table.empty, Table.empty⟩

/-- An execution of nine decimals. -/
def fineExecution (clientOrderId execId : String) : FillEvent :=
  { sampleExecution with
    brokerExecId := execId
    clientOrderId := clientOrderId
    qty := 123456785 / 10 ^ 9
    filledQty := 123456785 / 10 ^ 9 }

/-- It is bought, and sold again. -/
def roundTrip : List (Clock × FillEvent) :=
  [(sampleClock, fineExecution "c1" "x1"), (sampleClock, fineExecution "c2" "x2")]

theorem twoOrdersDb_isStored : twoOrdersDb.IsStored where
  orders := by decide +kernel
  fills := by decide
  positions := by decide

/-- An execution of 4, ingested twice, and then the round trip. -/
theorem fills_conserved_sample :
    |(ingestStoredCalls twoOrdersDb ((sampleClock, sampleExecution) :: (sampleClock, sampleExecution) :: roundTrip)).positionQty
        "acct" "AAPL" -
      netFilled (ingestStoredCalls twoOrdersDb ((sampleClock, sampleExecution) :: (sampleClock, sampleExecution) :: roundTrip))
        "acct" "AAPL"| ≤
      finerCalls "acct" "AAPL" twoOrdersDb ((sampleClock, sampleExecution) :: (sampleClock, sampleExecution) :: roundTrip) /
        10 ^ 8 :=
  (fills_conserved twoOrdersDb_isStored rfl rfl _).1 _ _

/-- **The position is not the net of the fills**, which are of the same quantity, bought and sold. -/
theorem not_balanced_roundTrip :
    ¬ ∀ (db : Db) (calls : List (Clock × FillEvent)), db.IsStored → db.fills = Table.empty →
      db.positions = Table.empty → ∀ account symbol,
        (ingestStoredCalls db calls).positionQty account symbol = netFilled (ingestStoredCalls db calls) account symbol := by
  intro hbalanced
  have hpos : (ingestStoredCalls twoOrdersDb roundTrip).positionQty "acct" "AAPL" = 1 / 10 ^ 8 := by decide +kernel
  have hnet : netFilled (ingestStoredCalls twoOrdersDb roundTrip) "acct" "AAPL" = 0 := by decide +kernel
  have heq := hbalanced twoOrdersDb roundTrip twoOrdersDb_isStored rfl rfl "acct" "AAPL"
  rw [hpos, hnet] at heq
  exact absurd heq (by norm_num)

end StratTrader.Orders
