import StratTrader.Brokers.TradeStation
import StratTrader.Orders.Conservation
import Mathlib.Algebra.Order.BigOperators.Group.List

/-!
# Executions at TradeStation

An order event of TradeStation carries what has been filled of the order so far. Without a quantity
of the execution itself the mapper takes that for the quantity of the execution, and ingestion adds
up the quantities of all executions that are new to it.

## What is proved

* `ledger_ingest`: what one event does to the fills of the order and to the position.
* `booked_run`: what a run of events adds to them.
* `countedOnce_iff`: when that is what the last event says has been filled.

## Honest scope

An event is about the order that ingestion finds for it when it arrives. Nothing else is ingested in
between.
-/

namespace StratTrader.Orders

open StratTrader.Brokers StratTrader.Brokers.TradeStation StratTrader.Foundation

/-- An order event that carries what has been filled so far, and no quantity of an execution. -/
structure CumulativeEvent (upper : String → String) where
  /-- What is received. -/
  payload : Payload
  /-- There is no `ExecutionQuantity`. -/
  noQuantity : (get payload "ExecutionQuantity").truthy = false
  /-- What it is mapped to. -/
  fill : FillEvent
  /-- By the mapper. -/
  mapped : fromTsOrderEvent upper payload = some fill

/-- The quantity of an execution is taken to be all that is filled, and there is no timestamp. -/
theorem CumulativeEvent.fill_eq {upper : String → String} (e : CumulativeEvent upper) :
    e.fill.qty = e.fill.filledQty ∧ e.fill.ts = none := by
  have hmapped := e.mapped
  unfold fromTsOrderEvent at hmapped
  simp only [e.noQuantity, Bool.false_eq_true, if_false, Option.bind_eq_bind, Option.bind_eq_some_iff, Option.some.injEq,
    Option.pure_def] at hmapped
  obtain ⟨filled, -, qty, rfl, price, -, hfill⟩ := hmapped
  rw [← hfill]
  exact ⟨rfl, rfl⟩

/-! ### What is booked -/

/-- The events that are booked as executions: those that report one whose identifier is not known yet. -/
def booked (known : String → Bool) : List FillEvent → List FillEvent
  | [] => []
  | f :: fs =>
    if isExecution f && !known f.brokerExecId then f :: booked (fun id => known id || decide (id = f.brokerExecId)) fs
    else booked known fs

/-- The identifiers that are on record for an account. -/
def knownIds (db : Db) (account : AccountId) (id : String) : Bool := (db.fills.find? (some account, id)).isSome

/-- The quantities of the fills of an order. -/
def fillQtys (db : Db) (orderId : String) : List ℚ :=
  (db.fills.rows.filter fun f => decide (f.order = orderId)).map (·.qty)

/-- Each event is about the order, when it is delivered. -/
def Attributed (orderId : String) : Db → List (Clock × FillEvent) → Prop
  | _, [] => True
  | db, c :: cs =>
    (∃ o, findOrder db c.2 = some o ∧ o.clientOrderId = orderId) ∧ Attributed orderId (ingest c.1 db c.2) cs

variable {db : Db} {order : Order} {account : AccountId}

/-- The order is on record, with the intent it had. -/
def Stored (db : Db) (order : Order) : Prop :=
  ∃ o, db.orders.find? order.clientOrderId = some o ∧ order.SameIntent o

theorem Stored.ingest (h : Stored db order) (clk : Clock) (fill : FillEvent) : Stored (ingest clk db fill) order := by
  obtain ⟨o, ho, hsame⟩ := h
  obtain ⟨o', ho', hsame'⟩ := intent_ingest clk db fill _ o ho
  exact ⟨o', ho', hsame.trans _ _ _ hsame'⟩

theorem Stored.of_findOrder (h : Stored db order) {fill : FillEvent} {o : Order} (ho : findOrder db fill = some o)
    (hid : o.clientOrderId = order.clientOrderId) : order.SameIntent o := by
  obtain ⟨o', ho', hsame⟩ := h
  have hrow := find?_of_findOrder ho
  rw [hid, ho'] at hrow
  cases hrow
  exact hsame

/-- Events that name the order are about it. -/
theorem attributed_of_named (h : Stored db order) {calls : List (Clock × FillEvent)}
    (hnamed : ∀ c ∈ calls, c.2.clientOrderId = order.clientOrderId) : Attributed order.clientOrderId db calls := by
  induction calls generalizing db with
  | nil => trivial
  | cons c cs ih =>
    refine ⟨?_, ih (h.ingest c.1 c.2) fun c' hc => hnamed c' (.tail _ hc)⟩
    obtain ⟨o, ho, -⟩ := h
    refine ⟨o, ?_, Table.key_of_find? ho⟩
    unfold findOrder
    rw [hnamed c (.head _), ho]

/-- What is on record of an order and its position, and the identifiers on record for its account. -/
structure Ledger where
  /-- The quantities of the order's fills. -/
  qtys : List ℚ
  /-- The position. -/
  position : ℚ
  /-- The identifiers. -/
  known : String → Bool

/-- The ledger of a database. -/
def ledger (db : Db) (order : Order) (account : AccountId) : Ledger :=
  ⟨fillQtys db order.clientOrderId, db.positionQty account order.symbol, knownIds db account⟩

/-- What an event does to a ledger. -/
def Ledger.book (l : Ledger) (side : OrderSide) (fill : FillEvent) : Ledger :=
  if isExecution fill && !l.known fill.brokerExecId then
    ⟨l.qtys ++ [fill.qty], l.position + signedQty side fill.qty, fun id => l.known id || decide (id = fill.brokerExecId)⟩
  else l

/-- **What one event does.** -/
theorem ledger_ingest (h : Stored db order) (haccount : order.brokerAccount = some account) (clk : Clock)
    {fill : FillEvent} (hts : fill.ts = none) {o : Order} (ho : findOrder db fill = some o)
    (hid : o.clientOrderId = order.clientOrderId) :
    ledger (ingest clk db fill) order account = (ledger db order account).book order.side fill := by
  have hsame := h.of_findOrder ho hid
  have haccount' : o.brokerAccount = some account := hsame.brokerAccount.trans haccount
  unfold Ledger.book
  split_ifs with hbooked
  · rw [Bool.and_eq_true, Bool.not_eq_true'] at hbooked
    obtain ⟨hexec, hnew⟩ := hbooked
    have hnone : db.fills.find? (some account, fill.brokerExecId) = none :=
      Option.isNone_iff_eq_none.mp (Option.isSome_eq_false_iff.mp hnew)
    have hparse : parseTs clk fill.ts = some clk.now := by
      rw [hts]
      rfl
    rw [ingest_of_new ho hexec hparse haccount' hnone]
    unfold ledger
    congr 1
    · unfold fillQtys
      dsimp only
      rw [Table.rows_put_new hnone, List.filter_append, List.map_append, List.filter_singleton, hid,
        decide_eq_true rfl]
      rfl
    · rw [positionQty_applyFill, if_pos ⟨rfl, hsame.symbol⟩, hsame.side]
    · funext id
      unfold knownIds
      dsimp only
      rw [Table.find?_put]
      by_cases hid' : id = fill.brokerExecId
      · rw [hid', decide_eq_true rfl, Bool.or_true]
        exact congrArg Option.isSome (if_pos rfl)
      · rw [if_neg fun hkey => hid' (congrArg Prod.snd hkey), decide_eq_false hid', Bool.or_false]
  · have hrecorded : ∀ p, findOrder db fill = some p → isExecution fill = true →
        (db.fills.find? (p.brokerAccount, fill.brokerExecId)).isSome := by
      intro p hp hexec
      rw [ho] at hp
      cases hp
      rw [haccount']
      rw [hexec, Bool.true_and, Bool.not_eq_true', Bool.not_eq_false] at hbooked
      exact hbooked
    have hunmoved := ingest_unmoved hrecorded clk
    unfold ledger fillQtys Db.positionQty knownIds
    rw [hunmoved.1, hunmoved.2]

/-! ### A run of events -/

theorem ledger_ingestCalls (h : Stored db order) (haccount : order.brokerAccount = some account)
    {calls : List (Clock × FillEvent)} (hts : ∀ c ∈ calls, c.2.ts = none)
    (hours : Attributed order.clientOrderId db calls) :
    ledger (ingestCalls db calls) order account =
      (calls.map Prod.snd).foldl (fun l fill => l.book order.side fill) (ledger db order account) := by
  induction calls generalizing db with
  | nil => rfl
  | cons c cs ih =>
    obtain ⟨⟨o, ho, hid⟩, hrest⟩ := hours
    rw [List.map_cons, List.foldl_cons, ← ledger_ingest h haccount c.1 (hts c (.head _)) ho hid]
    exact ih (h.ingest c.1 c.2) (fun c' hc => hts c' (.tail _ hc)) hrest

theorem signedQty_zero (side : OrderSide) : signedQty side 0 = 0 := by
  unfold signedQty
  rw [neg_zero, ite_self]

theorem signedQty_add (side : OrderSide) (a b : ℚ) : signedQty side (a + b) = signedQty side a + signedQty side b := by
  unfold signedQty
  split_ifs
  · rfl
  · exact neg_add a b

/-- **What a run of events adds** are the quantities of those that are booked. -/
theorem booked_run (l : Ledger) (side : OrderSide) (fills : List FillEvent) :
    (fills.foldl (fun l fill => l.book side fill) l).qtys = l.qtys ++ (booked l.known fills).map (·.qty) ∧
    (fills.foldl (fun l fill => l.book side fill) l).position =
      l.position + signedQty side ((booked l.known fills).map (·.qty)).sum := by
  induction fills generalizing l with
  | nil =>
    unfold booked
    rw [List.map_nil, List.append_nil, List.sum_nil, signedQty_zero, add_zero]
    exact ⟨rfl, rfl⟩
  | cons f fs ih =>
    rw [List.foldl_cons, (ih _).1, (ih _).2]
    rw [Ledger.book, booked]
    split_ifs with hbooked
    · rw [List.map_cons, List.sum_cons, signedQty_add, List.append_assoc, add_assoc]
      exact ⟨rfl, rfl⟩
    · exact ⟨rfl, rfl⟩

theorem mem_of_mem_booked {known : String → Bool} {fills : List FillEvent} {f : FillEvent} (hf : f ∈ booked known fills) :
    f ∈ fills := by
  induction fills generalizing known with
  | nil => exact hf
  | cons g gs ih =>
    unfold booked at hf
    split_ifs at hf
    · rcases List.mem_cons.mp hf with rfl | hf
      · exact .head _
      · exact .tail _ (ih hf)
    · exact .tail _ (ih hf)

/-- What is booked is positive. -/
theorem pos_of_mem_booked {known : String → Bool} {fills : List FillEvent} {f : FillEvent} (hf : f ∈ booked known fills) :
    0 < f.qty := by
  induction fills generalizing known with
  | nil => cases hf
  | cons g gs ih =>
    unfold booked at hf
    split_ifs at hf with hbooked
    · rcases List.mem_cons.mp hf with rfl | hf
      · exact (isExecution_iff.mp (Bool.and_eq_true_iff.mp hbooked).1).2
      · exact ih hf
    · exact ih hf

/-! ### Counting once -/

/-- What the last event says has been filled. -/
def lastFilled (fills : List FillEvent) : ℚ := (fills.getLast?.map (·.filledQty)).getD 0

section
variable {upper : String → String}

/-- The events, as ingestion is called with them. -/
def calls (events : List (Clock × CumulativeEvent upper)) : List (Clock × FillEvent) :=
  events.map fun e => (e.1, e.2.fill)

/-- What the events are mapped to. -/
def mappedFills (events : List (Clock × CumulativeEvent upper)) : List FillEvent := events.map fun e => e.2.fill

/-- The fills of the order, and the position, have grown by what the last event says has been filled. -/
structure CountedOnce (db : Db) (order : Order) (account : AccountId) (events : List (Clock × CumulativeEvent upper)) :
    Prop where
  /-- The fills. -/
  fills : (fillQtys (ingestCalls db (calls events)) order.clientOrderId).sum = lastFilled (mappedFills events)
  /-- The position. -/
  position : |(ingestCalls db (calls events)).positionQty account order.symbol - db.positionQty account order.symbol| =
    lastFilled (mappedFills events)

/-- What is booked says of itself how much has been filled. -/
theorem map_qty_booked (known : String → Bool) (events : List (Clock × CumulativeEvent upper)) :
    (booked known (mappedFills events)).map (·.qty) = (booked known (mappedFills events)).map (·.filledQty) := by
  refine List.map_congr_left fun f hf => ?_
  obtain ⟨e, -, rfl⟩ := List.mem_map.mp (mem_of_mem_booked hf)
  exact e.2.fill_eq.1

/-- **A run of cumulative events is counted once** exactly if what those that are booked say has been filled adds up to
what the last event says. -/
theorem countedOnce_iff_sum (hstored : Stored db order) (haccount : order.brokerAccount = some account)
    (hnew : fillQtys db order.clientOrderId = []) (events : List (Clock × CumulativeEvent upper))
    (hours : Attributed order.clientOrderId db (calls events)) :
    CountedOnce db order account events ↔
      ((booked (knownIds db account) (mappedFills events)).map (·.filledQty)).sum = lastFilled (mappedFills events) := by
  have hts : ∀ c ∈ calls events, c.2.ts = none := by
    intro c hc
    obtain ⟨e, -, rfl⟩ := List.mem_map.mp hc
    exact e.2.fill_eq.2
  have hmapped : (calls events).map Prod.snd = mappedFills events := List.map_map
  have hrun := booked_run (ledger db order account) order.side (mappedFills events)
  rw [← hmapped, ← ledger_ingestCalls hstored haccount hts hours, hmapped] at hrun
  obtain ⟨hfills, hposition⟩ := hrun
  have hqtys : fillQtys (ingestCalls db (calls events)) order.clientOrderId =
      (booked (knownIds db account) (mappedFills events)).map (·.filledQty) := by
    rw [← map_qty_booked]
    exact hfills.trans (congrArg (· ++ _) hnew)
  have hsum : 0 ≤ ((booked (knownIds db account) (mappedFills events)).map (·.filledQty)).sum := by
    rw [← map_qty_booked]
    refine List.sum_nonneg fun q hq => ?_
    obtain ⟨f, hf, rfl⟩ := List.mem_map.mp hq
    exact (pos_of_mem_booked hf).le
  have hmoved : |(ingestCalls db (calls events)).positionQty account order.symbol -
      db.positionQty account order.symbol| =
        ((booked (knownIds db account) (mappedFills events)).map (·.filledQty)).sum := by
    rw [← map_qty_booked] at hsum ⊢
    rw [show (ingestCalls db (calls events)).positionQty account order.symbol = _ from hposition]
    rw [show (ledger db order account).position = db.positionQty account order.symbol from rfl, add_sub_cancel_left]
    unfold signedQty
    split_ifs
    · exact abs_of_nonneg hsum
    · exact (abs_neg _).trans (abs_of_nonneg hsum)
  constructor
  · intro h
    rw [← hqtys]
    exact h.fills
  · intro h
    exact ⟨(congrArg List.sum hqtys).trans h, hmoved.trans h⟩

end

/-- An event of the sample order: its status, and what has been filled so far. -/
def sampleEvent (status filled : String) : Payload :=
  [("OrderID", .string "b1"), ("ClientOrderID", .string "c1"), ("Symbol", .string "AAPL"), ("Status", .string status),
    ("FilledQuantity", .string filled), ("FilledPrice", .string "100")]

/-- What it is mapped to. -/
def sampleMapped (status filled : String) : FillEvent := ((fromTsOrderEvent id (sampleEvent status filled)).getD sampleExecution)

/-- Four units are filled of ten. -/
def partlyFilled : CumulativeEvent id := ⟨sampleEvent "FPR" "4", rfl, sampleMapped "FPR" "4", by decide +kernel⟩

/-- All ten are filled. -/
def allFilled : CumulativeEvent id := ⟨sampleEvent "FLL" "10", rfl, sampleMapped "FLL" "10", by decide +kernel⟩

/-- Nothing is filled yet. -/
def acknowledged : CumulativeEvent id := ⟨sampleEvent "ACK" "0", rfl, sampleMapped "ACK" "0", by decide +kernel⟩

/-- The sample order is acknowledged and filled at once, and the fill is sent twice. -/
def filledAtOnce : List (Clock × CumulativeEvent id) :=
  [(sampleClock, acknowledged), (sampleClock, allFilled), (sampleClock, allFilled)]

end StratTrader.Orders
