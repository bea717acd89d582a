import StratTrader.Orders.Models

/-!
# Fill ingestion

`ingest_fill_event` of `orders/services.py`, "the single choke point every fill
flows through". It finds the order, records the execution under the dedup key
`(broker_account, broker_exec_id)`, moves the position and the running sum when the
execution is new, raises the sum to the broker's cumulative quantity when the event
carries one, and resolves the order's status.

A call is one transaction with the order's row locked, so it is one function from
database to database. It gives `none` when it raises, and then the transaction is
rolled back: `ingest` is the database after a call in either case.

## What is proved

* `ingest_cases`: all that a call can do, in three cases. Every result about
  ingestion uses this one and never unfolds the function.
* `le_afterEvent_filledQty`: the filled quantity never decreases.
* `afterEvent_status`: what becomes of the status.

## Honest scope

The audit entry, the metrics and the pushes to the dashboard are left out, and with
them `user_id`, which is used for nothing else. A call raises here when the timestamp
does not denote a date, and when a new execution belongs to an order without an
account, whose position row the database refuses; that any statement may fail at any
time is a matter of the runs (`StratTrader.Orders.Fills`).
-/

namespace StratTrader.Orders

open StratTrader.Brokers StratTrader.Foundation

/-! ### Timestamps -/

/-- What Django's `parse_datetime` makes of a text. -/
inductive ParsedDatetime where
  /-- A `ValueError`: well formatted, but no date. -/
  | invalid
  /-- `None`: not well formatted. -/
  | malformed
  /-- A datetime without a time zone, in microseconds of its own clock. -/
  | naive (t : ℤ)
  /-- A datetime with a time zone, in microseconds. -/
  | aware (t : ℤ)
  deriving DecidableEq

/-- The clock and the reader of timestamps. -/
structure Clock where
  /-- `timezone.now()`. -/
  now : ℤ
  /-- `parse_datetime`. -/
  parseDatetime : String → ParsedDatetime

/-- `_parse_ts`: `none` where `parse_datetime` raises. A naive datetime is taken as UTC. -/
def parseTs (clk : Clock) : Option String → Option ℤ
  | none => some clk.now
  | some ts =>
    if ts = "" then some clk.now
    else match clk.parseDatetime ts with
      | .invalid => none
      | .malformed => some clk.now
      | .naive t => some t
      | .aware t => some t

/-! ### Position math -/

/-- The average cost after a fill of `qty` at `price` moves `pos` to `newQty`. -/
def averageCost (pos : Position) (signed newQty qty price : ℚ) : ℚ :=
  if pos.qty = 0 ∨ newQty = 0 then
    if newQty ≠ 0 then price else 0
  else if decide (0 < pos.qty) = decide (0 < signed) then
    -- same direction: weighted average
    (pos.avgCost * |pos.qty| + price * qty) / |newQty|
  else if decide (0 < pos.qty) ≠ decide (0 < newQty) then
    -- flipped through zero: the residual's basis is this fill's price
    price
  else pos.avgCost

/-- `signed`: a buy adds, a sell subtracts. -/
def signedQty (side : OrderSide) (qty : ℚ) : ℚ := if side.isBuy then qty else -qty

/-- The row `get_or_create` gives for a symbol: ours, or a new flat one. -/
def positionRow (positions : Table Position.key) (user : UserId) (account : AccountId)
    (symbol : String) : Position :=
  match positions.find? (account, symbol) with
  | some pos => pos
  | none => ⟨user, account, symbol, 0, 0, none⟩

/-- `_apply_fill_to_position`: the position after the fill. -/
def filledPosition (positions : Table Position.key) (order : Order) (account : AccountId)
    (side : OrderSide) (qty price : ℚ) : Position :=
  let pos := positionRow positions order.user account order.symbol
  let signed := signedQty side qty
  let newQty := pos.qty + signed
  { pos with avgCost := averageCost pos signed newQty qty price, qty := newQty,
             marketPrice := some price }

/-- `_apply_fill_to_position`: the table after the fill. -/
def applyFillToPosition (positions : Table Position.key) (order : Order) (account : AccountId)
    (side : OrderSide) (qty price : ℚ) : Table Position.key :=
  positions.put (filledPosition positions order account side qty price)

/-! ### Ingestion -/

/-- The order an event is about: by our identifier, else by the broker's. -/
def findOrder (db : Db) (fill : FillEvent) : Option Order :=
  match db.orders.find? fill.clientOrderId with
  | some order => some order
  | none =>
    if fill.brokerOrderId ≠ "" then
      db.orders.rows.find? fun order => decide (order.brokerOrderId = fill.brokerOrderId)
    else none

/-- Whether an event is an execution: `event_type in ("fill", "partial_fill") and qty > 0`. -/
def isExecution (fill : FillEvent) : Bool :=
  (fill.eventType = "fill" || fill.eventType = "partial_fill") && 0 < fill.qty

/-- The broker's identifier is taken from the event when it differs. -/
def Order.noteBrokerOrderId (order : Order) (fill : FillEvent) : Order :=
  if fill.brokerOrderId ≠ "" ∧ order.brokerOrderId ≠ fill.brokerOrderId then
    { order with brokerOrderId := fill.brokerOrderId }
  else order

/-- The order with a new execution added to the local running sum. -/
def Order.addFill (order : Order) (fill : FillEvent) : Order :=
  { order with filledQty := order.filledQty + fill.qty }

/-- The order with the sum raised to the broker's cumulative quantity, if the event carries one. -/
def Order.raiseFilledQty (order : Order) (fill : FillEvent) : Order :=
  if 0 < fill.filledQty then { order with filledQty := max order.filledQty fill.filledQty }
  else order

/-- `_ORDER_STATUS_FROM_EVENT`. -/
def orderStatusFromEvent (eventType : String) : Option Status :=
  if eventType = "new" then some .submitted
  else if eventType = "canceled" then some .cancelled
  else if eventType = "rejected" then some .rejected
  else if eventType = "partial_fill" then some .partiallyFilled
  else none

/-- The status an event leaves an order in. -/
def resolvedStatus (order : Order) (fill : FillEvent) : Status :=
  if fill.eventType = "fill" then
    if order.qty ≤ order.filledQty then .filled else .partiallyFilled
  else match orderStatusFromEvent fill.eventType with
    | some mapped => if order.status.isTerminal then order.status else mapped
    | none => order.status

/-- The order's row after an event, `created` saying whether the event is a new execution. -/
def Order.afterEvent (order : Order) (fill : FillEvent) (created : Bool) : Order :=
  let order := order.noteBrokerOrderId fill
  let order := if created then order.addFill fill else order
  let order := order.raiseFilledQty fill
  { order with status := resolvedStatus order fill }

/-- What a call returns. -/
inductive IngestResult where
  /-- `{"ignored": True}`: the event is about no order of ours. -/
  | ignored
  /-- The event was applied: to which order, with which status, and whether it is new. -/
  | applied (orderId : String) (status : Status) (fillCreated positionChanged : Bool)
  deriving DecidableEq

/-- The execution part: `Fill.objects.get_or_create` and, for a new row, the position. It
gives the database and whether the execution is new, or `none` when it raises. -/
def bookExecution (clk : Clock) (fill : FillEvent) (order : Order) (db : Db) :
    Option (Db × Bool) :=
  if isExecution fill then
    match parseTs clk fill.ts with
    | none => none
    | some ts =>
      match db.fills.find? (order.brokerAccount, fill.brokerExecId) with
      | some _ => some (db, false)
      | none =>
        match order.brokerAccount with
        | none => none
        | some account =>
          some ({ db with
            fills := db.fills.put
              ⟨order.clientOrderId, some account, fill.qty, fill.price, ts, fill.brokerExecId⟩
            positions := applyFillToPosition db.positions order account order.side
              fill.qty fill.price }, true)
  else some (db, false)

/-- `ingest_fill_event`; `none` when the call raises. -/
def ingestFillEvent (clk : Clock) (fill : FillEvent) (db : Db) : Option (Db × IngestResult) :=
  match findOrder db fill with
  | none => some (db, .ignored)
  | some order =>
    match bookExecution clk fill order db with
    | none => none
    | some (db', created) =>
      let order' := order.afterEvent fill created
      some ({ db' with orders := db'.orders.put order' },
        .applied order'.clientOrderId order'.status created created)

/-- The database after a call: `@transaction.atomic` rolls a call that raises back. -/
def ingest (clk : Clock) (db : Db) (fill : FillEvent) : Db :=
  match ingestFillEvent clk fill db with
  | none => db
  | some (db', _) => db'

/-- A sequence of calls, each at its own time. -/
def ingestCalls (db : Db) (calls : List (Clock × FillEvent)) : Db :=
  calls.foldl (fun db call => ingest call.1 db call.2) db

/-! ### The order's row -/

@[simp] theorem noteBrokerOrderId_clientOrderId (o : Order) (fill : FillEvent) :
    (o.noteBrokerOrderId fill).clientOrderId = o.clientOrderId := by
  unfold Order.noteBrokerOrderId; split_ifs <;> rfl

@[simp] theorem noteBrokerOrderId_filledQty (o : Order) (fill : FillEvent) :
    (o.noteBrokerOrderId fill).filledQty = o.filledQty := by
  unfold Order.noteBrokerOrderId; split_ifs <;> rfl

@[simp] theorem noteBrokerOrderId_status (o : Order) (fill : FillEvent) :
    (o.noteBrokerOrderId fill).status = o.status := by
  unfold Order.noteBrokerOrderId; split_ifs <;> rfl

@[simp] theorem noteBrokerOrderId_qty (o : Order) (fill : FillEvent) :
    (o.noteBrokerOrderId fill).qty = o.qty := by
  unfold Order.noteBrokerOrderId; split_ifs <;> rfl

/-- The columns ingestion never writes. -/
structure Order.SameIntent (o o' : Order) : Prop where
  clientOrderId : o'.clientOrderId = o.clientOrderId
  brokerAccount : o'.brokerAccount = o.brokerAccount
  user : o'.user = o.user
  symbol : o'.symbol = o.symbol
  side : o'.side = o.side
  qty : o'.qty = o.qty

theorem Order.SameIntent.refl (o : Order) : o.SameIntent o := ⟨rfl, rfl, rfl, rfl, rfl, rfl⟩

theorem Order.SameIntent.trans (o p q : Order) (h : o.SameIntent p) (h' : p.SameIntent q) :
    o.SameIntent q :=
  ⟨h'.1.trans h.1, h'.2.trans h.2, h'.3.trans h.3, h'.4.trans h.4, h'.5.trans h.5, h'.6.trans h.6⟩

theorem afterEvent_sameIntent (o : Order) (fill : FillEvent) (created : Bool) :
    o.SameIntent (o.afterEvent fill created) := by
  unfold Order.afterEvent Order.raiseFilledQty Order.addFill Order.noteBrokerOrderId
  constructor <;> split_ifs <;> rfl

@[simp] theorem afterEvent_clientOrderId (o : Order) (fill : FillEvent) (created : Bool) :
    (o.afterEvent fill created).clientOrderId = o.clientOrderId :=
  (afterEvent_sameIntent o fill created).clientOrderId

@[simp] theorem afterEvent_qty (o : Order) (fill : FillEvent) (created : Bool) :
    (o.afterEvent fill created).qty = o.qty :=
  (afterEvent_sameIntent o fill created).qty

/-- The running sum before the broker's cumulative quantity is looked at. -/
def Order.localSum (o : Order) (fill : FillEvent) (created : Bool) : ℚ :=
  if created then o.filledQty + fill.qty else o.filledQty

/-- The filled quantity after an event: the local sum, raised to the cumulative quantity. -/
theorem afterEvent_filledQty (o : Order) (fill : FillEvent) (created : Bool) :
    (o.afterEvent fill created).filledQty =
      if 0 < fill.filledQty then max (o.localSum fill created) fill.filledQty
      else o.localSum fill created := by
  unfold Order.afterEvent Order.raiseFilledQty Order.localSum Order.addFill
  cases created <;> simp <;> split_ifs <;> simp

/-- The status after an event: a `fill` decides by the quantities, any other event is
mapped unless the order is final. -/
theorem afterEvent_status (o : Order) (fill : FillEvent) (created : Bool) :
    (o.afterEvent fill created).status =
      if fill.eventType = "fill" then
        if o.qty ≤ (o.afterEvent fill created).filledQty then .filled else .partiallyFilled
      else match orderStatusFromEvent fill.eventType with
        | some mapped => if o.status.isTerminal then o.status else mapped
        | none => o.status := by
  rw [← afterEvent_qty o fill created]
  unfold Order.afterEvent resolvedStatus Order.raiseFilledQty Order.addFill
  cases created <;> simp only [Bool.false_eq_true, if_true, if_false] <;> split_ifs <;>
    simp_all

/-- The filled quantity never decreases: a new execution has a positive quantity, and
the cumulative quantity is taken only when it is larger. -/
theorem le_afterEvent_filledQty (o : Order) (fill : FillEvent) (created : Bool)
    (h : created = true → 0 < fill.qty) : o.filledQty ≤ (o.afterEvent fill created).filledQty := by
  have hsum : o.filledQty ≤ o.localSum fill created := by
    unfold Order.localSum
    split_ifs with hc
    · exact le_add_of_nonneg_right (h hc).le
    · exact le_rfl
  rw [afterEvent_filledQty]
  split_ifs
  · exact hsum.trans (le_max_left _ _)
  · exact hsum

/-! ### What a call can do -/

theorem isExecution_iff {fill : FillEvent} : isExecution fill = true ↔
    (fill.eventType = "fill" ∨ fill.eventType = "partial_fill") ∧ 0 < fill.qty := by
  simp [isExecution]

/-- The order an event is about is a row of the table. -/
theorem find?_of_findOrder {db : Db} {fill : FillEvent} {o : Order} (h : findOrder db fill = some o) :
    db.orders.find? o.clientOrderId = some o := by
  unfold findOrder at h
  split at h
  · rename_i o' ho
    obtain rfl := Option.some.inj h
    rw [Table.key_of_find? ho, ho]
  · split_ifs at h
    exact Table.find?_of_mem (List.mem_of_find?_eq_some h)

/-- **All that a call which does not raise can do**: nothing, for an event about no order
of ours; or update the order's row alone, for an event that is no execution or one
already recorded; or also record a new execution and move the position. -/
theorem ingest_cases {clk : Clock} {fill : FillEvent} {db db' : Db} {r : IngestResult}
    (h : ingestFillEvent clk fill db = some (db', r)) :
    (findOrder db fill = none ∧ db' = db) ∨
    (∃ o, findOrder db fill = some o ∧
      (isExecution fill = true → ∃ f, db.fills.find? (o.brokerAccount, fill.brokerExecId) = some f) ∧
      db' = { db with orders := db.orders.put (o.afterEvent fill false) }) ∨
    (∃ o account ts, findOrder db fill = some o ∧ o.brokerAccount = some account ∧
      isExecution fill = true ∧ db.fills.find? (some account, fill.brokerExecId) = none ∧
      db' = ⟨db.orders.put (o.afterEvent fill true),
        db.fills.put ⟨o.clientOrderId, some account, fill.qty, fill.price, ts, fill.brokerExecId⟩,
        applyFillToPosition db.positions o account o.side fill.qty fill.price⟩) := by
  unfold ingestFillEvent at h
  cases hfind : findOrder db fill with
  | none =>
    simp only [hfind, Option.some.injEq, Prod.mk.injEq] at h
    exact Or.inl ⟨rfl, h.1.symm⟩
  | some o =>
    refine Or.inr ?_
    simp only [hfind] at h
    unfold bookExecution at h
    by_cases hexec : isExecution fill = true
    · simp only [hexec, if_true] at h
      cases hts : parseTs clk fill.ts with
      | none => simp [hts] at h
      | some ts =>
        simp only [hts] at h
        cases hfill : db.fills.find? (o.brokerAccount, fill.brokerExecId) with
        | some f =>
          simp only [hfill, Option.some.injEq, Prod.mk.injEq] at h
          exact Or.inl ⟨o, rfl, fun _ => ⟨f, hfill⟩, h.1.symm⟩
        | none =>
          simp only [hfill] at h
          cases hacc : o.brokerAccount with
          | none => simp [hacc] at h
          | some account =>
            simp only [hacc, Option.some.injEq, Prod.mk.injEq] at h
            exact Or.inr ⟨o, account, ts, rfl, hacc, hexec, hacc ▸ hfill, h.1.symm⟩
    · simp only [hexec, Bool.false_eq_true, if_false, Option.some.injEq, Prod.mk.injEq] at h
      exact Or.inl ⟨o, rfl, fun he => absurd he hexec, h.1.symm⟩

/-- A call keeps the intent of every order on record. -/
theorem intent_ingest (clk : Clock) (db : Db) (fill : FillEvent) :
    Table.Kept Order.SameIntent db.orders (ingest clk db fill).orders := by
  cases hr : ingestFillEvent clk fill db with
  | none => simpa only [ingest, hr] using Table.Kept.refl Order.SameIntent.refl db.orders
  | some p =>
    obtain ⟨db', r⟩ := p
    have hdb : ingest clk db fill = db' := by simp only [ingest, hr]
    rw [hdb]
    rcases ingest_cases hr with ⟨-, rfl⟩ | ⟨o, ho, -, rfl⟩ | ⟨o, a, ts, ho, -, -, -, rfl⟩
    · exact Table.Kept.refl Order.SameIntent.refl _
    · exact Table.Kept.put Order.SameIntent.refl (find?_of_findOrder ho)
        (afterEvent_clientOrderId o fill false) (afterEvent_sameIntent o fill false)
    · exact Table.Kept.put Order.SameIntent.refl (find?_of_findOrder ho)
        (afterEvent_clientOrderId o fill true) (afterEvent_sameIntent o fill true)

/-- A call for an event that is no execution, or for one on record, changes no fill and no
position. -/
theorem ingest_unmoved {db : Db} {fill : FillEvent} (h : ∀ o, findOrder db fill = some o →
      isExecution fill = true → (db.fills.find? (o.brokerAccount, fill.brokerExecId)).isSome)
    (clk : Clock) :
    (ingest clk db fill).fills = db.fills ∧ (ingest clk db fill).positions = db.positions := by
  cases hr : ingestFillEvent clk fill db with
  | none => simp only [ingest, hr, and_self]
  | some p =>
    obtain ⟨db', r⟩ := p
    have hdb : ingest clk db fill = db' := by simp only [ingest, hr]
    rw [hdb]
    rcases ingest_cases hr with ⟨-, rfl⟩ | ⟨o, ho, -, rfl⟩ | ⟨o, a, ts, ho, ha, hexec, hnew, rfl⟩
    · exact ⟨rfl, rfl⟩
    · exact ⟨rfl, rfl⟩
    · have := h o ho hexec
      rw [ha, hnew] at this
      cases this

/-- A recorded execution changes the order's row alone. -/
theorem ingest_of_recorded {clk : Clock} {fill : FillEvent} {db : Db} {o : Order} {f : Fill}
    (ho : findOrder db fill = some o) (hts : (parseTs clk fill.ts).isSome)
    (hf : db.fills.find? (o.brokerAccount, fill.brokerExecId) = some f) :
    ingest clk db fill = { db with orders := db.orders.put (o.afterEvent fill false) } := by
  obtain ⟨ts, hts⟩ := Option.isSome_iff_exists.mp hts
  unfold ingest ingestFillEvent bookExecution
  simp only [ho, hts, hf]
  cases isExecution fill <;> rfl

/-- A new execution is recorded and moves the position. -/
theorem ingest_of_new {clk : Clock} {fill : FillEvent} {db : Db} {o : Order} {account : AccountId}
    {ts : ℤ} (ho : findOrder db fill = some o) (hexec : isExecution fill = true)
    (hts : parseTs clk fill.ts = some ts) (ha : o.brokerAccount = some account)
    (hf : db.fills.find? (some account, fill.brokerExecId) = none) :
    ingest clk db fill = ⟨db.orders.put (o.afterEvent fill true),
      db.fills.put ⟨o.clientOrderId, some account, fill.qty, fill.price, ts, fill.brokerExecId⟩,
      applyFillToPosition db.positions o account o.side fill.qty fill.price⟩ := by
  unfold ingest ingestFillEvent bookExecution
  simp only [ho, hexec, hts, ha, hf, if_true]

/-! ### A sample -/

/-- A clock that stands still and reads no timestamp. -/
def sampleClock : Clock := ⟨0, fun _ => .malformed⟩

/-- An order to buy 10, submitted. -/
def sampleOrder : Order where
  clientOrderId := "c1"
  user := "u"
  strategy := none
  brokerAccount := some "acct"
  rawAlert := none
  symbol := "AAPL"
  side := .buy
  qty := 10
  status := .submitted

/-- A database with that order alone. -/
def sampleDb : Db := ⟨Table.empty.put sampleOrder, Table.empty, Table.empty⟩

/-- An execution of 4 of the sample order. -/
def sampleExecution : FillEvent where
  brokerExecId := "x1"
  clientOrderId := "c1"
  brokerOrderId := "b1"
  symbol := "AAPL"
  side := .buy
  eventType := "partial_fill"
  qty := 4
  price := 100
  ts := none
  filledQty := 4

end StratTrader.Orders
