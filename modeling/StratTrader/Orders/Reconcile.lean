import StratTrader.Brokers.Alpaca
import StratTrader.Orders.Ingest

/-!
# Reconciliation with the broker

`reconcile_positions` and `resolve_needs_reconcile` of `orders/services.py`, and
`catch_up_account` of `brokers/streams.py`, which calls both after a gap in the stream.
Each asks the broker and then writes what it has learned. What is written to a row is a
function of its own here (`snapped`, `Order.rejectNotFound`, `Order.takeAck`,
`Order.refresh`), since the broker is asked outside of the writing transaction and a
row may have changed in between: `StratTrader.Orders.Lifecycle` and
`StratTrader.Orders.Snap` run the same writes with other writers between them.

## What is proved

* `find?_resolveNeedsReconcile`: what a sweep makes of every order.
* `soundSweep_iff`: with the Alpaca adapter, a sweep rejects only orders that the broker
  does not know, and leaves those whose lookup failed, if and only if no lookup failed.

## Honest scope

Pushes, logs and audit records are left out. A function here runs to its end without
another writer in between.
-/

namespace StratTrader.Orders

open StratTrader.Brokers StratTrader.Foundation

/-- `Order.objects.filter(id=…).update(…)`. -/
def Db.updateOrder (db : Db) (coid : String) (f : Order → Order) : Db :=
  { db with orders := db.orders.modify coid f }

/-! ### Positions -/

/-- `{p.symbol: p for p in positions}`: the last of a symbol counts, at the place of the first. -/
def bySymbol (positions : List PositionDTO) : Table PositionDTO.symbol :=
  positions.foldl Table.put Table.empty

/-- Our row after it is compared with the broker's. -/
def snapped (pos : Position) (bp : PositionDTO) : Position :=
  if pos.qty ≠ bp.qty ∨ pos.avgCost ≠ bp.avgCost then
    { pos with qty := bp.qty, avgCost := bp.avgCost, marketPrice := bp.marketPrice }
  else pos

/-- Our row of a symbol that the broker does not report. -/
def flattened (pos : Position) : Position :=
  if pos.qty ≠ 0 then { pos with qty := 0, avgCost := 0 } else pos

/-- Our row of `account` after it is flattened, if its symbol is none of `seen`. -/
def flattenUnseen (account : AccountId) (seen : List String) (pos : Position) : Position :=
  if pos.brokerAccount = account ∧ pos.symbol ∉ seen then flattened pos else pos

theorem flattenUnseen_key (account : AccountId) (seen : List String) (pos : Position) :
    (flattenUnseen account seen pos).key = pos.key := by
  unfold flattenUnseen flattened
  split_ifs <;> rfl

/-- Snap the row of one symbol the broker reports. -/
def snapPosition (user : UserId) (account : AccountId) (rows : Table Position.key)
    (bp : PositionDTO) : Table Position.key :=
  rows.put (snapped (positionRow rows user account bp.symbol) bp)

/-- `reconcile_positions`: the table after our rows are snapped to the broker's list. -/
def snapPositions (user : UserId) (account : AccountId) (rows : Table Position.key)
    (positions : List PositionDTO) : Table Position.key :=
  let reported := (bySymbol positions).rows
  (reported.foldl (snapPosition user account) rows).mapRows
    (flattenUnseen account (reported.map PositionDTO.symbol))
    (flattenUnseen_key account (reported.map PositionDTO.symbol))

/-- `reconcile_positions`: how many rows it changes. No symbol occurs twice, so each row is compared
as it has been before the snap. -/
def positionsChanged (user : UserId) (account : AccountId) (rows : Table Position.key)
    (positions : List PositionDTO) : ℕ :=
  let reported := (bySymbol positions).rows
  let differing := reported.filter fun bp =>
    let pos := positionRow rows user account bp.symbol
    decide (pos.qty ≠ bp.qty ∨ pos.avgCost ≠ bp.avgCost)
  let unseen := rows.rows.filter fun pos =>
    decide (pos.brokerAccount = account ∧ pos.symbol ∉ reported.map PositionDTO.symbol ∧ pos.qty ≠ 0)
  differing.length + unseen.length

/-- `reconcile_positions`, with the number of rows changed; nothing changes when the broker cannot
be asked. -/
def reconcilePositions (user : UserId) (account : AccountId)
    (listPositions : Except Raised (List PositionDTO)) (db : Db) : Option (Db × ℕ) :=
  match listPositions with
  | .error _ => none
  | .ok positions => some
      ({ db with positions := snapPositions user account db.positions positions },
        positionsChanged user account db.positions positions)

/-! ### Orders whose submission is in doubt -/

/-- What a sweep waits for: the orders of the account that need reconciliation. -/
def needsReconcile (db : Db) (account : AccountId) : List Order :=
  db.orders.rows.filter fun o =>
    decide (o.brokerAccount = some account) && decide (o.status = .needsReconcile)

/-- The reason of an order that the broker never saw. -/
def reconcileNotFound := "RECONCILE_NOT_FOUND"

/-- The row of an order that the broker never saw; written only while it needs reconciliation. -/
def Order.rejectNotFound (o : Order) : Order :=
  if o.status = .needsReconcile then { o with status := .rejected, reason := reconcileNotFound }
  else o

/-- The row of an order found at the broker: written whatever its status. -/
def Order.takeAck (o : Order) (ack : OrderAck) : Order :=
  { o with
    status := .ofAck ack.status
    brokerOrderId := if ack.brokerOrderId ≠ "" then ack.brokerOrderId else o.brokerOrderId }

/-- The row after the broker's answer. -/
def Order.resolve (o : Order) : Option OrderAck → Order
  | none => o.rejectNotFound
  | some ack => o.takeAck ack

/-- Resolve one order, with the number of orders resolved so far. -/
def resolveOrder (resolver : String → Except Raised (Option OrderAck)) (p : Db × ℕ) (order : Order) :
    Db × ℕ :=
  match resolver order.clientOrderId with
  | .error _ => p
  | .ok answer => (p.1.updateOrder order.clientOrderId fun o => o.resolve answer, p.2 + 1)

/-- `resolve_needs_reconcile`: an adapter may have no resolver. -/
def resolveNeedsReconcile (resolver : Option (String → Except Raised (Option OrderAck)))
    (account : AccountId) (db : Db) : Db × ℕ :=
  match resolver with
  | none => (db, 0)
  | some resolver => (needsReconcile db account).foldl (resolveOrder resolver) (db, 0)

/-! ### Catching up -/

/-- Our row of an order that is no longer open at the broker; a final status is kept. -/
def Order.refresh (o : Order) (status : Status) : Order :=
  if o.status.isTerminal then o else { o with status := status }

/-- What `catch_up_account` uses of an adapter. -/
structure CatchUpAdapter where
  /-- `recent_fills`, if there is such a method. -/
  recentFills : Option (List FillEvent)
  /-- `list_positions`. -/
  listPositions : Except Raised (List PositionDTO)
  /-- `list_open_orders`. -/
  listOpenOrders : Except Raised (List OrderAck)
  /-- `get_order_status`, if there is such a method. -/
  getOrderStatus : Option (String → Except Raised (Option OrderStatus))
  /-- `resolve_by_client_id`, if there is such a method. -/
  resolveByClientId : Option (String → Except Raised (Option OrderAck))

/-- Our open orders of the account. -/
def openOrders (db : Db) (account : AccountId) : List Order :=
  db.orders.rows.filter fun o =>
    decide (o.brokerAccount = some account) &&
      decide (o.status ∈ [.submitted, .partiallyFilled, .pendingSubmit])

/-- Refresh one order, with the number of orders resolved so far. -/
def refreshOrder (openIds : List String)
    (getter : Option (String → Except Raised (Option OrderStatus))) (p : Db × ℕ) (order : Order) :
    Db × ℕ :=
  if order.brokerOrderId ≠ "" ∧ order.brokerOrderId ∉ openIds then
    match getter with
    | none => p
    | some get =>
      match get order.brokerOrderId with
      | .ok (some status) =>
        (p.1.updateOrder order.clientOrderId fun o => o.refresh (.ofAck status), p.2 + 1)
      | .ok none | .error _ => p
  else p

/-- What `catch_up_account` returns. -/
inductive CatchUp where
  /-- The fills were published again. -/
  | replayed (fills : List FillEvent)
  /-- The positions were snapped: so many changed, and so many orders were resolved. -/
  | snapped (positionsChanged ordersResolved : ℕ)
  /-- The broker could not be asked. -/
  | raised

/-- `catch_up_account`: what was snapped stays when a later call raises. -/
def catchUpAccount (user : UserId) (account : AccountId) (adapter : CatchUpAdapter) (db : Db) :
    Db × CatchUp :=
  match adapter.recentFills with
  | some fills => (db, .replayed fills)
  | none =>
    match reconcilePositions user account adapter.listPositions db with
    | none => (db, .raised)
    | some (db, changed) =>
      match adapter.listOpenOrders with
      | .error _ => (db, .raised)
      | .ok acks =>
        let openIds := (acks.map OrderAck.brokerOrderId).filter fun id => decide (id ≠ "")
        let (db, refreshed) :=
          (openOrders db account).foldl (refreshOrder openIds adapter.getOrderStatus) (db, 0)
        let (db, resolved) := resolveNeedsReconcile adapter.resolveByClientId account db
        (db, .snapped changed (refreshed + resolved))

/-! ### What a sweep does -/

@[simp] theorem rejectNotFound_clientOrderId (o : Order) :
    o.rejectNotFound.clientOrderId = o.clientOrderId := by
  unfold Order.rejectNotFound; split_ifs <;> rfl

@[simp] theorem resolve_clientOrderId (o : Order) (answer : Option OrderAck) :
    (o.resolve answer).clientOrderId = o.clientOrderId := by
  cases answer with
  | none => exact rejectNotFound_clientOrderId o
  | some ack => rfl

/-- The row of an order after the outcome of its lookup. -/
def Order.afterLookup (o : Order) : Except Raised (Option OrderAck) → Order
  | .error _ => o
  | .ok answer => o.resolve answer

theorem mem_needsReconcile {db : Db} {account : AccountId} {o : Order} :
    o ∈ needsReconcile db account ↔
      db.orders.find? o.clientOrderId = some o ∧ o.brokerAccount = some account ∧
        o.status = .needsReconcile := by
  simp [needsReconcile, Table.find?_eq_some]

/-- One order is resolved, and no other row changes. -/
theorem find?_resolveOrder (resolver : String → Except Raised (Option OrderAck)) (p : Db × ℕ)
    (order : Order) (coid : String) :
    (resolveOrder resolver p order).1.orders.find? coid =
      if coid = order.clientOrderId then
        Option.map (fun o => o.afterLookup (resolver order.clientOrderId)) (p.1.orders.find? coid)
      else p.1.orders.find? coid := by
  unfold resolveOrder
  cases hr : resolver order.clientOrderId with
  | error exc =>
    simp only [Order.afterLookup, Option.map_id', ite_self]
  | ok answer =>
    simp only [Db.updateOrder, Order.afterLookup]
    rw [Table.find?_modify _ _ fun o => resolve_clientOrderId o answer]
    split_ifs with h
    · rw [h]
    · rfl

/-- **What a sweep makes of an order that needs reconciliation**: what the outcome of its own
lookup says. -/
theorem find?_resolveNeedsReconcile (resolver : String → Except Raised (Option OrderAck))
    {account : AccountId} {db : Db} {o : Order} (ho : o ∈ needsReconcile db account) :
    (resolveNeedsReconcile (some resolver) account db).1.orders.find? o.clientOrderId =
      some (o.afterLookup (resolver o.clientOrderId)) := by
  have hnd : ((needsReconcile db account).map Order.clientOrderId).Nodup :=
    (List.Sublist.map _ List.filter_sublist).nodup db.orders.nodup
  have heach := (Table.find?_foldl (fun p : Db × ℕ => p.1.orders)
    (f := fun order => Option.map fun o => o.afterLookup (resolver order.clientOrderId))
    (find?_resolveOrder resolver) hnd (db, 0)).1 o ho
  simp only [resolveNeedsReconcile, heach, (mem_needsReconcile.mp ho).1, Option.map_some]

/-! ### The Alpaca adapter -/

/-- What the broker has said about an order. -/
inductive LookupAnswer where
  /-- Here it is. -/
  | found
  /-- There is no such order. -/
  | notFound
  /-- Nothing: the lookup failed. -/
  | failed
  deriving DecidableEq

/-- What an attempt at a lookup says: no order, or a 404, is an answer; any other error is none. -/
def lookupAnswer : Except Raised (Option Alpaca.AlpacaOrder) → LookupAnswer
  | .ok (some _) => .found
  | .ok none => .notFound
  | .error (.other exc) => if Alpaca.statusOf exc = some 404 then .notFound else .failed
  | .error (.broker _) => .failed

/-- The broker's answer to the lookup of an order: that of the attempt which decides it. -/
def Answers (client : Alpaca.Client) (coid : String) (answer : LookupAnswer) : Prop :=
  ∃ k, Alpaca.Deciding (client.getOrderByClientId coid) k ∧
    lookupAnswer (client.getOrderByClientId coid k) = answer

/-- Some attempt decides, so every lookup has one answer. -/
theorem answers_unique {client : Alpaca.Client} {coid : String} {a b : LookupAnswer}
    (ha : Answers client coid a) (hb : Answers client coid b) : a = b := by
  obtain ⟨j, hj, rfl⟩ := ha
  obtain ⟨k, hk, rfl⟩ := hb
  rw [Alpaca.deciding_unique hj hk]

/-- The database after a sweep with the Alpaca adapter, in which lookups never raise. -/
def alpacaSweep (client : Alpaca.Client) (account : AccountId) (db : Db) : Db :=
  (resolveNeedsReconcile (some fun coid => .ok (Alpaca.resolveByClientId client coid)) account db).1

/-- A sweep that believes the broker only when it has answered. -/
structure SoundSweep (client : Alpaca.Client) (account : AccountId) (db : Db) : Prop where
  /-- Only an order that the broker does not know is rejected as not found. -/
  unknown : ∀ o ∈ needsReconcile db account, o.reason ≠ reconcileNotFound →
    ∀ o', (alpacaSweep client account db).orders.find? o.clientOrderId = some o' →
      o'.status = .rejected → o'.reason = reconcileNotFound → Answers client o.clientOrderId .notFound
  /-- An order whose lookup failed waits for the next sweep. -/
  waits : ∀ o ∈ needsReconcile db account, Answers client o.clientOrderId .failed →
    (alpacaSweep client account db).orders.find? o.clientOrderId = some o

/-- The adapter finds an order when the broker's answer is the order, and only then: every
other outcome is `None`. -/
theorem resolveByClientId_isSome {client : Alpaca.Client} {coid : String} :
    (Alpaca.resolveByClientId client coid).isSome ↔ Answers client coid .found := by
  obtain ⟨k, hk, hcall⟩ := Alpaca.call_deciding (client.getOrderByClientId coid)
  have hans : Answers client coid .found ↔
      lookupAnswer (client.getOrderByClientId coid k) = .found := by
    constructor
    · rintro ⟨j, hj, hf⟩
      rwa [← Alpaca.deciding_unique hj hk]
    · exact fun hf => ⟨k, hk, hf⟩
  rw [hans]
  simp only [Alpaca.resolveByClientId, Alpaca.lookupByClientId, Option.isSome_map, hcall]
  match client.getOrderByClientId coid k with
  | .ok (some raw) => simp [Alpaca.settle, lookupAnswer]
  | .ok none => simp [Alpaca.settle, lookupAnswer]
  | .error (.broker err) => simp [Alpaca.settle, lookupAnswer]
  | .error (.other exc) =>
    simp only [Alpaca.settle, lookupAnswer, Option.isSome_none, Bool.false_eq_true, false_iff]
    split_ifs <;> simp

theorem find?_alpacaSweep (client : Alpaca.Client) {account : AccountId} {db : Db} {o : Order}
    (ho : o ∈ needsReconcile db account) :
    (alpacaSweep client account db).orders.find? o.clientOrderId =
      some (o.resolve (Alpaca.resolveByClientId client o.clientOrderId)) :=
  find?_resolveNeedsReconcile _ ho

/-- Every lookup is answered or fails. -/
theorem exists_answer (client : Alpaca.Client) (coid : String) : ∃ a, Answers client coid a := by
  obtain ⟨k, hk, -⟩ := Alpaca.call_deciding (client.getOrderByClientId coid)
  exact ⟨_, k, hk, rfl⟩

/-- **When an inconclusive probe rejects no order**: exactly when there is none. A sweep with the
Alpaca adapter is sound if and only if no lookup failed, because `_lookup_by_client_id` gives
`None` for a failed lookup as for an unknown order. -/
theorem soundSweep_iff (client : Alpaca.Client) (account : AccountId) (db : Db) :
    SoundSweep client account db ↔
      ∀ o ∈ needsReconcile db account, ¬ Answers client o.clientOrderId .failed := by
  constructor
  · intro h o ho hfailed
    have hnone : Alpaca.resolveByClientId client o.clientOrderId = none := by
      rw [← Option.not_isSome_iff_eq_none, resolveByClientId_isSome]
      exact fun hfound => absurd (answers_unique hfound hfailed) (by decide)
    have hst := (mem_needsReconcile.mp ho).2.2
    have hrow := h.waits o ho hfailed
    rw [find?_alpacaSweep client ho, hnone, Option.some.injEq] at hrow
    have : o.rejectNotFound.status = o.status := congrArg Order.status hrow
    rw [Order.rejectNotFound, if_pos hst, hst] at this
    cases this
  · intro h
    refine ⟨fun o ho hreason o' ho' _ hr => ?_, fun o ho hfailed => absurd hfailed (h o ho)⟩
    rw [find?_alpacaSweep client ho, Option.some.injEq] at ho'
    obtain ⟨a, ha⟩ := exists_answer client o.clientOrderId
    cases a with
    | notFound => exact ha
    | failed => exact absurd ha (h o ho)
    | found =>
      -- an order found at the broker keeps its reason
      obtain ⟨ack, hack⟩ := Option.isSome_iff_exists.mp (resolveByClientId_isSome.mpr ha)
      rw [hack] at ho'
      have hkept : o'.reason = o.reason := by rw [← ho']; rfl
      exact absurd (hkept.symm.trans hr) hreason

/-- The sample order after an ambiguous submission. -/
def doubtfulOrder : Order := { sampleOrder with status := .needsReconcile, reason := "BROKER_UNAVAILABLE" }

/-- A database with that order alone. -/
def doubtfulDb : Db := ⟨Table.empty.put doubtfulOrder, Table.empty, Table.empty⟩

/-- What a lost connection raises: an exception without an HTTP status. -/
def connectionError : Exc where
  statusCode := none
  code := none
  text := "connection aborted"
  className := "ConnectionError"

/-- A client that cannot reach the broker. -/
def unreachable : Alpaca.Client where
  submitOrder := fun _ _ => .error (.other connectionError)
  getOrderByClientId := fun _ _ => .error (.other connectionError)
  getOrderById := fun _ _ => .error (.other connectionError)

/-- The condition matters: a sweep that cannot reach the broker rejects the order it asks for. -/
theorem not_soundSweep_unreachable : ¬ SoundSweep unreachable "acct" doubtfulDb := by
  intro h
  have hfailed : Answers unreachable doubtfulOrder.clientOrderId .failed := by
    refine ⟨1, ⟨by decide, fun i h1 h2 => by omega, fun _ => by decide⟩, by decide⟩
  have hrow := h.waits doubtfulOrder (by decide +kernel) hfailed
  have hrejected : ((alpacaSweep unreachable "acct" doubtfulDb).orders.find?
      doubtfulOrder.clientOrderId).map Order.status = some .rejected := by
    decide +kernel
  rw [hrow] at hrejected
  exact absurd hrejected (by decide)

end StratTrader.Orders
