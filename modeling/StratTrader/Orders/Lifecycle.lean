import StratTrader.Foundation.Runs
import StratTrader.Orders.Conservation
import StratTrader.Orders.Reconcile

/-!
# The life cycle of an order under its three writers

Three things write the status of an order on record: `ingest_fill_event`, the sweep
`resolve_needs_reconcile` and the refresh of open orders in `catch_up_account`. The
last two ask the broker and write afterwards, so that any of the three may write
between the question and the answer's being written. A state here is the database
with the questions under way, and a step is one call of ingestion, one move of a
question, or one write.

The three writers guard a final status differently. The refresh leaves it alone.
Ingestion leaves it alone unless the event is a `fill`, which decides by the quantities
whatever the status. The sweep writes the broker's status whatever ours is.

## What is proved

* `terminal_absorbing`: the filled quantity never decreases in any run; and a final
  status stays final in every run in which each `fill` of a final order completes its
  quantity and no sweep writes an open status over a final one.
* `afterEvent_staysFinal`, `takeAck_staysFinal`: for a single write these conditions are exact.
* `run_resolveNeedsReconcile`, `run_catchUpAccount`: a sweep and a catch-up that nobody interrupts
  are runs of these steps.

## Honest scope

Orders come into being before the run; the writes of `process_alert` to a new order are
the subject of `StratTrader.Webhooks`.
-/

namespace StratTrader.Orders

open StratTrader.Brokers StratTrader.Foundation

/-! ### States and steps -/

/-- A question to the broker that is under way. -/
inductive Query where
  /-- A sweep has found the order in need of reconciliation. -/
  | selected (coid : String)
  /-- A sweep has the broker's answer. -/
  | probed (coid : String) (answer : Option OrderAck)
  /-- A catch-up has found the order open. -/
  | listed (coid : String)
  /-- A catch-up has the broker's status. -/
  | fetched (coid : String) (status : OrderStatus)

/-- The database, and the questions under way. -/
structure Desk where
  /-- The database. -/
  db : Db
  /-- The questions under way, of any number of sweeps and catch-ups. -/
  queries : List Query

/-- What happens in a step. -/
inductive Act where
  /-- An event is ingested. -/
  | ingest (clk : Clock) (fill : FillEvent)
  /-- A question is put, answered or given up. -/
  | ask
  /-- A sweep writes the broker's answer. -/
  | resolve (coid : String) (answer : Option OrderAck)
  /-- A catch-up writes the broker's status. -/
  | refresh (coid : String) (status : OrderStatus)

/-- The steps. -/
inductive Step : Desk → Act → Desk → Prop where
  /-- Ingest an event. -/
  | ingest (db : Db) (qs : List Query) (clk : Clock) (fill : FillEvent) :
    Step ⟨db, qs⟩ (.ingest clk fill) ⟨ingest clk db fill, qs⟩
  /-- A sweep reads an order that needs reconciliation. -/
  | select {db : Db} (qs : List Query) {account : AccountId} {o : Order}
    (h : o ∈ needsReconcile db account) :
    Step ⟨db, qs⟩ .ask ⟨db, qs ++ [.selected o.clientOrderId]⟩
  /-- The broker answers a sweep. -/
  | probe (db : Db) (us vs : List Query) (coid : String) (answer : Option OrderAck) :
    Step ⟨db, us ++ .selected coid :: vs⟩ .ask ⟨db, us ++ .probed coid answer :: vs⟩
  /-- A catch-up reads an order that is open here. -/
  | list {db : Db} (qs : List Query) {account : AccountId} {o : Order} (h : o ∈ openOrders db account) :
    Step ⟨db, qs⟩ .ask ⟨db, qs ++ [.listed o.clientOrderId]⟩
  /-- The broker answers a catch-up. -/
  | fetch (db : Db) (us vs : List Query) (coid : String) (status : OrderStatus) :
    Step ⟨db, us ++ .listed coid :: vs⟩ .ask ⟨db, us ++ .fetched coid status :: vs⟩
  /-- A question is given up: the broker fails to answer, or the process dies. -/
  | drop (db : Db) (us vs : List Query) (q : Query) :
    Step ⟨db, us ++ q :: vs⟩ .ask ⟨db, us ++ vs⟩
  /-- A sweep writes. -/
  | resolve (db : Db) (us vs : List Query) (coid : String) (answer : Option OrderAck) :
    Step ⟨db, us ++ .probed coid answer :: vs⟩ (.resolve coid answer)
      ⟨db.updateOrder coid fun o => o.resolve answer, us ++ vs⟩
  /-- A catch-up writes. -/
  | refresh (db : Db) (us vs : List Query) (coid : String) (status : OrderStatus) :
    Step ⟨db, us ++ .fetched coid status :: vs⟩ (.refresh coid status)
      ⟨db.updateOrder coid fun o => o.refresh (.ofAck status), us ++ vs⟩

/-! ### The rows that are written -/

/-- A final status stays final. -/
def Order.StaysFinal (o o' : Order) : Prop :=
  o.status.isTerminal = true → o'.status.isTerminal = true

theorem Order.StaysFinal.refl (o : Order) : o.StaysFinal o := id

theorem Order.StaysFinal.trans (o p q : Order) (h : o.StaysFinal p) (h' : p.StaysFinal q) :
    o.StaysFinal q :=
  h' ∘ h

/-- The quantity an event adds to the order's sum: that of an execution not yet on record. -/
def freshQty (db : Db) (o : Order) (fill : FillEvent) : ℚ :=
  if isExecution fill ∧ db.fills.find? (o.brokerAccount, fill.brokerExecId) = none then fill.qty else 0

/-- The event accounts for the whole quantity of the order: with what is filled already, or by
its cumulative quantity. -/
def Completes (db : Db) (o : Order) (fill : FillEvent) : Prop :=
  o.qty ≤ o.filledQty + freshQty db o fill ∨ (0 < fill.filledQty ∧ o.qty ≤ fill.filledQty)

theorem completes_iff {db : Db} {o : Order} {fill : FillEvent} {created : Bool}
    (h : o.localSum fill created = o.filledQty + freshQty db o fill) :
    o.qty ≤ (o.afterEvent fill created).filledQty ↔ Completes db o fill := by
  rw [afterEvent_filledQty, h, Completes]
  split_ifs with hc
  · simp [hc]
  · simp [hc]

/-- An event leaves a final order final exactly if it is no `fill`, or one that accounts for the
whole quantity. -/
theorem afterEvent_staysFinal {db : Db} {o : Order} {fill : FillEvent} {created : Bool}
    (h : o.localSum fill created = o.filledQty + freshQty db o fill) :
    o.StaysFinal (o.afterEvent fill created) ↔
      (o.status.isTerminal = true → fill.eventType = "fill" → Completes db o fill) := by
  unfold Order.StaysFinal
  refine forall_congr' fun hfin => ?_
  rw [afterEvent_status, ← completes_iff h]
  by_cases hf : fill.eventType = "fill"
  · by_cases hc : o.qty ≤ (o.afterEvent fill created).filledQty <;> simp [hf, hc, Status.isTerminal]
  · simp only [hf, if_false, false_imp_iff, iff_true]
    cases orderStatusFromEvent fill.eventType <;> simp [hfin]

/-- A broker's answer leaves a final order final exactly if it is a final status. -/
theorem takeAck_staysFinal (o : Order) (ack : OrderAck) :
    o.StaysFinal (o.takeAck ack) ↔
      (o.status.isTerminal = true → (Status.ofAck ack.status).isTerminal = true) := Iff.rfl

theorem rejectNotFound_staysFinal (o : Order) : o.StaysFinal o.rejectNotFound := by
  unfold Order.StaysFinal Order.rejectNotFound
  split_ifs with h
  · simp [h, Status.isTerminal]
  · exact id

theorem refresh_staysFinal (o : Order) (status : Status) : o.StaysFinal (o.refresh status) := by
  unfold Order.StaysFinal Order.refresh
  intro h
  rw [if_pos h]
  exact h

theorem resolve_notLowered (o : Order) (answer : Option OrderAck) : o.NotLowered (o.resolve answer) := by
  unfold Order.NotLowered Order.resolve Order.rejectNotFound Order.takeAck
  cases answer with
  | none => simp only; split_ifs <;> exact le_rfl
  | some ack => exact le_rfl

theorem refresh_notLowered (o : Order) (status : Status) : o.NotLowered (o.refresh status) := by
  unfold Order.NotLowered Order.refresh
  split_ifs <;> exact le_rfl

@[simp] theorem refresh_clientOrderId (o : Order) (status : Status) :
    (o.refresh status).clientOrderId = o.clientOrderId := by
  unfold Order.refresh; split_ifs <;> rfl

/-! ### The filled quantity -/

/-- No step lowers a filled quantity. -/
theorem Step.noneLowered {s t : Desk} {a : Act} (h : Step s a t) : NoneLowered s.db t.db := by
  cases h with
  | ingest db qs clk fill => exact noneLowered_ingest clk db fill
  | resolve db us vs coid answer =>
    exact Table.Kept.modify Order.NotLowered.refl (fun o => resolve_clientOrderId o answer)
      fun o _ => resolve_notLowered o answer
  | refresh db us vs coid status =>
    exact Table.Kept.modify Order.NotLowered.refl (fun o => refresh_clientOrderId o (.ofAck status))
      fun o _ => refresh_notLowered o (.ofAck status)
  | select | probe | list | fetch | drop => exact NoneLowered.refl _

/-! ### Final statuses -/

/-- Every final order on record is final still. -/
def FinalKept (db db' : Db) : Prop := Table.Kept Order.StaysFinal db.orders db'.orders

theorem FinalKept.refl (db : Db) : FinalKept db db := Table.Kept.refl Order.StaysFinal.refl _

theorem FinalKept.trans {db db' db'' : Db} (h : FinalKept db db') (h' : FinalKept db' db'') :
    FinalKept db db'' :=
  Table.Kept.trans Order.StaysFinal.trans h h'

/-- What a step must not do: a `fill` of a final order must account for its whole quantity, and
the broker's status written over a final one must be final. -/
def Proper (s : Desk) : Act → Prop
  | .ingest _ fill => ∀ o, findOrder s.db fill = some o → o.status.isTerminal = true →
      fill.eventType = "fill" → Completes s.db o fill
  | .resolve coid (some ack) => ∀ o, s.db.orders.find? coid = some o → o.status.isTerminal = true →
      (Status.ofAck ack.status).isTerminal = true
  | .resolve _ none | .refresh _ _ | .ask => True

/-- A proper call of ingestion keeps every final order final. -/
theorem finalKept_ingest {clk : Clock} {db : Db} {fill : FillEvent}
    (h : ∀ o, findOrder db fill = some o → o.status.isTerminal = true →
      fill.eventType = "fill" → Completes db o fill) : FinalKept db (ingest clk db fill) := by
  cases hr : ingestFillEvent clk fill db with
  | none => simpa only [ingest, hr] using FinalKept.refl db
  | some p =>
    obtain ⟨db', r⟩ := p
    have hdb : ingest clk db fill = db' := by simp only [ingest, hr]
    rw [hdb]
    rcases ingest_cases hr with ⟨-, rfl⟩ | ⟨o, ho, hrec, rfl⟩ | ⟨o, a, ts, ho, ha, hexec, hnew, rfl⟩
    · exact FinalKept.refl db'
    · -- nothing is added to the sum
      have hsum : o.localSum fill false = o.filledQty + freshQty db o fill := by
        have : ¬ (isExecution fill ∧ db.fills.find? (o.brokerAccount, fill.brokerExecId) = none) := by
          rintro ⟨he, hn⟩
          obtain ⟨f, hf⟩ := hrec he
          rw [hn] at hf
          cases hf
        simp [Order.localSum, freshQty, this]
      exact Table.Kept.put Order.StaysFinal.refl (find?_of_findOrder ho)
        (afterEvent_clientOrderId o fill false) ((afterEvent_staysFinal hsum).mpr (h o ho))
    · -- a new execution: its quantity is added
      have hsum : o.localSum fill true = o.filledQty + freshQty db o fill := by
        simp [Order.localSum, freshQty, hexec, ha, hnew]
      exact Table.Kept.put Order.StaysFinal.refl (find?_of_findOrder ho)
        (afterEvent_clientOrderId o fill true) ((afterEvent_staysFinal hsum).mpr (h o ho))

/-- A proper step keeps every final order final. -/
theorem Step.finalKept {s t : Desk} {a : Act} (h : Step s a t) (hp : Proper s a) :
    FinalKept s.db t.db := by
  cases h with
  | ingest db qs clk fill => exact finalKept_ingest hp
  | resolve db us vs coid answer =>
    refine Table.Kept.modify Order.StaysFinal.refl (fun o => resolve_clientOrderId o answer)
      fun o ho => ?_
    cases answer with
    | none => exact rejectNotFound_staysFinal o
    | some ack => exact (takeAck_staysFinal o ack).mpr (hp o ho)
  | refresh db us vs coid status =>
    exact Table.Kept.modify Order.StaysFinal.refl (fun o => refresh_clientOrderId o (.ofAck status))
      fun o _ => refresh_staysFinal o (.ofAck status)
  | select | probe | list | fetch | drop => exact FinalKept.refl _

/-- **Final statuses absorb**: whatever the interleaving of the three writers, no filled quantity
is ever lowered; and in every run of proper steps a final order stays final. -/
theorem terminal_absorbing (s t : Desk) :
    (Run Step AnyStep s t → NoneLowered s.db t.db) ∧ (Run Step Proper s t → FinalKept s.db t.db) :=
  ⟨fun h => h.kept (fun s t => NoneLowered s.db t.db) (fun s => NoneLowered.refl s.db)
      NoneLowered.trans fun hs _ => hs.noneLowered,
    fun h => h.kept (fun s t => FinalKept s.db t.db) (fun s => FinalKept.refl s.db)
      FinalKept.trans fun hs hp => hs.finalKept hp⟩

/-- A database with the sample order alone, in a given status. -/
def sampleDbIn (status : Status) : Db :=
  ⟨Table.empty.put { sampleOrder with status := status }, Table.empty, Table.empty⟩

/-- A late execution of a cancelled order is recorded, and the order stays cancelled. -/
theorem terminal_absorbing_lateExecution :
    NoneLowered (sampleDbIn .cancelled) (ingest sampleClock (sampleDbIn .cancelled) sampleExecution) ∧
    FinalKept (sampleDbIn .cancelled) (ingest sampleClock (sampleDbIn .cancelled) sampleExecution) := by
  have hstep := Step.ingest (sampleDbIn .cancelled) [] sampleClock sampleExecution
  have h := terminal_absorbing ⟨sampleDbIn .cancelled, []⟩
    ⟨ingest sampleClock (sampleDbIn .cancelled) sampleExecution, []⟩
  refine ⟨h.1 (Run.single hstep trivial), h.2 ((Run.refl _).step hstep ?_)⟩
  intro o _ _ hf
  exact absurd hf (by decide)

/-- The sample order's one execution, reported as its last and without a cumulative quantity. -/
def lastOfFour : FillEvent := { sampleExecution with eventType := "fill", filledQty := 0 }

/-- The sample order's one execution, of all it was for. -/
def wholeExecution : FillEvent := { sampleExecution with eventType := "fill", qty := 10, filledQty := 10 }

/-- The broker's word that the sample order is open. -/
def openAck : OrderAck := ⟨"c1", "b1", .submitted, "AAPL", 10, 0⟩

/-- A sweep has the broker's word that the sample order is open, and the order is filled. -/
def staleDesk : Desk :=
  ⟨ingest sampleClock (sampleDbIn .needsReconcile) wholeExecution, [.probed "c1" (some openAck)]⟩

theorem run_staleDesk : Run Step AnyStep ⟨sampleDbIn .needsReconcile, []⟩ staleDesk := by
  have hsel : ({ sampleOrder with status := .needsReconcile } : Order) ∈
      needsReconcile (sampleDbIn .needsReconcile) "acct" := by decide +kernel
  refine (((Run.refl _).step (Step.select [] hsel) trivial).step
    (Step.probe _ [] [] "c1" (some openAck)) trivial).step
    (Step.ingest _ _ sampleClock wholeExecution) trivial

/-- The conditions matter: a cancelled order returns to partially filled by a `fill` that does not
account for its quantity, and a filled order to submitted by a sweep whose answer is older. -/
theorem not_finalKept :
    (∃ s t, Run Step AnyStep s t ∧ ¬ FinalKept s.db t.db ∧ s.db = sampleDbIn .cancelled ∧
      (t.db.orders.find? "c1").map Order.status = some .partiallyFilled) ∧
    (∃ r s t, Run Step AnyStep r s ∧ Run Step AnyStep s t ∧ ¬ FinalKept s.db t.db ∧
      (s.db.orders.find? "c1").map Order.status = some .filled ∧
      (t.db.orders.find? "c1").map Order.status = some .submitted) := by
  constructor
  · refine ⟨⟨sampleDbIn .cancelled, []⟩, ⟨ingest sampleClock (sampleDbIn .cancelled) lastOfFour, []⟩,
      (Run.refl _).step (Step.ingest _ _ _ _) trivial, fun h => ?_, rfl, by decide +kernel⟩
    obtain ⟨o, ho, hfin⟩ := h "c1" { sampleOrder with status := .cancelled } (by decide +kernel)
    have hst : (((ingest sampleClock (sampleDbIn .cancelled) lastOfFour).orders.find? "c1").map
        Order.status).map Status.isTerminal = some false := by decide +kernel
    rw [ho, Option.map_some, Option.map_some, hfin rfl] at hst
    cases hst
  · refine ⟨_, staleDesk, ⟨staleDesk.db.updateOrder "c1" fun o => o.resolve (some openAck), []⟩,
      run_staleDesk, (Run.refl _).step (Step.resolve _ [] [] _ _) trivial, fun h => ?_,
      by decide +kernel, by decide +kernel⟩
    have hst : ((staleDesk.db.orders.find? "c1").map Order.status).map Status.isTerminal = some true := by
      decide +kernel
    obtain ⟨o, ho⟩ : ∃ o, staleDesk.db.orders.find? "c1" = some o :=
      Option.isSome_iff_exists.mp (by decide +kernel)
    obtain ⟨o', ho', hfin⟩ := h "c1" o ho
    rw [ho, Option.map_some, Option.map_some, Option.some.injEq] at hst
    have hst' : (((staleDesk.db.updateOrder "c1" fun o => o.resolve (some openAck)).orders.find? "c1").map
        Order.status).map Status.isTerminal = some false := by decide +kernel
    rw [ho', Option.map_some, Option.map_some, hfin hst] at hst'
    cases hst'

/-! ### Sweeps as runs -/

/-- Resolving one order without interruption is a run: the question is answered and written, or
given up. -/
theorem run_resolveOrder (resolver : String → Except Raised (Option OrderAck)) (p : Db × ℕ)
    (order : Order) (qs : List Query) :
    Run Step AnyStep ⟨p.1, .selected order.clientOrderId :: qs⟩ ⟨(resolveOrder resolver p order).1, qs⟩ := by
  unfold resolveOrder
  cases resolver order.clientOrderId with
  | error exc => exact (Run.refl _).step (Step.drop _ [] _ _) trivial
  | ok answer =>
    exact ((Run.refl _).step (Step.probe _ [] _ _ answer) trivial).step
      (Step.resolve _ [] _ _ answer) trivial

/-- Refreshing one order without interruption is a run: the broker's status is written, or the
question is given up. -/
theorem run_refreshOrder (openIds : List String)
    (getter : Option (String → Except Raised (Option OrderStatus))) (p : Db × ℕ) (order : Order)
    (qs : List Query) :
    Run Step AnyStep ⟨p.1, .listed order.clientOrderId :: qs⟩
      ⟨(refreshOrder openIds getter p order).1, qs⟩ := by
  have hdrop : Run Step AnyStep ⟨p.1, .listed order.clientOrderId :: qs⟩ ⟨p.1, qs⟩ :=
    (Run.refl _).step (Step.drop _ [] _ _) trivial
  unfold refreshOrder
  split_ifs with hopen
  · cases getter with
    | none => exact hdrop
    | some get =>
      rcases hget : get order.brokerOrderId with exc | answer
      · simpa only [hget] using hdrop
      · cases answer with
        | none => simpa only [hget] using hdrop
        | some status =>
          simp only [hget]
          exact ((Run.refl _).step (Step.fetch _ [] _ _ status) trivial).step
            (Step.refresh _ [] _ _ status) trivial
  · exact hdrop

/-- Putting the question `q` about one order after the other. -/
theorem run_asks {db : Db} {q : Order → Query} (orders : List Order)
    (h : ∀ o ∈ orders, ∀ qs, Step ⟨db, qs⟩ .ask ⟨db, qs ++ [q o]⟩) (qs : List Query) :
    Run Step AnyStep ⟨db, qs⟩ ⟨db, qs ++ orders.map q⟩ := by
  induction orders generalizing qs with
  | nil =>
    rw [List.map_nil, List.append_nil]
    exact Run.refl _
  | cons o os ih =>
    have hfirst : Run Step AnyStep ⟨db, qs⟩ ⟨db, qs ++ [q o]⟩ :=
      (Run.refl _).step (h o List.mem_cons_self qs) trivial
    have hrest := ih (fun p hp => h p (List.mem_cons_of_mem _ hp)) (qs ++ [q o])
    rw [List.append_assoc, List.singleton_append] at hrest
    exact hfirst.trans hrest

/-- Settling the question `q` about one order after the other by `f`. -/
theorem run_answers {f : Db × ℕ → Order → Db × ℕ} {q : Order → Query}
    (h : ∀ p o qs, Run Step AnyStep ⟨p.1, q o :: qs⟩ ⟨(f p o).1, qs⟩) (orders : List Order) (p : Db × ℕ) :
    Run Step AnyStep ⟨p.1, orders.map q⟩ ⟨(orders.foldl f p).1, []⟩ := by
  induction orders generalizing p with
  | nil => exact Run.refl _
  | cons o os ih => exact (h p o _).trans (ih (f p o))

/-- **A sweep that nobody interrupts is a run**: it reads the orders that need reconciliation, and
puts, answers and writes one question after the other. -/
theorem run_resolveNeedsReconcile (resolver : Option (String → Except Raised (Option OrderAck)))
    (account : AccountId) (db : Db) :
    Run Step AnyStep ⟨db, []⟩ ⟨(resolveNeedsReconcile resolver account db).1, []⟩ := by
  cases resolver with
  | none => exact Run.refl _
  | some resolver =>
    have hasks := run_asks (q := fun o => .selected o.clientOrderId) (needsReconcile db account)
      (fun o ho qs => Step.select qs ho) []
    exact hasks.trans (run_answers (run_resolveOrder resolver) (needsReconcile db account) (db, 0))

/-- **So is a catch-up**, once the positions are snapped: it refreshes the orders that are open here
and no longer at the broker, and sweeps those that need reconciliation. -/
theorem run_catchUpAccount {user : UserId} {account : AccountId} {adapter : CatchUpAdapter}
    {db db' : Db} {changed resolved : ℕ}
    (h : catchUpAccount user account adapter db = (db', .snapped changed resolved)) :
    ∃ positions, adapter.listPositions = .ok positions ∧
      Run Step AnyStep ⟨{ db with positions := snapPositions user account db.positions positions }, []⟩
        ⟨db', []⟩ := by
  unfold catchUpAccount at h
  rcases hfills : adapter.recentFills with _ | fills
  · rcases hpos : adapter.listPositions with exc | positions
    · simp [hfills, hpos, reconcilePositions] at h
    · refine ⟨positions, rfl, ?_⟩
      rcases hopen : adapter.listOpenOrders with exc | acks
      · simp [hfills, hpos, hopen, reconcilePositions] at h
      · simp only [hfills, hpos, hopen, reconcilePositions, Prod.mk.injEq] at h
        rw [← h.1]
        generalize { db with positions := snapPositions user account db.positions positions } = snappedDb
        have hasks := run_asks (q := fun o => .listed o.clientOrderId) (openOrders snappedDb account)
          (fun o ho qs => Step.list qs ho) []
        exact (hasks.trans (run_answers (run_refreshOrder _ adapter.getOrderStatus) _ (snappedDb, 0))).trans
          (run_resolveNeedsReconcile adapter.resolveByClientId account _)
  · simp [hfills] at h

end StratTrader.Orders
