import StratTrader.Foundation.Once
import StratTrader.Webhooks.Effects

/-!
# No order is placed twice

Any number of requests are received, alerts processed, for the first time or again, and
stranded alerts sent again, all at once, and any of it may be killed between two actions.
An order is placed only by the run of `process_alert` that created its row, since
`get_or_create` is one action and creates a row for one run only. The guard on the alert's
status and the anchor of the idempotency key are not needed for this.

## What is proved

* `submit_spends`: a run that has created an order places no other order, and this one once.
* `placed_once`: in every state of every run `place_order` has been called at most once for
  each client order id, and for each user and idempotency key.
-/

namespace StratTrader.Webhooks

open StratTrader.Brokers StratTrader.Foundation StratTrader.Orders StratTrader.Risk

/-- A client order id is claimed by its order's row, and spent by a call of `place_order`. -/
def orderLedger : Ledger State String where
  claimed s clientOrderId := (s.db.orders.find? clientOrderId).isSome
  spent s := s.placed.map PlaceCall.clientOrderId

/-- New calls of `place_order` are made with the client order id of their alert. -/
def Agrees (rt : Runtime) (s t : State) : Prop :=
  ∃ calls, t.placed = s.placed ++ calls ∧ ∀ c ∈ calls, c.clientOrderId = clientOrderIdOf rt c.alert

theorem Still.quiet {s t : State} (h : Still s t) : orderLedger.Quiet s t :=
  ⟨h.2, congrArg (List.map PlaceCall.clientOrderId) h.1⟩

theorem Still.agrees {rt : Runtime} {s t : State} (h : Still s t) : Agrees rt s t :=
  ⟨[], by rw [h.1, List.append_nil], fun c hc => absurd hc List.not_mem_nil⟩

section
variable {rt : Runtime} (env : WorkerEnv)

theorem Calm.spends {α : Type} {p : Prog State α} (h : Calm p) (held : Option String) :
    p.Spends orderLedger (Agrees rt) (fun _ _ => True) held :=
  (Prog.Always.spends h (fun _ _ => Still.agrees) (fun _ _ => Still.quiet) held).mono fun _ _ _ => trivial

/-- A program that places no order, and then one that may. -/
theorem Calm.bind_spends {α β : Type} {p : Prog State α} {f : α → Prog State β} {held : Option String}
    (hp : Calm p) (hf : ∀ a, (f a).Spends orderLedger (Agrees rt) (fun _ _ => True) held) :
    (p >>= f).Spends orderLedger (Agrees rt) (fun _ _ => True) held := by
  refine (Prog.Always.spends hp (fun _ _ => Still.agrees) (fun _ _ => Still.quiet) held).bind
    fun a held' h => ?_
  rw [h]
  exact hf a

/-- The programs that, holding a client order id, spend no other and this one once. -/
abbrev SpendsHeld (rt : Runtime) (clientOrderId : String) (p : Prog State (Option Outcome)) : Prop :=
  p.Spends orderLedger (Agrees rt) (fun _ _ => True) (some clientOrderId)

/-- Placing an order spends its client order id, and nothing after it does. -/
theorem place_spends (adapter : Adapter) {call : PlaceCall}
    (hid : call.clientOrderId = clientOrderIdOf rt call.alert) :
    SpendsHeld rt call.clientOrderId (place env adapter call) := by
  refine place_ways (P := fun p => ∀ held, p.Spends orderLedger (Agrees rt) (fun _ _ => True) held) ?_ ?_ ?_ ?_
  · intro ack
    exact (recordAck_calm env _ _ ack).spends
  · intro reason
    exact (needsReconcile_calm env _ _ reason).spends
  · intro reason
    exact (reject_calm env _ _ reason).spends
  · intro next hnext
    refine Prog.Spends.bind (Q := fun _ _ => True) (Prog.Spends.atomic fun s => ?_)
      fun result held _ => hnext result held
    refine ⟨⟨[call], rfl, fun c hc => ?_⟩, none, .spend _ (fun _ h => h) List.map_append, trivial⟩
    rw [List.mem_singleton.mp hc]
    exact hid

/-- **A run that has created an order places no other order**, and this one at most once. -/
theorem submit_spends (alert : AlertMessage) (account : BrokerAccount) :
    SpendsHeld rt (clientOrderIdOf rt alert) (submit rt env alert account) := by
  generalize hid : clientOrderIdOf rt alert = clientOrderId
  refine submit_ways (Prog.Spends.ret trivial) ?_ ?_ hid.symm ?_ ?_
  · intro reason
    exact (reject_calm env _ _ reason).spends _
  · intro f next hnext
    exact (updateOrder_calm env _ f).bind_spends hnext
  · intro next hnext
    exact (calm_read _).bind_spends hnext
  · intro adapter request _
    exact place_spends env adapter hid.symm

/-- The order's row is claimed by the run that creates it. -/
theorem getOrCreate_spends (order : Order) :
    (getOrCreate env order).Spends orderLedger (Agrees rt)
      (fun created held => held = if created = some true then some order.clientOrderId else none) none := by
  apply Prog.Spends.atomic
  intro s
  cases hfind : s.db.orders.find? order.clientOrderId with
  | some o => exact ⟨(Still.refl s).agrees, none, .quiet none (Still.refl s).quiet, rfl⟩
  | none =>
    by_cases ha : env.accepts order = true
    · have hadd : Still s (s.addOrder order) := ⟨rfl, fun _ h => Table.isSome_find?_put order h⟩
      have hnew : ¬ orderLedger.claimed s order.clientOrderId := by simp [orderLedger, hfind]
      have hk : orderLedger.claimed (s.addOrder order) order.clientOrderId := by
        simp [orderLedger, State.addOrder]
      simp only [ha, Option.isNone_none, and_self, if_true]
      exact ⟨hadd.agrees, _, .claim _ hnew hk hadd.quiet, rfl⟩
    · simp only [ha, and_false, Bool.false_eq_true, if_false]
      exact ⟨(Still.refl s).agrees, none, .quiet none (Still.refl s).quiet, rfl⟩

theorem processAlert_spends (alertId : AlertId) :
    (processAlert rt env alertId).Spends orderLedger (Agrees rt) (fun _ _ => True) none := by
  refine (calm_read _).bind_spends fun loaded => ?_
  match loaded with
  | none => exact Prog.Spends.ret trivial
  | some (alert, strategy) =>
    dsimp only
    split_ifs
    · exact Prog.Spends.ret trivial
    · exact (rejectAlert_calm env _ _).spends _
    · refine (route_calm alert).bind_spends fun account => ?_
      match account with
      | .error reason => exact (rejectAlert_calm env _ _).spends _
      | .ok account =>
        refine (calm_read _).bind_spends fun blocked => ?_
        match blocked with
        | some reason => exact (rejectAlert_calm env _ _).spends _
        | none =>
          refine (getOrCreate_spends env (newOrder rt alert account)).bind fun created held hheld => ?_
          match created with
          | none => exact Prog.Spends.ret trivial
          | some false => exact Prog.Spends.ret trivial
          | some true =>
            rw [if_pos rfl, newOrder_clientOrderId] at hheld
            rw [hheld]
            exact submit_spends env alert account

end

/-! ### Every run -/

/-- What may be started: requests, alerts processed, and stranded alerts sent again. -/
inductive Task (rt : Runtime) : Prog State PUnit → Prop where
  /-- `WebhookView.post`. -/
  | post (env : ViewEnv) (request : WebhookRequest) : Task rt (post rt env request >>= fun _ => pure ⟨⟩)
  /-- `process_alert`. -/
  | processAlert (env : WorkerEnv) (alertId : AlertId) :
    Task rt (processAlert rt env alertId >>= fun _ => pure ⟨⟩)
  /-- `redispatch_stranded_alerts`. -/
  | redispatch (cutoff : ℤ) : Task rt (redispatchStrandedAlerts cutoff >>= fun _ => pure ⟨⟩)

theorem Task.spends {rt : Runtime} {p : Prog State PUnit} (h : Task rt p) :
    p.Spends orderLedger (Agrees rt) (fun _ _ => True) none := by
  cases h with
  | post env request => exact (post_calm env request).bind_spends fun _ => Prog.Spends.ret trivial
  | processAlert env alertId =>
    exact (processAlert_spends env alertId).bind fun _ held _ => Prog.Spends.ret trivial
  | redispatch cutoff =>
    exact (redispatchStrandedAlerts_calm cutoff).bind_spends fun _ => Prog.Spends.ret trivial

/-- A run of these tasks beside anything else that places no order and deletes none. -/
abbrev TaskRun (rt : Runtime) (s : State) (pool : Pool State) : Prop :=
  Run (PoolStep (Task rt) Still) AnyStep ⟨s, []⟩ pool

/-- In every run every call is made with the client order id of its alert. -/
theorem clientOrderId_of_placed {rt : Runtime} {s : State} (hs : s.placed = []) {pool : Pool State}
    (h : TaskRun rt s pool) : ∀ c ∈ pool.state.placed, c.clientOrderId = clientOrderIdOf rt c.alert := by
  have hreach := Pool.reaches (fun p hp => hp.spends.guarantees) (fun _ _ he => he.agrees) h
  refine hreach.invariant (fun t => ∀ c ∈ t.placed, c.clientOrderId = clientOrderIdOf rt c.alert)
    (fun c hc => ?_) fun ⟨calls, hcalls, hagree⟩ _ ht c hc => ?_
  · rw [hs] at hc
    cases hc
  · rw [hcalls] at hc
    exact (List.mem_append.mp hc).elim (ht c) (hagree c)

/-- **Orders are placed at most once**: in every state of every run, `place_order` has been called at
most once for each client order id, and at most once for each user and idempotency key. -/
theorem placed_once {rt : Runtime} {s : State} (hs : s.placed = []) {pool : Pool State}
    (h : TaskRun rt s pool) :
    (∀ k, (pool.state.placed.filter fun c => decide (c.clientOrderId = k)).length ≤ 1) ∧
    ∀ user key, key ≠ "" → (pool.state.placed.filter fun c =>
      decide (c.alert.user = user ∧ idemKeyOf c.alert.bodyJson = key)).length ≤ 1 := by
  have hnodup : (pool.state.placed.map PlaceCall.clientOrderId).Nodup :=
    Ledger.spent_nodup (fun p hp => hp.spends) (fun _ _ he => he.quiet)
      (congrArg (List.map PlaceCall.clientOrderId) hs) h
  constructor
  · intro k
    refine length_filter_le_one hnodup _ fun a _ b _ ha hb => ?_
    exact (of_decide_eq_true ha).trans (of_decide_eq_true hb).symm
  · intro user key hkey
    refine length_filter_le_one hnodup _ fun a ha b hb hpa hpb => ?_
    obtain ⟨hua, hka⟩ := of_decide_eq_true hpa
    obtain ⟨hub, hkb⟩ := of_decide_eq_true hpb
    rw [clientOrderId_of_placed hs h a ha, clientOrderId_of_placed hs h b hb]
    simp only [clientOrderIdOf, hka, hkb, hua, hub, ne_eq, hkey, not_false_eq_true, if_true]

/-- A task for an alert, alone and to its end. -/
def processed (s : State) (alertId : AlertId) : State :=
  ((processAlert sampleRuntime sampleWorkerEnv alertId >>= fun _ => (pure ⟨⟩ : Prog State PUnit)).run s).1

theorem TaskRun.processed {s t : State} {ps : List (Prog State PUnit)}
    (h : TaskRun sampleRuntime s ⟨t, ps⟩) (alertId : AlertId) :
    TaskRun sampleRuntime s ⟨processed t alertId, ps ++ [.ret ⟨⟩]⟩ :=
  (h.step (PoolStep.start t ps (Task.processAlert sampleWorkerEnv alertId)) trivial).trans
    (run_alone _ t ps [])

/-- An alert processed twice, and then one whose key differs by a blank: one call is made. -/
theorem placed_once_repeated :
    ((processed (processed (processed sampleState "a1") "a1") "a2").placed.filter fun c =>
      decide (c.alert.user = "u" ∧ idemKeyOf c.alert.bodyJson = "k")).length ≤ 1 ∧
    (processed (processed (processed sampleState "a1") "a1") "a2").placed.map PlaceCall.clientOrderId =
      ["stp-ed1c5fb31de7acab679ea707ff093f8b"] := by
  have hstart : TaskRun sampleRuntime sampleState ⟨sampleState, []⟩ := Run.refl _
  have hrun := ((hstart.processed "a1").processed "a1").processed "a2"
  exact ⟨(placed_once rfl hrun).2 "u" "k" (by decide), by decide +kernel⟩

end StratTrader.Webhooks
