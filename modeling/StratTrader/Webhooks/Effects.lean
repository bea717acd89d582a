import StratTrader.Webhooks.ProcessAlert
import StratTrader.Webhooks.View

/-!
# What the tasks leave alone

Every part of a task but its call of `place_order` is calm: none of its actions makes such
a call or loses an order's row, in whatever state and whatever fails. The parts of
`process_alert` write only alerts and orders (`Framed`).

## What is proved

* `reject_calm`, …, `post_calm`: each part of `process_alert` after the alert is loaded, and
  each part of the view, is calm.
-/

namespace StratTrader.Webhooks

open StratTrader.Brokers StratTrader.Foundation StratTrader.Orders StratTrader.Risk

/-! ### Calm programs -/

/-- No call is made, and no order's row is lost. -/
def Still (s t : State) : Prop :=
  t.placed = s.placed ∧ ∀ k, (s.db.orders.find? k).isSome → (t.db.orders.find? k).isSome

theorem Still.refl (s : State) : Still s s := ⟨rfl, fun _ h => h⟩

theorem still_setAlert (s : State) (id : AlertId) (f : AlertMessage → AlertMessage) :
    Still s (s.setAlert id f) := ⟨rfl, fun _ h => h⟩

theorem still_setOrder (s : State) (clientOrderId : String) (f : Order → Order) :
    Still s (s.setOrder clientOrderId f) :=
  ⟨rfl, fun _ h => Table.isSome_find?_modify _ _ _ h⟩

theorem still_insertAlert (s : State) (alert : AlertMessage) : Still s (s.insertAlert alert) :=
  ⟨State.insertAlert_placed s alert, fun _ h => by rwa [State.insertAlert_db]⟩

/-- A program that places no order and loses none. -/
abbrev Calm {α : Type} (p : Prog State α) : Prop := p.Always Still

theorem calm_read {α : Type} (out : State → α) : Calm (Prog.read out) := Prog.Always.atomic Still.refl

theorem calm_write {upd : State → State} (h : ∀ s, Still s (upd s)) : Calm (Prog.write upd) :=
  Prog.Always.atomic h

/-! ### The worker -/

/-- A relation that allows what the worker does beside placing orders: it writes alerts and orders. -/
structure Framed (R : State → State → Prop) : Prop where
  /-- Nothing changes. -/
  refl : ∀ s, R s s
  /-- An alert is written. -/
  setAlert : ∀ s id f, R s (s.setAlert id f)
  /-- An order is written. -/
  setOrder : ∀ s clientOrderId f, R s (s.setOrder clientOrderId f)

theorem framed_still : Framed Still := ⟨Still.refl, still_setAlert, still_setOrder⟩

section
variable {rt : Runtime} {R : State → State → Prop} (hR : Framed R) (env : WorkerEnv)
include hR

theorem Framed.read {α : Type} (out : State → α) : (Prog.read out).Always R := Prog.Always.atomic hR.refl

theorem Framed.writeAlert (alertId : AlertId) (f : AlertMessage → AlertMessage) :
    (Prog.write fun s => s.setAlert alertId f).Always R :=
  Prog.Always.atomic fun s => hR.setAlert s alertId f

theorem Framed.writeOrder (clientOrderId : String) (f : Order → Order) :
    (Prog.write fun s => s.setOrder clientOrderId f).Always R :=
  Prog.Always.atomic fun s => hR.setOrder s clientOrderId f

theorem Framed.rejectAlert (alertId : AlertId) (reason : String) : (rejectAlert env alertId reason).Always R :=
  (hR.writeAlert _ _).bind fun _ => .ret _

theorem Framed.route (alert : AlertMessage) : (route rt alert).Always R := by
  refine (hR.read _).bind fun account => ?_
  dsimp only
  generalize strip (rt.upper (alert.bodyJson.getStr "broker" (.string ""))) = broker
  split_ifs
  · refine (hR.read _).bind fun override => ?_
    cases override <;> exact .ret _
  · cases account <;> exact .ret _

theorem Framed.updateOrder (clientOrderId : String) (f : Order → Order) :
    (updateOrder env clientOrderId f).Always R := by
  refine Prog.Always.atomic fun s => ?_
  split_ifs
  · exact hR.setOrder s _ _
  · exact hR.refl s

theorem Framed.reject (clientOrderId : String) (alertId : AlertId) (reason : String) :
    (reject env clientOrderId alertId reason).Always R :=
  (hR.writeOrder _ _).bind fun _ => (hR.writeAlert _ _).bind fun _ => .ret _

theorem Framed.needsReconcile (clientOrderId : String) (alertId : AlertId) (reason : String) :
    (needsReconcile env clientOrderId alertId reason).Always R :=
  (hR.writeOrder _ _).bind fun _ => (hR.writeAlert _ _).bind fun _ => .ret _

theorem Framed.recordBrokerId (clientOrderId brokerOrderId : String) :
    (recordBrokerId env clientOrderId brokerOrderId).Always R := by
  unfold Webhooks.recordBrokerId
  split_ifs
  · exact hR.updateOrder env _ _
  · exact .ret _

theorem Framed.recordAck (clientOrderId : String) (alertId : AlertId) (ack : OrderAck) :
    (recordAck env clientOrderId alertId ack).Always R := by
  refine (hR.recordBrokerId env clientOrderId ack.brokerOrderId).bind fun ok => ?_
  cases ok with
  | false => exact .ret _
  | true =>
    refine (hR.writeOrder _ _).bind fun _ => ?_
    refine (hR.read _).bind fun order => ?_
    cases order with
    | none => exact .ret _
    | some order => exact (hR.writeAlert _ _).bind fun _ => .ret _

end

section
variable {rt : Runtime} (env : WorkerEnv)

theorem rejectAlert_calm (alertId : AlertId) (reason : String) : Calm (rejectAlert env alertId reason) :=
  framed_still.rejectAlert env alertId reason

theorem route_calm (alert : AlertMessage) : Calm (route rt alert) := framed_still.route alert

theorem updateOrder_calm (clientOrderId : String) (f : Order → Order) :
    Calm (updateOrder env clientOrderId f) :=
  framed_still.updateOrder env clientOrderId f

theorem reject_calm (clientOrderId : String) (alertId : AlertId) (reason : String) :
    Calm (reject env clientOrderId alertId reason) :=
  framed_still.reject env clientOrderId alertId reason

theorem needsReconcile_calm (clientOrderId : String) (alertId : AlertId) (reason : String) :
    Calm (needsReconcile env clientOrderId alertId reason) :=
  framed_still.needsReconcile env clientOrderId alertId reason

theorem recordAck_calm (clientOrderId : String) (alertId : AlertId) (ack : OrderAck) :
    Calm (recordAck env clientOrderId alertId ack) :=
  framed_still.recordAck env clientOrderId alertId ack

end

/-! ### Sending stranded alerts again -/

section
variable {rt : Runtime}

theorem dispatchAll_calm (alertIds : List AlertId) : Calm (dispatchAll alertIds) := by
  induction alertIds with
  | nil => exact .ret _
  | cons alertId alertIds ih =>
    unfold dispatchAll
    exact Prog.Always.bind (calm_write fun s => ⟨rfl, fun _ h => h⟩) fun _ => ih

theorem redispatchStrandedAlerts_calm (cutoff : ℤ) : Calm (redispatchStrandedAlerts cutoff) :=
  (calm_read _).bind fun _ => (dispatchAll_calm _).bind fun _ => .ret _

/-! ### The view -/

theorem cacheIncr_calm (key : String) : Calm (cacheIncr key) := by
  refine Prog.Always.atomic fun s => ?_
  cases s.cache key <;> exact Still.refl s

theorem rateLimited_calm (env : ViewEnv) (userId : UserId) (kind : String) :
    Calm (rateLimited env userId kind) := by
  unfold rateLimited
  split_ifs
  · exact .ret _
  · refine Prog.Always.bind (calm_write fun s => Still.refl s) fun _ => ?_
    refine (cacheIncr_calm _).bind fun current => ?_
    cases current with
    | some current => exact .ret _
    | none => exact Prog.Always.bind (calm_write fun s => Still.refl s) fun _ => .ret _

theorem createAlert_calm (alert : AlertMessage) : Calm (createAlert alert) :=
  Prog.Always.atomic fun s => still_insertAlert s alert

theorem badSignature_calm (rt : Runtime) (env : ViewEnv) (config : WebhookConfig) (request : WebhookRequest)
    (body : Body) : Calm (badSignature rt env config request body) := by
  refine (rateLimited_calm env _ _).bind fun limited => ?_
  cases limited with
  | true => exact .ret _
  | false =>
    refine (createAlert_calm _).bind fun ok => ?_
    cases ok <;> exact .ret _

theorem isCachedDuplicate_calm (config : WebhookConfig) (userId : UserId) (idem : String) :
    Calm (isCachedDuplicate rt config userId idem) := by
  unfold isCachedDuplicate
  split_ifs
  · exact .ret _
  · refine (calm_read _).bind fun cached => ?_
    split_ifs
    · exact .ret _
    · exact calm_read _

theorem rememberIdem_calm (userId : UserId) (idem : String) : Calm (rememberIdem rt userId idem) := by
  unfold rememberIdem
  split_ifs
  · exact calm_write fun s => Still.refl s
  · exact .ret _

theorem gate_calm (config : WebhookConfig) (strategy : Strategy) : Calm (gate config strategy) := by
  unfold gate
  split_ifs
  · exact .ret _
  · exact calm_read _

theorem deliver_calm (env : ViewEnv) (config : WebhookConfig) (strategy : Strategy)
    (request : WebhookRequest) (body : Body) : Calm (deliver rt env config strategy request body) := by
  unfold deliver
  dsimp only
  generalize idemOf (body.seen rt.printable) = idem
  refine (isCachedDuplicate_calm config _ _).bind fun cached => ?_
  cases cached with
  | true => exact .ret _
  | false =>
    refine (createAlert_calm _).bind fun created => ?_
    cases created with
    | false => exact .ret _
    | true =>
      refine (gate_calm config strategy).bind fun reason => ?_
      cases reason with
      | some reason =>
        refine (calm_write fun s => still_setAlert s _ _).bind fun _ => ?_
        exact (rememberIdem_calm _ _).bind fun _ => .ret _
      | none =>
        refine Prog.Always.bind (calm_write fun s => ⟨rfl, fun _ h => h⟩) fun _ => ?_
        exact (rememberIdem_calm _ _).bind fun _ => .ret _

theorem authenticated_calm (env : ViewEnv) (config : WebhookConfig) (strategy : Strategy)
    (request : WebhookRequest) (body : Body) :
    Calm (authenticated rt env config strategy request body) := by
  refine (rateLimited_calm env _ _).bind fun limited => ?_
  cases limited with
  | true => exact .ret _
  | false =>
    cases config.jsonSchema.bind (rt.schemaError (body.seen rt.printable)) with
    | some message =>
      refine (createAlert_calm _).bind fun ok => ?_
      cases ok <;> exact .ret _
    | none =>
      exact deliver_calm env config strategy request body

theorem post_calm (env : ViewEnv) (request : WebhookRequest) : Calm (post rt env request) := by
  unfold post
  split_ifs
  · exact .ret _
  · exact .ret _
  · exact .ret _
  · exact .ret _
  · split
    · refine (calm_read _).bind fun found => ?_
      rcases found with _ | ⟨config, strategy⟩
      · exact .ret _
      · dsimp only
        split_ifs
        · exact badSignature_calm rt env config request _
        · exact authenticated_calm env config strategy request _
    · exact .ret _

end

end StratTrader.Webhooks
