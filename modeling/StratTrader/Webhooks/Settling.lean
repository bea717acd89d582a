import StratTrader.Webhooks.ProcessAlert

/-!
# When a run settles its alert

A run of `process_alert` that was interrupted leaves its alert in status `RECEIVED`, and
the alert is sent to a worker again. A later run settles the alert on every way out but
one: when there is an order with the alert's client order id already, the run returns and
leaves the alert as it is. Such an order is what a run leaves behind that is interrupted
after it has created it, and what another alert leaves whose key differs only by blanks.

## What is proved

* `submit_concludes`: every way out after the order has been created accepts or rejects the alert,
  which settles it (`Concludes.settles`).
* `settled_iff`: a run that returns settles the alert if and only if it does not admit the
  alert or there is no such order when it starts.
-/

namespace StratTrader.Webhooks

open StratTrader.Brokers StratTrader.Foundation StratTrader.Orders StratTrader.Risk

/-- The alert is in a status other than `RECEIVED`, and so is never sent to a worker again. -/
def IsSettled (alertId : AlertId) (s : State) : Prop :=
  (∃ alert, s.alerts.find? alertId = some alert ∧ alert.status ≠ .received) ∧
    ∀ cutoff, alertId ∉ s.stranded cutoff

theorem mem_stranded {alertId : AlertId} {s : State} {cutoff : ℤ} :
    alertId ∈ s.stranded cutoff ↔ ∃ alert, s.alerts.find? alertId = some alert ∧
      alert.status = .received ∧ alert.receivedAt < cutoff := by
  simp only [State.stranded, List.mem_map, List.mem_filter, Bool.and_eq_true, decide_eq_true_eq]
  constructor
  · rintro ⟨alert, ⟨hmem, hstatus⟩, rfl⟩
    exact ⟨alert, Table.find?_of_mem hmem, hstatus⟩
  · rintro ⟨alert, hfind, hstatus⟩
    exact ⟨alert, ⟨Table.mem_of_find? hfind, hstatus⟩, Table.key_of_find? hfind⟩

/-- Where the alert's status is not `RECEIVED`, it is not among the stranded. -/
theorem isSettled_of_find? {alertId : AlertId} {s : State} {alert : AlertMessage}
    (hfind : s.alerts.find? alertId = some alert) (hstatus : alert.status ≠ .received) :
    IsSettled alertId s := by
  refine ⟨⟨alert, hfind, hstatus⟩, fun cutoff hmem => ?_⟩
  obtain ⟨a, ha, hreceived, -⟩ := mem_stranded.mp hmem
  obtain rfl : alert = a := Option.some.inj (hfind.symm.trans ha)
  exact hstatus hreceived

/-- The alert has been accepted or rejected. -/
def Concluded (alertId : AlertId) (s : State) : Prop :=
  ∃ alert, s.alerts.find? alertId = some alert ∧ (alert.status = .accepted ∨ alert.status = .rejected)

theorem Concluded.isSettled {alertId : AlertId} {s : State} (h : Concluded alertId s) : IsSettled alertId s := by
  obtain ⟨alert, hfind, hstatus⟩ := h
  refine isSettled_of_find? hfind fun hreceived => ?_
  rcases hstatus with hstatus | hstatus <;> rw [hreceived] at hstatus <;> cases hstatus

/-! ### The ways out -/

section
variable (env : WorkerEnv) (alertId : AlertId)

/-- Wherever the program starts with the alert's row, if it returns it has settled the alert. -/
def Settles (p : Prog State (Option Outcome)) : Prop :=
  ∀ s, (s.alerts.find? alertId).isSome → p.Ends s fun r t => r.isSome → IsSettled alertId t

/-- Wherever the program starts with the alert's row, if it returns the alert is accepted or rejected. -/
def Concludes (p : Prog State (Option Outcome)) : Prop :=
  ∀ s, (s.alerts.find? alertId).isSome → p.Ends s fun r t => r.isSome → Concluded alertId t

/-- No action changes an alert. -/
abbrev KeepsAlerts {α : Type} (p : Prog State α) : Prop := p.Always fun s t => t.alerts = s.alerts

variable {alertId}

theorem Concludes.settles {p : Prog State (Option Outcome)} (h : Concludes alertId p) :
    Settles alertId p :=
  fun s hs => (h s hs).mono fun _ _ hconcluded hr => (hconcluded hr).isSettled

theorem concludes_none : Concludes alertId (.ret none) := fun _ _ h => absurd h Bool.false_ne_true

theorem KeepsAlerts.bind {α : Type} {p : Prog State α} {f : α → Prog State (Option Outcome)}
    (hp : KeepsAlerts p) (hf : ∀ a, Concludes alertId (f a)) : Concludes alertId (p >>= f) := by
  intro s hs
  refine (hp.ends (fun _ => rfl) (fun h1 h2 => h2.trans h1) s).bind fun a t ht => hf a t ?_
  rwa [ht]

theorem keepsAlerts_setOrder (clientOrderId : String) (f : Order → Order) :
    KeepsAlerts (Prog.write fun s => s.setOrder clientOrderId f) :=
  Prog.Always.atomic fun s => State.setOrder_alerts s clientOrderId f

theorem keepsAlerts_read {α : Type} (out : State → α) : KeepsAlerts (Prog.read out) :=
  Prog.Always.atomic fun _ => rfl

theorem keepsAlerts_updateOrder (clientOrderId : String) (f : Order → Order) :
    KeepsAlerts (updateOrder env clientOrderId f) := by
  apply Prog.Always.atomic
  intro s
  split_ifs
  · exact State.setOrder_alerts s clientOrderId f
  · rfl

/-- The last actions of every way out: the alert gets a status, and the run returns. -/
theorem setAlert_concludes {f : AlertMessage → AlertMessage} (hid : ∀ a, (f a).id = a.id)
    (hstatus : ∀ a, (f a).status = .accepted ∨ (f a).status = .rejected) (outcome : Outcome) :
    Concludes alertId (do
      .write fun s => s.setAlert alertId f
      return some outcome) := by
  intro s hs _
  obtain ⟨alert, halert⟩ := Option.isSome_iff_exists.mp hs
  have hfind : (s.setAlert alertId f).alerts.find? alertId = some (f alert) := by
    simp [State.setAlert, Table.find?_modify s.alerts alertId hid, halert]
  exact ⟨f alert, hfind, hstatus alert⟩

theorem rejectAlert_concludes (reason : String) : Concludes alertId (rejectAlert env alertId reason) :=
  setAlert_concludes (by intro _; rfl) (by intro _; exact .inr rfl) _

theorem reject_concludes (clientOrderId reason : String) :
    Concludes alertId (reject env clientOrderId alertId reason) :=
  (keepsAlerts_setOrder clientOrderId _).bind fun _ =>
    setAlert_concludes (by intro _; rfl) (by intro _; exact .inr rfl) _

theorem needsReconcile_concludes (clientOrderId reason : String) :
    Concludes alertId (needsReconcile env clientOrderId alertId reason) :=
  (keepsAlerts_setOrder clientOrderId _).bind fun _ =>
    setAlert_concludes (by intro _; rfl) (by intro _; exact .inl rfl) _

theorem recordAck_concludes (clientOrderId : String) (ack : OrderAck) :
    Concludes alertId (recordAck env clientOrderId alertId ack) := by
  have hid : KeepsAlerts (recordBrokerId env clientOrderId ack.brokerOrderId) := by
    unfold recordBrokerId
    split_ifs
    · exact keepsAlerts_updateOrder env _ _
    · exact .ret _
  refine hid.bind fun ok => ?_
  cases ok with
  | false => exact concludes_none
  | true =>
    refine (keepsAlerts_setOrder clientOrderId _).bind fun _ => ?_
    refine (keepsAlerts_read _).bind fun order => ?_
    cases order with
    | none => exact concludes_none
    | some order => exact setAlert_concludes (by intro _; rfl) (by intro _; exact .inl rfl) _

theorem place_concludes (adapter : Adapter) (call : PlaceCall) (hcall : call.alert.id = alertId) :
    Concludes alertId (place env adapter call) := by
  subst hcall
  have hkeep : KeepsAlerts (callPlaceOrder adapter call) := Prog.Always.atomic fun _ => rfl
  refine place_ways (P := Concludes call.alert.id) ?_ ?_ ?_ ?_
  · intro ack
    exact recordAck_concludes env _ ack
  · intro reason
    exact needsReconcile_concludes env _ reason
  · intro reason
    exact reject_concludes env _ reason
  · intro next hnext
    exact hkeep.bind hnext

/-- **Once the order has been created, every way out accepts or rejects the alert.** -/
theorem submit_concludes (rt : Runtime) (alert : AlertMessage) (account : BrokerAccount) :
    Concludes alert.id (submit rt env alert account) := by
  refine submit_ways concludes_none ?_ ?_ rfl ?_ ?_
  · intro reason
    exact reject_concludes env _ reason
  · intro f next hnext
    exact (keepsAlerts_updateOrder env _ f).bind hnext
  · intro next hnext
    exact (keepsAlerts_read _).bind hnext
  · intro adapter request _
    exact place_concludes env adapter ⟨_, alert, account, request⟩ rfl

end

/-! ### A run that returns -/

/-- **A run that returns settles its alert if and only if** it does not admit the alert, or there is no
order with the alert's client order id when it starts. -/
theorem settled_iff {rt : Runtime} {env : WorkerEnv} {s : State} {alertId : AlertId}
    {alert : AlertMessage} {strategy : Strategy} (hload : s.loadAlert alertId = some (alert, strategy))
    (hreceived : alert.status = .received) (hreturns : ((processAlert rt env alertId).run s).2.isSome) :
    IsSettled alertId ((processAlert rt env alertId).run s).1 ↔
      (∃ reason, admitted rt s alert strategy = .error reason) ∨
        s.db.orders.find? (clientOrderIdOf rt alert) = none := by
  obtain ⟨halert, rfl⟩ := id_of_loadAlert hload
  have hrow : (s.alerts.find? alert.id).isSome := by rw [halert]; rfl
  cases hadmitted : admitted rt s alert strategy with
  | error reason =>
    rw [processAlert_refused hload hreceived hadmitted]
    exact ⟨fun _ => Or.inl ⟨reason, rfl⟩, fun _ => (rejectAlert_concludes env reason).settles s hrow rfl⟩
  | ok account =>
    cases horder : s.db.orders.find? (clientOrderIdOf rt alert) with
    | some order =>
      rw [processAlert_duplicate hload hreceived hadmitted horder]
      constructor
      · rintro ⟨⟨a, ha, hstatus⟩, -⟩
        obtain rfl : alert = a := Option.some.inj (halert.symm.trans ha)
        exact absurd hreceived hstatus
      · rintro (⟨reason, h⟩ | h) <;> cases h
    | none =>
      rw [processAlert_new hload hreceived hadmitted horder] at hreturns ⊢
      split_ifs at hreturns ⊢ with haccepts
      · refine ⟨fun _ => Or.inr rfl, fun _ => ?_⟩
        exact (submit_concludes env rt alert account).settles _ (by rwa [State.addOrder_alerts]) hreturns
      · cases hreturns

/-- The first run for an alert settles it. -/
theorem settled_first : IsSettled "a1" ((processAlert sampleRuntime sampleWorkerEnv "a1").run sampleState).1 := by
  have hload : sampleState.loadAlert "a1" = some (sampleAlert "a1" "k", ⟨"st", true, none⟩) := rfl
  exact (settled_iff hload rfl (by decide +kernel)).mpr (Or.inr (by decide +kernel))

/-- The first run for `a1`, killed after its fourth action, which creates the order. -/
def interruptedState : State := (processAlert sampleRuntime sampleWorkerEnv "a1").runFor 4 sampleState

/-- The first run for `a1`, to its end. -/
def completedState : State := ((processAlert sampleRuntime sampleWorkerEnv "a1").run sampleState).1

/-- A second run for `a1` returns and leaves it among the stranded; and so does the first run for
`a2`, whose key differs from that of `a1` by a blank. -/
theorem not_settled_duplicate :
    (interruptedState.loadAlert "a1" = some (sampleAlert "a1" "k", ⟨"st", true, none⟩) ∧
      ((processAlert sampleRuntime sampleWorkerEnv "a1").run interruptedState).2.isSome ∧
      "a1" ∈ ((processAlert sampleRuntime sampleWorkerEnv "a1").run interruptedState).1.stranded 1 ∧
      ¬ IsSettled "a1" ((processAlert sampleRuntime sampleWorkerEnv "a1").run interruptedState).1) ∧
    (completedState.loadAlert "a2" = some (sampleAlert "a2" " k", ⟨"st", true, none⟩) ∧
      ((processAlert sampleRuntime sampleWorkerEnv "a2").run completedState).2.isSome ∧
      ¬ IsSettled "a2" ((processAlert sampleRuntime sampleWorkerEnv "a2").run completedState).1) := by
  have h1 : "a1" ∈ ((processAlert sampleRuntime sampleWorkerEnv "a1").run interruptedState).1.stranded 1 := by
    decide +kernel
  have h2 : "a2" ∈ ((processAlert sampleRuntime sampleWorkerEnv "a2").run completedState).1.stranded 1 := by
    decide +kernel
  refine ⟨⟨by decide +kernel, by decide +kernel, h1, fun h => h.2 1 h1⟩, by decide +kernel,
    by decide +kernel, fun h => h.2 1 h2⟩

end StratTrader.Webhooks
