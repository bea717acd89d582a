import StratTrader.Brokers.Alpaca
import StratTrader.Webhooks.Effects

/-!
# Orders whose submission fails without a refusal

When the call that submits an order to Alpaca fails, the order may have landed all the same.
The adapter asks for it by its client order id; when that finds nothing, it raises the
error that `map_api_error` makes of the failure, and `process_alert` leaves the order to
be reconciled if the error counts as transient, and rejects it otherwise. A failure without
an HTTP status, such as a timeout, does not count as transient.

## What is proved

* `processAlert_left`: what a run of `process_alert` leaves of an order whose `place_order`
  has raised, whatever the adapter and whatever was raised.
* `left_to_reconcile_iff`: after a failure of the submission that is no refusal, and a probe
  that finds no order, the order is left to be reconciled if and only if the failure has an
  HTTP status.
-/

namespace StratTrader.Webhooks

open StratTrader.Brokers StratTrader.Foundation StratTrader.Orders StratTrader.Risk

/-! ### What an exception of `place_order` leaves -/

/-- The status of an order whose `place_order` has raised. -/
def statusAfter : Raised → Status
  | .broker exc => if exc.retryable then .needsReconcile else .rejected
  | .other _ => .needsReconcile

/-- The status of an order. -/
def State.orderStatus (s : State) (clientOrderId : String) : Option Status :=
  (s.db.orders.find? clientOrderId).map Order.status

/-- No call has been added to `calls`, or one, and if it has raised, the order is left accordingly. -/
def Left (env : WorkerEnv) (calls : List PlaceCall) (t : State) : Prop :=
  t.placed = calls ∨ ∃ call adapter, t.placed = calls ++ [call] ∧
    env.buildAdapter call.account = .ok adapter ∧
    ∀ exc, adapter call.request call.clientOrderId = .error exc →
      t.orderStatus call.clientOrderId = some (statusAfter exc)

section
variable {env : WorkerEnv} {s : State}

theorem Still.trans {s t u : State} (h : Still s t) (h' : Still t u) : Still s u :=
  ⟨h'.1.trans h.1, fun k hk => h'.2 k (h.2 k hk)⟩

theorem Calm.ends {α : Type} {p : Prog State α} (h : Calm p) (s : State) : p.Ends s fun _ t => Still s t :=
  Prog.Always.ends h Still.refl Still.trans s

theorem Calm.left {p : Prog State (Option Outcome)} (h : Calm p) (s : State) :
    p.Ends s fun _ t => Left env s.placed t :=
  (h.ends s).mono fun _ _ ht => Or.inl ht.1

/-- A calm program, and then one that is known to leave things so. -/
theorem Calm.bind_left {α : Type} {p : Prog State α} {f : α → Prog State (Option Outcome)} (hp : Calm p)
    (hf : ∀ a t, Still s t → (f a).Ends t fun _ u => Left env t.placed u) :
    (p >>= f).Ends s fun _ u => Left env s.placed u :=
  (hp.ends s).bind fun a t ht => (hf a t ht).mono fun _ _ hu => ht.1 ▸ hu

theorem orderStatus_setOrder {clientOrderId : String} {f : Order → Order}
    (hkey : ∀ o, (f o).clientOrderId = o.clientOrderId) {status : Status} (hf : ∀ o, (f o).status = status)
    (h : (s.db.orders.find? clientOrderId).isSome) :
    (s.setOrder clientOrderId f).orderStatus clientOrderId = some status := by
  obtain ⟨o, ho⟩ := Option.isSome_iff_exists.mp h
  simp [State.orderStatus, State.setOrder, Table.find?_modify s.db.orders clientOrderId hkey, ho, hf]

theorem reject_ends {clientOrderId : String} (alertId : AlertId) (reason : String)
    (h : (s.db.orders.find? clientOrderId).isSome) :
    (reject env clientOrderId alertId reason).Ends s fun _ t =>
      t.placed = s.placed ∧ t.orderStatus clientOrderId = some .rejected :=
  ⟨rfl, orderStatus_setOrder (by intro _; rfl) (by intro _; rfl) h⟩

theorem needsReconcile_ends {clientOrderId : String} (alertId : AlertId) (reason : String)
    (h : (s.db.orders.find? clientOrderId).isSome) :
    (needsReconcile env clientOrderId alertId reason).Ends s fun _ t =>
      t.placed = s.placed ∧ t.orderStatus clientOrderId = some .needsReconcile :=
  ⟨rfl, orderStatus_setOrder (by intro _; rfl) (by intro _; rfl) h⟩

theorem place_left {adapter : Adapter} {call : PlaceCall} (hadapter : env.buildAdapter call.account = .ok adapter)
    (h : (s.db.orders.find? call.clientOrderId).isSome) :
    (place env adapter call).Ends s fun _ t => Left env s.placed t := by
  refine Prog.Ends.bind (Q := fun result t => result = adapter call.request call.clientOrderId ∧
    t.placed = s.placed ++ [call] ∧ (t.db.orders.find? call.clientOrderId).isSome) ⟨rfl, rfl, h⟩
    fun result t ⟨hresult, ht, hrow⟩ => ?_
  match result with
  | .ok ack =>
    refine ((recordAck_calm env _ _ ack).ends t).mono fun _ u hu => Or.inr ⟨call, adapter, ?_, hadapter, ?_⟩
    · exact hu.1.trans ht
    · exact fun exc hexc => by rw [← hresult] at hexc; cases hexc
  | .error (.other exc) =>
    refine (needsReconcile_ends _ _ hrow).mono fun _ u ⟨hu, hstatus⟩ =>
      Or.inr ⟨call, adapter, hu.trans ht, hadapter, fun exc' hexc => ?_⟩
    obtain rfl : Raised.other exc = exc' := Except.error.inj (hresult.trans hexc)
    exact hstatus
  | .error (.broker exc) =>
    dsimp only
    split_ifs with hretry
    · refine (needsReconcile_ends _ _ hrow).mono fun _ u ⟨hu, hstatus⟩ =>
        Or.inr ⟨call, adapter, hu.trans ht, hadapter, fun exc' hexc => ?_⟩
      obtain rfl : Raised.broker exc = exc' := Except.error.inj (hresult.trans hexc)
      rw [hstatus, statusAfter, if_pos hretry]
    · refine (reject_ends _ _ hrow).mono fun _ u ⟨hu, hstatus⟩ =>
        Or.inr ⟨call, adapter, hu.trans ht, hadapter, fun exc' hexc => ?_⟩
      obtain rfl : Raised.broker exc = exc' := Except.error.inj (hresult.trans hexc)
      rw [hstatus, statusAfter, if_neg hretry]

theorem submit_left (rt : Runtime) (alert : AlertMessage) (account : BrokerAccount)
    (h : (s.db.orders.find? (clientOrderIdOf rt alert)).isSome) :
    (submit rt env alert account).Ends s fun _ t => Left env s.placed t := by
  generalize hid : clientOrderIdOf rt alert = clientOrderId at h
  refine submit_ways (P := fun p => ∀ s, (s.db.orders.find? clientOrderId).isSome →
    p.Ends s fun _ t => Left env s.placed t) ?_ ?_ ?_ hid.symm ?_ ?_ s h
  · intro s _
    exact Or.inl rfl
  · intro reason s _
    exact (reject_calm env _ _ reason).left s
  · intro f next hnext s hs
    exact (updateOrder_calm env _ f).bind_left fun ok t ht => hnext ok t (ht.2 _ hs)
  · intro next hnext s hs
    exact (calm_read _).bind_left fun order t ht => hnext order t (ht.2 _ hs)
  · intro adapter request hadapter s hs
    exact place_left hadapter hs

/-- What `get_or_create` leaves: no call, and the order's row where it has created it. -/
theorem getOrCreate_ends (order : Order) :
    (getOrCreate env order).Ends s fun created t => t.placed = s.placed ∧
      (created = some true → (t.db.orders.find? order.clientOrderId).isSome) := by
  unfold Prog.Ends
  simp only [getOrCreate, Prog.run_atomic]
  cases hfind : s.db.orders.find? order.clientOrderId with
  | some o => exact ⟨rfl, fun h => by cases h⟩
  | none =>
    simp only [Option.isNone_none, true_and]
    split_ifs
    · exact ⟨rfl, fun _ => by simp [State.addOrder]⟩
    · exact ⟨rfl, fun h => by cases h⟩

/-- **What a run of `process_alert` leaves of an order whose `place_order` has raised**: it is to be
reconciled when the exception is transient or no `BrokerError`, and rejected otherwise. -/
theorem processAlert_left (rt : Runtime) (env : WorkerEnv) (alertId : AlertId) (s : State) :
    (processAlert rt env alertId).Ends s fun _ t => Left env s.placed t := by
  refine (calm_read _).bind_left fun loaded t1 _ => ?_
  match loaded with
  | none => exact Or.inl rfl
  | some (alert, strategy) =>
    dsimp only
    split_ifs
    · exact Or.inl rfl
    · exact (rejectAlert_calm env _ _).left t1
    · refine (route_calm alert).bind_left fun account t2 _ => ?_
      match account with
      | .error reason => exact (rejectAlert_calm env _ _).left t2
      | .ok account =>
        refine (calm_read _).bind_left fun blocked t3 _ => ?_
        match blocked with
        | some reason => exact (rejectAlert_calm env _ _).left t3
        | none =>
          refine (getOrCreate_ends (newOrder rt alert account)).bind fun created t4 ⟨ht4, hrow⟩ => ?_
          rw [newOrder_clientOrderId] at hrow
          match created with
          | none => exact Or.inl ht4
          | some false => exact Or.inl ht4
          | some true => exact (submit_left rt alert account (hrow rfl)).mono fun _ _ hu => ht4 ▸ hu

end

/-! ### Submissions that fail without a refusal -/

/-- The call that submits the order raises. -/
def SubmitRaises (client : Alpaca.Client) (request : OrderRequest) (clientOrderId : String) (exc : Exc) : Prop :=
  Alpaca.isSupportedAssetClass request.assetClass = true ∧
    ∃ data, Alpaca.buildOrderRequest request clientOrderId = .ok data ∧
      client.submitOrder data 1 = .error (.other exc)

/-- A failure that is no refusal: a 429, a 5xx, or one without an HTTP status. -/
def Ambiguous (exc : Exc) : Prop :=
  ∀ status, Alpaca.statusOf exc = some status → status = 429 ∨ 500 ≤ status ∧ status < 600

/-- Such a failure is transient for `map_api_error` exactly if it has a status. -/
theorem Ambiguous.retryable_iff {exc : Exc} (h : Ambiguous exc) :
    (Alpaca.mapApiError (.other exc)).retryable = true ↔ (Alpaca.statusOf exc).isSome := by
  rw [Alpaca.mapApiError_retryable, Option.isSome_iff_exists]
  exact exists_congr fun status => ⟨And.left, fun hs => ⟨hs, h status hs⟩⟩

/-- What `place_order` raises when the submission raises and the probe finds no order. -/
theorem placeOrder_raises {client : Alpaca.Client} {request : OrderRequest} {clientOrderId : String}
    {exc : Exc} (hsubmit : SubmitRaises client request clientOrderId exc)
    (hprobe : Alpaca.lookupByClientId client clientOrderId = none) :
    Alpaca.placeOrder client request clientOrderId = .error (.broker (Alpaca.mapApiError (.other exc))) := by
  obtain ⟨hasset, data, hdata, hraises⟩ := hsubmit
  have hcall : Alpaca.call (client.submitOrder data) false = .error (Alpaca.mapApiError (.other exc)) := by
    rw [Alpaca.call_once, hraises, Alpaca.settle]
  simp only [Alpaca.placeOrder, hasset, if_true, hdata, hcall, hprobe]

/-- **An order whose submission fails without a refusal is left to be reconciled if and only if the
failure has an HTTP status**, when the probe finds no order. -/
theorem left_to_reconcile_iff {rt : Runtime} {env : WorkerEnv} {alertId : AlertId} {s : State}
    {call : PlaceCall} (hplaced : ((processAlert rt env alertId).run s).1.placed = s.placed ++ [call])
    {client : Alpaca.Client} (hadapter : env.buildAdapter call.account = .ok (Alpaca.placeOrder client))
    {exc : Exc} (hsubmit : SubmitRaises client call.request call.clientOrderId exc)
    (hambiguous : Ambiguous exc) (hprobe : Alpaca.lookupByClientId client call.clientOrderId = none) :
    ((processAlert rt env alertId).run s).1.orderStatus call.clientOrderId = some .needsReconcile ↔
      (Alpaca.statusOf exc).isSome := by
  rcases processAlert_left rt env alertId s with hnone | ⟨call', adapter, hcall, hbuild, hstatus⟩
  · have hlen := congrArg List.length (hplaced.symm.trans hnone)
    simp at hlen
  · obtain rfl : call = call' := by simpa using hplaced.symm.trans hcall
    obtain rfl : Alpaca.placeOrder client = adapter := Except.ok.inj (hadapter.symm.trans hbuild)
    rw [hstatus _ (placeOrder_raises hsubmit hprobe), ← hambiguous.retryable_iff, statusAfter]
    split_ifs with hretry <;> simp [hretry]

/-- A client whose submissions raise `exc`, and that knows no order. -/
def failingClient (exc : Exc) : Alpaca.Client where
  submitOrder _ _ := .error (.other exc)
  getOrderByClientId _ _ := .ok none
  getOrderById _ _ := .error (.other exc)

/-- The state after a run for `a1` with that client. -/
def failedState (exc : Exc) : State :=
  ((processAlert sampleRuntime (workerEnvOf (Alpaca.placeOrder (failingClient exc))) "a1").run sampleState).1

/-- The one call that such a run makes. -/
def failedCall : PlaceCall where
  clientOrderId := "stp-ed1c5fb31de7acab679ea707ff093f8b"
  alert := sampleAlert "a1" "k"
  account := ⟨"acct", "u", "ALPACA", .paper, true, .connected, 0⟩
  request := ⟨"AAPL", .buy, 10, .mkt, none, none, .day, .stock, none, none⟩

/-- After a 503 the order is left to be reconciled. -/
theorem left_to_reconcile_unavailable :
    (failedState ⟨some 503, none, "Service Unavailable", "APIError"⟩).orderStatus
      "stp-ed1c5fb31de7acab679ea707ff093f8b" = some .needsReconcile := by
  have hplaced : (failedState ⟨some 503, none, "Service Unavailable", "APIError"⟩).placed =
      sampleState.placed ++ [failedCall] := by decide +kernel
  have hambiguous : Ambiguous ⟨some 503, none, "Service Unavailable", "APIError"⟩ := fun status hs => by
    obtain rfl : 503 = status := Option.some.inj hs
    omega
  exact (left_to_reconcile_iff hplaced rfl ⟨rfl, _, rfl, rfl⟩ hambiguous (by decide +kernel)).mpr
    (by decide +kernel)

/-- After a timeout it is rejected, although the order may have landed. -/
theorem rejected_timeout :
    Ambiguous ⟨none, none, "Read timed out.", "ReadTimeout"⟩ ∧
    (failedState ⟨none, none, "Read timed out.", "ReadTimeout"⟩).placed = sampleState.placed ++ [failedCall] ∧
    SubmitRaises (failingClient ⟨none, none, "Read timed out.", "ReadTimeout"⟩) failedCall.request
      failedCall.clientOrderId ⟨none, none, "Read timed out.", "ReadTimeout"⟩ ∧
    Alpaca.lookupByClientId (failingClient ⟨none, none, "Read timed out.", "ReadTimeout"⟩)
      failedCall.clientOrderId = none ∧
    (failedState ⟨none, none, "Read timed out.", "ReadTimeout"⟩).orderStatus failedCall.clientOrderId =
      some .rejected := by
  refine ⟨fun status hs => ?_, by decide +kernel, ⟨rfl, _, rfl, rfl⟩, by decide +kernel, by decide +kernel⟩
  cases hs

end StratTrader.Webhooks
