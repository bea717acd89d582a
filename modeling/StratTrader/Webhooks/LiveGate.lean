import StratTrader.Admin.Revocation
import StratTrader.Brokers.Services
import StratTrader.Webhooks.Placing

/-!
# Live orders and the live gate

Alerts are processed while accounts are connected, written beside the API and switched between the
modes, and while `settings.ENABLE_LIVE_TRADING` and its override are flipped and looked up in the processes of the
platform, with their caches (`Admin.Revocation`). Neither `build_adapter` nor `place_order`
asks the live gate: `connect` does, which no order goes through. An order goes to the live endpoint if the
account that was looked up is live.

## What is proved

* `live_orders_permitted`: an order that is submitted to the live endpoint is submitted while `live_trading_permitted`
  says in a process that live trading is permitted, in every run in which the gate is closed for the process only while no
  account at Alpaca is live and no alert under way can still place an order on one, and in which none becomes live while the
  gate is closed for it.
* `not_live_orders_permitted`: a revocation alone does not stop live orders.
* `no_live_orders`: where accounts are connected and switched through the API only, and no user has the
  attribute that `BrokerModeView` asks for, nothing is submitted to the live endpoint.

## Honest scope

A call of `live_trading_permitted` that is asked about at a moment is one that nothing interrupts. Everything else that
changes the state is left open, as long as it places no order and makes no account live.
-/

namespace StratTrader.Webhooks

open StratTrader.Admin StratTrader.Brokers StratTrader.Foundation StratTrader.Orders StratTrader.Risk

/-! ### The system -/

/-- Alerts processed with the adapters of `build_adapter`. -/
inductive LiveTask (rt : Runtime) : Prog State PUnit → Prop where
  /-- `process_alert`. -/
  | processAlert (env : WorkerEnv) (adapters : AdapterEnv) (alertId : AlertId) :
    LiveTask rt (processAlert rt { env with buildAdapter := buildAdapter adapters } alertId >>= fun _ => pure ⟨⟩)

/-- Anything else: no order is placed, and no account becomes live. -/
def Elsewhere (s t : State) : Prop :=
  t.placed = s.placed ∧ ∀ a ∈ t.accounts, a.TradesLive → ∃ b ∈ s.accounts, b.TradesLive

/-- The tasks and the tables, and the flag in the processes of the platform. -/
structure LiveState where
  /-- The tables and the tasks. -/
  pool : Pool State
  /-- The flag `ENABLE_LIVE_TRADING`, and the calls about it. -/
  flags : TimedPool FlagState ℚ

/-- What happens in a step. -/
inductive LiveAct where
  /-- A task goes on, or something else happens. -/
  | task
  /-- A call about the flag goes on, or something happens to it, with what comes of it. -/
  | flag (next : TimedPool FlagState ℚ)
  /-- `BrokerListCreateView.post`. -/
  | connect
  /-- A row is written beside the API. -/
  | write (account : BrokerAccount)
  /-- `BrokerModeView.post`. -/
  | setMode (liveTradingEnabled : Option Bool) (pk : AccountId) (mode : String)

/-- The steps. -/
inductive LiveStep (rt : Runtime) (longest : ℚ) (default : Bool) : LiveState → LiveAct → LiveState → Prop where
  /-- A task goes on, or something else happens. -/
  | task {P Q : Pool State} {a : PoolAct} (F : TimedPool FlagState ℚ) (h : PoolStep (LiveTask rt) Elsewhere P a Q) :
      LiveStep rt longest default ⟨P, F⟩ .task ⟨Q, F⟩
  /-- A call about the flag goes on, or something happens to it. -/
  | flag (P : Pool State) {F G : TimedPool FlagState ℚ} {a : PoolAct} (h : FlagStep longest default F a G) :
      LiveStep rt longest default ⟨P, F⟩ (.flag G) ⟨P, G⟩
  /-- An account is connected. -/
  | connect {s : State} (ps : List (Prog State PUnit)) (F : TimedPool FlagState ℚ) {user : UserId}
      {broker : String} {mode : Mode} {wantsDefault : Bool} {id : AccountId} {now : ℤ} {accounts : List BrokerAccount}
      (h : connectAccount s.accounts user broker mode wantsDefault id now = some accounts) :
      LiveStep rt longest default ⟨⟨s, ps⟩, F⟩ .connect ⟨⟨{ s with accounts }, ps⟩, F⟩
  /-- A row is written beside the API. -/
  | write (s : State) (ps : List (Prog State PUnit)) (F : TimedPool FlagState ℚ) (account : BrokerAccount) :
      LiveStep rt longest default ⟨⟨s, ps⟩, F⟩ (.write account) ⟨⟨{ s with accounts := s.accounts ++ [account] }, ps⟩, F⟩
  /-- A request to switch the mode. -/
  | setMode (s : State) (ps : List (Prog State PUnit)) (F : TimedPool FlagState ℚ) (user : UserId)
      (liveTradingEnabled : Option Bool) (pk : AccountId) (mode : String) :
      LiveStep rt longest default ⟨⟨s, ps⟩, F⟩ (.setMode liveTradingEnabled pk mode)
        ⟨⟨{ s with accounts :=
            (BrokerModeView.post rt.upper F.state.setting s.accounts user liveTradingEnabled pk mode).1 }, ps⟩, F⟩

/-- The call submits an order with a client that is bound to the live endpoint. -/
def PlaceCall.SubmitsLive (call : PlaceCall) : Prop :=
  call.account.TradesLive ∧ Alpaca.isSupportedAssetClass call.request.assetClass = true ∧
    ∃ data, Alpaca.buildOrderRequest call.request call.clientOrderId = .ok data

/-! ### When the gate holds -/

/-- No account is live. -/
def NoLive (s : State) : Prop := ∀ a ∈ s.accounts, ¬ a.TradesLive

/-- An order is placed on a live account. -/
def PlacesLive (s t : State) : Prop := ∃ call, t.placed = s.placed ++ [call] ∧ call.account.TradesLive

/-- A step that makes an account live. -/
def LiveAct.MakesLive (rt : Runtime) (s : LiveState) : LiveAct → Prop
  | .write account => account.TradesLive
  | .setMode liveTradingEnabled pk mode =>
    BrokerModeView.MakesLive rt.upper s.flags.state.setting s.pool.state.accounts liveTradingEnabled pk mode
  | .task | .flag _ | .connect => False

/-- `live_trading_permitted` says in a process that live trading is permitted, whatever the process can read. -/
def Permits (default : Bool) (p : ProcessId) (s : FlagState) : Prop :=
  ∀ env, ((liveTradingPermitted env p (some (enableLiveTrading default))).run s).2 = true

/-- The gate is closed for a process only while no account is live and no task can still place an order on one that it has
looked up; and no account is made live while the gate is closed for it. -/
def Careful (rt : Runtime) (default : Bool) (p : ProcessId) (s : LiveState) (a : LiveAct) : Prop :=
  (∀ next, a = .flag next → Permits default p s.flags.state → ¬ Permits default p next.state →
    NoLive s.pool.state ∧ ∀ p ∈ s.pool.programs, p.Behind NoLive PlacesLive fun _ => True) ∧
  (¬ Permits default p s.flags.state → ¬ a.MakesLive rt s)

/-- What a process is told with nothing in its cache and in Redis. -/
theorem permits_uncached {default : Bool} {p : ProcessId} {s : FlagState} (hsetting : s.setting = some true)
    (hlocal : s.locals p = none) (hredis : s.redis = none) (hrow : s.row ≠ some false) : Permits default p s := by
  intro env
  have hfound : s.overrideIn env p = none ∨ s.overrideIn env p = s.row := by
    have hshared : (if env.redisReads then s.redisEntry else none) = none := by simp [FlagState.redisEntry, hredis]
    unfold FlagState.overrideIn
    rw [hlocal, Option.filter_none, hshared]
    dsimp only
    split_ifs
    · exact .inl rfl
    · exact .inr rfl
  rw [liveTradingPermitted_run rfl, hsetting]
  rcases hfound with hfound | hfound
  · rw [hfound]
    rfl
  · rw [hfound]
    rcases hcase : s.row with - | (- | -)
    · rfl
    · exact absurd hcase hrow
    · rfl

theorem not_placesLive {s t : State} (h : t.placed = s.placed) : ¬ PlacesLive s t := by
  rintro ⟨call, hcall, -⟩
  rw [h] at hcall
  simp at hcall

/-- A task that starts while no account is live places no order on one, as long as none becomes live. -/
theorem LiveTask.behind {rt : Runtime} {p : Prog State PUnit} (h : LiveTask rt p) :
    p.Behind NoLive PlacesLive fun _ => True := by
  cases h with
  | processAlert env adapters alertId =>
    refine (processAlert_behind (R := fun _ account => ¬ account.TradesLive) (C := fun _ => True)
      (fun _ _ => not_placesLive) ?_ ?_ (fun _ _ _ _ => trivial) ?_ alertId).bind fun _ _ => .ret trivial
    · intro s t hs haccounts _
      unfold NoLive
      rw [haccounts]
      exact hs
    · exact fun s alert account hs hmem _ => hs account hmem
    · rintro alert account s t haccount - ⟨-, -, hplaced | ⟨call, -, rfl, hplaced⟩⟩
      · exact not_placesLive hplaced
      · rintro ⟨other, hother, hlive⟩
        rw [hplaced, List.append_cancel_left_eq, List.singleton_inj] at hother
        exact haccount (hother ▸ hlive)

/-- No account is live, and no task can place an order on one as long as none becomes live. -/
def Shut (s : LiveState) : Prop :=
  NoLive s.pool.state ∧ ∀ p ∈ s.pool.programs, GuaranteesAt (Shutting NoLive PlacesLive) s.pool.state p

/-- A change of the accounts that makes none live. -/
theorem shut_accounts {s : State} {ps : List (Prog State PUnit)} {F : TimedPool FlagState ℚ}
    {accounts : List BrokerAccount} (hs : Shut ⟨⟨s, ps⟩, F⟩)
    (hno : ∀ a ∈ accounts, a.TradesLive → ∃ b ∈ s.accounts, b.TradesLive) :
    Shut ⟨⟨{ s with accounts }, ps⟩, F⟩ := by
  have hafter : NoLive { s with accounts } := by
    intro a ha hlive
    obtain ⟨b, hb, hblive⟩ := hno a ha hlive
    exact hs.1 b hb hblive
  exact ⟨hafter, fun p hp => (hs.2 p hp).stable ⟨not_placesLive rfl, fun _ => hafter⟩⟩

section
variable {rt : Runtime} {longest : ℚ} {default : Bool} {p : ProcessId}

/-- A step that makes no account live leaves it so, and places no order on one. -/
theorem LiveStep.shut {s t : LiveState} {a : LiveAct} (h : LiveStep rt longest default s a t)
    (ha : ¬ a.MakesLive rt s) (hs : Shut s) : Shut t ∧ ¬ PlacesLive s.pool.state t.pool.state := by
  cases h with
  | task F h =>
    have henv : ∀ s t, Elsewhere s t → Shutting NoLive PlacesLive s t := by
      refine fun s t he => ⟨not_placesLive he.1, fun hno a ha hlive => ?_⟩
      obtain ⟨b, hb, hblive⟩ := he.2 a ha hlive
      exact hno b hb hblive
    exact h.behind (fun s => not_placesLive rfl) (fun p hp => hp.behind) henv hs.1 hs.2
  | flag P h => exact ⟨hs, not_placesLive rfl⟩
  | connect ps F h =>
    exact ⟨shut_accounts hs fun a ha hlive => connectAccount_tradesLive h ha hlive, not_placesLive rfl⟩
  | write s ps F account =>
    refine ⟨shut_accounts hs fun a hmem hlive => ?_, not_placesLive rfl⟩
    rcases List.mem_append.mp hmem with hmem | hmem
    · exact ⟨a, hmem, hlive⟩
    · exact absurd (List.mem_singleton.mp hmem ▸ hlive) ha
  | setMode s ps F user liveTradingEnabled pk mode =>
    refine ⟨shut_accounts hs fun a hmem hlive => ?_, not_placesLive rfl⟩
    exact (post_cases _ _ _ _ _ _ _ hmem hlive).resolve_right ha

/-- A step of a careful run: it is shut whenever the gate is closed. -/
theorem LiveStep.gated {s t : LiveState} {a : LiveAct} (h : LiveStep rt longest default s a t)
    (ha : Careful rt default p s a) (hs : Permits default p s.flags.state ∨ Shut s) :
    Permits default p t.flags.state ∨ Shut t := by
  by_cases hgate : Permits default p s.flags.state
  · cases h with
    | @flag P F G a h =>
      by_cases hnext : Permits default p G.state
      · exact .inl hnext
      · obtain ⟨hno, hps⟩ := ha.1 G rfl hgate hnext
        exact .inr ⟨hno, fun p hp => (hps p hp).guaranteesAt hno⟩
    | task => exact .inl hgate
    | connect => exact .inl hgate
    | write => exact .inl hgate
    | setMode => exact .inl hgate
  · exact .inr (h.shut (ha.2 hgate) (hs.resolve_left hgate)).1

/-- **Live orders require the live gate**, in careful runs: if the gate is open at the start or no account is live,
whenever an order is submitted to the live endpoint, a call of `live_trading_permitted` in the process would say that live
trading is permitted. -/
theorem live_orders_permitted {s : State} {F : TimedPool FlagState ℚ}
    (hstart : Permits default p F.state ∨ NoLive s) {P Q : LiveState} {a : LiveAct}
    (hrun : Run (LiveStep rt longest default) (Careful rt default p) ⟨⟨s, []⟩, F⟩ P)
    (hstep : LiveStep rt longest default P a Q) (hcareful : Careful rt default p P a) {call : PlaceCall}
    (hplaced : Q.pool.state.placed = P.pool.state.placed ++ [call]) (hlive : call.SubmitsLive) (env : FlagEnv) :
    ((liveTradingPermitted env p (some (enableLiveTrading default))).run P.flags.state).2 = true := by
  have hgated : Permits default p P.flags.state ∨ Shut P :=
    hrun.invariant (fun s => Permits default p s.flags.state ∨ Shut s)
      (hstart.imp id fun hno => ⟨hno, fun p hp => absurd hp List.not_mem_nil⟩) fun h ha hs => h.gated ha hs
  have hopen : Permits default p P.flags.state := by
    by_contra hclosed
    exact (hstep.shut (hcareful.2 hclosed) (hgated.resolve_left hclosed)).2 ⟨call, hplaced, hlive.1⟩
  exact hopen env

end

/-! ### Two runs -/

/-- A broker that takes every order. -/
def sampleClient : Alpaca.Client where
  submitOrder order _ := .ok ⟨order.clientOrderId, "b1", "new", order.symbol, order.qty, 0⟩
  getOrderByClientId _ _ := .ok none
  getOrderById _ _ := .error (.other ⟨none, none, "", "APIError"⟩)

/-- Both brokers are enabled, and every key can be decrypted. -/
def sampleAdapters : AdapterEnv where
  keyError _ := none
  alpacaEnabled := true
  tradestationEnabled := true
  alpacaClient _ _ := sampleClient
  tradestation _ _ _ := .error (refuse BrokerErrorCode.unavailable "")

/-- A live account. -/
def liveAccount : BrokerAccount := ⟨"acct", "u", "ALPACA", .live, true, .connected, 0⟩

/-- The alerts of `sampleState`, whose user has a live account. -/
def liveState : State := { sampleState with accounts := [liveAccount] }

/-- The sizing is on, and lets the ten shares pass. -/
def sizedEnv : WorkerEnv :=
  { sampleWorkerEnv with
    buildAdapter := buildAdapter sampleAdapters
    sizing := fun _ _ _ _ _ => .sized 10 }

/-- The first alert is processed. -/
def liveTask : Prog State PUnit := processAlert sampleRuntime sizedEnv "a1" >>= fun _ => pure ⟨⟩

/-- The call that it makes as its eighth action. -/
def liveCall : PlaceCall where
  clientOrderId := "stp-ed1c5fb31de7acab679ea707ff093f8b"
  alert := sampleAlert "a1" "k"
  account := liveAccount
  request := ⟨"AAPL", .buy, 10, .mkt, none, none, .day, .stock, none, none⟩

theorem liveCall_submitsLive : liveCall.SubmitsLive := ⟨by decide, rfl, _, rfl⟩

theorem liveCall_placed :
    (liveTask.runFor 8 liveState).placed = (liveTask.runFor 7 liveState).placed ++ [liveCall] := by
  decide +kernel

/-- Tasks are careful. -/
theorem careful_task (rt : Runtime) (default : Bool) (p : ProcessId) (s : LiveState) : Careful rt default p s .task := by
  refine ⟨fun next h => ?_, fun _ h => h⟩
  cases h

section
variable {rt : Runtime} {longest : ℚ} {default : Bool} {p : ProcessId}

/-- Steps of tasks are steps of the system. -/
theorem liveRun_tasks {P Q : Pool State} (F : TimedPool FlagState ℚ)
    (h : Run (PoolStep (LiveTask rt) Elsewhere) AnyStep P Q) :
    Run (LiveStep rt longest default) (Careful rt default p) ⟨P, F⟩ ⟨Q, F⟩ := by
  induction h with
  | refl => exact Run.refl _
  | step _ hs _ ih => exact ih.step (.task F hs) (careful_task rt default p _)

/-- Steps of the flag are steps of the system. -/
theorem liveRun_flags (P : Pool State) {F G : TimedPool FlagState ℚ} (h : Run (FlagStep longest default) AnyStep F G) :
    Run (LiveStep rt longest default) AnyStep ⟨P, F⟩ ⟨P, G⟩ := by
  induction h with
  | refl => exact Run.refl _
  | step _ hs _ ih => exact ih.step (.flag P hs) trivial

/-- The first alert is processed up to the call, and then the call is made. -/
theorem liveTask_run (F : TimedPool FlagState ℚ) :
    ∃ P Q : LiveState, Run (LiveStep sampleRuntime longest default) (Careful sampleRuntime default p) ⟨⟨liveState, []⟩, F⟩ P ∧
      LiveStep sampleRuntime longest default P .task Q ∧ Q.pool.state.placed = P.pool.state.placed ++ [liveCall] ∧
      P.flags = F := by
  have hstart : Run (PoolStep (LiveTask sampleRuntime) Elsewhere) AnyStep ⟨liveState, []⟩ ⟨liveState, [liveTask]⟩ :=
    Run.single (.start liveState [] (.processAlert sizedEnv sampleAdapters "a1")) trivial
  have hmoves := hstart.trans (run_moves 7 liveTask liveState [] [])
  rcases liveTask.runFor_succ 7 liveState with ⟨upd, next, hrest, heighth⟩ | heighth
  · have hlast : PoolStep (LiveTask sampleRuntime) Elsewhere
        ⟨liveTask.runFor 7 liveState, [liveTask.restFor 7 liveState]⟩ .move
        ⟨liveTask.runFor 8 liveState, [next (liveTask.runFor 7 liveState)]⟩ := by
      rw [hrest, heighth]
      exact .move _ [] [] upd next
    exact ⟨⟨_, F⟩, ⟨_, F⟩, liveRun_tasks F hmoves, .task F hlast, liveCall_placed, rfl⟩
  · have hplaced := liveCall_placed
    rw [heighth] at hplaced
    simp at hplaced

end

/-- The flag with the setting on, no override and nothing cached. -/
def armedFlags : TimedPool FlagState ℚ := ⟨.initial 0 (some true) none, []⟩

/-- An alert is processed while the gate is open. -/
theorem live_orders_permitted_open :
    ((liveTradingPermitted quietEnv 1 (some (enableLiveTrading true))).run armedFlags.state).2 = true ∧
      liveCall.SubmitsLive := by
  obtain ⟨P, Q, hrun, hstep, hplaced, hflags⟩ := @liveTask_run 0 true 1 armedFlags
  have hopen := live_orders_permitted (.inl (permits_uncached rfl rfl rfl (by decide))) hrun hstep
    (careful_task _ _ _ _) hplaced liveCall_submitsLive quietEnv
  rw [hflags] at hopen
  exact ⟨hopen, liveCall_submitsLive⟩

/-- **A revocation alone does not stop live orders**: live trading is permitted, `set_flag` writes the override, and then
an alert is processed whose user has a live account. -/
theorem not_live_orders_permitted :
    ∃ P Q : LiveState, Run (LiveStep sampleRuntime 0 true) AnyStep ⟨⟨liveState, []⟩, armedFlags⟩ P ∧
      LiveStep sampleRuntime 0 true P .task Q ∧ Q.pool.state.placed = P.pool.state.placed ++ [liveCall] ∧
      liveCall.SubmitsLive ∧
      ((liveTradingPermitted quietEnv 1 (some (enableLiveTrading true))).run P.flags.state).2 = false := by
  obtain ⟨P, Q, hrun, hstep, hplaced, hflags⟩ := @liveTask_run 0 true 1 ⟨revokedState, []⟩
  have hflip : Run (LiveStep sampleRuntime 0 true) AnyStep ⟨⟨liveState, []⟩, armedFlags⟩
      ⟨⟨liveState, []⟩, ⟨revokedState, []⟩⟩ := liveRun_flags _ revocation_run.run
  refine ⟨P, Q, hflip.trans (hrun.mono fun hs _ => ⟨hs, trivial⟩), hstep, hplaced, liveCall_submitsLive, ?_⟩
  rw [hflags]
  decide +kernel

/-! ### Through the API only -/

/-- No row is written beside the API, and no user has the attribute `live_trading_enabled`. -/
def ThroughApi (_ : LiveState) (a : LiveAct) : Prop :=
  (∀ account, a ≠ .write account) ∧
    ∀ liveTradingEnabled pk mode, a = .setMode liveTradingEnabled pk mode → liveTradingEnabled = none

/-- **Through the API no account becomes live**, and no order is placed on one. -/
theorem no_live_orders {rt : Runtime} {longest : ℚ} {default : Bool} {s : State} {F : TimedPool FlagState ℚ}
    (hs : NoLive s) {P Q : LiveState} {a : LiveAct} (hrun : Run (LiveStep rt longest default) ThroughApi ⟨⟨s, []⟩, F⟩ P)
    (hstep : LiveStep rt longest default P a Q) (ha : ThroughApi P a) : ¬ PlacesLive P.pool.state Q.pool.state := by
  have hmakes : ∀ {s a}, ThroughApi s a → ¬ a.MakesLive rt s := by
    intro s a ha hmakes
    cases a with
    | write account => exact ha.1 account rfl
    | setMode liveTradingEnabled pk mode =>
      have hnone := ha.2 liveTradingEnabled pk mode rfl
      subst hnone
      exact absurd hmakes.2.1.2 (by decide)
    | task => exact hmakes
    | flag next => exact hmakes
    | connect => exact hmakes
  have hshut : Shut P := hrun.invariant Shut ⟨hs, fun p hp => absurd hp List.not_mem_nil⟩
    fun h ha hs => (h.shut (hmakes ha) hs).1
  exact (hstep.shut (hmakes ha) hshut).2

end StratTrader.Webhooks
