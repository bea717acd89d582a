import StratTrader.Webhooks.Placing

/-!
# Halting a user whose alerts are under way

`trigger_halt` with `flatten` while alerts are processed: when the transaction with the halt has committed,
`flatten_user` goes through the user's connected accounts and has the broker close what is open on each. A
run of `process_alert` asks the kill switch once, and places its order some actions later without asking
again. So an order may be placed on an account that has been flattened, by a run that has asked before the
halt.

## What is proved

* `flatten_leaves_none`: no order of the user is placed on a flattened account while the halt lasts, in every run in
  which, whenever `flatten_all` returns, no alert under way that has asked the kill switch can still place such an order.
* `not_flatten_leaves_none`: an alert that has asked before the halt places its order after the flatten.

## Honest scope

What `flatten_all` closes at the broker, and what `flatten_user` records, is left out; what `reconcile_positions`
writes is among everything else, which is left open as long as it places no order and changes no halt. A halt of one
strategy is not a halt of the user, whose other strategies go on.
-/

namespace StratTrader.Webhooks

open StratTrader.Brokers StratTrader.Foundation StratTrader.Orders StratTrader.Risk

/-! ### The system -/

/-- Alerts processed. -/
inductive AlertTask (rt : Runtime) : Prog State PUnit → Prop where
  /-- `process_alert`. -/
  | processAlert (env : WorkerEnv) (alertId : AlertId) :
    AlertTask rt (processAlert rt env alertId >>= fun _ => pure ⟨⟩)

/-- Anything else: no order is placed, and no halt changes. -/
def KeepsHalts (s t : State) : Prop := t.placed = s.placed ∧ t.halts = s.halts

/-- A run of `flatten_user`. -/
structure FlattenRun where
  /-- The halt whose commit calls it. -/
  halt : HaltId
  /-- The arguments. -/
  call : FlattenCall
  /-- The accounts that are left to go through, once they are loaded. -/
  accounts : Option (List BrokerAccount) := none

/-- `flatten_all` has returned. -/
structure Flattened where
  /-- The halt. -/
  halt : HaltId
  /-- The user. -/
  user : UserId
  /-- The account. -/
  account : AccountId
  deriving DecidableEq

/-- The tables and the tasks, and the flattening. -/
structure FlattenState where
  /-- The tables and the tasks. -/
  pool : Pool State
  /-- The runs of `flatten_user` that are called or under way. -/
  flattens : List FlattenRun := []
  /-- Where `flatten_all` has returned. -/
  flattened : List Flattened := []

/-- The accounts that `flatten_user` loads. -/
def connectedAccounts (accounts : List BrokerAccount) (user : UserId) : List BrokerAccount :=
  accounts.filter fun a => decide (a.user = user) && decide (a.status = .connected)

/-- What happens in a step. -/
inductive FlattenAct where
  /-- A task goes on, or something else happens. -/
  | task
  /-- `trigger_halt` commits. -/
  | engage
  /-- `release_halt` commits. -/
  | release
  /-- `flatten_user` goes on, or ends. -/
  | flatten
  /-- `flatten_all` returns. -/
  | returns (flattened : Flattened)

/-- The steps. -/
inductive FlattenStep (rt : Runtime) (calendar : Calendar) : FlattenState → FlattenAct → FlattenState → Prop where
  /-- A task goes on, or something else happens. -/
  | task {P Q : Pool State} {a : PoolAct} (fs : List FlattenRun) (done : List Flattened)
      (h : PoolStep (AlertTask rt) KeepsHalts P a Q) : FlattenStep rt calendar ⟨P, fs, done⟩ .task ⟨Q, fs, done⟩
  /-- A halt is engaged, and what is to be flattened is called. -/
  | engage {s : State} (ps : List (Prog State PUnit)) (fs : List FlattenRun) (done : List Flattened)
      {call : TriggerCall} {id : HaltId} {now : ℤ} {r : Triggered} (h : triggerHalt s.halts call id now = some r) :
      FlattenStep rt calendar ⟨⟨s, ps⟩, fs, done⟩ .engage
        ⟨⟨{ s with halts := r.halts }, ps⟩, fs ++ (r.onCommit.map fun call => { halt := r.halt.id, call }).toList, done⟩
  /-- A halt is released. -/
  | release (s : State) (ps : List (Prog State PUnit)) (fs : List FlattenRun) (done : List Flattened) (id : HaltId)
      (releasedBy : Option UserId) (now : ℕ → ℤ) :
      FlattenStep rt calendar ⟨⟨s, ps⟩, fs, done⟩ .release
        ⟨⟨{ s with halts := (releaseHalt calendar s.halts id releasedBy now).1 }, ps⟩, fs, done⟩
  /-- The accounts are loaded. -/
  | load (P : Pool State) (fs gs : List FlattenRun) (done : List Flattened) (halt : HaltId) (call : FlattenCall) :
      FlattenStep rt calendar ⟨P, fs ++ ⟨halt, call, none⟩ :: gs, done⟩ .flatten
        ⟨P, fs ++ ⟨halt, call, some (connectedAccounts P.state.accounts call.user)⟩ :: gs, done⟩
  /-- `flatten_all` returns. -/
  | returns (P : Pool State) (fs gs : List FlattenRun) (done : List Flattened) (halt : HaltId) (call : FlattenCall)
      (account : BrokerAccount) (accounts : List BrokerAccount) :
      FlattenStep rt calendar ⟨P, fs ++ ⟨halt, call, some (account :: accounts)⟩ :: gs, done⟩
        (.returns ⟨halt, call.user, account.id⟩)
        ⟨P, fs ++ ⟨halt, call, some accounts⟩ :: gs, done ++ [⟨halt, call.user, account.id⟩]⟩
  /-- The adapter cannot be built, or `flatten_all` raises. -/
  | raises (P : Pool State) (fs gs : List FlattenRun) (done : List Flattened) (halt : HaltId) (call : FlattenCall)
      (account : BrokerAccount) (accounts : List BrokerAccount) :
      FlattenStep rt calendar ⟨P, fs ++ ⟨halt, call, some (account :: accounts)⟩ :: gs, done⟩ .flatten
        ⟨P, fs ++ ⟨halt, call, some accounts⟩ :: gs, done⟩
  /-- It ends, or its process does. -/
  | ends (P : Pool State) (fs gs : List FlattenRun) (done : List Flattened) (run : FlattenRun) :
      FlattenStep rt calendar ⟨P, fs ++ run :: gs, done⟩ .flatten ⟨P, fs ++ gs, done⟩

/-! ### When a flatten leaves no order behind -/

/-- The halt is one of the user, and is not released. -/
def HaltLasts (halt : HaltId) (user : UserId) (s : State) : Prop :=
  ∃ h ∈ s.halts, h.id = halt ∧ h.haltsUser user = true

/-- An order of the user is placed on the account. -/
def PlacesFor (user : UserId) (account : AccountId) (s t : State) : Prop :=
  ∃ call, t.placed = s.placed ++ [call] ∧ call.alert.user = user ∧ call.account.id = account

/-- While the halt lasts, an order of the user is not placed on the flattened account. -/
abbrev Flattened.shuts (f : Flattened) : State → State → Prop :=
  Shutting (HaltLasts f.halt f.user) (PlacesFor f.user f.account)

/-- Whenever `flatten_all` returns, no task that has asked the kill switch can still place an order of the user on
the account. -/
def NoneUnderWay (s : FlattenState) (a : FlattenAct) : Prop :=
  ∀ f, a = .returns f → ∀ p ∈ s.pool.programs,
    p.Behind (HaltLasts f.halt f.user) (PlacesFor f.user f.account) fun _ => True

theorem not_placesFor {user : UserId} {account : AccountId} {s t : State} (h : t.placed = s.placed) :
    ¬ PlacesFor user account s t := by
  rintro ⟨call, hcall, -⟩
  rw [h] at hcall
  simp at hcall

/-- A task that starts while a halt of the user lasts places no order of the user, as long as it does. -/
theorem AlertTask.behind {rt : Runtime} {p : Prog State PUnit} (h : AlertTask rt p) (halt : HaltId) (user : UserId)
    (account : AccountId) : p.Behind (HaltLasts halt user) (PlacesFor user account) fun _ => True := by
  cases h with
  | processAlert env alertId =>
    refine (processAlert_behind (R := fun _ _ => True) (C := fun alert => alert.user ≠ user)
      (fun _ _ => not_placesFor) ?_ (fun _ _ _ _ _ _ => trivial) ?_ ?_ alertId).bind fun _ _ => .ret trivial
    · intro s t hs _ hhalts
      unfold HaltLasts
      rw [hhalts]
      exact hs
    · rintro s alert ⟨h, hmem, -, hhalts⟩ hopen huser
      obtain ⟨-, hnot, -⟩ := isBlocked_eq_none.mp hopen h hmem
      rw [huser, hhalts] at hnot
      cases hnot
    · rintro alert account' s t - huser ⟨-, -, hplaced | ⟨call, hcall, -, hplaced⟩⟩
      · exact not_placesFor hplaced
      · rintro ⟨other, hother, hother_user, -⟩
        rw [hplaced, List.append_cancel_left_eq, List.singleton_inj] at hother
        exact huser (by rw [← hcall, hother, hother_user])

/-- Tasks change no halt. -/
theorem AlertTask.still {rt : Runtime} {p : Prog State PUnit} (h : AlertTask rt p) :
    p.Always fun s t => t.halts = s.halts := by
  cases h with
  | processAlert env alertId =>
    exact (processAlert_always (fun _ _ h => h.2.1) (fun _ _ _ _ h => h.2.1) alertId).bind fun _ => .ret _

/-! ### How halts change -/

section
variable {s : State} {calendar : Calendar} {halt : HaltId} {user : UserId}

/-- Rows of halts are not deleted. -/
theorem exists_engage {call : TriggerCall} {id : HaltId} {now : ℤ} {r : Triggered}
    (h : triggerHalt s.halts call id now = some r) (hmade : ∃ g ∈ s.halts, g.id = halt) :
    ∃ g ∈ r.halts, g.id = halt := by
  obtain ⟨g, hg, hid⟩ := hmade
  rcases triggerHalt_cases h with ⟨existing, -, -, rfl⟩ | ⟨-, -, rfl⟩
  · exact ⟨g, hg, hid⟩
  · exact ⟨g, List.mem_append_left _ hg, hid⟩

/-- The halt that is returned is in the table. -/
theorem exists_returned {call : TriggerCall} {id : HaltId} {now : ℤ} {r : Triggered}
    (h : triggerHalt s.halts call id now = some r) : ∃ g ∈ r.halts, g.id = r.halt.id := by
  rcases triggerHalt_cases h with ⟨existing, hmem, -, rfl⟩ | ⟨-, -, rfl⟩
  · exact ⟨existing, hmem, rfl⟩
  · exact ⟨_, List.mem_append_right _ (List.mem_singleton_self _), rfl⟩

/-- A halt that was made before lasts after another is engaged only if it did before. -/
theorem HaltLasts.of_engage {call : TriggerCall} {id : HaltId} {now : ℤ} {r : Triggered}
    (h : triggerHalt s.halts call id now = some r) (hmade : ∃ g ∈ s.halts, g.id = halt)
    (hlasts : HaltLasts halt user { s with halts := r.halts }) : HaltLasts halt user s := by
  obtain ⟨g, hg, hid⟩ := hmade
  obtain ⟨g', hg', hid', huser⟩ := hlasts
  rcases triggerHalt_cases h with ⟨existing, -, -, rfl⟩ | ⟨-, hfresh, rfl⟩
  · exact ⟨g', hg', hid', huser⟩
  · rcases List.mem_append.mp hg' with hg' | hg'
    · exact ⟨g', hg', hid', huser⟩
    · -- the new halt has a key of its own
      rw [List.mem_singleton.mp hg'] at hid'
      exact absurd (hid.trans hid'.symm) (hfresh g hg)

theorem exists_release {id : HaltId} {releasedBy : Option UserId} {now : ℕ → ℤ} (hmade : ∃ g ∈ s.halts, g.id = halt) :
    ∃ g ∈ (releaseHalt calendar s.halts id releasedBy now).1, g.id = halt := by
  unfold releaseHalt
  split
  · exact hmade
  · split_ifs
    · exact hmade
    · obtain ⟨g, hg, hid⟩ := hmade
      refine ⟨_, List.mem_map_of_mem hg, ?_⟩
      split_ifs <;> exact hid

/-- A halt that lasts after a release lasted before. -/
theorem HaltLasts.of_release {id : HaltId} {releasedBy : Option UserId} {now : ℕ → ℤ}
    (hlasts : HaltLasts halt user { s with halts := (releaseHalt calendar s.halts id releasedBy now).1 }) :
    HaltLasts halt user s := by
  obtain ⟨g, hg, hid, huser⟩ := hlasts
  unfold releaseHalt at hg
  dsimp only at hg
  split at hg
  · exact ⟨g, hg, hid, huser⟩
  · split_ifs at hg
    · exact ⟨g, hg, hid, huser⟩
    · obtain ⟨h, hh, rfl⟩ := List.mem_map.mp hg
      split_ifs at huser hid
      · simp [TradingHalt.haltsUser] at huser
      · exact ⟨h, hh, hid, huser⟩

end

/-! ### Every run -/

/-- What holds in every state of a run in which no task is under way when `flatten_all` returns. -/
structure Unbroken (s : FlattenState) : Prop where
  /-- The halt of a run of `flatten_user` has been made. -/
  called : ∀ run ∈ s.flattens, ∃ h ∈ s.pool.state.halts, h.id = run.halt
  /-- And so has that of a flattened account. -/
  made : ∀ f ∈ s.flattened, ∃ h ∈ s.pool.state.halts, h.id = f.halt
  /-- Tasks change no halt. -/
  still : ∀ p ∈ s.pool.programs, p.Always fun s t => t.halts = s.halts
  /-- While it lasts, no task can place an order on the account. -/
  kept : ∀ f ∈ s.flattened, HaltLasts f.halt f.user s.pool.state →
    ∀ p ∈ s.pool.programs, GuaranteesAt f.shuts s.pool.state p

/-- The halts change, and no other halt lasts. -/
theorem Unbroken.halts {s : State} {ps : List (Prog State PUnit)} {fs : List FlattenRun} {done : List Flattened}
    (hs : Unbroken ⟨⟨s, ps⟩, fs, done⟩) {halts : List TradingHalt}
    (hmade : ∀ id, (∃ h ∈ s.halts, h.id = id) → ∃ h ∈ halts, h.id = id)
    (hlasts : ∀ id user, (∃ h ∈ s.halts, h.id = id) → HaltLasts id user { s with halts } → HaltLasts id user s) :
    Unbroken ⟨⟨{ s with halts }, ps⟩, fs, done⟩ where
  called run hrun := hmade _ (hs.called run hrun)
  made f hf := hmade _ (hs.made f hf)
  still := hs.still
  kept f hf hlast p hp :=
    (hs.kept f hf (hlasts _ _ (hs.made f hf) hlast) p hp).stable ⟨not_placesFor rfl, fun _ => hlast⟩

/-- `flatten_user` goes on, and no account is flattened. -/
theorem Unbroken.flattens {P : Pool State} {fs gs : List FlattenRun} {done : List Flattened}
    (hs : Unbroken ⟨P, fs, done⟩) (hgs : ∀ run ∈ gs, ∃ h ∈ P.state.halts, h.id = run.halt) :
    Unbroken ⟨P, gs, done⟩ :=
  ⟨hgs, hs.made, hs.still, hs.kept⟩

/-- The runs of `flatten_user` after one of them has gone on, or ended. -/
theorem Unbroken.replaced {P : Pool State} {fs gs : List FlattenRun} {done : List Flattened} {run : FlattenRun}
    (hs : Unbroken ⟨P, fs ++ run :: gs, done⟩) (runs : List FlattenRun) (hruns : ∀ r ∈ runs, r.halt = run.halt) :
    ∀ r ∈ fs ++ (runs ++ gs), ∃ h ∈ P.state.halts, h.id = r.halt := by
  intro r hr
  rcases List.mem_append.mp hr with hr | hr
  · exact hs.called r (List.mem_append_left _ hr)
  · rcases List.mem_append.mp hr with hr | hr
    · rw [hruns r hr]
      exact hs.called run (List.mem_append_right _ List.mem_cons_self)
    · exact hs.called r (List.mem_append_right _ (List.mem_cons_of_mem _ hr))

/-- A task goes on, or what is beside the tasks. -/
theorem Unbroken.task {rt : Runtime} {P Q : Pool State} {fs : List FlattenRun} {done : List Flattened} {a : PoolAct}
    (hs : Unbroken ⟨P, fs, done⟩) (h : PoolStep (AlertTask rt) KeepsHalts P a Q) :
    Unbroken ⟨Q, fs, done⟩ ∧ ∀ f ∈ done, HaltLasts f.halt f.user P.state →
      ¬ PlacesFor f.user f.account P.state Q.state := by
  have henv : ∀ f : Flattened, ∀ s t, KeepsHalts s t → f.shuts s t := by
    intro f s t he
    refine ⟨not_placesFor he.1, fun hlast => ?_⟩
    unfold HaltLasts
    rw [he.2]
    exact hlast
  have hstep : ∀ f ∈ done, HaltLasts f.halt f.user P.state →
      (HaltLasts f.halt f.user Q.state ∧ ∀ p ∈ Q.programs, GuaranteesAt f.shuts Q.state p) ∧
        ¬ PlacesFor f.user f.account P.state Q.state := fun f hf hlast =>
    h.behind (fun s => not_placesFor rfl) (fun p hp => hp.behind f.halt f.user f.account) (henv f) hlast
      (hs.kept f hf hlast)
  obtain ⟨hstill, hchange⟩ := h.always (R := fun s t => t.halts = s.halts) (fun p hp => hp.still)
    (fun _ _ he => he.2) hs.still
  have hhalts : Q.state.halts = P.state.halts := by
    rcases hchange with hsame | heq
    · exact hsame
    · rw [heq]
  refine ⟨⟨fun run hrun => ?_, fun f hf => ?_, hstill, fun f hf hlast => ?_⟩, fun f hf hlast => (hstep f hf hlast).2⟩
  · rw [hhalts]
    exact hs.called run hrun
  · rw [hhalts]
    exact hs.made f hf
  · unfold HaltLasts at hlast
    rw [hhalts] at hlast
    exact (hstep f hf hlast).1.2

/-- `flatten_all` has returned on an account, and no task under way can still place an order on it. -/
theorem Unbroken.returns {P : Pool State} {fs gs : List FlattenRun} {done : List Flattened} {f : Flattened}
    (hs : Unbroken ⟨P, fs, done⟩) (hgs : ∀ run ∈ gs, ∃ h ∈ P.state.halts, h.id = run.halt)
    (hmade : ∃ h ∈ P.state.halts, h.id = f.halt)
    (hkept : HaltLasts f.halt f.user P.state → ∀ p ∈ P.programs, GuaranteesAt f.shuts P.state p) :
    Unbroken ⟨P, gs, done ++ [f]⟩ := by
  refine ⟨hgs, fun g hg => ?_, hs.still, fun g hg hlast => ?_⟩
  · rcases List.mem_append.mp hg with hg | hg
    · exact hs.made g hg
    · rw [List.mem_singleton.mp hg]
      exact hmade
  · rcases List.mem_append.mp hg with hg | hg
    · exact hs.kept g hg hlast
    · rw [List.mem_singleton.mp hg] at hlast ⊢
      exact hkept hlast

/-- One step of such a run. -/
theorem FlattenStep.unbroken {rt : Runtime} {calendar : Calendar} {s t : FlattenState} {a : FlattenAct}
    (h : FlattenStep rt calendar s a t) (ha : NoneUnderWay s a) (hs : Unbroken s) :
    Unbroken t ∧ ∀ f ∈ s.flattened, HaltLasts f.halt f.user s.pool.state →
      ¬ PlacesFor f.user f.account s.pool.state t.pool.state := by
  cases h with
  | task fs done h => exact hs.task h
  | engage ps fs done h =>
    refine ⟨?_, fun f _ _ => not_placesFor rfl⟩
    have hunbroken := hs.halts (fun id hid => exists_engage h hid) fun id user hid hlast => hlast.of_engage h hid
    refine hunbroken.flattens fun run hrun => ?_
    rcases List.mem_append.mp hrun with hrun | hrun
    · exact hunbroken.called run hrun
    · obtain ⟨call, -, rfl⟩ := Option.map_eq_some_iff.mp (Option.mem_toList.mp hrun)
      exact exists_returned h
  | release s ps fs done id releasedBy now =>
    exact ⟨hs.halts (fun id hid => exists_release hid) fun id user _ hlast => hlast.of_release,
      fun f _ _ => not_placesFor rfl⟩
  | load P fs gs done halt call =>
    refine ⟨hs.flattens ?_, fun f _ _ => not_placesFor rfl⟩
    exact hs.replaced [⟨halt, call, some (connectedAccounts P.state.accounts call.user)⟩] (by simp)
  | returns P fs gs done halt call account accounts =>
    refine ⟨hs.returns (hs.replaced [⟨halt, call, some accounts⟩] (by simp)) ?_ fun hlast p hp => ?_,
      fun f _ _ => not_placesFor rfl⟩
    · exact hs.called ⟨halt, call, some (account :: accounts)⟩ (List.mem_append_right _ List.mem_cons_self)
    · exact (ha _ rfl p hp).guaranteesAt hlast
  | raises P fs gs done halt call account accounts =>
    refine ⟨hs.flattens ?_, fun f _ _ => not_placesFor rfl⟩
    exact hs.replaced [⟨halt, call, some accounts⟩] (by simp)
  | ends P fs gs done run =>
    refine ⟨hs.flattens ?_, fun f _ _ => not_placesFor rfl⟩
    exact hs.replaced [] (by simp)

/-- **A flatten leaves no order behind**, if no alert that has asked the kill switch is under way when it returns: as
long as the halt lasts, no order of the user is placed on the account. -/
theorem flatten_leaves_none {rt : Runtime} {calendar : Calendar} {s : State} {P Q : FlattenState} {a : FlattenAct}
    (hrun : Run (FlattenStep rt calendar) NoneUnderWay { pool := ⟨s, []⟩ } P) (hstep : FlattenStep rt calendar P a Q)
    (hlast : NoneUnderWay P a) {f : Flattened} (hf : f ∈ P.flattened)
    (hlasts : HaltLasts f.halt f.user P.pool.state) :
    ¬ ∃ call, Q.pool.state.placed = P.pool.state.placed ++ [call] ∧ call.alert.user = f.user ∧
      call.account.id = f.account := by
  have hstart : Unbroken { pool := ⟨s, []⟩ } :=
    ⟨fun _ h => absurd h List.not_mem_nil, fun _ h => absurd h List.not_mem_nil,
      fun _ h => absurd h List.not_mem_nil, fun _ h => absurd h List.not_mem_nil⟩
  have hunbroken : Unbroken P := hrun.invariant Unbroken hstart fun h ha hs => (h.unbroken ha hs).1
  exact (hstep.unbroken hlast hunbroken).2 f hf hlasts

/-! ### Two runs -/

/-- The first alert is processed. -/
def alertTask : Prog State PUnit := processAlert sampleRuntime sampleWorkerEnv "a1" >>= fun _ => pure ⟨⟩

/-- The user's halt. -/
def userHalt : TradingHalt := (userActivation "u").newHalt "h1" 0

/-- The user is halted. -/
def haltedState (s : State) : State := { s with halts := [userHalt] }

/-- The user's account is flattened. -/
def userFlattened : Flattened := ⟨"h1", "u", "acct"⟩

/-- The steps of the sample. -/
abbrev SampleStep := FlattenStep sampleRuntime newYork2026

/-- The halt is engaged, and the account is flattened. -/
theorem flatten_run {C : FlattenState → FlattenAct → Prop} {s : State} {ps : List (Prog State PUnit)}
    (hhalts : s.halts = []) (haccounts : s.accounts = sampleState.accounts)
    (hC : ∀ s a, s.pool.programs = ps → C s a) :
    Run SampleStep C { pool := ⟨s, ps⟩ }
      ⟨⟨haltedState s, ps⟩, [⟨"h1", ⟨"u", .user, none⟩, some []⟩], [userFlattened]⟩ := by
  have htrigger : triggerHalt s.halts (userActivation "u") "h1" 0 =
      some ⟨userHalt, [userHalt], some ⟨"u", .user, none⟩⟩ := by
    rw [hhalts]
    rfl
  have hloaded : connectedAccounts s.accounts "u" = sampleState.accounts := by
    rw [haccounts]
    decide
  have hload : SampleStep ⟨⟨haltedState s, ps⟩, [⟨"h1", ⟨"u", .user, none⟩, none⟩], []⟩ .flatten
      ⟨⟨haltedState s, ps⟩, [⟨"h1", ⟨"u", .user, none⟩, some sampleState.accounts⟩], []⟩ :=
    hloaded ▸ .load ⟨haltedState s, ps⟩ [] [] [] "h1" ⟨"u", .user, none⟩
  exact (((Run.refl _).step (.engage ps [] [] htrigger) (hC _ _ rfl)).step hload (hC _ _ rfl)).step
    (.returns ⟨haltedState s, ps⟩ [] [] [] "h1" ⟨"u", .user, none⟩ _ []) (hC _ _ rfl)

/-- Tasks go on beside `flatten_user`. -/
theorem flattenRun_tasks {C : FlattenState → FlattenAct → Prop} {P Q : Pool State} (fs : List FlattenRun)
    (done : List Flattened) (hC : ∀ s, C s .task) (h : Run (PoolStep (AlertTask sampleRuntime) KeepsHalts) AnyStep P Q) :
    Run SampleStep C ⟨P, fs, done⟩ ⟨Q, fs, done⟩ := by
  induction h with
  | refl => exact Run.refl _
  | step _ hs _ ih => exact ih.step (.task fs done hs) (hC _)

/-- The task is started, and does its first actions. -/
theorem alertTask_moves (n : ℕ) (s : State) :
    Run (PoolStep (AlertTask sampleRuntime) KeepsHalts) AnyStep ⟨s, []⟩
      ⟨alertTask.runFor n s, [alertTask.restFor n s]⟩ :=
  (Run.single (.start s [] (.processAlert sampleWorkerEnv "a1")) trivial).trans (run_moves n alertTask s [] [])

/-- An alert that is processed after the flatten places nothing, as its fourth action neither. -/
theorem flatten_leaves_none_after :
    ¬ ∃ call, (alertTask.runFor 4 (haltedState sampleState)).placed =
        (alertTask.runFor 3 (haltedState sampleState)).placed ++ [call] ∧
      call.alert.user = "u" ∧ call.account.id = "acct" := by
  have htask : ∀ s, NoneUnderWay s .task := by
    intro s f h
    cases h
  have hflatten : Run SampleStep NoneUnderWay { pool := ⟨sampleState, []⟩ }
      ⟨⟨haltedState sampleState, []⟩, [⟨"h1", ⟨"u", .user, none⟩, some []⟩], [userFlattened]⟩ := by
    refine flatten_run rfl rfl fun s a hs f _ p hp => ?_
    rw [hs] at hp
    exact absurd hp List.not_mem_nil
  have hrun := hflatten.trans (flattenRun_tasks _ _ htask (alertTask_moves 3 (haltedState sampleState)))
  have hlasts : HaltLasts "h1" "u" (alertTask.runFor 3 (haltedState sampleState)) :=
    ⟨userHalt, by decide +kernel, rfl, by decide⟩
  rcases alertTask.runFor_succ 3 (haltedState sampleState) with ⟨upd, next, hrest, hfour⟩ | hfour
  · rw [hrest] at hrun
    rw [hfour]
    exact flatten_leaves_none hrun (.task _ _ (.move _ [] [] upd next)) (htask _) (f := userFlattened)
      List.mem_cons_self hlasts
  · rw [hfour]
    rintro ⟨call, hcall, -⟩
    simp at hcall

/-- The call that the task makes as its seventh action. -/
def alertCall : PlaceCall where
  clientOrderId := "stp-ed1c5fb31de7acab679ea707ff093f8b"
  alert := sampleAlert "a1" "k"
  account := ⟨"acct", "u", "ALPACA", .paper, true, .connected, 0⟩
  request := ⟨"AAPL", .buy, 10, .mkt, none, none, .day, .stock, none, none⟩

/-- The task when it is about to place the order. -/
def aboutToPlace : Prog State PUnit := alertTask.restFor 6 sampleState

/-- The order is created, and then the user is halted. -/
def racedHalt : State := haltedState (alertTask.runFor 6 sampleState)

/-- **An order is placed after the flatten**: an alert has asked the kill switch and created its order; the user is
halted and the account flattened; and the alert's order is placed on it, while the halt lasts. -/
theorem not_flatten_leaves_none :
    ∃ P Q : FlattenState, Run SampleStep AnyStep { pool := ⟨sampleState, []⟩ } P ∧ SampleStep P .task Q ∧
      userFlattened ∈ P.flattened ∧ HaltLasts userFlattened.halt userFlattened.user P.pool.state ∧
      Q.pool.state.placed = P.pool.state.placed ++ [alertCall] ∧ alertCall.alert.user = userFlattened.user ∧
      alertCall.account.id = userFlattened.account := by
  have halert : Run SampleStep AnyStep { pool := ⟨sampleState, []⟩ }
      { pool := ⟨alertTask.runFor 6 sampleState, [aboutToPlace]⟩ } :=
    flattenRun_tasks [] [] (fun _ => trivial) (alertTask_moves 6 sampleState)
  have hflatten : Run SampleStep AnyStep { pool := ⟨alertTask.runFor 6 sampleState, [aboutToPlace]⟩ }
      ⟨⟨racedHalt, [aboutToPlace]⟩, [⟨"h1", ⟨"u", .user, none⟩, some []⟩], [userFlattened]⟩ :=
    flatten_run (by decide +kernel) (by decide +kernel) fun _ _ _ => trivial
  have hplaced : (aboutToPlace.runFor 1 racedHalt).placed = racedHalt.placed ++ [alertCall] := by decide +kernel
  have hlasts : HaltLasts "h1" "u" racedHalt := ⟨userHalt, List.mem_cons_self, rfl, by decide⟩
  rcases aboutToPlace.runFor_succ 0 racedHalt with ⟨upd, next, hrest, hone⟩ | hone
  · have hmove : PoolStep (AlertTask sampleRuntime) KeepsHalts ⟨racedHalt, [aboutToPlace]⟩ .move
        ⟨aboutToPlace.runFor 1 racedHalt, [next racedHalt]⟩ := by
      rw [show aboutToPlace = .act upd next from hrest]
      exact .move racedHalt [] [] upd next
    exact ⟨_, _, halert.trans hflatten, .task _ _ hmove, List.mem_cons_self, hlasts, hplaced, rfl, rfl⟩
  · rw [hone] at hplaced
    simp [Prog.runFor] at hplaced

end StratTrader.Webhooks
