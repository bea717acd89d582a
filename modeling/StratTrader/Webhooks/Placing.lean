import StratTrader.Foundation.Gates
import StratTrader.Webhooks.Effects

/-!
# Where orders are placed

A run of `process_alert` looks up the account first, asks the kill switch then, and places the
order last, on the account that was looked up. So what is found out at one of the two
questions holds of the order, and of nothing that changes in between.

## What is proved

* `submit_placesOn`: a run that goes on with an account places an order for its alert, on that account,
  or none, and changes neither accounts nor halts.
* `processAlert_behind`: if the two questions are answered so that no order comes of it, in
  every state that is shut, a run that starts in such a state places none while it stays shut.
-/

namespace StratTrader.Webhooks

open StratTrader.Brokers StratTrader.Foundation StratTrader.Orders StratTrader.Risk

/-! ### One order -/

/-- The accounts and the halts stay, and no order is placed. -/
def Untouched (s t : State) : Prop := t.accounts = s.accounts ∧ t.halts = s.halts ∧ t.placed = s.placed

/-- The accounts and the halts stay, and no order is placed but for the alert, on the account. -/
def PlacesOn (alert : AlertMessage) (account : BrokerAccount) (s t : State) : Prop :=
  t.accounts = s.accounts ∧ t.halts = s.halts ∧
    (t.placed = s.placed ∨ ∃ call, call.alert = alert ∧ call.account = account ∧ t.placed = s.placed ++ [call])

theorem framed_untouched : Framed Untouched :=
  ⟨fun _ => ⟨rfl, rfl, rfl⟩, fun _ _ _ => ⟨rfl, rfl, rfl⟩, fun _ _ _ => ⟨rfl, rfl, rfl⟩⟩

theorem Untouched.placesOn {alert : AlertMessage} {account : BrokerAccount} {s t : State} (h : Untouched s t) :
    PlacesOn alert account s t := ⟨h.1, h.2.1, .inl h.2.2⟩

theorem framed_placesOn (alert : AlertMessage) (account : BrokerAccount) : Framed (PlacesOn alert account) :=
  ⟨fun s => (framed_untouched.refl s).placesOn, fun s id f => (framed_untouched.setAlert s id f).placesOn,
    fun s k f => (framed_untouched.setOrder s k f).placesOn⟩

section
variable {rt : Runtime} (env : WorkerEnv) (alert : AlertMessage) (account : BrokerAccount)

theorem place_placesOn (adapter : Adapter) (clientOrderId : String) (request : OrderRequest) :
    (place env adapter ⟨clientOrderId, alert, account, request⟩).Always (PlacesOn alert account) := by
  have hR := framed_placesOn alert account
  refine place_ways (P := fun p => p.Always (PlacesOn alert account))
    (Q := fun p => p.Always (PlacesOn alert account)) ?_ ?_ ?_ ?_
  · intro ack
    exact hR.recordAck env _ _ ack
  · intro reason
    exact hR.needsReconcile env _ _ reason
  · intro reason
    exact hR.reject env _ _ reason
  · intro next hnext
    exact Prog.Always.bind (Prog.Always.atomic fun s => ⟨rfl, rfl, .inr ⟨_, rfl, rfl, rfl⟩⟩) hnext

/-- **A run that goes on with an account places one order on it, for its alert, or none.** -/
theorem submit_placesOn : (submit rt env alert account).Always (PlacesOn alert account) := by
  have hR := framed_placesOn alert account
  refine submit_ways (P := fun p => p.Always (PlacesOn alert account)) (.ret none) ?_ ?_ rfl ?_ ?_
  · intro reason
    exact hR.reject env _ _ reason
  · intro f next hnext
    exact (hR.updateOrder env _ f).bind hnext
  · intro next hnext
    exact Prog.Always.bind (hR.read _) hnext
  · intro adapter request _
    exact place_placesOn env alert account adapter _ request

theorem getOrCreate_untouched (order : Order) : (getOrCreate env order).Always Untouched := by
  apply Prog.Always.atomic
  intro s
  split_ifs
  · exact ⟨rfl, rfl, rfl⟩
  · exact framed_untouched.refl s

end

/-! ### The account -/

theorem mem_of_earliest {accounts : List BrokerAccount} {account : BrokerAccount}
    (h : earliest accounts = some account) : account ∈ accounts := by
  induction accounts with
  | nil => cases h
  | cons a rest ih =>
    rw [earliest] at h
    cases hrest : earliest rest with
    | none =>
      rw [hrest] at h
      exact Option.some.inj h ▸ List.mem_cons_self
    | some other =>
      rw [hrest] at h
      dsimp only at h
      split_ifs at h
      · exact List.mem_cons_of_mem _ (ih (hrest.trans h))
      · exact Option.some.inj h ▸ List.mem_cons_self

/-- The default account is one of the user's. -/
theorem mem_of_defaultAccount {accounts : List BrokerAccount} {user : UserId} {account : BrokerAccount}
    (h : defaultAccount accounts user = some account) : account ∈ accounts ∧ account.user = user := by
  have hmem : account ∈ accounts.filter fun a => decide (a.user = user) := by
    rcases Option.or_eq_some_iff.mp h with hfind | ⟨-, hearliest⟩
    · exact List.mem_of_find?_eq_some hfind
    · exact mem_of_earliest hearliest
  simpa using hmem

/-- So is the account at a broker. -/
theorem mem_of_accountAt {accounts : List BrokerAccount} {user : UserId} {broker : String}
    {account : BrokerAccount} (h : accountAt accounts user broker = some account) :
    account ∈ accounts ∧ account.user = user := by
  have hmem : account ∈ accounts.filter fun a => decide (a.user = user) && decide (a.broker = broker) := by
    rcases Option.or_eq_some_iff.mp h with hdefault | ⟨-, hearliest⟩
    · exact List.mem_of_mem_filter (mem_of_earliest hdefault)
    · exact mem_of_earliest hearliest
  have hall := List.mem_filter.mp hmem
  simp only [Bool.and_eq_true, decide_eq_true_eq] at hall
  exact ⟨hall.1, hall.2.1⟩

/-! ### What is asked before -/

section
variable {rt : Runtime} {env : WorkerEnv} {shut : State → Prop} {use : State → State → Prop}

/-- An alert is routed to one of its user's accounts, as they are while the state is shut. -/
theorem route_behind {R : BrokerAccount → Prop} (huse : ∀ s, ¬ use s s) (alert : AlertMessage)
    (hroute : ∀ s account, shut s → account ∈ s.accounts → account.user = alert.user → R account) :
    (route rt alert).Behind shut use fun routed => ∀ account, routed = .ok account → R account := by
  have hdefault : (Prog.read fun s : State => defaultAccount s.accounts alert.user).Behind shut use
      fun found => ∀ account, found = some account → R account := by
    apply Prog.Behind.read huse
    intro s hs account haccount
    obtain ⟨hmem, huser⟩ := mem_of_defaultAccount haccount
    exact hroute s account hs hmem huser
  have hat : ∀ broker, (Prog.read fun s : State => accountAt s.accounts alert.user broker).Behind shut use
      fun found => ∀ account, found = some account → R account := by
    intro broker
    apply Prog.Behind.read huse
    intro s hs account haccount
    obtain ⟨hmem, huser⟩ := mem_of_accountAt haccount
    exact hroute s account hs hmem huser
  have hsome : ∀ account, R account → (pure (.ok account) : Prog State (Except String BrokerAccount)).Behind
      shut use fun routed => ∀ account, routed = .ok account → R account := by
    intro account haccount
    refine .ret fun a ha => ?_
    rwa [← Except.ok.inj ha]
  have hnone : ∀ reason, (pure (.error reason) : Prog State (Except String BrokerAccount)).Behind
      shut use fun routed => ∀ account, routed = .ok account → R account := by
    intro reason
    refine .ret fun a ha => ?_
    cases ha
  refine hdefault.bind fun account haccount => ?_
  dsimp only
  generalize strip (rt.upper (alert.bodyJson.getStr "broker" (.string ""))) = broker
  split_ifs
  · refine (hat _).bind fun override hoverride => ?_
    cases override with
    | some account => exact hsome account (hoverride account rfl)
    | none => exact hnone _
  · cases account with
    | some account => exact hsome account (haccount account rfl)
    | none => exact hnone _

/-- Accounts and halts stay as they are when an alert is processed. -/
theorem processAlert_always {Q : State → State → Prop} (huntouched : ∀ s t, Untouched s t → Q s t)
    (hplace : ∀ alert account s t, PlacesOn alert account s t → Q s t) (alertId : AlertId) :
    (processAlert rt env alertId).Always Q := by
  have hQ : Framed Q := ⟨fun s => huntouched s s ⟨rfl, rfl, rfl⟩, fun s _ _ => huntouched s _ ⟨rfl, rfl, rfl⟩,
    fun s _ _ => huntouched s _ ⟨rfl, rfl, rfl⟩⟩
  refine Prog.Always.bind (hQ.read _) fun loaded => ?_
  rcases loaded with _ | ⟨alert, strategy⟩
  · exact .ret _
  dsimp only
  split_ifs
  · exact .ret _
  · exact hQ.rejectAlert env _ _
  · refine Prog.Always.bind (hQ.route alert) fun routed => ?_
    rcases routed with reason | account
    · exact hQ.rejectAlert env _ _
    refine Prog.Always.bind (hQ.read _) fun blocked => ?_
    rcases blocked with _ | reason
    · refine Prog.Always.bind ((getOrCreate_untouched env _).mono huntouched) fun created => ?_
      rcases created with _ | _ | _
      · exact .ret _
      · exact .ret _
      · exact (submit_placesOn env alert account).mono (hplace alert account)
    · exact hQ.rejectAlert env _ _

/-- **Two questions before an order**: the account is looked up, and the kill switch asked, before anything is
placed. If in every shut state the answers are `R` and `C`, and what they let pass is no use, a
run of `process_alert` that starts in a shut state makes no use of it. -/
theorem processAlert_behind {R : AlertMessage → BrokerAccount → Prop} {C : AlertMessage → Prop}
    (hquiet : ∀ s t, t.placed = s.placed → ¬ use s t)
    (hkeep : ∀ s t, shut s → t.accounts = s.accounts → t.halts = s.halts → shut t)
    (hroute : ∀ s alert account, shut s → account ∈ s.accounts → account.user = alert.user → R alert account)
    (hcheck : ∀ s alert, shut s → isBlocked s.halts alert.user alert.strategy = none → C alert)
    (hplace : ∀ alert account s t, R alert account → C alert → PlacesOn alert account s t → ¬ use s t)
    (alertId : AlertId) : (processAlert rt env alertId).Behind shut use fun _ => True := by
  have huse : ∀ s, ¬ use s s := fun s => hquiet s s rfl
  have huntouched : ∀ s t, shut s → Untouched s t → ¬ use s t ∧ shut t :=
    fun s t hs h => ⟨hquiet s t h.2.2, hkeep s t hs h.1 h.2.1⟩
  have hreject : ∀ id reason, (rejectAlert env id reason).Behind shut use fun _ => True :=
    fun id reason => (framed_untouched.rejectAlert env id reason).behind huntouched
  refine (Prog.Behind.read (Q := fun _ => True) huse fun _ _ => trivial).bind fun loaded _ => ?_
  rcases loaded with _ | ⟨alert, strategy⟩
  · exact .ret trivial
  dsimp only
  split_ifs
  · exact .ret trivial
  · exact hreject _ _
  · refine (route_behind (R := R alert) huse alert fun s a hs => hroute s alert a hs).bind fun routed hrouted => ?_
    rcases routed with reason | account
    · exact hreject _ _
    refine (Prog.Behind.read (Q := fun blocked => blocked = none → C alert) huse fun s hs =>
      hcheck s alert hs).bind fun blocked hblocked => ?_
    rcases blocked with _ | reason
    · refine ((getOrCreate_untouched env _).behind huntouched).bind fun created _ => ?_
      rcases created with _ | _ | _
      · exact .ret trivial
      · exact .ret trivial
      · exact (submit_placesOn env alert account).behind fun s t hs h =>
          ⟨hplace alert account s t (hrouted account rfl) (hblocked rfl) h, hkeep s t hs h.1 h.2.1⟩
    · exact hreject _ _

end

end StratTrader.Webhooks
