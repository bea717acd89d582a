import StratTrader.Brokers.Models
import StratTrader.Foundation.Runs
import StratTrader.Foundation.Table

/-!
# Who is streamed

`StreamSupervisor` of `brokers/streams.py`: a thread for each account whose fills are to be
streamed. Every round the accounts are loaded, threads of accounts that are gone and dead
threads are dropped, and missing threads are started. A thread keeps the account as it was
loaded when the thread was started, and the endpoint of its stream follows that account's
mode. But only accounts in mode `PAPER` are loaded.

## What is proved

* `reconcileThreads_apply`: the thread of an account after a round.
* `streamed_iff`: after a round, in every state that rounds and deaths of threads lead to,
  every account at `ALPACA` that is not in status `ERROR` has a thread that is alive and
  bound to the endpoint of the account's mode, exactly if none of these accounts is `LIVE`.

## Honest scope

What a thread does, its heartbeat and its backoff are left out. The events that stop a
thread have the keys of the threads, and are left out too.
-/

namespace StratTrader.Brokers

open StratTrader.Foundation

/-! ### Threads -/

/-- The endpoint of a stream. -/
inductive Endpoint where
  /-- `paper=True`. -/
  | paper
  /-- `paper=False`. -/
  | live
  deriving DecidableEq

/-- `BrokerContext.is_paper`. -/
def Mode.isPaper (mode : Mode) : Bool := decide (mode ≠ .live)

/-- The endpoint of a client or a stream that is built for a mode. -/
def endpointOf (mode : Mode) : Endpoint := if mode.isPaper then .paper else .live

/-- A thread of `_run_account`. -/
structure StreamThread where
  /-- The account it was started for, as it was then. -/
  account : BrokerAccount
  /-- `is_alive`. -/
  isAlive : Bool := true
  deriving DecidableEq

/-- The endpoint of `AlpacaStream`, in the context of the account. -/
def StreamThread.endpoint (thread : StreamThread) : Endpoint := endpointOf thread.account.mode

/-- `_threads`. -/
abbrev Threads := AccountId → Option StreamThread

/-- `load_active_accounts`. -/
def loadActiveAccounts (rows : Table BrokerAccount.id) : List BrokerAccount :=
  rows.rows.filter fun a => decide (a.broker = "ALPACA") && decide (a.mode = .paper) && decide (a.status ≠ .error)

/-- `_start_thread`. -/
def startThread (threads : Threads) (account : BrokerAccount) : Threads :=
  Function.update threads account.id (some { account })

/-- Drop the threads of accounts that are gone, and the dead ones. -/
def pruneThreads (threads : Threads) (accounts : List BrokerAccount) : Threads := fun id =>
  (threads id).filter fun thread => accounts.any (fun a => decide (a.id = id)) && thread.isAlive

/-- `_reconcile_threads`. -/
def reconcileThreads (threads : Threads) (accounts : List BrokerAccount) : Threads :=
  accounts.foldl (fun threads a => if (threads a.id).isNone then startThread threads a else threads)
    (pruneThreads threads accounts)

/-! ### A round -/

section
variable {threads : Threads} {accounts : List BrokerAccount} {id : AccountId}

theorem foldl_startThread (threads : Threads) (accounts : List BrokerAccount) (id : AccountId) :
    accounts.foldl (fun threads a => if (threads a.id).isNone then startThread threads a else threads) threads id =
      (threads id).or ((accounts.find? fun a => decide (a.id = id)).map fun account => { account }) := by
  induction accounts generalizing threads with
  | nil => simp
  | cons a accounts ih =>
    rw [List.foldl_cons, ih, List.find?_cons]
    by_cases hid : a.id = id
    · subst hid
      cases hthread : threads a.id with
      | none => simp [startThread]
      | some thread => simp [hthread]
    · rw [decide_eq_false hid]
      have hkept : (if (threads a.id).isNone then startThread threads a else threads) id = threads id := by
        split_ifs
        · exact Function.update_of_ne (Ne.symm hid) _ _
        · rfl
      rw [hkept]

/-- A thread that is alive is kept as long as its account is loaded, and one that is missing is started. -/
theorem reconcileThreads_apply (threads : Threads) (accounts : List BrokerAccount) (id : AccountId) :
    reconcileThreads threads accounts id =
      (pruneThreads threads accounts id).or
        ((accounts.find? fun a => decide (a.id = id)).map fun account => { account }) :=
  foldl_startThread _ _ _

/-- A thread after a round is alive, and of an account that is loaded. -/
theorem of_reconcileThreads {thread : StreamThread} (h : reconcileThreads threads accounts id = some thread) :
    thread.isAlive = true ∧ (∃ a ∈ accounts, a.id = id) ∧
      (threads id = some thread ∨ (thread.account ∈ accounts ∧ thread.account.id = id)) := by
  rw [reconcileThreads_apply, Option.or_eq_some_iff] at h
  rcases h with hkept | ⟨-, hnew⟩
  · obtain ⟨hthread, hok⟩ := Option.filter_eq_some_iff.mp hkept
    obtain ⟨hany, halive⟩ := Bool.and_eq_true_iff.mp hok
    obtain ⟨a, ha, hid⟩ := List.any_eq_true.mp hany
    exact ⟨halive, ⟨a, ha, of_decide_eq_true hid⟩, .inl hthread⟩
  · obtain ⟨a, hfind, rfl⟩ := Option.map_eq_some_iff.mp hnew
    have hmem := List.mem_of_find?_eq_some hfind
    have hid : a.id = id := by simpa using List.find?_some hfind
    exact ⟨rfl, ⟨a, hmem, hid⟩, .inr ⟨hmem, hid⟩⟩

/-- Every account that is loaded has a thread after a round. -/
theorem isSome_reconcileThreads (threads : Threads) {a : BrokerAccount} (h : a ∈ accounts) :
    (reconcileThreads threads accounts a.id).isSome = true := by
  have hfind : (accounts.find? fun b => decide (b.id = a.id)).isSome = true :=
    List.find?_isSome.mpr ⟨a, h, decide_eq_true rfl⟩
  rw [reconcileThreads_apply, Option.isSome_or, Option.isSome_map, hfind, Bool.or_true]

theorem mem_loadActiveAccounts {rows : Table BrokerAccount.id} {a : BrokerAccount} :
    a ∈ loadActiveAccounts rows ↔ a ∈ rows.rows ∧ a.broker = "ALPACA" ∧ a.mode = .paper ∧ a.status ≠ .error := by
  simp [loadActiveAccounts, and_assoc]

end

/-! ### Rounds -/

/-- What happens to the threads. -/
inductive SupervisorAct where
  /-- A round, with what is in the table. -/
  | round (rows : Table BrokerAccount.id)
  /-- A thread dies. -/
  | die (id : AccountId)

/-- A step of the supervisor. -/
inductive SupervisorStep : Threads → SupervisorAct → Threads → Prop where
  /-- A round. -/
  | round (threads : Threads) (rows : Table BrokerAccount.id) :
      SupervisorStep threads (.round rows) (reconcileThreads threads (loadActiveAccounts rows))
  /-- A thread dies. -/
  | die (threads : Threads) (id : AccountId) :
      SupervisorStep threads (.die id)
        (Function.update threads id ((threads id).map fun thread => { thread with isAlive := false }))

/-- Every thread is bound to the endpoint of paper trading. -/
def AllPaper (threads : Threads) : Prop := ∀ id thread, threads id = some thread → thread.account.mode = .paper

theorem AllPaper.step {threads threads' : Threads} {a : SupervisorAct} (hs : AllPaper threads)
    (h : SupervisorStep threads a threads') : AllPaper threads' := by
  cases h with
  | round rows =>
    intro id thread hthread
    rcases (of_reconcileThreads hthread).2.2 with hold | ⟨hnew, -⟩
    · exact hs id thread hold
    · exact (mem_loadActiveAccounts.mp hnew).2.2.1
  | die dead =>
    intro id thread hthread
    by_cases hid : id = dead
    · subst hid
      rw [Function.update_self] at hthread
      obtain ⟨old, hold, rfl⟩ := Option.map_eq_some_iff.mp hthread
      exact hs id old hold
    · rw [Function.update_of_ne hid] at hthread
      exact hs id thread hthread

/-- An account on which an order may be placed whose fills come through the stream only. -/
def OrderCapable (a : BrokerAccount) : Prop := a.broker = "ALPACA" ∧ a.status ≠ .error

/-- The account has a thread that is alive and bound to the endpoint of its mode. -/
def Streamed (threads : Threads) (a : BrokerAccount) : Prop :=
  ∃ thread, threads a.id = some thread ∧ thread.isAlive = true ∧ thread.endpoint = endpointOf a.mode

/-- **Every order-capable account is streamed** after a round exactly if none of them is live. -/
theorem streamed_iff {threads : Threads} (h : Run SupervisorStep AnyStep (fun _ => none) threads)
    (rows : Table BrokerAccount.id) :
    (∀ a ∈ rows.rows, OrderCapable a → Streamed (reconcileThreads threads (loadActiveAccounts rows)) a) ↔
      ∀ a ∈ rows.rows, OrderCapable a → a.mode = .paper := by
  have hpaper : AllPaper (reconcileThreads threads (loadActiveAccounts rows)) := by
    have hbefore : AllPaper threads :=
      h.invariant AllPaper (fun id thread hthread => by cases hthread) fun hstep _ hs => hs.step hstep
    exact hbefore.step (.round threads rows)
  refine forall₂_congr fun a ha => imp_congr_right fun hcapable => ⟨?_, fun hmode => ?_⟩
  · rintro ⟨thread, hthread, -, -⟩
    obtain ⟨-, ⟨b, hb, hid⟩, -⟩ := of_reconcileThreads hthread
    -- the loaded account with this primary key is the account itself
    obtain ⟨hrow, -, hmode, -⟩ := mem_loadActiveAccounts.mp hb
    exact List.inj_on_of_nodup_map rows.nodup hrow ha hid ▸ hmode
  · have hloaded : a ∈ loadActiveAccounts rows := mem_loadActiveAccounts.mpr ⟨ha, hcapable.1, hmode, hcapable.2⟩
    obtain ⟨thread, hthread⟩ := Option.isSome_iff_exists.mp (isSome_reconcileThreads threads hloaded)
    refine ⟨thread, hthread, (of_reconcileThreads hthread).1, ?_⟩
    rw [StreamThread.endpoint, hpaper _ _ hthread, hmode]

/-! ### Samples -/

/-- A connected account at `ALPACA`. -/
def sampleAccount (id : AccountId) (mode : Mode) : BrokerAccount := ⟨id, "u", "ALPACA", mode, true, .connected, 0⟩

/-- A paper account is streamed after the first round. -/
theorem streamed_iff_paper :
    (∀ a ∈ (Table.empty.put (sampleAccount "acct" .paper) : Table BrokerAccount.id).rows, OrderCapable a →
      Streamed (reconcileThreads (fun _ => none) (loadActiveAccounts (Table.empty.put (sampleAccount "acct" .paper)))) a) ↔
      ∀ a ∈ (Table.empty.put (sampleAccount "acct" .paper) : Table BrokerAccount.id).rows, OrderCapable a →
        a.mode = .paper :=
  streamed_iff (Run.refl _) _

/-- A live account is not. -/
theorem not_streamed_live :
    ¬ ∀ (threads : Threads) (rows : Table BrokerAccount.id), Run SupervisorStep AnyStep (fun _ => none) threads →
      ∀ a ∈ rows.rows, OrderCapable a → Streamed (reconcileThreads threads (loadActiveAccounts rows)) a := by
  intro h
  obtain ⟨thread, hthread, -⟩ := h (fun _ => none) (Table.empty.put (sampleAccount "acct" .live)) (Run.refl _)
    (sampleAccount "acct" .live) (List.mem_singleton_self _) ⟨rfl, by decide⟩
  cases hthread

end StratTrader.Brokers
