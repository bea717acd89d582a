import StratTrader.Brokers.Base
import StratTrader.Foundation.Runs
import StratTrader.Foundation.Table

/-!
# Stream threads and their stop events

The threads of `StreamSupervisor`, in `brokers/streams.py`, step by step. `_reconcile_threads` takes a
list of accounts, drops the threads of accounts that are gone and the dead ones, and starts missing
ones. Dropping a thread sets its stop event and forgets it; the thread looks at the event at the top of
its loop and behind the end of a run only, and `stream.run()` ends when the broker disconnects.

## What is proved

* `RunPos.step_isStreaming`, `RunPos.isStreaming_of_out`: a thread gets past the poll of its stop event
  only with the event unset, and only there it publishes or reports itself as connected.
* `SupervisorInv`: what holds as long as no thread that is past its poll is dropped, with one lemma per
  step.
* `oneStream_of_run`: in every such run of reconciling and threads, at most one thread per account is
  inside `stream.run()`, and what a thread does for its account it does with its stop event unset.
* `exists_run_of_stopped`: a thread that is stopped behind its poll can go on to do so.
* `not_oneStream`: an account that is removed and added again has two threads inside `stream.run()`.

## Honest scope

A step is what a thread or the supervisor does between two points at which others can see it. `stop`,
which ends the process, is left out, and so are backoff and metrics. A thread can die wherever it is,
but not inside `stream.run()`, which it leaves when the broker disconnects.
-/

namespace StratTrader.Brokers

open StratTrader.Foundation

/-! ### A thread -/

/-- Where a thread is in `_run_account`. -/
inductive RunPos where
  /-- At the top of the loop. -/
  | top
  /-- In `catch_up_account` or `_build_stream`. -/
  | catchingUp
  /-- The stream is built. -/
  | built
  /-- The account's heartbeat is set to `CONNECTED`. -/
  | announced
  /-- Inside `stream.run()`. -/
  | running
  /-- Inside `stream.run()`, in `on_event`, with the heartbeat set. -/
  | handling
  /-- The run has ended. -/
  | runEnded
  /-- The heartbeat is set to `DEGRADED`. -/
  | degraded
  /-- In `stop_event.wait`. -/
  | waiting
  /-- Not alive. -/
  | dead
  deriving DecidableEq

namespace RunPos

/-- `is_alive`. -/
def isAlive (pos : RunPos) : Bool := decide (pos ≠ .dead)

/-- Inside `stream.run()`. -/
def inRun : RunPos → Bool
  | .running | .handling => true
  | _ => false

/-- Past the poll of the stop event, and not yet behind the run. -/
def isStreaming : RunPos → Bool
  | .catchingUp | .built | .announced | .running | .handling => true
  | _ => false

theorem isStreaming_of_inRun {pos : RunPos} (h : pos.inRun = true) : pos.isStreaming = true := by
  cases pos <;> first | rfl | cases h

end RunPos

/-- What a thread can do. -/
inductive ThreadAct where
  /-- It polls its stop event at the top of the loop. -/
  | poll
  /-- The catch-up publishes a fill. -/
  | replay
  /-- The catch-up, the building of the stream or the setting of the heartbeat raises. -/
  | raise
  /-- The account is caught up and the stream is built. -/
  | build
  /-- It sets the heartbeat to `CONNECTED`. -/
  | announce
  /-- It enters `stream.run()`. -/
  | enter
  /-- An event arrives, and `on_event` sets the heartbeat to `CONNECTED`. -/
  | event
  /-- `on_event` publishes the event. -/
  | publish
  /-- The publishing raises, which the handler of the stream catches. -/
  | handlerError
  /-- The broker disconnects. -/
  | disconnect
  /-- It sets the heartbeat to `DEGRADED`. -/
  | degrade
  /-- It polls its stop event behind the run. -/
  | check
  /-- The wait is over. -/
  | wake
  /-- It dies. -/
  | die

/-- What a thread does for its account. -/
inductive StreamOutput where
  /-- It publishes an event. -/
  | published
  /-- It sets the heartbeat to `CONNECTED`. -/
  | connected
  deriving DecidableEq

/-- A step of `_run_account`, with the stop event as it is. -/
def RunPos.step (stopped : Bool) : RunPos → ThreadAct → Option (RunPos × List StreamOutput)
  | .top, .poll => some (if stopped then .dead else .catchingUp, [])
  | .catchingUp, .replay => some (.catchingUp, [.published])
  | .catchingUp, .build => some (.built, [])
  | .catchingUp, .raise => some (.runEnded, [])
  | .built, .announce => some (.announced, [.connected])
  | .built, .raise => some (.runEnded, [])
  | .announced, .enter => some (.running, [])
  | .running, .event => some (.handling, [.connected])
  | .handling, .publish => some (.running, [.published])
  | .handling, .handlerError => some (.running, [])
  | .running, .disconnect => some (.runEnded, [])
  | .runEnded, .degrade => some (.degraded, [])
  | .degraded, .check => some (if stopped then .dead else .waiting, [])
  | .waiting, .wake => some (.top, [])
  | pos, .die => if pos.inRun then none else some (.dead, [])
  | _, _ => none

/-- **A thread gets past the poll with its stop event unset.** -/
theorem RunPos.step_isStreaming {stopped : Bool} {pos pos' : RunPos} {a : ThreadAct} {out : List StreamOutput}
    (h : pos.step stopped a = some (pos', out)) (hstreaming : pos'.isStreaming = true) :
    pos.isStreaming = true ∨ stopped = false := by
  unfold RunPos.step at h
  split at h
  case h_1 =>
    cases stopped with
    | false => exact .inr rfl
    | true =>
      cases h
      cases hstreaming
  case h_13 =>
    cases h
    cases stopped <;> cases hstreaming
  case h_15 =>
    split_ifs at h
    cases h
    cases hstreaming
  case h_16 => cases h
  all_goals
    cases h
    first | exact .inl rfl | cases hstreaming

/-- **What it does for its account it does past the poll.** -/
theorem RunPos.isStreaming_of_out {stopped : Bool} {pos pos' : RunPos} {a : ThreadAct} {out : List StreamOutput}
    (h : pos.step stopped a = some (pos', out)) {o : StreamOutput} (ho : o ∈ out) : pos.isStreaming = true := by
  unfold RunPos.step at h
  split at h
  case h_15 =>
    split_ifs at h
    cases h
    cases ho
  case h_16 => cases h
  all_goals
    cases h
    first | rfl | cases ho

/-! ### The supervisor -/

/-- The number of a thread. -/
abbrev ThreadNo := ℕ

/-- A thread. -/
structure AccountThread where
  /-- The account that it was started for. -/
  account : AccountId
  /-- Its stop event is set. -/
  stopped : Bool := false
  /-- Where it is. -/
  pos : RunPos := .top

/-- An entry of `_threads` or of `_stops`: the thread, or the stop event of the thread. -/
structure ThreadEntry where
  /-- The key. -/
  account : AccountId
  /-- The thread. -/
  thread : ThreadNo
  deriving DecidableEq

/-- Where the supervisor is in `_reconcile_threads`. -/
inductive Round where
  /-- Outside. -/
  | idle
  /-- In the first loop, with the keys that are left and the accounts. -/
  | pruning (keys active : List AccountId)
  /-- In the second loop, with the accounts that are left. -/
  | starting (active : List AccountId)
  deriving DecidableEq

/-- What a thread has done for its account. -/
structure OutputEntry where
  /-- The account. -/
  account : AccountId
  /-- What. -/
  output : StreamOutput
  /-- The thread's stop event was set. -/
  stopped : Bool
  deriving DecidableEq

/-- The supervisor and its threads. -/
structure SupervisorState where
  /-- The threads that have been started, by number. -/
  started : ThreadNo → Option AccountThread
  /-- The number of the next one. -/
  next : ThreadNo
  /-- `_threads`. -/
  threads : Table ThreadEntry.account
  /-- `_stops`. -/
  stops : Table ThreadEntry.account
  /-- The round. -/
  round : Round
  /-- What the threads have done. -/
  log : List OutputEntry

namespace SupervisorState

/-- A new supervisor. -/
def init : SupervisorState := ⟨fun _ => none, 0, Table.empty, Table.empty, .idle, []⟩

/-- `stop_event.set()`. -/
def setStop (s : SupervisorState) (n : ThreadNo) : SupervisorState :=
  { s with started := Function.update s.started n ((s.started n).map fun thread => { thread with stopped := true }) }

/-- Drop the thread of an account. -/
def drop (s : SupervisorState) (id : AccountId) : SupervisorState :=
  match s.stops.find? id with
  | none => { s with threads := s.threads.erase id }
  | some stop => { s.setStop stop.thread with threads := s.threads.erase id, stops := s.stops.erase id }

/-- The thread with a number is alive. -/
def isAlive (s : SupervisorState) (n : ThreadNo) : Bool := (s.started n).any fun thread => thread.pos.isAlive

/-- A turn of the first loop. -/
def prune (s : SupervisorState) (id : AccountId) (active : List AccountId) : SupervisorState :=
  match s.threads.find? id with
  | none => s
  | some entry => if id ∉ active ∨ s.isAlive entry.thread = false then s.drop id else s

/-- `_start_thread`. -/
def startThread (s : SupervisorState) (id : AccountId) : SupervisorState :=
  { s with
    started := Function.update s.started s.next (some { account := id })
    next := s.next + 1
    threads := s.threads.put ⟨id, s.next⟩
    stops := s.stops.put ⟨id, s.next⟩ }

/-- A turn of the second loop. -/
def ensure (s : SupervisorState) (id : AccountId) : SupervisorState :=
  match s.threads.find? id with
  | none => s.startThread id
  | some _ => s

/-- The next step of `_reconcile_threads`. -/
def supervise (s : SupervisorState) : Option SupervisorState :=
  match s.round with
  | .idle => none
  | .pruning [] active => some { s with round := .starting active }
  | .pruning (id :: keys) active => some { s.prune id active with round := .pruning keys active }
  | .starting [] => some { s with round := .idle }
  | .starting (id :: active) => some { s.ensure id with round := .starting active }

/-- What a thread does. -/
def runThread (s : SupervisorState) (n : ThreadNo) (a : ThreadAct) : Option SupervisorState :=
  (s.started n).bind fun thread =>
    (thread.pos.step thread.stopped a).map fun (pos, out) =>
      { s with
        started := Function.update s.started n (some { thread with pos })
        log := s.log ++ out.map fun o => ⟨thread.account, o, thread.stopped⟩ }

end SupervisorState

/-- What can happen. -/
inductive StreamAct where
  /-- `_reconcile_threads` is called. -/
  | reconcile (accounts : List AccountId)
  /-- It takes its next step. -/
  | supervise
  /-- A thread takes a step. -/
  | thread (n : ThreadNo) (a : ThreadAct)

/-- One step. -/
def SupervisorState.apply (s : SupervisorState) : StreamAct → Option SupervisorState
  | .reconcile accounts =>
    match s.round with
    | .idle => some { s with round := .pruning (s.threads.rows.map ThreadEntry.account) accounts }
    | _ => none
  | .supervise => s.supervise
  | .thread n a => s.runThread n a

/-- No thread that is past its poll is dropped because its account is gone. -/
def DropsIdle (s : SupervisorState) (a : StreamAct) : Prop :=
  a = .supervise → ∀ id keys active, s.round = .pruning (id :: keys) active → id ∉ active →
    ∀ entry thread, s.threads.find? id = some entry → s.started entry.thread = some thread →
      thread.pos.isStreaming = false

/-- What is claimed of the threads. -/
structure OneStream (s : SupervisorState) : Prop where
  /-- At most one thread of an account is inside `stream.run()`. -/
  single : ∀ n m a b, s.started n = some a → s.started m = some b → a.account = b.account → a.pos.inRun = true →
    b.pos.inRun = true → n = m
  /-- No thread has published or reported itself as connected with its stop event set. -/
  quiet : ∀ e ∈ s.log, e.stopped = false

/-! ### What every step keeps -/

/-- **What holds in every such run**: the supervisor knows the threads whose stop events are unset, and a thread past
its poll is one of them. -/
structure SupervisorInv (s : SupervisorState) : Prop where
  /-- The two maps agree. -/
  stops : s.stops = s.threads
  /-- What the supervisor knows is a thread of the account. -/
  known : ∀ id entry, s.threads.find? id = some entry → ∃ thread, s.started entry.thread = some thread ∧ thread.account = id
  /-- A thread whose stop event is unset is known. -/
  unstopped : ∀ n thread, s.started n = some thread → thread.stopped = false →
    s.threads.find? thread.account = some ⟨thread.account, n⟩
  /-- Numbers are new. -/
  fresh : ∀ n thread, s.started n = some thread → n < s.next
  /-- A thread past its poll has its stop event unset. -/
  streaming : ∀ n thread, s.started n = some thread → thread.pos.isStreaming = true → thread.stopped = false
  /-- And it had when it did something for its account. -/
  log : ∀ e ∈ s.log, e.stopped = false

variable {s t : SupervisorState} {n : ThreadNo} {id : AccountId}

theorem of_update {f : ThreadNo → Option AccountThread} {n m : ThreadNo} {a b : AccountThread}
    (h : Function.update f n (some a) m = some b) : (m = n ∧ b = a) ∨ (m ≠ n ∧ f m = some b) := by
  by_cases hm : m = n
  · subst hm
    rw [Function.update_self] at h
    cases h
    exact .inl ⟨rfl, rfl⟩
  · rw [Function.update_of_ne hm] at h
    exact .inr ⟨hm, h⟩

theorem supervisorInv_init : SupervisorInv .init :=
  ⟨rfl, fun _ _ h => (nomatch h), fun _ _ h => (nomatch h), fun _ _ h => (nomatch h), fun _ _ h => (nomatch h),
    fun _ h => (nomatch h)⟩

/-- The round is the supervisor's own business. -/
theorem SupervisorInv.of_round (hs : SupervisorInv s) (round : Round) : SupervisorInv { s with round } :=
  ⟨hs.stops, hs.known, hs.unstopped, hs.fresh, hs.streaming, hs.log⟩

/-- A step of a thread. -/
theorem SupervisorInv.runThread (hs : SupervisorInv s) {a : ThreadAct} (h : s.runThread n a = some t) :
    SupervisorInv t := by
  obtain ⟨thread, hthread, hstep⟩ := Option.bind_eq_some_iff.mp h
  obtain ⟨⟨pos, out⟩, hpos, rfl⟩ := Option.map_eq_some_iff.mp hstep
  have hcases : ∀ m th, Function.update s.started n (some { thread with pos }) m = some th →
      ∃ old, s.started m = some old ∧ th.account = old.account ∧ th.stopped = old.stopped ∧
        (th.pos.isStreaming = true → old.stopped = false) := by
    intro m th hth
    rcases of_update hth with ⟨rfl, rfl⟩ | ⟨-, hth⟩
    · refine ⟨thread, hthread, rfl, rfl, fun hstreaming => ?_⟩
      rcases RunPos.step_isStreaming hpos hstreaming with hbefore | hunset
      · exact hs.streaming m thread hthread hbefore
      · exact hunset
    · exact ⟨th, hth, rfl, rfl, hs.streaming m th hth⟩
  refine ⟨hs.stops, fun id entry hentry => ?_, fun m th hth hunset => ?_, fun m th hth => ?_,
    fun m th hth hstreaming => ?_, fun e he => ?_⟩
  · obtain ⟨old, hold, hid⟩ := hs.known id entry hentry
    by_cases hm : entry.thread = n
    · subst hm
      refine ⟨{ thread with pos }, Function.update_self _ _ _, ?_⟩
      rw [hthread] at hold
      cases hold
      exact hid
    · exact ⟨old, (Function.update_of_ne hm _ _).trans hold, hid⟩
  · obtain ⟨old, hold, haccount, hstopped, -⟩ := hcases m th hth
    rw [haccount]
    exact hs.unstopped m old hold (hstopped ▸ hunset)
  · obtain ⟨old, hold, -⟩ := hcases m th hth
    exact hs.fresh m old hold
  · obtain ⟨old, -, -, hstopped, hunset⟩ := hcases m th hth
    exact hstopped.trans (hunset hstreaming)
  · rcases List.mem_append.mp he with he | he
    · exact hs.log e he
    · obtain ⟨o, ho, rfl⟩ := List.mem_map.mp he
      exact hs.streaming n thread hthread (RunPos.isStreaming_of_out hpos ho)

/-- A thread is dropped that is not past its poll. -/
theorem SupervisorInv.drop (hs : SupervisorInv s) {entry : ThreadEntry} (hentry : s.threads.find? id = some entry)
    (hidle : ∀ thread, s.started entry.thread = some thread → thread.pos.isStreaming = false) :
    SupervisorInv (s.drop id) := by
  obtain ⟨thread, hthread, hid⟩ := hs.known id entry hentry
  have hdrop : s.drop id =
      { s with
        started := Function.update s.started entry.thread (some { thread with stopped := true })
        threads := s.threads.erase id
        stops := s.stops.erase id } := by
    unfold SupervisorState.drop SupervisorState.setStop
    rw [hs.stops, hentry]
    dsimp only
    rw [hthread]
    rfl
  rw [hdrop]
  refine ⟨congrArg (·.erase id) hs.stops, fun id' e' he' => ?_, fun m th hth hunset => ?_, fun m th hth => ?_,
    fun m th hth hstreaming => ?_, hs.log⟩
  · dsimp only at he' ⊢
    rw [Table.find?_erase] at he'
    split_ifs at he' with hne
    obtain ⟨old, hold, hid'⟩ := hs.known id' e' he'
    refine ⟨old, (Function.update_of_ne (fun hm => hne ?_) _ _).trans hold, hid'⟩
    rw [hm] at hold
    cases hthread.symm.trans hold
    exact hid'.symm.trans hid
  · rcases of_update hth with ⟨-, rfl⟩ | ⟨hm, hth⟩
    · cases hunset
    · have hknown := hs.unstopped m th hth hunset
      dsimp only
      rw [Table.find?_erase, if_neg, hknown]
      rintro rfl
      cases hentry.symm.trans hknown
      exact hm rfl
  · rcases of_update hth with ⟨rfl, -⟩ | ⟨-, hth⟩
    · exact hs.fresh _ thread hthread
    · exact hs.fresh m th hth
  · rcases of_update hth with ⟨-, rfl⟩ | ⟨-, hth⟩
    · have hnot := hidle thread hthread
      rw [show thread.pos.isStreaming = true from hstreaming] at hnot
      cases hnot
    · exact hs.streaming m th hth hstreaming

theorem SupervisorState.isStreaming_of_not_alive {entry : ThreadEntry} {thread : AccountThread}
    (h : s.isAlive entry.thread = false) (hthread : s.started entry.thread = some thread) :
    thread.pos.isStreaming = false := by
  unfold SupervisorState.isAlive at h
  rw [hthread] at h
  have hdead : thread.pos = .dead := by simpa [RunPos.isAlive] using h
  rw [hdead]
  rfl

/-- A turn of the first loop. -/
theorem SupervisorInv.prune (hs : SupervisorInv s) (active : List AccountId)
    (hidle : id ∉ active → ∀ entry thread, s.threads.find? id = some entry → s.started entry.thread = some thread →
      thread.pos.isStreaming = false) : SupervisorInv (s.prune id active) := by
  unfold SupervisorState.prune
  cases hentry : s.threads.find? id with
  | none => exact hs
  | some entry =>
    dsimp only
    split_ifs with hdrop
    · refine hs.drop hentry fun thread hthread => ?_
      rcases hdrop with hgone | hdead
      · exact hidle hgone entry thread hentry hthread
      · exact SupervisorState.isStreaming_of_not_alive hdead hthread
    · exact hs

/-- A thread is started for an account that has none. -/
theorem SupervisorInv.startThread (hs : SupervisorInv s) (hnone : s.threads.find? id = none) :
    SupervisorInv (s.startThread id) := by
  have hnew : s.started s.next = none := by
    cases hstarted : s.started s.next with
    | none => rfl
    | some thread => exact absurd (hs.fresh _ thread hstarted) (Nat.lt_irrefl _)
  unfold SupervisorState.startThread
  refine ⟨congrArg (·.put ⟨id, s.next⟩) hs.stops, fun id' e' he' => ?_, fun m th hth hunset => ?_, fun m th hth => ?_,
    fun m th hth hstreaming => ?_, hs.log⟩
  · dsimp only at he' ⊢
    rw [Table.find?_put] at he'
    split_ifs at he' with hid
    · cases he'
      exact ⟨{ account := id }, Function.update_self _ _ _, hid.symm⟩
    · obtain ⟨old, hold, hid'⟩ := hs.known id' e' he'
      refine ⟨old, (Function.update_of_ne (fun hm => ?_) _ _).trans hold, hid'⟩
      rw [hm, hnew] at hold
      cases hold
  · dsimp only
    rw [Table.find?_put]
    rcases of_update hth with ⟨rfl, rfl⟩ | ⟨-, hth⟩
    · exact if_pos rfl
    · have hknown := hs.unstopped m th hth hunset
      rw [if_neg, hknown]
      intro hid
      have hid : th.account = id := hid
      rw [hid, hnone] at hknown
      cases hknown
  · rcases of_update hth with ⟨rfl, -⟩ | ⟨-, hth⟩
    · exact Nat.lt_succ_self _
    · exact Nat.lt_succ_of_lt (hs.fresh m th hth)
  · rcases of_update hth with ⟨-, rfl⟩ | ⟨-, hth⟩
    · rfl
    · exact hs.streaming m th hth hstreaming

/-- A turn of the second loop. -/
theorem SupervisorInv.ensure (hs : SupervisorInv s) (id : AccountId) : SupervisorInv (s.ensure id) := by
  unfold SupervisorState.ensure
  cases hentry : s.threads.find? id with
  | none => exact hs.startThread hentry
  | some entry => exact hs

/-- One step of a run. -/
theorem SupervisorInv.step {a : StreamAct} (hs : SupervisorInv s) (h : s.apply a = some t) (hidle : DropsIdle s a) :
    SupervisorInv t := by
  cases a with
  | thread n a => exact hs.runThread h
  | reconcile accounts =>
    unfold SupervisorState.apply at h
    cases hround : s.round with
    | idle =>
      simp only [hround, Option.some.injEq] at h
      subst h
      exact hs.of_round _
    | pruning keys active => simp [hround] at h
    | starting active => simp [hround] at h
  | supervise =>
    have h : s.supervise = some t := h
    unfold SupervisorState.supervise at h
    split at h
    case h_1 => cases h
    case h_2 =>
      cases h
      exact hs.of_round _
    case h_3 id keys active hround =>
      cases h
      exact (hs.prune active fun hgone => hidle rfl id keys active hround hgone).of_round _
    case h_4 =>
      cases h
      exact hs.of_round _
    case h_5 id active hround =>
      cases h
      exact (hs.ensure id).of_round _

/-- Two threads of an account inside `stream.run()` are known by the same entry. -/
theorem SupervisorInv.oneStream (hs : SupervisorInv s) : OneStream s := by
  refine ⟨fun n m a b ha hb haccount hina hinb => ?_, hs.log⟩
  have hknown : ∀ {k c}, s.started k = some c → c.pos.inRun = true →
      s.threads.find? c.account = some ⟨c.account, k⟩ := fun hc hin =>
    hs.unstopped _ _ hc (hs.streaming _ _ hc (RunPos.isStreaming_of_inRun hin))
  have hn := hknown ha hina
  have hm := hknown hb hinb
  rw [haccount, hm] at hn
  exact (ThreadEntry.mk.inj (Option.some.inj hn)).2.symm

/-- **At most one stream per account**, and nothing is done for an account by a thread that is stopped, in every run
in which no thread that is past its poll is dropped because its account is gone. -/
theorem oneStream_of_run (h : Run (fun s a t => SupervisorState.apply s a = some t) DropsIdle .init s) : OneStream s :=
  (h.invariant SupervisorInv supervisorInv_init fun hstep hidle hs => hs.step hstep hidle).oneStream

/-! ### A thread that is dropped too early -/

theorem apply_thread {thread : AccountThread} {a : ThreadAct} {pos : RunPos} {out : List StreamOutput}
    (hthread : s.started n = some thread) (hstep : thread.pos.step thread.stopped a = some (pos, out)) :
    s.apply (.thread n a) =
      some { s with
        started := Function.update s.started n (some { thread with pos })
        log := s.log ++ out.map fun o => ⟨thread.account, o, thread.stopped⟩ } :=
  Option.bind_eq_some_iff.mpr ⟨thread, hthread, Option.map_eq_some_iff.mpr ⟨_, hstep, rfl⟩⟩

/-- What a stopped thread does next, it does with its stop event set. -/
theorem exists_run_of_step {thread : AccountThread} {a : ThreadAct} {pos : RunPos} {o : StreamOutput}
    (hthread : s.started n = some thread) (hstopped : thread.stopped = true)
    (hstep : thread.pos.step thread.stopped a = some (pos, [o])) :
    ∃ t, Run (fun s a t => SupervisorState.apply s a = some t) AnyStep s t ∧ ∃ e ∈ t.log, e.stopped = true :=
  ⟨_, Run.single (apply_thread hthread hstep) trivial, ⟨thread.account, o, thread.stopped⟩,
    List.mem_append_right _ (List.mem_singleton_self _), hstopped⟩

/-- A thread that is stopped behind its poll can go on and do something for its account, with its stop event set. -/
theorem exists_run_of_stopped {thread : AccountThread} (hthread : s.started n = some thread)
    (hstopped : thread.stopped = true) (hstreaming : thread.pos.isStreaming = true) :
    ∃ t, Run (fun s a t => SupervisorState.apply s a = some t) AnyStep s t ∧ ∃ e ∈ t.log, e.stopped = true := by
  cases hpos : thread.pos with
  | catchingUp => exact exists_run_of_step (a := .replay) hthread hstopped (by rw [hpos]; rfl)
  | built => exact exists_run_of_step (a := .announce) hthread hstopped (by rw [hpos]; rfl)
  | running => exact exists_run_of_step (a := .event) hthread hstopped (by rw [hpos]; rfl)
  | handling => exact exists_run_of_step (a := .publish) hthread hstopped (by rw [hpos]; rfl)
  | announced =>
    -- it has to enter the run first
    have henter : thread.pos.step thread.stopped .enter = some (.running, []) := by
      rw [hpos]
      rfl
    obtain ⟨u, hu, hinside⟩ : ∃ u, s.apply (.thread n .enter) = some u ∧
        u.started n = some { thread with pos := .running } :=
      ⟨_, apply_thread hthread henter, Function.update_self _ _ _⟩
    obtain ⟨t, hrun, he⟩ := exists_run_of_step (a := .event) hinside hstopped rfl
    exact ⟨t, (Run.single hu trivial).trans hrun, he⟩
  | _ =>
    rw [hpos] at hstreaming
    cases hstreaming

/-! ### Samples -/

/-- The account is loaded, and its thread connects. -/
def connecting (n : ThreadNo) : List StreamAct :=
  [.reconcile ["acct"], .supervise, .supervise, .supervise, .thread n .poll, .thread n .build, .thread n .announce,
    .thread n .enter]

/-- The broker disconnects, and the account is gone while its thread waits. -/
def leaving : List StreamAct :=
  [.thread 0 .disconnect, .thread 0 .degrade, .thread 0 .check, .reconcile [], .supervise]

/-- The thread is stopped without harm. -/
theorem oneStream_of_run_sample :
    ∃ s, follow SupervisorState.apply (connecting 0 ++ leaving) .init = some s ∧ OneStream s := by
  obtain ⟨s, hs⟩ : ∃ s, follow SupervisorState.apply (connecting 0 ++ leaving) .init = some s := ⟨_, rfl⟩
  refine ⟨s, hs, oneStream_of_run (run_of_follow hs ?_)⟩
  have hother : ∀ {u : SupervisorState} {a : StreamAct}, a ≠ .supervise → DropsIdle u a := fun hne heq => absurd heq hne
  -- there is no thread to drop in the first round
  have hround : ∀ {u : SupervisorState}, (∀ id keys active, u.round ≠ .pruning (id :: keys) active) →
      DropsIdle u .supervise := fun hno _ id keys active hpruning => absurd hpruning (hno id keys active)
  refine along_cons rfl (hother (by simp)) (along_cons rfl (hround nofun) (along_cons rfl (hround nofun) ?_))
  refine along_cons rfl (hround nofun) (along_cons rfl (hother (by simp)) (along_cons rfl (hother (by simp)) ?_))
  refine along_cons rfl (hother (by simp)) (along_cons rfl (hother (by simp)) (along_cons rfl (hother (by simp)) ?_))
  refine along_cons rfl (hother (by simp)) (along_cons rfl (hother (by simp)) (along_cons rfl (hother (by simp)) ?_))
  refine along_cons rfl (fun _ id keys active hpruning _ entry thread hentry hthread => ?_) trivial
  cases hpruning
  cases hentry
  cases hthread
  rfl

/-- The account is removed and added again while its thread is inside the run, which then receives an event. -/
def readded : List StreamAct :=
  connecting 0 ++ [.reconcile [], .supervise, .supervise, .supervise] ++ connecting 1 ++ [.thread 0 .event]

/-- It has two threads inside the run, and the stopped one reports the account as connected. -/
theorem not_oneStream :
    (¬ ∀ s, Run (fun s a t => SupervisorState.apply s a = some t) AnyStep .init s →
      ∀ n m a b, s.started n = some a → s.started m = some b → a.account = b.account → a.pos.inRun = true →
        b.pos.inRun = true → n = m) ∧
      ¬ ∀ s, Run (fun s a t => SupervisorState.apply s a = some t) AnyStep .init s → ∀ e ∈ s.log, e.stopped = false := by
  obtain ⟨s, hs⟩ : ∃ s, follow SupervisorState.apply readded .init = some s := ⟨_, rfl⟩
  have hrun := run_of_follow hs (along_anyStep _ _)
  constructor
  · intro h
    have hsame := h s hrun 0 1
    cases hs
    exact absurd (hsame _ _ rfl rfl rfl rfl rfl) (by decide)
  · intro h
    have hquiet := h s hrun ⟨"acct", .connected, true⟩
    cases hs
    exact absurd (hquiet (by decide)) (by decide)

end StratTrader.Brokers
