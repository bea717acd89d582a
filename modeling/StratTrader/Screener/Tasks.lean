import StratTrader.Foundation.Indexed
import StratTrader.Foundation.Runs
import Mathlib.Data.List.Sort

/-!
# Screen runs and their writers

`run_screen` of `screener/tasks.py` and `ScreenRunCreateView` of `screener/views.py`, for one user
and one strategy. A post fails the runs that it takes for abandoned, looks for one that is active,
inserts one and sends its task. The task sets the run to `RUNNING`, saves it whole in the end, and
prunes the history. A step is one access to the table, which refuses a second active run.

## What is proved

* `newest_not_pruned`: a run newer than all others is not pruned.

## Honest scope

The gates of the view before the first access are left out, and so are the criteria. What
`_execute` computes, and how it fails, is free; the ids are numbered. A failure of the database
itself is not modelled, apart from what its index and a missing row lead to.
-/

namespace StratTrader.Screener

open StratTrader.Foundation

/-! ### The table -/

/-- `ScreenRun.Status`. -/
inductive Status where
  /-- `QUEUED`. -/
  | queued
  /-- `RUNNING`. -/
  | running
  /-- `DONE`. -/
  | done
  /-- `FAILED`. -/
  | failed
  deriving DecidableEq

/-- Whether a status is one of `ACTIVE_STATUSES`. -/
def Status.isActive : Status → Bool
  | queued | running => true
  | done | failed => false

/-- `ScreenRun`. -/
structure ScreenRun where
  /-- `id`. -/
  id : ℕ
  /-- `status`. -/
  status : Status := .queued
  /-- `results`. -/
  results : List String := []
  /-- `counts`. -/
  counts : List (String × ℕ) := []
  /-- `degraded`. -/
  degraded : Bool := false
  /-- `error_code`. -/
  errorCode : String := ""
  /-- `celery_task_id`. -/
  celeryTaskId : String := ""
  /-- `created_at`. -/
  createdAt : ℕ
  /-- `started_at`. -/
  startedAt : Option ℕ := none
  /-- `finished_at`. -/
  finishedAt : Option ℕ := none
  deriving DecidableEq

/-- Whether a run holds the place of the active one. -/
def ScreenRun.isActive (run : ScreenRun) : Bool := run.status.isActive

/-- The table, with its partial unique index. -/
abbrev Runs := Indexed ScreenRun.id ScreenRun.isActive

/-- `HISTORY_KEEP`. -/
def historyKeep : ℕ := 20

/-- `STALE_AFTER`, in microseconds. -/
def staleAfter : ℕ := 10 * 60 * 1000000

/-- `_empty_counts`. -/
def emptyCounts : List (String × ℕ) :=
  [("vendor_matches", 0), ("enriched", 0), ("returned", 0), ("insufficient_history", 0), ("skipped_rate_limited", 0),
    ("skipped_unavailable", 0)]

namespace ScreenRun

variable (run : ScreenRun)

/-- What the task saves first. -/
def start (taskId : String) (now : ℕ) : ScreenRun :=
  { run with status := .running, startedAt := some now, celeryTaskId := taskId }

/-- `_finish`. -/
def finish (now : ℕ) : ScreenRun := { run with finishedAt := some now }

/-- `_fail`. -/
def fail (code : String) (now : ℕ) : ScreenRun :=
  { run with
    status := .failed
    errorCode := code
    counts := if run.counts = [] then emptyCounts else run.counts
    finishedAt := some now }

/-- Whether a run is taken for abandoned. -/
def isAbandoned (now : ℕ) : Bool := run.isActive && decide (run.createdAt + staleAfter < now)

/-- What becomes of it then. -/
def reaped (now : ℕ) : ScreenRun :=
  if run.isAbandoned now then { run with status := .failed, errorCode := "SCREEN_STALE", finishedAt := some now }
  else run

end ScreenRun

@[simp] theorem id_reaped (now : ℕ) (run : ScreenRun) : (run.reaped now).id = run.id := by
  unfold ScreenRun.reaped
  split_ifs <;> rfl

theorem isActive_of_reaped (now : ℕ) (run : ScreenRun) (h : (run.reaped now).isActive = true) :
    run.isActive = true := by
  unfold ScreenRun.reaped at h
  split_ifs at h
  · cases h
  · exact h

/-- `_reap_stale_runs`. -/
def reapStaleRuns (runs : Runs) (now : ℕ) : Runs := runs.update (·.reaped now) (id_reaped now) (isActive_of_reaped now)

/-- The rows, the newest first. -/
def newestFirst (runs : Runs) : List ScreenRun := runs.rows.insertionSort fun a b => b.createdAt ≤ a.createdAt

/-- The ids that `_prune_history` selects. -/
def pruned (runs : Runs) : List ℕ := ((newestFirst runs).drop historyKeep).map ScreenRun.id

/-! ### The task -/

/-- Where an execution stands. -/
inductive Control where
  /-- It has read the row. -/
  | fetched
  /-- It is in `_execute`. -/
  | executing
  /-- It is in `_finish`. -/
  | finishing
  /-- It is in `_fail`. -/
  | failing (code : String)
  /-- It has saved the run, and may be leaving with an exception. -/
  | pruning (raising : Bool)
  /-- It has selected what it deletes. -/
  | deleting (raising : Bool) (ids : List ℕ)
  /-- It is over. -/
  | returned
  /-- It has ended in an exception. -/
  | raised
  /-- The worker is gone. -/
  | gone
  deriving DecidableEq

/-- An execution of `run_screen`. -/
structure Execution where
  /-- Where it stands. -/
  control : Control
  /-- Its copy of the row. -/
  run : ScreenRun

/-- What an execution does. -/
inductive TaskAct where
  /-- The first save. -/
  | start (taskId : String) (now : ℕ)
  /-- `_execute`, with what it leaves in the copy, and a code if it fails. -/
  | execute (error : Option String) (results : List String) (counts : List (String × ℕ)) (degraded : Bool)
  /-- The last save. -/
  | save (now : ℕ)
  /-- The select of `_prune_history`. -/
  | select
  /-- Its delete. -/
  | delete
  /-- It fails. -/
  | pruneFails
  /-- The soft time limit. -/
  | interrupt
  /-- The worker is gone. -/
  | leave

/-- How an execution ends. -/
def ended (raising : Bool) : Control := if raising then .raised else .returned

/-- A step of `run_screen`. -/
def Execution.step (runs : Runs) (e : Execution) : TaskAct → Option (Runs × Execution)
  | .start taskId now =>
    match e.control with
    | .fetched =>
      match runs.find? e.run.id with
      | some row =>
        match runs.write (row.start taskId now) with
        | some runs => some (runs, ⟨.executing, e.run.start taskId now⟩)
        -- `IntegrityError`, outside of the `try`
        | none => some (runs, ⟨.raised, e.run⟩)
      -- a save with `update_fields` has to find its row
      | none => some (runs, ⟨.raised, e.run⟩)
    | _ => none
  | .execute error results counts degraded =>
    match e.control with
    | .executing =>
      let run := { e.run with results := results, counts := counts, degraded := degraded }
      match error with
      | none => some (runs, ⟨.finishing, { run with status := .done }⟩)
      | some code => some (runs, ⟨.failing code, run⟩)
    | _ => none
  | .save now =>
    match e.control with
    | .finishing =>
      match runs.write (e.run.finish now) with
      | some runs => some (runs, ⟨.pruning false, e.run.finish now⟩)
      | none => some (runs, ⟨.pruning true, e.run⟩)
    | .failing code =>
      match runs.write (e.run.fail code now) with
      | some runs => some (runs, ⟨.pruning false, e.run.fail code now⟩)
      | none => some (runs, ⟨.pruning true, e.run⟩)
    | _ => none
  | .select =>
    match e.control with
    | .pruning raising => some (runs, ⟨.deleting raising (pruned runs), e.run⟩)
    | _ => none
  | .delete =>
    match e.control with
    | .deleting raising ids => some (runs.remove fun row => decide (row.id ∈ ids), ⟨ended raising, e.run⟩)
    | _ => none
  | .pruneFails =>
    match e.control with
    | .pruning raising | .deleting raising _ => some (runs, ⟨ended raising, e.run⟩)
    | _ => none
  | .interrupt =>
    match e.control with
    | .fetched => some (runs, ⟨.raised, e.run⟩)
    | .executing => some (runs, ⟨.failing "SCREEN_TIME_CAP", e.run⟩)
    | .finishing | .failing _ | .pruning _ => some (runs, ⟨.pruning true, e.run⟩)
    | _ => none
  | .leave => some (runs, ⟨.gone, e.run⟩)

/-! ### The view -/

/-- Where a post stands. -/
inductive Post where
  /-- Before `_reap_stale_runs`. -/
  | reaping
  /-- Before it looks for an active run. -/
  | looking
  /-- Before it inserts one. -/
  | inserting
  /-- Before it sends its task. -/
  | sending (id : ℕ)
  /-- It has answered. -/
  | answered
  deriving DecidableEq

/-- The table, and who works on it. -/
structure ScreenState where
  /-- The table. -/
  runs : Runs := .empty
  /-- The next id. -/
  nextId : ℕ := 0
  /-- The tasks that have been sent. -/
  sent : List ℕ := []
  /-- The executions. -/
  executions : List Execution := []
  /-- The posts. -/
  posts : List Post := []

/-- What happens in a step. -/
inductive Act where
  /-- A post begins. -/
  | post
  /-- It reaps. -/
  | reap (i : ℕ) (now : ℕ)
  /-- It looks for an active run. -/
  | look (i : ℕ)
  /-- It inserts a run. -/
  | insert (i : ℕ) (now : ℕ)
  /-- It sends the task. -/
  | send (i : ℕ)
  /-- A task is delivered, perhaps again, and reads its row. -/
  | deliver (id : ℕ)
  /-- An execution goes on. -/
  | execution (i : ℕ) (act : TaskAct)

/-- A step; `none` where there is no such execution or post, or it does not stand there. -/
def ScreenState.apply (s : ScreenState) : Act → Option ScreenState
  | .post => some { s with posts := s.posts ++ [.reaping] }
  | .reap i now =>
    if s.posts[i]? = some .reaping then
      some { s with runs := reapStaleRuns s.runs now, posts := s.posts.set i .looking }
    else none
  | .look i =>
    if s.posts[i]? = some .looking then
      some { s with posts := s.posts.set i (if s.runs.rows.any ScreenRun.isActive then .answered else .inserting) }
    else none
  | .insert i now =>
    if s.posts[i]? = some .inserting then
      match s.runs.write { id := s.nextId, createdAt := now } with
      | some runs => some { s with runs := runs, nextId := s.nextId + 1, posts := s.posts.set i (.sending s.nextId) }
      | none => some { s with posts := s.posts.set i .answered }
    else none
  | .send i =>
    match s.posts[i]? with
    | some (.sending id) => some { s with sent := s.sent ++ [id], posts := s.posts.set i .answered }
    | _ => none
  | .deliver id =>
    if id ∈ s.sent then
      match s.runs.find? id with
      | some row => some { s with executions := s.executions ++ [⟨.fetched, row⟩] }
      | none => some s
    else none
  | .execution i act =>
    s.executions[i]?.bind fun e => (e.step s.runs act).map fun (runs, e) =>
      { s with runs := runs, executions := s.executions.set i e }

/-- The steps. -/
def Step (s : ScreenState) (act : Act) (t : ScreenState) : Prop := s.apply act = some t

/-! ### Pruning -/

/-- **A run newer than all others is not pruned.** -/
theorem newest_not_pruned {runs : Runs} {a : ScreenRun} (ha : a ∈ runs.rows)
    (hnewest : ∀ b ∈ runs.rows, b.id ≠ a.id → b.createdAt < a.createdAt) : a.id ∉ pruned runs := by
  intro hpruned
  obtain ⟨b, hb, hid⟩ := List.mem_map.mp hpruned
  have hperm : (newestFirst runs).Perm runs.rows := List.perm_insertionSort _ _
  have hsorted : (newestFirst runs).Pairwise fun a b => b.createdAt ≤ a.createdAt :=
    List.pairwise_insertionSort _ _
  have hnodup : ((newestFirst runs).map ScreenRun.id).Nodup := (hperm.map _).nodup_iff.mpr runs.nodup
  have hba : b = a := List.inj_on_of_nodup_map runs.nodup (hperm.subset (List.mem_of_mem_drop hb)) ha hid
  rw [hba] at hb
  cases hl : newestFirst runs with
  | nil =>
    rw [hl] at hb
    cases hb
  | cons x rest =>
    -- the first one is not pruned, so it is another, and no older
    rw [hl] at hb hsorted hnodup
    have harest : a ∈ rest := List.mem_of_mem_drop hb
    have hx : x ∈ runs.rows := hperm.subset (by rw [hl]; exact List.mem_cons_self)
    have hne : x.id ≠ a.id := by
      intro hxa
      exact (List.nodup_cons.mp hnodup).1 (hxa ▸ List.mem_map_of_mem harest)
    exact (hnewest x hx hne).not_ge ((List.pairwise_cons.mp hsorted).1 a harest)

end StratTrader.Screener
