import StratTrader.Foundation.Python
import StratTrader.Foundation.Runs

/-!
# A backtest run and its writers

`run_backtest` of `backtest/tasks.py`, with the loop of `walk_forward`, and `BacktestRunCancelView`.
All read the row of the run and write it back later: the task the whole row at its end, the view
the status alone. A state here is the row with the executions and the posts under way, each with
the copy that it has read; a step is one access to the row.

## What is proved

* `sound_program`: a break of the loop over the windows never skips a check behind it.

## Honest scope

The row is not deleted. Its segments and report are other tables, and `updated_at` and the metrics
are left out. What is computed between two accesses, and what it raises, is free.
-/

namespace StratTrader.Backtest

open StratTrader.Foundation

/-! ### The row -/

/-- `BacktestRun.Status`. -/
inductive Status where
  /-- `QUEUED`. -/
  | queued
  /-- `RUNNING`. -/
  | running
  /-- `CANCELLING`. -/
  | cancelling
  /-- `COMPLETED`. -/
  | completed
  /-- `FAILED`. -/
  | failed
  /-- `CANCELLED`. -/
  | cancelled
  deriving DecidableEq

/-- Whether a status is one of `TERMINAL_STATUSES`. -/
def Status.isTerminal : Status → Bool
  | completed | failed | cancelled => true
  | queued | running | cancelling => false

/-- `BacktestRun.Stage`. -/
inductive Stage where
  /-- `queued`. -/
  | queued
  /-- `loading`. -/
  | loading
  /-- `sweeping`. -/
  | sweeping
  /-- `replaying`. -/
  | replaying
  /-- `reporting`. -/
  | reporting
  deriving DecidableEq

/-- What the task reads of `config`. -/
structure Config where
  /-- `symbols`. -/
  symbols : List String
  /-- How many windows `compute_windows` makes of the dates. -/
  windows : ℕ

/-- `BacktestRun`. -/
structure BacktestRun where
  /-- `config`. -/
  config : Config
  /-- `status`. -/
  status : Status := .queued
  /-- `stage`. -/
  stage : Stage := .queued
  /-- `pct`. -/
  pct : ℕ := 0
  /-- `error_code`. -/
  errorCode : String := ""
  /-- `error_message`. -/
  errorMessage : String := ""
  /-- `summary`. -/
  summary : String := ""
  /-- `metrics_hash`. -/
  metricsHash : String := ""
  /-- `celery_task_id`. -/
  celeryTaskId : String := ""
  /-- `started_at`. -/
  startedAt : Option ℕ := none
  /-- `finished_at`. -/
  finishedAt : Option ℕ := none

namespace BacktestRun

variable (run : BacktestRun)

/-- `_terminal`. -/
def terminal (status : Status) (now : ℕ) : BacktestRun :=
  { run with
    status := status
    stage := if status = .completed then .reporting else run.stage
    pct := if status = .completed then 100 else run.pct
    finishedAt := some now }

/-- `_fail`. -/
def fail (code message : String) (now : ℕ) : BacktestRun :=
  { run with
    status := .failed
    errorCode := code
    errorMessage := truncate (if message = "" then code else message) 500
    finishedAt := some now }

/-- The columns that are saved when the task starts. -/
def start (taskId : String) (now : ℕ) : BacktestRun :=
  { run with status := .running, startedAt := some now, celeryTaskId := taskId, stage := .loading }

@[simp] theorem status_terminal (status : Status) (now : ℕ) : (run.terminal status now).status = status := rfl

@[simp] theorem status_fail (code message : String) (now : ℕ) : (run.fail code message now).status = .failed := rfl

end BacktestRun

/-! ### The task -/

/-- An access of `_execute` to the row. -/
inductive TaskOp where
  /-- `if should_cancel(): raise _Cancelled()`. -/
  | check
  /-- `if should_cancel(): break`, with as many accesses left in the loop. -/
  | windowCheck (left : ℕ)
  /-- `prog.update`. -/
  | progress (stage : Stage) (windowInc : ℕ) (pct : Option ℕ)
  deriving DecidableEq

/-- The loop of `walk_forward`, for as many windows. -/
def windowLoop : ℕ → List TaskOp
  | 0 => []
  | n + 1 => .windowCheck (2 * n + 1) :: .progress .sweeping 1 none :: windowLoop n

/-- The loop of `_execute`, for one symbol. -/
def symbolOps (windows : ℕ) : List TaskOp :=
  [.check, .progress .loading 0 none] ++ windowLoop windows ++ [.check, .progress .replaying 0 none]

/-- `_execute`, up to its last save. -/
def program (config : Config) : List TaskOp :=
  config.symbols.flatMap (fun _ => symbolOps config.windows) ++ [.progress .reporting 0 (some 95)]

/-- What an exception says. -/
inductive TaskError where
  /-- `SoftTimeLimitExceeded`. -/
  | timeLimit
  /-- `BacktestError`. -/
  | backtest (code message : String)
  /-- Any other. -/
  | other (text : String)

/-- The code of an exception. -/
def TaskError.code : TaskError → String
  | timeLimit => "BACKTEST_TIME_CAP"
  | backtest code _ => code
  | other _ => "BACKTEST_ERROR"

/-- Its message. -/
def TaskError.message : TaskError → String
  | timeLimit => "Run exceeded the 25-minute soft time limit."
  | backtest _ message => message
  | other text => truncate text 400

/-- Where an execution stands. -/
inductive Control where
  /-- It has read the row. -/
  | fetched
  /-- It is in `_execute`, with these accesses left and as many windows done. -/
  | executing (ops : List TaskOp) (done : ℕ)
  /-- `_Cancelled` has been raised. -/
  | cancelled
  /-- Another exception has been. -/
  | failing (error : TaskError)
  /-- The last save of `_execute` is made. -/
  | completed

/-- An execution of `run_backtest`. -/
structure Execution where
  /-- Where it stands. -/
  control : Control
  /-- Its copy of the row. -/
  run : BacktestRun

/-- What an execution does. -/
inductive TaskAct where
  /-- Look at the flag and the copy, and save. -/
  | start (enabled : Bool) (taskId : String) (now : ℕ)
  /-- The next access. -/
  | advance
  /-- An exception. -/
  | raise (error : TaskError)
  /-- The save that an exception leads to. -/
  | save (now : ℕ)
  /-- What was computed is noted in the copy. -/
  | summarize (summary metricsHash : String)
  /-- The last save. -/
  | complete (now : ℕ)
  /-- The worker is gone, or the task is over. -/
  | leave

/-- `_Progress.update`, of the percentage. -/
def progressPct (config : Config) (done : ℕ) (pct : Option ℕ) : ℕ :=
  pct.getD (90 * done / max 1 (config.symbols.length * config.windows))

/-- A step of `run_backtest`: the row behind it, and the execution if it is not over. -/
def Execution.step (row : BacktestRun) (e : Execution) : TaskAct → Option (BacktestRun × Option Execution)
  | .start enabled taskId now =>
    match e.control with
    | .fetched =>
      if !enabled then some (e.run.fail "BACKTEST_DISABLED" "Backtesting is disabled." now, none)
      else if e.run.status = .cancelling then some (e.run.terminal .cancelled now, none)
      else some (row.start taskId now, some ⟨.executing (program e.run.config) 0, e.run.start taskId now⟩)
    | _ => none
  | .advance =>
    match e.control with
    | .executing (.check :: ops) done =>
      some (row, some ⟨if row.status = .cancelling then .cancelled else .executing ops done, e.run⟩)
    | .executing (.windowCheck left :: ops) done =>
      some (row, some ⟨.executing (if row.status = .cancelling then ops.drop left else ops) done, e.run⟩)
    | .executing (.progress stage windowInc pct :: ops) done =>
      let pct := progressPct e.run.config (done + windowInc) pct
      some ({ row with stage := stage, pct := pct },
        some ⟨.executing ops (done + windowInc), { e.run with stage := stage, pct := pct }⟩)
    | _ => none
  | .raise error =>
    match e.control with
    | .executing _ _ | .completed => some (row, some ⟨.failing error, e.run⟩)
    | _ => none
  | .save now =>
    match e.control with
    | .cancelled => some (e.run.terminal .cancelled now, none)
    | .failing error => some (e.run.fail error.code error.message now, none)
    | _ => none
  | .summarize summary metricsHash =>
    match e.control with
    | .executing [] _ => some (row, some { e with run := { e.run with summary := summary, metricsHash := metricsHash } })
    | _ => none
  | .complete now =>
    match e.control with
    | .executing [] _ => some (e.run.terminal .completed now, some ⟨.completed, e.run.terminal .completed now⟩)
    | _ => none
  | .leave => some (row, none)

/-! ### The row and its writers -/

/-- The row, and who has read it and is not done. -/
structure RunState where
  /-- The row. -/
  row : BacktestRun
  /-- The executions. -/
  executions : List Execution := []
  /-- The copies of the cancel posts. -/
  posts : List BacktestRun := []
  /-- Whether a cancel was accepted. -/
  accepted : Bool := false

/-- What happens in a step. -/
inductive Act where
  /-- The task is delivered, and reads the row. -/
  | deliver
  /-- An execution goes on. -/
  | execution (i : ℕ) (act : TaskAct)
  /-- A cancel post reads the row. -/
  | post
  /-- It refuses, or writes and answers 202. -/
  | answer (i : ℕ)

/-- The executions, after one of them has gone on. -/
def replaced (es : List Execution) (i : ℕ) : Option Execution → List Execution
  | some e => es.set i e
  | none => es.eraseIdx i

/-- A step; `none` where there is no such execution or post, or it does not stand there. -/
def RunState.apply (s : RunState) : Act → Option RunState
  | .deliver => some { s with executions := s.executions ++ [⟨.fetched, s.row⟩] }
  | .execution i act =>
    s.executions[i]?.bind fun e => (e.step s.row act).map fun (row, next) =>
      { s with row := row, executions := replaced s.executions i next }
  | .post => some { s with posts := s.posts ++ [s.row] }
  | .answer i =>
    s.posts[i]?.map fun copy =>
      if copy.status.isTerminal then { s with posts := s.posts.eraseIdx i }
      else
        { s with row := { s.row with status := .cancelling }, posts := s.posts.eraseIdx i, accepted := true }

/-- The steps. -/
def Step (s : RunState) (act : Act) (t : RunState) : Prop := s.apply act = some t

/-! ### Breaks and checks -/

/-- No break skips a check. -/
def SoundOps : List TaskOp → Prop
  | [] => True
  | .windowCheck left :: ops => .check ∉ ops.take left ∧ SoundOps ops
  | _ :: ops => SoundOps ops

theorem SoundOps.tail {op : TaskOp} {ops : List TaskOp} (h : SoundOps (op :: ops)) : SoundOps ops := by
  cases op with
  | check => exact h
  | windowCheck left => exact h.2
  | progress stage windowInc pct => exact h

theorem SoundOps.drop {ops : List TaskOp} (h : SoundOps ops) (n : ℕ) : SoundOps (ops.drop n) := by
  induction n generalizing ops with
  | zero => exact h
  | succ n ih =>
    cases ops with
    | nil => exact h
    | cons op ops => exact ih h.tail

/-- What is left behind a break holds the checks that were left before it. -/
theorem SoundOps.check_mem_drop {left : ℕ} {ops : List TaskOp} (h : SoundOps (.windowCheck left :: ops))
    (hcheck : .check ∈ ops) : .check ∈ ops.drop left := by
  rw [← List.take_append_drop left ops] at hcheck
  exact (List.mem_append.mp hcheck).resolve_left h.1

theorem length_windowLoop (n : ℕ) : (windowLoop n).length = 2 * n := by
  induction n with
  | zero => rfl
  | succ n ih =>
    rw [windowLoop, List.length_cons, List.length_cons, ih]
    omega

theorem check_not_mem_windowLoop (n : ℕ) : .check ∉ windowLoop n := by
  induction n with
  | zero => exact List.not_mem_nil
  | succ n ih =>
    rw [windowLoop]
    simp [ih]

theorem soundOps_windowLoop (n : ℕ) {ops : List TaskOp} (h : SoundOps ops) : SoundOps (windowLoop n ++ ops) := by
  induction n with
  | zero => exact h
  | succ n ih =>
    refine ⟨?_, ih⟩
    -- the break leads to the end of the loop
    have htake : (TaskOp.progress .sweeping 1 none :: (windowLoop n ++ ops)).take (2 * n + 1) =
        .progress .sweeping 1 none :: windowLoop n := by
      rw [List.take_succ_cons, ← length_windowLoop n, List.take_left]
    change .check ∉ (TaskOp.progress .sweeping 1 none :: (windowLoop n ++ ops)).take (2 * n + 1)
    rw [htake]
    simp [check_not_mem_windowLoop]

/-- **No break of the loop over the windows skips a check behind it.** -/
theorem sound_program (config : Config) : SoundOps (program config) := by
  unfold program
  induction config.symbols with
  | nil => trivial
  | cons symbol symbols ih =>
    rw [List.flatMap_cons, List.append_assoc]
    unfold symbolOps
    rw [List.append_assoc, List.append_assoc]
    exact soundOps_windowLoop _ ih

end StratTrader.Backtest
