import StratTrader.Backtest.Tasks

/-!
# The life cycle of a backtest run

A status that is in `TERMINAL_STATUSES` is to stay, and a run of which a cancel was accepted is not
to be completed. Neither save of the task looks at the status that is stored, and nor does that of
the view.

## What is proved

* `Execution.step_keeps`: what a step of an execution keeps.
* `lifecycle_stays`: both hold in every run in which no delivery comes while another execution is
  there or when the run is over, no cancel is written when the run is over or no check is left
  that would see it, and nothing is raised behind the last save.
* `not_lifecycle_stays`: and not without these conditions.
-/

namespace StratTrader.Backtest

open StratTrader.Foundation

/-! ### The conditions -/

/-- The execution would still notice a cancel. -/
def Execution.Watches (e : Execution) : Prop :=
  match e.control with
  | .fetched => e.run.status = .cancelling
  | .executing ops _ => .check ∈ ops
  | .cancelled | .failing _ => True
  | .completed => False

/-- The task is not delivered twice at a time or when the run is over, no cancel is written too late, and nothing is
raised behind the last save. -/
def Orderly (s : RunState) : Act → Prop
  | .deliver => s.executions = [] ∧ s.row.status.isTerminal = false
  | .execution i (.raise _) => ∀ e, s.executions[i]? = some e → e.control ≠ .completed
  | .execution _ _ | .post => True
  | .answer i => ∀ copy, s.posts[i]? = some copy → copy.status.isTerminal = false →
      s.row.status.isTerminal = false ∧ ∀ e ∈ s.executions, e.Watches

/-! ### What a step of an execution keeps -/

/-- The execution fits the row. -/
structure Execution.Fits (e : Execution) (row : BacktestRun) (accepted : Bool) : Prop where
  /-- No break skips a check. -/
  sound : ∀ ops done, e.control = .executing ops done → SoundOps ops
  /-- Behind its last save the run is completed. -/
  completed : e.control = .completed → row.status = .completed
  /-- Before it the run is not over. -/
  active : e.control ≠ .completed → row.status.isTerminal = false
  /-- It would notice a cancel that was accepted. -/
  watches : accepted = true → row.status = .cancelling → e.Watches

/-- A cancel that was accepted has not been lost. -/
def Remembered (row : BacktestRun) (accepted : Bool) : Prop :=
  accepted = true → row.status = .cancelling ∨ row.status = .cancelled ∨ row.status = .failed

section
variable {row : BacktestRun} {run : BacktestRun} {accepted : Bool}

theorem none_fits : ∀ e, (none : Option Execution) = some e → e.Fits row accepted := fun _ h => nomatch h

/-- An execution that is not behind its last save, with a row that is not over and no cancel to notice. -/
theorem fits_of_active {control : Control} (hsound : ∀ ops done, control = .executing ops done → SoundOps ops)
    (hactive : row.status.isTerminal = false) (hcontrol : control ≠ .completed)
    (hwatches : accepted = true → row.status = .cancelling → Execution.Watches ⟨control, run⟩) :
    Execution.Fits ⟨control, run⟩ row accepted :=
  ⟨hsound, fun h => absurd h hcontrol, fun _ => hactive, hwatches⟩

/-- A cancel that was accepted and that the execution would not notice is no longer to be. -/
theorem not_accepted {e : Execution} (hfits : e.Fits row accepted) (hremembered : Remembered row accepted)
    (hactive : e.control ≠ .completed) (hwatches : ¬ e.Watches) : accepted = false := by
  rw [← Bool.not_eq_true]
  intro haccepted
  have hrow := hfits.active hactive
  rcases hremembered haccepted with hstatus | hstatus | hstatus
  · exact hwatches (hfits.watches haccepted hstatus)
  · rw [hstatus] at hrow
    cases hrow
  · rw [hstatus] at hrow
    cases hrow

theorem check_mem_tail {op : TaskOp} {ops : List TaskOp} (h : .check ∈ op :: ops) (hop : op ≠ .check) :
    .check ∈ ops := (List.mem_cons.mp h).resolve_left hop.symm

/-- What a step of an execution keeps: a status that is final, a cancel, and that the execution fits. -/
structure Keeps (row row' : BacktestRun) (next : Option Execution) (accepted : Bool) : Prop where
  /-- A status that is final stays. -/
  final : row.status.isTerminal = true → row'.status = row.status
  /-- A cancel is not lost. -/
  remembered : Remembered row' accepted
  /-- The execution fits. -/
  fits : ∀ e, next = some e → e.Fits row' accepted

/-- A row that is not over has no final status to keep. -/
theorem keeps_of_active {row' : BacktestRun} {next : Option Execution} (hactive : row.status.isTerminal = false)
    (hremembered : Remembered row' accepted) (hfits : ∀ e, next = some e → e.Fits row' accepted) :
    Keeps row row' next accepted := by
  refine ⟨fun hfinal => ?_, hremembered, hfits⟩
  rw [hactive] at hfinal
  cases hfinal

variable {row' : BacktestRun} {control : Control} {next : Option Execution}

/-- The start. -/
theorem start_keeps {enabled : Bool} {taskId : String} {now : ℕ}
    (h : Execution.step row ⟨control, run⟩ (.start enabled taskId now) = some (row', next))
    (hfits : Execution.Fits ⟨control, run⟩ row accepted) (hremembered : Remembered row accepted) :
    Keeps row row' next accepted := by
  cases control with
  | fetched =>
    have hactive : row.status.isTerminal = false := hfits.active nofun
    simp only [Execution.step] at h
    split_ifs at h with henabled hcancel
    · cases h
      exact keeps_of_active hactive (fun _ => .inr (.inr (run.status_fail ..))) none_fits
    · cases h
      exact keeps_of_active hactive (fun _ => .inr (.inl (run.status_terminal ..))) none_fits
    · -- the status is overwritten, but there is no cancel that could be lost
      have haccepted : accepted = false := not_accepted hfits hremembered nofun hcancel
      cases h
      refine keeps_of_active hactive (fun h => absurd (haccepted.symm.trans h) Bool.false_ne_true) ?_
      intro e he
      cases he
      refine fits_of_active ?_ rfl nofun nofun
      intro ops done hops
      cases hops
      exact sound_program _
  | executing ops done => cases h
  | cancelled => cases h
  | failing error => cases h
  | completed => cases h

/-- The next access. -/
theorem advance_keeps (h : Execution.step row ⟨control, run⟩ .advance = some (row', next))
    (hfits : Execution.Fits ⟨control, run⟩ row accepted) (hremembered : Remembered row accepted) :
    Keeps row row' next accepted := by
  cases control with
  | executing ops done =>
    have hactive : row.status.isTerminal = false := hfits.active nofun
    have hsound := hfits.sound ops done rfl
    cases ops with
    | nil => cases h
    | cons op ops =>
      have hwatches : accepted = true → row.status = .cancelling → .check ∈ op :: ops := hfits.watches
      cases op with
      | check =>
        cases h
        refine keeps_of_active hactive hremembered ?_
        intro e he
        cases he
        split_ifs with hcancel
        · exact fits_of_active nofun hactive nofun fun _ _ => trivial
        · refine fits_of_active ?_ hactive nofun fun _ hstatus => absurd hstatus hcancel
          intro ops' done' hops
          cases hops
          exact hsound
      | windowCheck left =>
        have hmem : accepted = true → row.status = .cancelling → .check ∈ ops := fun haccepted hstatus =>
          check_mem_tail (hwatches haccepted hstatus) nofun
        cases h
        refine keeps_of_active hactive hremembered ?_
        intro e he
        cases he
        refine fits_of_active ?_ hactive nofun ?_
        · intro ops' done' hops
          cases hops
          split_ifs
          · exact hsound.tail.drop left
          · exact hsound.tail
        · intro haccepted hstatus
          change .check ∈ if row.status = .cancelling then ops.drop left else ops
          rw [if_pos hstatus]
          exact hsound.check_mem_drop (hmem haccepted hstatus)
      | progress stage windowInc pct =>
        have hmem : accepted = true → row.status = .cancelling → .check ∈ ops := fun haccepted hstatus =>
          check_mem_tail (hwatches haccepted hstatus) nofun
        cases h
        refine keeps_of_active hactive hremembered ?_
        intro e he
        cases he
        refine fits_of_active ?_ hactive nofun hmem
        intro ops' done' hops
        cases hops
        exact hsound
  | fetched => cases h
  | cancelled => cases h
  | failing error => cases h
  | completed => cases h

/-- An exception. -/
theorem raise_keeps {error : TaskError}
    (h : Execution.step row ⟨control, run⟩ (.raise error) = some (row', next))
    (hfits : Execution.Fits ⟨control, run⟩ row accepted) (hremembered : Remembered row accepted)
    (hcontrol : control ≠ .completed) : Keeps row row' next accepted := by
  cases control with
  | executing ops done =>
    cases h
    refine keeps_of_active (hfits.active nofun) hremembered ?_
    intro e he
    cases he
    exact fits_of_active nofun (hfits.active nofun) nofun fun _ _ => trivial
  | completed => exact absurd rfl hcontrol
  | fetched => cases h
  | cancelled => cases h
  | failing error' => cases h

/-- The save that it leads to. -/
theorem save_keeps {now : ℕ} (h : Execution.step row ⟨control, run⟩ (.save now) = some (row', next))
    (hfits : Execution.Fits ⟨control, run⟩ row accepted) : Keeps row row' next accepted := by
  cases control with
  | cancelled =>
    have hactive : row.status.isTerminal = false := hfits.active nofun
    cases h
    exact keeps_of_active hactive (fun _ => .inr (.inl (run.status_terminal ..))) none_fits
  | failing error =>
    have hactive : row.status.isTerminal = false := hfits.active nofun
    cases h
    exact keeps_of_active hactive (fun _ => .inr (.inr (run.status_fail ..))) none_fits
  | fetched => cases h
  | executing ops done => cases h
  | completed => cases h

/-- The note of what was computed. -/
theorem summarize_keeps {summary metricsHash : String}
    (h : Execution.step row ⟨control, run⟩ (.summarize summary metricsHash) = some (row', next))
    (hfits : Execution.Fits ⟨control, run⟩ row accepted) (hremembered : Remembered row accepted) :
    Keeps row row' next accepted := by
  cases control with
  | executing ops done =>
    cases ops with
    | nil =>
      cases h
      refine keeps_of_active (hfits.active nofun) hremembered ?_
      intro e he
      cases he
      exact ⟨hfits.sound, hfits.completed, hfits.active, hfits.watches⟩
    | cons op ops => cases h
  | fetched => cases h
  | cancelled => cases h
  | failing error => cases h
  | completed => cases h

/-- The last save. -/
theorem complete_keeps {now : ℕ}
    (h : Execution.step row ⟨control, run⟩ (.complete now) = some (row', next))
    (hfits : Execution.Fits ⟨control, run⟩ row accepted) (hremembered : Remembered row accepted) :
    Keeps row row' next accepted := by
  cases control with
  | executing ops done =>
    cases ops with
    | nil =>
      -- no check is left, so there is no cancel that could be lost
      have haccepted : accepted = false := not_accepted hfits hremembered nofun List.not_mem_nil
      have hactive : row.status.isTerminal = false := hfits.active nofun
      cases h
      refine keeps_of_active hactive (fun h => absurd (haccepted.symm.trans h) Bool.false_ne_true) ?_
      intro e he
      cases he
      exact ⟨nofun, fun _ => rfl, fun h => absurd rfl h, fun h => absurd (haccepted.symm.trans h) Bool.false_ne_true⟩
    | cons op ops => cases h
  | fetched => cases h
  | cancelled => cases h
  | failing error => cases h
  | completed => cases h

end

/-- **A step of an execution leaves a status that is final, and loses no cancel.** -/
theorem Execution.step_keeps {row row' : BacktestRun} {e : Execution} {act : TaskAct} {next : Option Execution}
    {accepted : Bool} (h : e.step row act = some (row', next)) (hfits : e.Fits row accepted)
    (hremembered : Remembered row accepted) (hraise : ∀ error, act = .raise error → e.control ≠ .completed) :
    Keeps row row' next accepted := by
  cases act with
  | start enabled taskId now => exact start_keeps h hfits hremembered
  | advance => exact advance_keeps h hfits hremembered
  | raise error => exact raise_keeps h hfits hremembered (hraise error rfl)
  | save now => exact save_keeps h hfits
  | summarize summary metricsHash => exact summarize_keeps h hfits hremembered
  | complete now => exact complete_keeps h hfits hremembered
  | leave =>
    cases h
    exact ⟨fun _ => rfl, hremembered, none_fits⟩

/-! ### What a step keeps -/

/-- There is one execution at most, which fits, and a cancel has not been lost. -/
structure Kept (s : RunState) : Prop where
  /-- The execution. -/
  alone : s.executions = [] ∨ ∃ e, s.executions = [e] ∧ e.Fits s.row s.accepted
  /-- The cancel. -/
  remembered : Remembered s.row s.accepted

/-- **An orderly step leaves a status that is final.** -/
theorem Step.keeps {s t : RunState} {act : Act} (h : Step s act t) (horderly : Orderly s act) (hkept : Kept s) :
    Kept t ∧ (s.row.status.isTerminal = true → t.row.status = s.row.status) := by
  obtain ⟨halone, hremembered⟩ := hkept
  cases act with
  | deliver =>
    obtain ⟨hnone, hactive⟩ := horderly
    cases h
    refine ⟨⟨.inr ⟨⟨.fetched, s.row⟩, ?_, ?_⟩, hremembered⟩, fun _ => rfl⟩
    · exact congrArg (· ++ [⟨.fetched, s.row⟩]) hnone
    · exact fits_of_active nofun hactive nofun fun _ hstatus => hstatus
  | execution i act =>
    obtain ⟨e, he, hnext⟩ := Option.bind_eq_some_iff.mp h
    obtain ⟨⟨row, next⟩, hstep, rfl⟩ := Option.map_eq_some_iff.mp hnext
    rcases halone with hnone | ⟨only, hone, hfits⟩
    · rw [hnone] at he
      cases he
    · rw [hone] at he
      cases i with
      | succ i => cases he
      | zero =>
        cases he
        have hraise : ∀ error, act = .raise error → e.control ≠ .completed := by
          rintro error rfl
          exact horderly e (by rw [hone]; rfl)
        obtain ⟨hfinal, hremembered', hfits'⟩ := Execution.step_keeps hstep hfits hremembered hraise
        refine ⟨⟨?_, hremembered'⟩, hfinal⟩
        dsimp only
        rw [hone]
        cases next with
        | none => exact .inl rfl
        | some e => exact .inr ⟨e, rfl, hfits' e rfl⟩
  | post =>
    cases h
    exact ⟨⟨halone, hremembered⟩, fun _ => rfl⟩
  | answer i =>
    obtain ⟨copy, hcopy, rfl⟩ := Option.map_eq_some_iff.mp h
    split_ifs with hcopy'
    · exact ⟨⟨halone, hremembered⟩, fun _ => rfl⟩
    · obtain ⟨hactive, hwatches⟩ := horderly copy hcopy (Bool.eq_false_iff.mpr hcopy')
      refine ⟨⟨?_, fun _ => .inl rfl⟩, fun hfinal => ?_⟩
      · rcases halone with hnone | ⟨only, hone, hfits⟩
        · exact .inl hnone
        · have honly : only.Watches := hwatches only (by rw [hone]; exact List.mem_singleton_self only)
          refine .inr ⟨only, hone, hfits.sound, fun hcontrol => ?_, fun _ => rfl, fun _ _ => honly⟩
          unfold Execution.Watches at honly
          rw [hcontrol] at honly
          exact honly.elim
      · rw [hactive] at hfinal
        cases hfinal

/-- A run that has just been created. -/
def RunState.initial (config : Config) : RunState := { row := { config := config } }

theorem kept_initial (config : Config) : Kept (RunState.initial config) := ⟨.inl rfl, nofun⟩

/-- A cancel that was accepted stays so. -/
theorem Step.accepted {s t : RunState} {act : Act} (h : Step s act t) (haccepted : s.accepted = true) :
    t.accepted = true := by
  cases act with
  | deliver =>
    cases h
    exact haccepted
  | execution i act =>
    obtain ⟨e, -, hnext⟩ := Option.bind_eq_some_iff.mp h
    obtain ⟨-, -, rfl⟩ := Option.map_eq_some_iff.mp hnext
    exact haccepted
  | post =>
    cases h
    exact haccepted
  | answer i =>
    obtain ⟨copy, -, rfl⟩ := Option.map_eq_some_iff.mp h
    split_ifs
    · exact haccepted
    · rfl

/-- **In an orderly run a status that is final stays, and a run of which a cancel was accepted is not completed.** -/
theorem lifecycle_stays {config : Config} {s t : RunState} (hs : Run Step Orderly (.initial config) s)
    (ht : Run Step Orderly s t) :
    (s.row.status.isTerminal = true → t.row.status = s.row.status) ∧
      (s.accepted = true → t.row.status ≠ .completed) := by
  have hkept : Kept s :=
    hs.invariant Kept (kept_initial config) fun hstep horderly h => (hstep.keeps horderly h).1
  obtain ⟨hkept', hfinal, haccepted⟩ : Kept t ∧ (s.row.status.isTerminal = true → t.row.status = s.row.status) ∧
      (s.accepted = true → t.accepted = true) := by
    refine ht.invariant (fun t => Kept t ∧ (s.row.status.isTerminal = true → t.row.status = s.row.status) ∧
      (s.accepted = true → t.accepted = true)) ⟨hkept, fun _ => rfl, id⟩ ?_
    rintro act u v hstep horderly ⟨hu, hfinal, haccepted⟩
    obtain ⟨hv, hstays⟩ := hstep.keeps horderly hu
    refine ⟨hv, fun h => ?_, fun h => hstep.accepted (haccepted h)⟩
    have hsame := hfinal h
    rw [← hsame] at h
    exact (hstays h).trans hsame
  refine ⟨hfinal, fun h hcompleted => ?_⟩
  rcases hkept'.remembered (haccepted h) with hstatus | hstatus | hstatus <;>
    exact absurd (hstatus.symm.trans hcompleted) (by decide)

/-- A run over one symbol and two windows. -/
def sampleConfig : Config := ⟨["AAPL"], 2⟩

/-- A cancel that is accepted before the task is delivered. -/
theorem lifecycle_stays_sample :
    ∃ s t, follow RunState.apply [.post, .answer 0] (.initial sampleConfig) = some s ∧
      follow RunState.apply [.deliver, .execution 0 (.start true "task" 1)] s = some t ∧
      (s.row.status.isTerminal = true → t.row.status = s.row.status) ∧
      (s.accepted = true → t.row.status ≠ .completed) := by
  obtain ⟨s, hs⟩ : ∃ s, follow RunState.apply [.post, .answer 0] (.initial sampleConfig) = some s := ⟨_, rfl⟩
  obtain ⟨t, ht⟩ : ∃ t, follow RunState.apply [.deliver, .execution 0 (.start true "task" 1)] s = some t := by
    cases hs
    exact ⟨_, rfl⟩
  refine ⟨s, t, hs, ht, @lifecycle_stays sampleConfig s t ?_ ?_⟩
  · refine run_of_follow hs ⟨trivial, fun u hu => ⟨fun _ _ _ => ?_, fun _ _ => trivial⟩⟩
    cases hu
    exact ⟨rfl, fun _ h => nomatch h⟩
  · refine run_of_follow ht ⟨?_, fun _ _ => ⟨trivial, fun _ _ => trivial⟩⟩
    cases hs
    exact ⟨rfl, rfl⟩

/-! ### Runs that are not orderly -/

/-- An execution that has made all its accesses but the last save. -/
def lastSaveAhead : List Act :=
  [.deliver, .execution 0 (.start true "task" 1)] ++ (program sampleConfig).map fun _ => .execution 0 .advance

/-- **A cancel that is read before the last save and written behind it changes a status that is final, and one that is
written just before it is lost.** -/
theorem not_lifecycle_stays :
    (¬ ∀ (config : Config) (s t : RunState), Run Step AnyStep (.initial config) s → Run Step AnyStep s t →
      s.row.status.isTerminal = true → t.row.status = s.row.status) ∧
    ¬ ∀ (config : Config) (t : RunState), Run Step AnyStep (.initial config) t → t.accepted = true →
      t.row.status ≠ .completed := by
  refine ⟨fun h => ?_, fun h => ?_⟩
  · obtain ⟨s, hs⟩ : ∃ s, follow RunState.apply (lastSaveAhead ++ [.post, .execution 0 (.complete 2)]) (.initial sampleConfig) = some s :=
      ⟨_, rfl⟩
    obtain ⟨t, ht⟩ : ∃ t, follow RunState.apply [.answer 0] s = some t := by
      cases hs
      exact ⟨_, rfl⟩
    have hstays := h sampleConfig s t (run_of_follow hs (along_anyStep _ _)) (run_of_follow ht (along_anyStep _ _))
    cases hs
    cases ht
    exact absurd (hstays rfl) (by decide)
  · obtain ⟨t, ht⟩ : ∃ t, follow RunState.apply (lastSaveAhead ++ [.post, .answer 0, .execution 0 (.complete 2)])
        (.initial sampleConfig) = some t := ⟨_, rfl⟩
    have hlost := h sampleConfig t (run_of_follow ht (along_anyStep _ _))
    cases ht
    exact hlost rfl rfl

end StratTrader.Backtest
