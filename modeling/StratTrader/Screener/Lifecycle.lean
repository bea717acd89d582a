import StratTrader.Screener.Tasks
import StratTrader.Foundation.Once

/-!
# The life cycle of a screen run

A run that is done or has failed is to stay so, one run is to be active at a time, and no
execution is to end in an exception. The index sees to the second. But a run that was taken for
abandoned is not stopped by that: its task sets it to `RUNNING` when it comes, or meets the index
when there is another run by then, and saves what it has made of it in any case.

## What is proved

* `Execution.step_does`: what a step of an execution does to the table.
* `Step.keeps`: what an orderly step keeps.
* `screen_runs_stay`: all three hold in every run in which no run is reaped while its task is being
  executed, no task is delivered while its run is being executed or is over, runs are created one
  after another, and the soft time limit comes within `_execute`.
* `not_screen_runs_stay`: and not without these conditions.
-/

namespace StratTrader.Screener

open StratTrader.Foundation

/-- An execution that may still save its run. -/
def Execution.isLive (e : Execution) : Bool :=
  match e.control with
  | .fetched | .executing | .finishing | .failing _ => true
  | .pruning _ | .deleting _ _ | .returned | .raised | .gone => false

/-- No run is reaped while it is executed, or delivered while it is executed or is over; runs are created one after
another, and the soft time limit comes within `_execute`. -/
def Orderly (s : ScreenState) : Act → Prop
  | .reap _ now => ∀ e ∈ s.executions, e.isLive = true → ∀ a, s.runs.find? e.run.id = some a → a.isAbandoned now = false
  | .insert _ now => ∀ id a, s.runs.find? id = some a → a.createdAt < now
  | .deliver id =>
    (∀ a, s.runs.find? id = some a → a.isActive = true) ∧ ∀ e ∈ s.executions, e.isLive = true → e.run.id ≠ id
  | .execution i .interrupt => ∀ e, s.executions[i]? = some e → e.control = .executing
  | .execution _ _ | .post | .look _ | .send _ => True

/-! ### Tables that grow older -/

/-- No row is new, and a row that is not active keeps its status. -/
def Ages (runs runs' : Runs) : Prop :=
  ∀ id b, runs'.find? id = some b →
    ∃ a, runs.find? id = some a ∧ a.createdAt = b.createdAt ∧ (a.isActive = false → b.status = a.status)

section
variable {runs runs' : Runs}

theorem Ages.refl (runs : Runs) : Ages runs runs := fun _ b hb => ⟨b, hb, rfl, fun _ => rfl⟩

/-- A row that is active was so before. -/
theorem Ages.isActive (h : Ages runs runs') {id : ℕ} {b : ScreenRun} (hb : runs'.find? id = some b)
    (hactive : b.isActive = true) :
    ∃ a, runs.find? id = some a ∧ a.createdAt = b.createdAt ∧ a.isActive = true := by
  obtain ⟨a, ha, hcreated, hstatus⟩ := h id b hb
  refine ⟨a, ha, hcreated, ?_⟩
  cases ha' : a.isActive with
  | true => rfl
  | false =>
    have hsame : b.isActive = a.isActive := congrArg Status.isActive (hstatus ha')
    rw [hactive, ha'] at hsame
    cases hsame

/-- A write of a row that is active is not refused. -/
theorem write_active {row : ScreenRun} (run : ScreenRun) (hrow : runs.find? run.id = some row) (hactive : row.isActive = true) :
    ∃ runs', runs.write run = some runs' :=
  Indexed.isSome_write fun _ _ _ hb hb' => Indexed.key_eq hb hrow hb' hactive

/-- Nor does it change another row. -/
theorem ages_of_write {row run : ScreenRun} (h : runs.write run = some runs') (hrow : runs.find? run.id = some row)
    (hactive : row.isActive = true) (hcreated : row.createdAt = run.createdAt) : Ages runs runs' := by
  intro id b hb
  rw [Indexed.find?_of_write h] at hb
  split_ifs at hb with hid
  · cases hb
    rw [hid]
    refine ⟨row, hrow, hcreated, fun hinactive => ?_⟩
    rw [hactive] at hinactive
    cases hinactive
  · exact ⟨b, hb, rfl, fun _ => rfl⟩

theorem ages_of_remove (runs : Runs) (p : ScreenRun → Bool) : Ages runs (runs.remove p) :=
  fun _ b hb => ⟨b, Indexed.find?_of_remove hb, rfl, fun _ => rfl⟩

theorem ages_reapStaleRuns (runs : Runs) (now : ℕ) : Ages runs (reapStaleRuns runs now) := by
  intro id b hb
  unfold reapStaleRuns at hb
  rw [Indexed.find?_update] at hb
  obtain ⟨a, ha, rfl⟩ := Option.map_eq_some_iff.mp hb
  refine ⟨a, ha, ?_, fun hinactive => ?_⟩
  · unfold ScreenRun.reaped
    split_ifs <;> rfl
  · unfold ScreenRun.reaped ScreenRun.isAbandoned
    rw [hinactive]
    rfl

/-- A row that is not taken for abandoned stays. -/
theorem find?_reapStaleRuns {now id : ℕ} {a : ScreenRun} (ha : runs.find? id = some a)
    (hfresh : a.isAbandoned now = false) : (reapStaleRuns runs now).find? id = some a := by
  unfold reapStaleRuns
  rw [Indexed.find?_update, ha, Option.map_some]
  unfold ScreenRun.reaped
  rw [hfresh]
  rfl

end

/-! ### What a step of an execution does -/

/-- The active run is newer than all others, and the ids are those up to the next one. -/
structure Ordered (runs : Runs) (nextId : ℕ) : Prop where
  /-- The ids. -/
  fresh : ∀ id a, runs.find? id = some a → id < nextId
  /-- The active run. -/
  newest : ∀ id a, runs.find? id = some a → a.isActive = true → ∀ k b, runs.find? k = some b → k ≠ id →
    b.createdAt < a.createdAt

/-- An execution fits the table. -/
structure Execution.Fits (e : Execution) (runs : Runs) (nextId : ℕ) : Prop where
  /-- A run that may still be saved is the active one. -/
  live : e.isLive = true → ∃ a, runs.find? e.run.id = some a ∧ a.isActive = true ∧ a.createdAt = e.run.createdAt
  /-- A run that is to be deleted is not. -/
  deletes : ∀ raising ids, e.control = .deleting raising ids → ∀ id ∈ ids,
    id < nextId ∧ ∀ a, runs.find? id = some a → a.isActive = false
  /-- It does not end in an exception. -/
  calm : e.control ≠ .raised ∧ e.control ≠ .pruning true ∧ ∀ ids, e.control ≠ .deleting true ids

section
variable {runs runs' : Runs} {nextId : ℕ}

theorem Ordered.of_ages (h : Ordered runs nextId) (hages : Ages runs runs') : Ordered runs' nextId := by
  refine ⟨fun id b hb => ?_, fun id b hb hactive k c hc hk => ?_⟩
  · obtain ⟨a, ha, -, -⟩ := hages id b hb
    exact h.fresh id a ha
  · obtain ⟨a, ha, hcreated, hactive'⟩ := hages.isActive hb hactive
    obtain ⟨d, hd, hcreated', -⟩ := hages k c hc
    rw [← hcreated, ← hcreated']
    exact h.newest id a ha hactive' k d hd hk

/-- An execution fits a table that has grown older, as long as it leaves it its run. -/
theorem Execution.Fits.of_ages {e : Execution} (h : e.Fits runs nextId) (hages : Ages runs runs')
    (hlive : e.isLive = true → ∀ a, runs.find? e.run.id = some a → a.isActive = true → runs'.find? e.run.id = some a) :
    e.Fits runs' nextId := by
  refine ⟨fun he => ?_, fun raising ids hcontrol id hid => ?_, h.calm⟩
  · obtain ⟨a, ha, hactive, hcreated⟩ := h.live he
    exact ⟨a, hlive he a ha hactive, hactive, hcreated⟩
  · obtain ⟨hlt, hinactive⟩ := h.deletes raising ids hcontrol id hid
    refine ⟨hlt, fun b hb => ?_⟩
    rw [← Bool.not_eq_true]
    intro hactive
    obtain ⟨a, ha, -, hactive'⟩ := hages.isActive hb hactive
    rw [hinactive a ha] at hactive'
    cases hactive'

/-- What a step of an execution does to the table. -/
structure Does (runs runs' : Runs) (e e' : Execution) (nextId : ℕ) : Prop where
  /-- It grows older. -/
  ages : Ages runs runs'
  /-- The active run stays, unless the execution saves it. -/
  others : e.isLive = false → ∀ id a, runs.find? id = some a → a.isActive = true → runs'.find? id = some a
  /-- The execution does not come to life again. -/
  live : e'.isLive = true → e.isLive = true
  /-- It fits. -/
  fits : e'.Fits runs' nextId

/-- A step that leaves the table. -/
theorem does_of_eq {e e' : Execution} (hlive : e'.isLive = true → e.isLive = true) (hfits : e'.Fits runs nextId) :
    Does runs runs e e' nextId :=
  ⟨.refl runs, fun _ _ _ ha _ => ha, hlive, hfits⟩

/-- An execution that may still save the run that it had. -/
theorem fits_of_live {e e' : Execution} (hfits : e.Fits runs nextId) (he : e.isLive = true)
    (hid : e'.run.id = e.run.id) (hcreated : e'.run.createdAt = e.run.createdAt) (he' : e'.isLive = true) :
    e'.Fits runs nextId := by
  refine ⟨fun _ => ?_, fun raising ids hcontrol => ?_, ?_⟩
  · rw [hid, hcreated]
    exact hfits.live he
  · unfold Execution.isLive at he'
    rw [hcontrol] at he'
    cases he'
  · unfold Execution.isLive at he'
    refine ⟨fun h => ?_, fun h => ?_, fun ids h => ?_⟩ <;>
    · rw [h] at he'
      cases he'

/-- An execution that saves nothing any more. -/
theorem fits_of_over {e : Execution} (hlive : e.isLive = false)
    (hcontrol : e.control = .pruning false ∨ e.control = .returned ∨ e.control = .gone) : e.Fits runs nextId := by
  refine ⟨fun h => ?_, fun raising ids h => ?_, ?_⟩
  · rw [hlive] at h
    cases h
  · rw [h] at hcontrol
    rcases hcontrol with h | h | h <;> cases h
  · refine ⟨fun h => ?_, fun h => ?_, fun ids h => ?_⟩ <;>
    · rw [h] at hcontrol
      rcases hcontrol with h | h | h <;> cases h

variable {run : ScreenRun} {control : Control} {e' : Execution}

/-- The first save. -/
theorem start_does {taskId : String} {now : ℕ}
    (h : Execution.step runs ⟨control, run⟩ (.start taskId now) = some (runs', e'))
    (hfits : Execution.Fits ⟨control, run⟩ runs nextId) : Does runs runs' ⟨control, run⟩ e' nextId := by
  cases control with
  | fetched =>
    obtain ⟨row, hrow, hactive, hcreated⟩ := hfits.live rfl
    have hrow : runs.find? run.id = some row := hrow
    have hid : row.id = run.id := Table.key_of_find? hrow
    have hid : (row.start taskId now).id = run.id := hid
    obtain ⟨written, hwrite⟩ := write_active (row.start taskId now) (by rw [hid]; exact hrow) hactive
    simp only [Execution.step, hrow, hwrite, Option.some.injEq, Prod.mk.injEq] at h
    obtain ⟨rfl, rfl⟩ := h
    refine ⟨ages_of_write hwrite (by rw [hid]; exact hrow) hactive rfl, nofun, fun _ => rfl, ?_⟩
    refine ⟨fun _ => ⟨row.start taskId now, ?_, rfl, hcreated⟩, nofun, nofun, nofun, nofun⟩
    rw [Indexed.find?_of_write hwrite, hid]
    exact if_pos rfl
  | executing => cases h
  | finishing => cases h
  | failing code => cases h
  | pruning raising => cases h
  | deleting raising ids => cases h
  | returned => cases h
  | raised => cases h
  | gone => cases h

/-- `_execute`. -/
theorem execute_does {error : Option String} {results : List String} {counts : List (String × ℕ)} {degraded : Bool}
    (h : Execution.step runs ⟨control, run⟩ (.execute error results counts degraded) = some (runs', e'))
    (hfits : Execution.Fits ⟨control, run⟩ runs nextId) : Does runs runs' ⟨control, run⟩ e' nextId := by
  cases control with
  | executing =>
    cases error with
    | none =>
      cases h
      exact does_of_eq (fun _ => rfl) (fits_of_live hfits rfl rfl rfl rfl)
    | some code =>
      cases h
      exact does_of_eq (fun _ => rfl) (fits_of_live hfits rfl rfl rfl rfl)
  | fetched => cases h
  | finishing => cases h
  | failing code => cases h
  | pruning raising => cases h
  | deleting raising ids => cases h
  | returned => cases h
  | raised => cases h
  | gone => cases h

/-- A write of the whole run. -/
theorem write_does (saved : ScreenRun) (hlive : Execution.isLive ⟨control, run⟩ = true)
    (hfits : Execution.Fits ⟨control, run⟩ runs nextId) (hid : saved.id = run.id)
    (hcreated : saved.createdAt = run.createdAt) :
    ∃ runs', runs.write saved = some runs' ∧ Does runs runs' ⟨control, run⟩ ⟨.pruning false, saved⟩ nextId := by
  obtain ⟨row, hrow, hactive, hrowCreated⟩ := hfits.live hlive
  have hrow : runs.find? saved.id = some row := by
    rw [hid]
    exact hrow
  obtain ⟨runs', hwrite⟩ := write_active saved hrow hactive
  refine ⟨runs', hwrite, ages_of_write hwrite hrow hactive (hrowCreated.trans hcreated.symm), fun h => ?_, nofun,
    fits_of_over rfl (.inl rfl)⟩
  rw [hlive] at h
  cases h

/-- The last save. -/
theorem save_does {now : ℕ} (h : Execution.step runs ⟨control, run⟩ (.save now) = some (runs', e'))
    (hfits : Execution.Fits ⟨control, run⟩ runs nextId) : Does runs runs' ⟨control, run⟩ e' nextId := by
  cases control with
  | finishing =>
    obtain ⟨written, hwrite, hdoes⟩ := write_does (run.finish now) rfl hfits rfl rfl
    simp only [Execution.step, hwrite, Option.some.injEq, Prod.mk.injEq] at h
    obtain ⟨rfl, rfl⟩ := h
    exact hdoes
  | failing code =>
    obtain ⟨written, hwrite, hdoes⟩ := write_does (run.fail code now) rfl hfits rfl rfl
    simp only [Execution.step, hwrite, Option.some.injEq, Prod.mk.injEq] at h
    obtain ⟨rfl, rfl⟩ := h
    exact hdoes
  | fetched => cases h
  | executing => cases h
  | pruning raising => cases h
  | deleting raising ids => cases h
  | returned => cases h
  | raised => cases h
  | gone => cases h

/-- The pruning. -/
theorem prune_does {act : TaskAct} (hact : act = .select ∨ act = .delete ∨ act = .pruneFails)
    (h : Execution.step runs ⟨control, run⟩ act = some (runs', e')) (hordered : Ordered runs nextId)
    (hfits : Execution.Fits ⟨control, run⟩ runs nextId) : Does runs runs' ⟨control, run⟩ e' nextId := by
  obtain ⟨hraised, hpruning, hdeleting⟩ := hfits.calm
  cases control with
  | pruning raising =>
    cases raising with
    | true => exact absurd rfl hpruning
    | false =>
      rcases hact with rfl | rfl | rfl
      · cases h
        refine does_of_eq nofun ⟨nofun, ?_, nofun, nofun, nofun⟩
        intro raising ids hcontrol id hid
        cases hcontrol
        obtain ⟨a, ha, rfl⟩ := List.mem_map.mp hid
        have ha : a ∈ runs.rows := (List.perm_insertionSort _ _).subset (List.mem_of_mem_drop ha)
        have hfind : runs.find? a.id = some a := Table.find?_of_mem ha
        refine ⟨hordered.fresh a.id a hfind, fun b hb => ?_⟩
        rw [hfind] at hb
        cases hb
        -- the active run is the newest
        rw [← Bool.not_eq_true]
        intro hactive
        refine newest_not_pruned ha (fun c hc hne => ?_) hid
        exact hordered.newest a.id a hfind hactive c.id c (Table.find?_of_mem hc) hne
      · cases h
      · cases h
        exact does_of_eq nofun (fits_of_over rfl (.inr (.inl rfl)))
  | deleting raising ids =>
    cases raising with
    | true => exact absurd rfl (hdeleting ids)
    | false =>
      rcases hact with rfl | rfl | rfl
      · cases h
      · cases h
        refine ⟨ages_of_remove runs _, fun _ id a ha hactive => Indexed.find?_remove ha ?_, nofun,
          fits_of_over rfl (.inr (.inl rfl))⟩
        rw [decide_eq_false_iff_not]
        intro hmem
        have hinactive := (hfits.deletes false ids rfl a.id hmem).2 a (by rwa [Table.key_of_find? ha])
        rw [hactive] at hinactive
        cases hinactive
      · cases h
        exact does_of_eq nofun (fits_of_over rfl (.inr (.inl rfl)))
  | raised => exact absurd rfl hraised
  | fetched => rcases hact with rfl | rfl | rfl <;> cases h
  | executing => rcases hact with rfl | rfl | rfl <;> cases h
  | finishing => rcases hact with rfl | rfl | rfl <;> cases h
  | failing code => rcases hact with rfl | rfl | rfl <;> cases h
  | returned => rcases hact with rfl | rfl | rfl <;> cases h
  | gone => rcases hact with rfl | rfl | rfl <;> cases h

end

/-- **A step of an execution lets no run come to life again, and leaves the runs of others.** -/
theorem Execution.step_does {runs runs' : Runs} {e e' : Execution} {act : TaskAct} {nextId : ℕ}
    (h : e.step runs act = some (runs', e')) (hordered : Ordered runs nextId) (hfits : e.Fits runs nextId)
    (hinterrupt : act = .interrupt → e.control = .executing) : Does runs runs' e e' nextId := by
  obtain ⟨control, run⟩ := e
  cases act with
  | start taskId now => exact start_does h hfits
  | execute error results counts degraded => exact execute_does h hfits
  | save now => exact save_does h hfits
  | select => exact prune_does (.inl rfl) h hordered hfits
  | delete => exact prune_does (.inr (.inl rfl)) h hordered hfits
  | pruneFails => exact prune_does (.inr (.inr rfl)) h hordered hfits
  | interrupt =>
    have hcontrol : control = .executing := hinterrupt rfl
    rw [hcontrol] at h hfits ⊢
    cases h
    exact does_of_eq (fun _ => rfl) (fits_of_live hfits rfl rfl rfl rfl)
  | leave =>
    cases h
    exact does_of_eq nofun (fits_of_over rfl (.inr (.inr rfl)))

/-! ### What a step keeps -/

/-- Every execution fits the table, and at most one may still save its run. -/
structure Kept (s : ScreenState) : Prop where
  /-- The table. -/
  ordered : Ordered s.runs s.nextId
  /-- The executions. -/
  fits : ∀ (i : ℕ) (e : Execution), s.executions[i]? = some e → e.Fits s.runs s.nextId
  /-- One of them at most may still save its run. -/
  apart : ∀ (i j : ℕ) (d e : Execution), s.executions[i]? = some d → s.executions[j]? = some e → d.isLive = true →
    e.isLive = true → i = j

/-- A later state has no other run of an id that was given before, and a status that is final there. -/
structure Stays (s t : ScreenState) : Prop where
  /-- The ids. -/
  nextId : s.nextId ≤ t.nextId
  /-- The runs. -/
  rows : ∀ id b, t.runs.find? id = some b → id < s.nextId →
    ∃ a, s.runs.find? id = some a ∧ (a.isActive = false → b.status = a.status)

theorem Stays.refl (s : ScreenState) : Stays s s := ⟨le_rfl, fun _ b hb _ => ⟨b, hb, fun _ => rfl⟩⟩

theorem Stays.trans {s t u : ScreenState} (h : Stays s t) (h' : Stays t u) : Stays s u := by
  refine ⟨h.nextId.trans h'.nextId, fun id c hc hid => ?_⟩
  obtain ⟨b, hb, hbc⟩ := h'.rows id c hc (hid.trans_le h.nextId)
  obtain ⟨a, ha, hab⟩ := h.rows id b hb hid
  refine ⟨a, ha, fun hinactive => ?_⟩
  have hstatus := hab hinactive
  have hinactive' : b.isActive = false := (congrArg Status.isActive hstatus).trans hinactive
  exact (hbc hinactive').trans hstatus

theorem Stays.of_ages {s t : ScreenState} (hid : t.nextId = s.nextId) (h : Ages s.runs t.runs) : Stays s t := by
  refine ⟨hid.ge, fun id b hb _ => ?_⟩
  obtain ⟨a, ha, -, hstatus⟩ := h id b hb
  exact ⟨a, ha, hstatus⟩

section
variable {s t : ScreenState}

/-- A step of the view that leaves the table and the executions. -/
theorem keeps_of_eq (hkept : Kept s) (hruns : t.runs = s.runs) (hid : t.nextId = s.nextId)
    (hexecutions : t.executions = s.executions) : Kept t ∧ Stays s t := by
  refine ⟨⟨?_, ?_, ?_⟩, .of_ages hid ?_⟩
  · rw [hruns, hid]
    exact hkept.ordered
  · rw [hexecutions, hruns, hid]
    exact hkept.fits
  · rw [hexecutions]
    exact hkept.apart
  · rw [hruns]
    exact .refl _

/-- The runs that a post reaps are not executed. -/
theorem reap_keeps {i now : ℕ} (h : Step s (.reap i now) t) (horderly : Orderly s (.reap i now)) (hkept : Kept s) :
    Kept t ∧ Stays s t := by
  simp only [Step, ScreenState.apply] at h
  split_ifs at h
  cases h
  have hages := ages_reapStaleRuns s.runs now
  refine ⟨⟨hkept.ordered.of_ages hages, fun j e he => ?_, hkept.apart⟩, .of_ages rfl hages⟩
  refine (hkept.fits j e he).of_ages hages fun hlive a ha _ => ?_
  exact find?_reapStaleRuns ha (horderly e (List.mem_of_getElem? he) hlive a ha)

/-- A run is inserted only where none is active, so that none is executed. -/
theorem insert_keeps {i now : ℕ} (h : Step s (.insert i now) t) (horderly : Orderly s (.insert i now))
    (hkept : Kept s) : Kept t ∧ Stays s t := by
  simp only [Step, ScreenState.apply] at h
  split_ifs at h
  cases hwrite : s.runs.write { id := s.nextId, createdAt := now } with
  | none =>
    simp only [hwrite, Option.some.injEq] at h
    subst h
    exact keeps_of_eq hkept rfl rfl rfl
  | some runs =>
    simp only [hwrite, Option.some.injEq] at h
    subst h
    have hfind : ∀ k, runs.find? k = if k = s.nextId then some { id := s.nextId, createdAt := now } else s.runs.find? k :=
      Indexed.find?_of_write hwrite
    have hinactive : ∀ k a, s.runs.find? k = some a → a.isActive = false := fun k a ha =>
      Indexed.not_indexed_of_write hwrite rfl ha (hkept.ordered.fresh k a ha).ne
    refine ⟨⟨⟨?_, ?_⟩, ?_, hkept.apart⟩, ⟨Nat.le_succ _, ?_⟩⟩
    · intro k b hb
      rw [hfind] at hb
      split_ifs at hb with hk
      · rw [hk]
        exact Nat.lt_succ_self _
      · exact Nat.lt_succ_of_lt (hkept.ordered.fresh k b hb)
    · intro k b hb hactive j c hc hjk
      rw [hfind] at hb hc
      split_ifs at hb with hk
      · -- the new run is the newest
        cases hb
        rw [if_neg (by rwa [hk] at hjk)] at hc
        exact horderly j c hc
      · rw [hinactive k b hb] at hactive
        cases hactive
    · intro j e he
      have hfits := hkept.fits j e he
      refine ⟨fun hlive => ?_, fun raising ids hcontrol id hid => ?_, hfits.calm⟩
      · obtain ⟨a, ha, hactive, -⟩ := hfits.live hlive
        rw [hinactive _ a ha] at hactive
        cases hactive
      · obtain ⟨hlt, hgone⟩ := hfits.deletes raising ids hcontrol id hid
        refine ⟨Nat.lt_succ_of_lt hlt, fun b hb => hgone b ?_⟩
        rwa [hfind, if_neg hlt.ne] at hb
    · intro k b hb hk
      refine ⟨b, ?_, fun _ => rfl⟩
      rwa [hfind, if_neg hk.ne] at hb

/-- A task that is delivered becomes the only execution that may still save a run. -/
theorem deliver_keeps {id : ℕ} (h : Step s (.deliver id) t) (horderly : Orderly s (.deliver id)) (hkept : Kept s) :
    Kept t ∧ Stays s t := by
  simp only [Step, ScreenState.apply] at h
  split_ifs at h
  cases hrow : s.runs.find? id with
  | none =>
    simp only [hrow, Option.some.injEq] at h
    subst h
    exact ⟨hkept, .refl _⟩
  | some row =>
    simp only [hrow, Option.some.injEq] at h
    subst h
    obtain ⟨hactive, halone⟩ := horderly
    have hid : row.id = id := Table.key_of_find? hrow
    have hnone : ∀ (j : ℕ) (e : Execution), s.executions[j]? = some e → e.isLive = false := by
      intro j e he
      rw [← Bool.not_eq_true]
      intro hlive
      obtain ⟨a, ha, hactive', -⟩ := (hkept.fits j e he).live hlive
      exact halone e (List.mem_of_getElem? he) hlive (Indexed.key_eq ha hrow hactive' (hactive row hrow))
    have hcases : ∀ j e, (s.executions ++ [⟨.fetched, row⟩])[j]? = some e →
        s.executions[j]? = some e ∨ j = s.executions.length ∧ e = ⟨.fetched, row⟩ := by
      intro j e he
      rw [List.getElem?_append] at he
      split_ifs at he with hj
      · exact .inl he
      · obtain ⟨hlt, rfl⟩ := List.getElem?_eq_some_iff.mp he
        rw [List.length_singleton] at hlt
        exact .inr ⟨by omega, List.getElem_singleton ..⟩
    refine ⟨⟨hkept.ordered, fun j e he => ?_, fun j k d e hd he hd' he' => ?_⟩, .of_ages rfl (.refl _)⟩
    · rcases hcases j e he with he | ⟨-, rfl⟩
      · exact hkept.fits j e he
      · refine ⟨fun _ => ⟨row, ?_, hactive row hrow, rfl⟩, nofun, nofun, nofun, nofun⟩
        rw [hid]
        exact hrow
    · rcases hcases j d hd with hd | ⟨hj, -⟩
      · rw [hnone j d hd] at hd'
        cases hd'
      · rcases hcases k e he with he | ⟨hk, -⟩
        · rw [hnone k e he] at he'
          cases he'
        · rw [hj, hk]

/-- An execution goes on. -/
theorem execution_keeps {i : ℕ} {act : TaskAct} (h : Step s (.execution i act) t)
    (horderly : Orderly s (.execution i act)) (hkept : Kept s) : Kept t ∧ Stays s t := by
  obtain ⟨e, he, hnext⟩ := Option.bind_eq_some_iff.mp h
  obtain ⟨⟨runs, e'⟩, hstep, rfl⟩ := Option.map_eq_some_iff.mp hnext
  have hinterrupt : act = .interrupt → e.control = .executing := by
    rintro rfl
    exact horderly e he
  obtain ⟨hages, hothers, hlive, hfits⟩ := Execution.step_does hstep hkept.ordered (hkept.fits i e he) hinterrupt
  have hcases : ∀ j d, (s.executions.set i e')[j]? = some d → j = i ∧ d = e' ∨ j ≠ i ∧ s.executions[j]? = some d := by
    intro j d hd
    by_cases hj : i = j
    · subst hj
      rw [List.getElem?_set_self (List.getElem?_eq_some_iff.mp he).1] at hd
      exact .inl ⟨rfl, (Option.some.inj hd).symm⟩
    · rw [List.getElem?_set_ne hj] at hd
      exact .inr ⟨Ne.symm hj, hd⟩
  refine ⟨⟨hkept.ordered.of_ages hages, fun j d hd => ?_, fun j k c d hc hd hc' hd' => ?_⟩, .of_ages rfl hages⟩
  · rcases hcases j d hd with ⟨-, rfl⟩ | ⟨hj, hd⟩
    · exact hfits
    · refine (hkept.fits j d hd).of_ages hages fun hd' a ha hactive => hothers ?_ d.run.id a ha hactive
      -- the other one is live, so this one is not
      rw [← Bool.not_eq_true]
      exact fun he' => hj (hkept.apart j i d e hd he hd' he')
  · -- whoever is live now was so before
    have hbefore : ∀ (j : ℕ) (d : Execution), (s.executions.set i e')[j]? = some d → d.isLive = true →
        ∃ c, s.executions[j]? = some c ∧ c.isLive = true := by
      intro j d hd hd'
      rcases hcases j d hd with ⟨rfl, rfl⟩ | ⟨-, hd⟩
      · exact ⟨e, he, hlive hd'⟩
      · exact ⟨d, hd, hd'⟩
    obtain ⟨c, hc, hc'⟩ := hbefore j c hc hc'
    obtain ⟨d, hd, hd'⟩ := hbefore k d hd hd'
    exact hkept.apart j k c d hc hd hc' hd'

end

/-- **An orderly step keeps what is known of the table and the executions, and every status that is final.** -/
theorem Step.keeps {s t : ScreenState} {act : Act} (h : Step s act t) (horderly : Orderly s act) (hkept : Kept s) :
    Kept t ∧ Stays s t := by
  cases act with
  | post =>
    cases h
    exact keeps_of_eq hkept rfl rfl rfl
  | reap i now => exact reap_keeps h horderly hkept
  | look i =>
    simp only [Step, ScreenState.apply] at h
    split_ifs at h <;>
    · cases h
      exact keeps_of_eq hkept rfl rfl rfl
  | insert i now => exact insert_keeps h horderly hkept
  | send i =>
    simp only [Step, ScreenState.apply] at h
    split at h
    · cases h
      exact keeps_of_eq hkept rfl rfl rfl
    · cases h
  | deliver id => exact deliver_keeps h horderly hkept
  | execution i act => exact execution_keeps h horderly hkept

theorem kept_empty : Kept {} :=
  ⟨⟨fun _ _ h => (nomatch h), fun _ _ h => (nomatch h)⟩, fun _ _ h => (nomatch h), fun _ _ _ _ h => (nomatch h)⟩

/-- A run is posted, and a post eleven minutes later takes it for abandoned. -/
def sampleReaped : List Act :=
  [.post, .reap 0 0, .look 0, .insert 0 1, .send 0, .post, .reap 1 (11 * 60 * 1000000)]

end StratTrader.Screener
