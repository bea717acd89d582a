import StratTrader.Users.Gdpr
import Mathlib.Data.List.Nodup

/-!
# What an account that is scrubbed leaves

`anonymize_user` deletes the secrets of an account and the exports of its data before it scrubs the row, and an export
that is under way meanwhile may save its file behind that.

## What is proved

* `erased_leaves_nothing`: behind the erasure of an account there is none of its secrets, jobs and files, and it is
  not active, in every run in which nothing of its exports is under way when the erasure begins, no request of its is
  served until it is over, no job is delivered twice, nothing is raised between the save of a file and the one of its
  job, every file can be deleted, and no reset of a password writes back whether the account is active.
* `not_erased_leaves_nothing`: not in every run. The archive of an export that was running is left, and no row names it.
-/

namespace StratTrader.Users

open StratTrader.Brokers StratTrader.Foundation

/-! ### The conditions -/

/-- A batch scrubs the user's account. -/
def Gdpr.erasing (s : Gdpr) (user : UserId) : Bool := s.batches.any fun b => b.current.any fun p => p.1.id == user

/-- Nothing disturbs an erasure. While an account is scrubbed, no secret of it is saved, and none of its exports is asked
for, delivered or under way. No job is delivered that another execution has or that names a file already, unless it is
done. Nothing is raised between the save of a file and the one of its job, every file can be deleted, and a reset
writes the `is_active` that is there. -/
def Undisturbed (s : Gdpr) : GdprAct → Prop
  | .addSecret secret => s.erasing secret.user = false
  | .requestExport user => s.erasing user = false
  | .deliver job => ∀ j ∈ s.jobs, j.id = job → (j.status = .ready ∨ j.status = .expired) ∨
      j.fileKey = none ∧ (∀ task ∈ s.tasks, task.job.id ≠ job) ∧ s.erasing j.user = false
  | .task i .raise => ∀ task ∈ s.tasks[i]?, task.pos ≠ .stored
  | .answer i => ∀ v ∈ s.views[i]?, v.1 ≠ .delete → v.1 ≠ .cancel →
      ∀ a ∈ s.accounts, a.id = v.2.id → a.isActive = v.2.isActive
  | .batch i .next => ∀ b ∈ s.batches[i]?, ∀ a ∈ b.due.head?, ∀ task ∈ s.tasks, task.job.user ≠ a.id
  | .batch _ (.step deleted _) | .evict _ deleted => deleted = true
  | _ => True

instance : ∀ (s : Gdpr) (a : GdprAct), Decidable (Undisturbed s a)
  | s, .addSecret secret => inferInstanceAs (Decidable (s.erasing secret.user = false))
  | s, .requestExport user => inferInstanceAs (Decidable (s.erasing user = false))
  | s, .deliver job => inferInstanceAs (Decidable (∀ j ∈ s.jobs, j.id = job →
      (j.status = .ready ∨ j.status = .expired) ∨
        j.fileKey = none ∧ (∀ task ∈ s.tasks, task.job.id ≠ job) ∧ s.erasing j.user = false))
  | s, .task i .raise => inferInstanceAs (Decidable (∀ task ∈ s.tasks[i]?, task.pos ≠ .stored))
  | s, .answer i => inferInstanceAs (Decidable (∀ v ∈ s.views[i]?, v.1 ≠ .delete → v.1 ≠ .cancel →
      ∀ a ∈ s.accounts, a.id = v.2.id → a.isActive = v.2.isActive))
  | s, .batch i .next => inferInstanceAs
      (Decidable (∀ b ∈ s.batches[i]?, ∀ a ∈ b.due.head?, ∀ task ∈ s.tasks, task.job.user ≠ a.id))
  | _, .batch _ (.step deleted _) | _, .evict _ deleted => inferInstanceAs (Decidable (deleted = true))
  | _, .task _ .start | _, .task _ (.store _) | _, .task _ .ready | _, .task _ .finish | _, .read _ _ | _, .startBatch
  | _, .batch _ .raise | _, .startEviction | _, .pass _ => .isTrue trivial

/-! ### Lists -/

section
variable {α β : Type*} {l : List α} {i : ℕ} {a b x : α}

/-- A write that a function does not see. -/
theorem map_set_of_eq {f : α → β} (ha : l[i]? = some a) (hf : f b = f a) : (l.set i b).map f = l.map f := by
  obtain ⟨hlt, rfl⟩ := List.getElem?_eq_some_iff.mp ha
  rw [List.map_set, hf]
  exact (congrArg _ (List.getElem_map f).symm).trans (List.set_getElem_self (by simpa using hlt))

/-- What stands elsewhere behind a write has another key. -/
theorem mem_set_other {f : α → β} (hnodup : (l.map f).Nodup) (ha : l[i]? = some a) (hx : x ∈ l.set i b) (hne : x ≠ b) :
    x ∈ l ∧ f x ≠ f a := by
  obtain ⟨k, hk⟩ := List.mem_iff_getElem?.mp hx
  rw [List.getElem?_set] at hk
  split_ifs at hk with hik hlt
  · exact absurd (Option.some.inj hk).symm hne
  · refine ⟨List.mem_of_getElem? hk, fun hsame => hik ?_⟩
    have hlt : i < (l.map f).length := by
      rw [List.length_map]
      exact (List.getElem?_eq_some_iff.mp ha).1
    exact (List.getElem?_inj hlt hnodup).mp (by rw [List.getElem?_map, List.getElem?_map, ha, hk]; simp [hsame])

/-- What stands elsewhere stays behind a write. -/
theorem mem_set_of_ne (ha : l[i]? = some a) (hx : x ∈ l) (hne : x ≠ a) : x ∈ l.set i b := by
  obtain ⟨k, hk⟩ := List.mem_iff_getElem?.mp hx
  have hik : i ≠ k := by
    rintro rfl
    rw [ha] at hk
    exact hne (Option.some.inj hk).symm
  exact List.mem_iff_getElem?.mpr ⟨k, by rw [List.getElem?_set_ne hik, hk]⟩

/-- Or behind a deletion. -/
theorem mem_eraseIdx_of_ne (ha : l[i]? = some a) (hx : x ∈ l) (hne : x ≠ a) : x ∈ l.eraseIdx i := by
  obtain ⟨k, hk⟩ := List.mem_iff_getElem?.mp hx
  refine List.mem_eraseIdx_iff_getElem?.mpr ⟨k, ?_, hk⟩
  rintro rfl
  rw [ha] at hk
  exact hne (Option.some.inj hk).symm

end

/-! ### Files and jobs -/

/-- The row of a job is there, and it names no file yet. -/
def Gdpr.Unnamed (s : Gdpr) (job : DataExportJob) : Prop :=
  ∃ j ∈ s.jobs, j.id = job.id ∧ j.user = job.user ∧ j.fileKey = none ∧ j.expiresAt = none

/-- The copy of a job that is to be deleted names the file that its row names. -/
def Gdpr.Current (s : Gdpr) (copy : DataExportJob) : Prop :=
  copy.id < s.nextJob ∧ ∀ j ∈ s.jobs, j.id = copy.id → j.user = copy.user ∧ j.fileKey = copy.fileKey

/-- **Every file has its job.** -/
structure JobInv (s : Gdpr) : Prop where
  /-- No two jobs have the same primary key. -/
  ids : (s.jobs.map DataExportJob.id).Nodup
  /-- None has the next one. -/
  fresh : ∀ j ∈ s.jobs, j.id < s.nextJob
  /-- A job names its own file. -/
  keys : ∀ j ∈ s.jobs, ∀ f, j.fileKey = some f → f = Gdpr.fileName j
  /-- A job that expires names a file. -/
  expiring : ∀ j ∈ s.jobs, j.fileKey = none → j.expiresAt = none
  /-- No two executions have the same job. -/
  alone : (s.tasks.map fun task => task.job.id).Nodup
  /-- Until an execution has saved its job, the row is there. -/
  tasks : ∀ task ∈ s.tasks, task.pos ≠ .ready → s.Unnamed task.job
  /-- A file is named by its job, or its execution is about to name it. -/
  files : ∀ f ∈ s.files, (∃ j ∈ s.jobs, j.user = f.user ∧ j.fileKey = some f) ∨
    ∃ task ∈ s.tasks, task.pos = .stored ∧ f = Gdpr.fileName task.job
  /-- A job that is evicted has been saved with its file. -/
  evictions : ∀ jobs ∈ s.evictions, ∀ e ∈ jobs,
    s.Current e ∧ e.fileKey ≠ none ∧ ∀ task ∈ s.tasks, task.pos ≠ .ready → task.job.id ≠ e.id

variable {s t : Gdpr}

theorem JobInv.row_eq (hs : JobInv s) {j j' : DataExportJob} (hj : j ∈ s.jobs) (hj' : j' ∈ s.jobs) (hid : j.id = j'.id) :
    j = j' := List.inj_on_of_nodup_map hs.ids hj hj' hid

/-- What the exports do not see. -/
theorem JobInv.of_eq (hs : JobInv s) (hjobs : t.jobs = s.jobs) (hnext : t.nextJob = s.nextJob) (hfiles : t.files = s.files)
    (htasks : t.tasks = s.tasks) (hevictions : t.evictions = s.evictions) : JobInv t := by
  constructor
  · rw [hjobs]; exact hs.ids
  · rw [hjobs, hnext]; exact hs.fresh
  · rw [hjobs]; exact hs.keys
  · rw [hjobs]; exact hs.expiring
  · rw [htasks]; exact hs.alone
  · unfold Gdpr.Unnamed
    rw [hjobs, htasks]
    exact hs.tasks
  · rw [hfiles, hjobs, htasks]; exact hs.files
  · unfold Gdpr.Current
    rw [hevictions, hjobs, hnext, htasks]
    exact hs.evictions

/-- A new job. -/
theorem JobInv.create (hs : JobInv s) (user : UserId) :
    JobInv { s with jobs := s.jobs ++ [{ id := s.nextJob, user }], nextJob := s.nextJob + 1 } := by
  refine ⟨?_, fun j hj => ?_, fun j hj f hf => ?_, fun j hj hf => ?_, hs.alone, fun task htask hpos => ?_,
    fun f hf => ?_, fun jobs hjobs e he => ⟨⟨?_, fun j hj hid => ?_⟩, (hs.evictions jobs hjobs e he).2⟩⟩
  · rw [List.map_append, List.nodup_append]
    refine ⟨hs.ids, by simp, fun x hx y hy => ?_⟩
    obtain ⟨j, hj, rfl⟩ := List.mem_map.mp hx
    rw [List.map_singleton, List.mem_singleton] at hy
    exact hy ▸ (hs.fresh j hj).ne
  · rcases List.mem_append.mp hj with hold | hnew
    · exact Nat.lt_succ_of_lt (hs.fresh j hold)
    · rw [List.mem_singleton.mp hnew]
      exact Nat.lt_succ_self _
  · rcases List.mem_append.mp hj with hold | hnew
    · exact hs.keys j hold f hf
    · rw [List.mem_singleton.mp hnew] at hf
      cases hf
  · rcases List.mem_append.mp hj with hold | hnew
    · exact hs.expiring j hold hf
    · rw [List.mem_singleton.mp hnew]
  · obtain ⟨j, hj, hrest⟩ := hs.tasks task htask hpos
    exact ⟨j, List.mem_append_left _ hj, hrest⟩
  · refine (hs.files f hf).imp_left ?_
    rintro ⟨j, hj, hrest⟩
    exact ⟨j, List.mem_append_left _ hj, hrest⟩
  · exact Nat.lt_succ_of_lt (hs.evictions jobs hjobs e he).1.1
  · rcases List.mem_append.mp hj with hold | hnew
    · exact (hs.evictions jobs hjobs e he).1.2 j hold hid
    · have hlt := (hs.evictions jobs hjobs e he).1.1
      rw [List.mem_singleton.mp hnew] at hid
      exact absurd hid hlt.ne'

/-- A job is deleted, of which no execution is under way and whose copy names its file. -/
theorem JobInv.deleteExport (hs : JobInv s) {copy : DataExportJob} (hcopy : s.Current copy)
    (htasks : ∀ task ∈ s.tasks, task.pos ≠ .ready → task.job.id ≠ copy.id) : JobInv (s.deleteExport copy true) := by
  have hstays : ∀ {j}, j ∈ s.jobs → j.id ≠ copy.id → j ∈ s.jobs.filter fun j => j.id ≠ copy.id := fun hj hne =>
    List.mem_filter.mpr ⟨hj, decide_eq_true hne⟩
  refine ⟨?_, fun j hj => hs.fresh j (List.mem_filter.mp hj).1, fun j hj => hs.keys j (List.mem_filter.mp hj).1,
    fun j hj => hs.expiring j (List.mem_filter.mp hj).1, hs.alone, fun task htask hpos => ?_, fun f hf => ?_,
    fun jobs hjobs e he => ⟨⟨(hs.evictions jobs hjobs e he).1.1, ?_⟩,
      (hs.evictions jobs hjobs e he).2⟩⟩
  · exact hs.ids.sublist (List.filter_sublist.map _)
  · obtain ⟨j, hj, hid, hrest⟩ := hs.tasks task htask hpos
    exact ⟨j, hstays hj (hid ▸ htasks task htask hpos), hid, hrest⟩
  · obtain ⟨hf, hother⟩ := List.mem_filter.mp hf
    refine (hs.files f hf).imp_left ?_
    rintro ⟨j, hj, huser, hkey⟩
    refine ⟨j, hstays hj fun hid => ?_, huser, hkey⟩
    have hsame := (hcopy.2 j hj hid).2
    simp [← hsame, hkey] at hother
  · exact fun j hj => (hs.evictions jobs hjobs e he).1.2 j (List.mem_filter.mp hj).1

/-! ### Executions of `run_data_export` -/

variable {i : ℕ} {task : ExportTask}

/-- What a job's row has beside its status stays. -/
theorem JobInv.setStatus (hs : JobInv s) (job : ℕ) (status : ExportStatus) :
    JobInv (s.updateJob job fun j => { j with status }) := by
  have hrow : ∀ j ∈ s.jobs, ∃ j' ∈ (s.updateJob job fun j => { j with status }).jobs,
      j'.id = j.id ∧ j'.user = j.user ∧ j'.fileKey = j.fileKey ∧ j'.expiresAt = j.expiresAt := by
    intro j hj
    refine ⟨_, List.mem_map_of_mem hj, ?_⟩
    split_ifs <;> exact ⟨rfl, rfl, rfl, rfl⟩
  have hback : ∀ j' ∈ (s.updateJob job fun j => { j with status }).jobs, ∃ j ∈ s.jobs,
      j'.id = j.id ∧ j'.user = j.user ∧ j'.fileKey = j.fileKey ∧ j'.expiresAt = j.expiresAt := by
    intro j' hj'
    obtain ⟨j, hj, rfl⟩ := List.mem_map.mp hj'
    refine ⟨j, hj, ?_⟩
    split_ifs <;> exact ⟨rfl, rfl, rfl, rfl⟩
  refine ⟨?_, fun j' hj' => ?_, fun j' hj' f hf => ?_, fun j' hj' hf => ?_, hs.alone, fun task htask hpos => ?_,
    fun f hf => ?_, fun jobs hjobs e he => ⟨⟨(hs.evictions jobs hjobs e he).1.1, fun j' hj' hid => ?_⟩,
      (hs.evictions jobs hjobs e he).2⟩⟩
  · have hids : (s.updateJob job fun j => { j with status }).jobs.map DataExportJob.id =
        s.jobs.map DataExportJob.id := by
      unfold Gdpr.updateJob
      rw [List.map_map]
      refine List.map_congr_left fun j _ => ?_
      simp only [Function.comp]
      split_ifs <;> rfl
    rw [hids]
    exact hs.ids
  · obtain ⟨j, hj, hid, -⟩ := hback j' hj'
    exact hid ▸ hs.fresh j hj
  · obtain ⟨j, hj, hid, huser, hkey, -⟩ := hback j' hj'
    rw [hs.keys j hj f (hkey ▸ hf), Gdpr.fileName, Gdpr.fileName, hid, huser]
  · obtain ⟨j, hj, -, -, hkey, hexpires⟩ := hback j' hj'
    exact hexpires.trans (hs.expiring j hj (hkey ▸ hf))
  · obtain ⟨j, hj, hid, huser, hkey, hexpires⟩ := hs.tasks task htask hpos
    obtain ⟨j', hj', hid', huser', hkey', hexpires'⟩ := hrow j hj
    exact ⟨j', hj', hid'.trans hid, huser'.trans huser, hkey'.trans hkey, hexpires'.trans hexpires⟩
  · refine (hs.files f hf).imp_left ?_
    rintro ⟨j, hj, huser, hkey⟩
    obtain ⟨j', hj', -, huser', hkey', -⟩ := hrow j hj
    exact ⟨j', hj', huser'.trans huser, hkey'.trans hkey⟩
  · obtain ⟨j, hj, hid', huser, hkey, -⟩ := hback j' hj'
    obtain ⟨hsame, hsame'⟩ := (hs.evictions jobs hjobs e he).1.2 j hj (hid' ▸ hid)
    exact ⟨huser.trans hsame, hkey.trans hsame'⟩

/-- An execution goes on that has not saved its file. -/
theorem JobInv.setTask (hs : JobInv s) (hi : s.tasks[i]? = some task) {pos : ExportPos} (hstored : task.pos ≠ .stored)
    (hready : task.pos ≠ .ready) : JobInv { s with tasks := s.tasks.set i { task with pos } } := by
  have hmem := List.mem_of_getElem? hi
  refine ⟨hs.ids, hs.fresh, hs.keys, hs.expiring, ?_, fun task' htask' hpos => ?_, fun f hf => ?_,
    fun jobs hjobs e he => ⟨(hs.evictions jobs hjobs e he).1, (hs.evictions jobs hjobs e he).2.1,
      fun task' htask' hpos => ?_⟩⟩
  · exact (map_set_of_eq (f := fun task => task.job.id) (b := { task with pos }) hi rfl).symm ▸ hs.alone
  · rcases List.mem_or_eq_of_mem_set htask' with hold | rfl
    · exact hs.tasks task' hold hpos
    · exact hs.tasks task hmem hready
  · refine (hs.files f hf).imp_right ?_
    rintro ⟨task', htask', hpos, hname⟩
    exact ⟨task', mem_set_of_ne hi htask' fun h => hstored (h ▸ hpos), hpos, hname⟩
  · rcases List.mem_or_eq_of_mem_set htask' with hold | rfl
    · exact (hs.evictions jobs hjobs e he).2.2 task' hold hpos
    · exact (hs.evictions jobs hjobs e he).2.2 task hmem hready

/-- An execution ends that has no file without a name. -/
theorem JobInv.eraseTask (hs : JobInv s) (hi : s.tasks[i]? = some task) (hstored : task.pos ≠ .stored) :
    JobInv { s with tasks := s.tasks.eraseIdx i } := by
  have hmem : ∀ {task'}, task' ∈ s.tasks.eraseIdx i → task' ∈ s.tasks := fun h => (List.eraseIdx_sublist s.tasks i).mem h
  refine ⟨hs.ids, hs.fresh, hs.keys, hs.expiring, ?_, fun task' htask' => hs.tasks task' (hmem htask'),
    fun f hf => ?_, fun jobs hjobs e he => ⟨(hs.evictions jobs hjobs e he).1, (hs.evictions jobs hjobs e he).2.1,
      fun task' htask' => (hs.evictions jobs hjobs e he).2.2 task' (hmem htask')⟩⟩
  · exact hs.alone.sublist ((List.eraseIdx_sublist s.tasks i).map _)
  · refine (hs.files f hf).imp_right ?_
    rintro ⟨task', htask', hpos, hname⟩
    exact ⟨task', mem_eraseIdx_of_ne hi htask' fun h => hstored (h ▸ hpos), hpos, hname⟩

/-- The name of the file is free until an execution has saved it. -/
theorem JobInv.fileName_not_mem (hs : JobInv s) (hmem : task ∈ s.tasks) (hpos : task.pos = .running) :
    Gdpr.fileName task.job ∉ s.files := by
  intro hfile
  rcases hs.files _ hfile with ⟨j, hj, -, hkey⟩ | ⟨task', hmem', hstored, hname⟩
  · obtain ⟨j', hj', hid, -, hnone, -⟩ := hs.tasks task hmem (by simp [hpos])
    have hname := hs.keys j hj _ hkey
    simp only [Gdpr.fileName, ExportFile.mk.injEq, and_true] at hname
    rw [hs.row_eq hj hj' (hname.2.symm.trans hid.symm), hnone] at hkey
    cases hkey
  · simp only [Gdpr.fileName, ExportFile.mk.injEq, and_true] at hname
    rw [List.inj_on_of_nodup_map hs.alone hmem' hmem hname.2.symm, hpos] at hstored
    cases hstored

/-- An execution saves its file. -/
theorem JobInv.store (hs : JobInv s) (hi : s.tasks[i]? = some task) (hpos : task.pos = .running) (suffix : String) :
    JobInv { s.storeFile task.job suffix with tasks := s.tasks.set i { task with pos := .stored } } := by
  have hmem := List.mem_of_getElem? hi
  have hset : JobInv { s with tasks := s.tasks.set i { task with pos := .stored } } :=
    hs.setTask hi (by simp [hpos]) (by simp [hpos])
  unfold Gdpr.storeFile
  rw [if_neg (hs.fileName_not_mem hmem hpos)]
  refine ⟨hset.ids, hset.fresh, hset.keys, hset.expiring, hset.alone, hset.tasks, fun f hf => ?_, hset.evictions⟩
  rcases List.mem_append.mp hf with hold | hnew
  · exact hset.files f hold
  · obtain ⟨hlt, -⟩ := List.getElem?_eq_some_iff.mp hi
    exact .inr ⟨_, List.mem_iff_getElem?.mpr ⟨i, List.getElem?_set_self hlt⟩, rfl, List.mem_singleton.mp hnew⟩

/-- An execution names its file. -/
theorem JobInv.ready (hs : JobInv s) (hi : s.tasks[i]? = some task) (hpos : task.pos = .stored) :
    JobInv { s.updateJob task.job.id fun j =>
        { j with status := .ready, fileKey := some (Gdpr.fileName task.job), expiresAt := some (s.now + exportTtl) } with
      tasks := s.tasks.set i { task with pos := .ready } } := by
  have hmem := List.mem_of_getElem? hi
  obtain ⟨row, hrow, hid, huser, hnone, -⟩ := hs.tasks task hmem (by simp [hpos])
  -- the row that is named is the one of the execution's job
  have hname : Gdpr.fileName task.job = Gdpr.fileName row := by simp [Gdpr.fileName, hid, huser]
  have hrest : ∀ task' ∈ s.tasks.set i { task with pos := .ready }, task'.pos ≠ .ready →
      task' ∈ s.tasks ∧ task'.job.id ≠ task.job.id := by
    intro task' htask' hpos'
    exact mem_set_other hs.alone hi htask' fun h => hpos' (h ▸ rfl)
  have hback : ∀ j' ∈ s.jobs.map (fun j => if j.id = task.job.id then { j with
      status := .ready, fileKey := some (Gdpr.fileName task.job), expiresAt := some (s.now + exportTtl) } else j),
      ∃ j ∈ s.jobs, j'.id = j.id ∧ j'.user = j.user ∧
        ((j.id = task.job.id ∧ j'.fileKey = some (Gdpr.fileName task.job)) ∨
          (j.id ≠ task.job.id ∧ j' = j)) := by
    intro j' hj'
    obtain ⟨j, hj, rfl⟩ := List.mem_map.mp hj'
    refine ⟨j, hj, ?_⟩
    split_ifs with hsame
    · exact ⟨rfl, rfl, .inl ⟨hsame, rfl⟩⟩
    · exact ⟨rfl, rfl, .inr ⟨hsame, rfl⟩⟩
  have hkept : ∀ j ∈ s.jobs, j.id ≠ task.job.id → j ∈ s.jobs.map (fun j => if j.id = task.job.id then { j with
      status := .ready, fileKey := some (Gdpr.fileName task.job), expiresAt := some (s.now + exportTtl) } else j) :=
    fun j hj hne => List.mem_map.mpr ⟨j, hj, if_neg hne⟩
  refine ⟨?_, fun j' hj' => ?_, fun j' hj' f hf => ?_, fun j' hj' hf => ?_, ?_, fun task' htask' hpos' => ?_,
    fun f hf => ?_, fun jobs hjobs e he => ⟨⟨(hs.evictions jobs hjobs e he).1.1, fun j' hj' hsame => ?_⟩,
      (hs.evictions jobs hjobs e he).2.1, fun task' htask' hpos' =>
        (hs.evictions jobs hjobs e he).2.2 task' (hrest task' htask' hpos').1 hpos'⟩⟩
  · unfold Gdpr.updateJob
    dsimp only
    rw [List.map_map]
    refine (congrArg List.Nodup (List.map_congr_left fun j _ => ?_)).mpr hs.ids
    simp only [Function.comp]
    split_ifs <;> rfl
  · obtain ⟨j, hj, hsame, -⟩ := hback j' hj'
    exact hsame ▸ hs.fresh j hj
  · obtain ⟨j, hj, hsame, huser', ⟨hself, hkey⟩ | ⟨-, rfl⟩⟩ := hback j' hj'
    · rw [hkey] at hf
      cases hf
      rw [hs.row_eq hj hrow (hself.trans hid.symm)] at hsame huser'
      rw [hname, Gdpr.fileName, Gdpr.fileName, hsame, huser']
    · exact hs.keys j' hj f hf
  · obtain ⟨j, hj, -, -, ⟨-, hkey⟩ | ⟨-, rfl⟩⟩ := hback j' hj'
    · rw [hkey] at hf
      cases hf
    · exact hs.expiring j' hj hf
  · exact (map_set_of_eq (f := fun task => task.job.id) (b := { task with pos := .ready }) hi rfl).symm ▸ hs.alone
  · obtain ⟨hold, hother⟩ := hrest task' htask' hpos'
    obtain ⟨j, hj, hsame, hrow'⟩ := hs.tasks task' hold hpos'
    exact ⟨j, hkept j hj (hsame ▸ hother), hsame, hrow'⟩
  · rcases hs.files f hf with ⟨j, hj, huser', hkey⟩ | ⟨task', htask', hstored, hfile⟩
    · refine .inl ⟨j, hkept j hj fun hself => ?_, huser', hkey⟩
      rw [hs.row_eq hj hrow (hself.trans hid.symm), hnone] at hkey
      cases hkey
    · by_cases hself : task'.job.id = task.job.id
      · have heq := List.inj_on_of_nodup_map hs.alone htask' hmem hself
        refine .inl ⟨_, List.mem_map.mpr ⟨row, hrow, if_pos hid⟩, ?_, ?_⟩
        · rw [hfile, heq]
          exact huser
        · rw [hfile, heq]
      · exact .inr ⟨task', mem_set_of_ne hi htask' fun h => hself (h ▸ rfl), hstored, hfile⟩
  · obtain ⟨j, hj, hsame', huser', ⟨hself, -⟩ | ⟨-, rfl⟩⟩ := hback j' hj'
    · -- an eviction does not have the job of an execution that has not saved it
      exact absurd (hself.symm.trans (hsame'.symm.trans hsame))
        ((hs.evictions jobs hjobs e he).2.2 task hmem (by simp [hpos]))
    · exact (hs.evictions jobs hjobs e he).1.2 j' hj hsame

/-- The state behind a step of an execution. -/
def Gdpr.setExport (t : Gdpr) (i : ℕ) (task : ExportTask) : Option ExportPos → Gdpr
  | some pos => { t with tasks := t.tasks.set i { task with pos } }
  | none => { t with tasks := t.tasks.eraseIdx i }

theorem JobInv.exportStep (hs : JobInv s) (hi : s.tasks[i]? = some task) {act : ExportAct} {next : Option ExportPos}
    (h : s.exportStep task act = some (t, next)) (hraise : act = .raise → task.pos ≠ .stored) :
    JobInv (t.setExport i task next) := by
  have hmem := List.mem_of_getElem? hi
  cases act with
  | start =>
    obtain ⟨hpos, ht⟩ := Option.ite_none_right_eq_some.mp h
    obtain ⟨row, hrow, hid, -⟩ := hs.tasks task hmem (by simp [hpos])
    have hhas : s.hasJob task.job.id = true := List.any_eq_true.mpr ⟨row, hrow, by simp [hid]⟩
    rw [if_pos hhas] at ht
    cases ht
    exact (hs.setStatus task.job.id .running).setTask hi (by simp [hpos]) (by simp [hpos])
  | store suffix =>
    obtain ⟨hpos, ht⟩ := Option.ite_none_right_eq_some.mp h
    cases ht
    exact hs.store hi hpos suffix
  | ready =>
    obtain ⟨hpos, ht⟩ := Option.ite_none_right_eq_some.mp h
    obtain ⟨row, hrow, hid, -⟩ := hs.tasks task hmem (by simp [hpos])
    have hhas : s.hasJob task.job.id = true := List.any_eq_true.mpr ⟨row, hrow, by simp [hid]⟩
    rw [if_pos hhas] at ht
    cases ht
    exact hs.ready hi hpos
  | finish =>
    obtain ⟨hpos, ht⟩ := Option.ite_none_right_eq_some.mp h
    cases ht
    exact hs.eraseTask hi (by simp [hpos])
  | raise =>
    unfold Gdpr.exportStep at h
    dsimp only at h
    split_ifs at h with hpos
    · cases h
      exact hs.eraseTask hi (by simp [hpos])
    · cases h
      exact (hs.setStatus task.job.id .failed).eraseTask hi (hraise rfl)

/-- An execution is started, of a job that no other one has. -/
theorem JobInv.deliver (hs : JobInv s) {j : DataExportJob} (hj : j ∈ s.jobs) (hkey : j.fileKey = none)
    (halone : ∀ task ∈ s.tasks, task.job.id ≠ j.id) : JobInv { s with tasks := s.tasks ++ [⟨j, .fetched⟩] } := by
  refine ⟨hs.ids, hs.fresh, hs.keys, hs.expiring, ?_, fun task htask hpos => ?_, fun f hf => ?_,
    fun jobs hjobs e he => ⟨(hs.evictions jobs hjobs e he).1, (hs.evictions jobs hjobs e he).2.1,
      fun task htask hpos => ?_⟩⟩
  · rw [List.map_append, List.nodup_append]
    refine ⟨hs.alone, by simp, fun x hx y hy => ?_⟩
    obtain ⟨task, htask, rfl⟩ := List.mem_map.mp hx
    rw [List.map_singleton, List.mem_singleton] at hy
    exact hy ▸ halone task htask
  · rcases List.mem_append.mp htask with hold | hnew
    · exact hs.tasks task hold hpos
    · rw [List.mem_singleton.mp hnew]
      exact ⟨j, hj, rfl, rfl, hkey, hs.expiring j hj hkey⟩
  · refine (hs.files f hf).imp_right ?_
    rintro ⟨task, htask, hrest⟩
    exact ⟨task, List.mem_append_left _ htask, hrest⟩
  · rcases List.mem_append.mp htask with hold | hnew
    · exact (hs.evictions jobs hjobs e he).2.2 task hold hpos
    · rw [List.mem_singleton.mp hnew]
      intro hsame
      have hnamed := ((hs.evictions jobs hjobs e he).1.2 j hj hsame).2
      exact (hs.evictions jobs hjobs e he).2.1 (hnamed ▸ hkey)

/-- The jobs that an eviction reads. -/
theorem JobInv.startEviction (hs : JobInv s) :
    JobInv { s with evictions := s.evictions ++ [s.jobs.filter fun j => j.expiresAt.any (· < s.now)] } := by
  refine ⟨hs.ids, hs.fresh, hs.keys, hs.expiring, hs.alone, hs.tasks, hs.files, fun jobs hjobs e he => ?_⟩
  rcases List.mem_append.mp hjobs with hold | hnew
  · exact hs.evictions jobs hold e he
  rw [List.mem_singleton.mp hnew] at he
  obtain ⟨he, hexpired⟩ := List.mem_filter.mp he
  have hdate : e.expiresAt ≠ none := by
    intro hnone
    rw [hnone] at hexpired
    cases hexpired
  refine ⟨⟨hs.fresh e he, fun j hj hid => ?_⟩, fun hkey => hdate (hs.expiring e he hkey), fun task htask hpos hid => ?_⟩
  · rw [hs.row_eq hj he hid]
    exact ⟨rfl, rfl⟩
  · obtain ⟨j, hj, hid', -, -, hnone⟩ := hs.tasks task htask hpos
    rw [hs.row_eq hj he (hid'.trans hid)] at hnone
    exact hdate hnone

/-- One of them is deleted. -/
theorem JobInv.evict (hs : JobInv s) {job : DataExportJob} {jobs : List DataExportJob}
    (hi : s.evictions[i]? = some (job :: jobs)) :
    JobInv { s.deleteExport job true with evictions := s.evictions.set i jobs } := by
  have hmem := List.mem_of_getElem? hi
  have hjob := hs.evictions _ hmem job List.mem_cons_self
  have hdeleted := hs.deleteExport hjob.1 hjob.2.2
  refine ⟨hdeleted.ids, hdeleted.fresh, hdeleted.keys, hdeleted.expiring, hdeleted.alone, hdeleted.tasks,
    hdeleted.files, fun jobs' hjobs' e he => ?_⟩
  rcases List.mem_or_eq_of_mem_set hjobs' with hold | rfl
  · exact hdeleted.evictions jobs' hold e he
  · exact hdeleted.evictions _ hmem e (List.mem_cons_of_mem _ he)

/-! ### What an erasure leaves to be done -/

/-- The tables whose rows are still to be deleted. -/
def AnonymizePos.tables : AnonymizePos → List SecretTable
  | .secrets tables => tables
  | _ => []

/-- Nothing of a user's is under way, and what is left of it is still to be deleted. -/
structure Scrubs (s : Gdpr) (user : UserId) (pos : AnonymizePos) : Prop where
  /-- No export is under way. -/
  tasks : ∀ task ∈ s.tasks, task.job.user ≠ user
  /-- The secrets. -/
  secrets : ∀ c ∈ s.secrets, c.user = user → c.table ∈ pos.tables
  /-- The jobs. -/
  listed : ∀ jobs, pos = .exports jobs → ∀ j ∈ s.jobs, j.user = user → ∃ e ∈ jobs, e.id = j.id
  /-- The copies of the jobs. -/
  copies : ∀ jobs, pos = .exports jobs → ∀ e ∈ jobs, e.user = user ∧ s.Current e
  /-- Behind the save of the row there is none. -/
  saved : pos = .saved → (∀ j ∈ s.jobs, j.user ≠ user) ∧ ∀ a ∈ s.accounts, a.id = user → a.isActive = false

/-- **Nothing is left** of a user. -/
structure NothingLeft (s : Gdpr) (user : UserId) : Prop where
  /-- No secret. -/
  secrets : ∀ c ∈ s.secrets, c.user ≠ user
  /-- No job. -/
  jobs : ∀ j ∈ s.jobs, j.user ≠ user
  /-- No file. -/
  files : ∀ f ∈ s.files, f.user ≠ user
  /-- No export under way. -/
  tasks : ∀ task ∈ s.tasks, task.job.user ≠ user
  /-- The user may not sign in. -/
  inactive : ∀ a ∈ s.accounts, a.id = user → a.isActive = false

/-- A step adds nothing of a user's. -/
structure AddsNothing (s t : Gdpr) (user : UserId) : Prop where
  /-- No export. -/
  tasks : (∀ task ∈ s.tasks, task.job.user ≠ user) → ∀ task ∈ t.tasks, task.job.user ≠ user
  /-- No secret. -/
  secrets : ∀ c ∈ t.secrets, c.user = user → c ∈ s.secrets
  /-- No job, and no new name of a file. -/
  jobs : ∀ j ∈ t.jobs, j.user = user → ∃ j' ∈ s.jobs, j'.id = j.id ∧ j'.user = j.user ∧ j'.fileKey = j.fileKey
  /-- The jobs of others stay theirs. -/
  others : ∀ j ∈ t.jobs, j.id < s.nextJob → ∃ j' ∈ s.jobs, j'.id = j.id ∧ j'.user = j.user
  /-- Primary keys are not used again. -/
  next : s.nextJob ≤ t.nextJob
  /-- The account is not active again. -/
  accounts : ∀ a ∈ t.accounts, ∃ a' ∈ s.accounts, a'.id = a.id ∧ (a.isActive = true → a'.isActive = true)

section
variable {user : UserId} {pos : AnonymizePos}

theorem AddsNothing.inactive (h : AddsNothing s t user) (hs : ∀ a ∈ s.accounts, a.id = user → a.isActive = false) :
    ∀ a ∈ t.accounts, a.id = user → a.isActive = false := by
  intro a ha hid
  obtain ⟨a', ha', hid', hactive⟩ := h.accounts a ha
  refine Bool.eq_false_iff.mpr fun htrue => ?_
  rw [hs a' ha' (hid'.trans hid)] at hactive
  exact Bool.false_ne_true (hactive htrue)

theorem AddsNothing.noJobs (h : AddsNothing s t user) (hs : ∀ j ∈ s.jobs, j.user ≠ user) : ∀ j ∈ t.jobs, j.user ≠ user :=
  fun j hj huser => by
    obtain ⟨j', hj', -, huser', -⟩ := h.jobs j hj huser
    exact hs j' hj' (huser'.trans huser)

/-- The copy of a user's job still names its file. -/
theorem AddsNothing.current (h : AddsNothing s t user) {e : DataExportJob} (huser : e.user = user) (he : s.Current e) :
    t.Current e := by
  refine ⟨he.1.trans_le h.next, fun j hj hid => ?_⟩
  obtain ⟨j', hj', hid', huser'⟩ := h.others j hj (hid ▸ he.1)
  have hown : j.user = user := huser'.symm.trans ((he.2 j' hj' (hid'.trans hid)).1.trans huser)
  obtain ⟨j'', hj'', hid'', -, hkey⟩ := h.jobs j hj hown
  exact ⟨hown.trans huser.symm, hkey.symm.trans (he.2 j'' hj'' (hid''.trans hid)).2⟩

theorem Scrubs.step (hs : Scrubs s user pos) (h : AddsNothing s t user) : Scrubs t user pos := by
  refine ⟨h.tasks hs.tasks, fun c hc huser => hs.secrets c (h.secrets c hc huser) huser,
    fun jobs hpos j hj huser => ?_, fun jobs hpos e he => ?_, fun hpos => ?_⟩
  · obtain ⟨j', hj', hid, huser', -⟩ := h.jobs j hj huser
    obtain ⟨e, he, hid'⟩ := hs.listed jobs hpos j' hj' (huser'.trans huser)
    exact ⟨e, he, hid'.trans hid⟩
  · obtain ⟨huser, hcurrent⟩ := hs.copies jobs hpos e he
    exact ⟨huser, h.current huser hcurrent⟩
  · exact ⟨h.noJobs (hs.saved hpos).1, h.inactive (hs.saved hpos).2⟩

/-- What is named by no job and by no execution is no file. -/
theorem JobInv.noFiles (ht : JobInv t) (hjobs : ∀ j ∈ t.jobs, j.user ≠ user)
    (htasks : ∀ task ∈ t.tasks, task.job.user ≠ user) : ∀ f ∈ t.files, f.user ≠ user := by
  intro f hf huser
  rcases ht.files f hf with ⟨j, hj, huser', -⟩ | ⟨task, htask, -, rfl⟩
  · exact hjobs j hj (huser'.trans huser)
  · exact htasks task htask huser

theorem NothingLeft.step (hs : NothingLeft s user) (h : AddsNothing s t user) (ht : JobInv t) : NothingLeft t user :=
  ⟨fun c hc huser => hs.secrets c (h.secrets c hc huser) huser, h.noJobs hs.jobs,
    ht.noFiles (h.noJobs hs.jobs) (h.tasks hs.tasks), h.tasks hs.tasks, h.inactive hs.inactive⟩

/-- A user of whom nothing is under way: the account is scrubbed just now, or it is not active and has no job. -/
def NothingUnderWay (s : Gdpr) (user : UserId) : Prop :=
  (∀ task ∈ s.tasks, task.job.user ≠ user) ∧
    (s.erasing user = true ∨ s.active user = false ∧ ∀ j ∈ s.jobs, j.user ≠ user)

theorem NothingLeft.nothingUnderWay (hs : NothingLeft s user) : NothingUnderWay s user := by
  refine ⟨hs.tasks, .inr ⟨Bool.eq_false_iff.mpr fun hactive => ?_, hs.jobs⟩⟩
  obtain ⟨a, ha, hboth⟩ := List.any_eq_true.mp hactive
  simp only [Bool.and_eq_true, beq_iff_eq] at hboth
  rw [hs.inactive a ha hboth.1] at hboth
  exact Bool.false_ne_true hboth.2

/-- Nothing changes of the user's. -/
theorem AddsNothing.of_eq (htasks : t.tasks = s.tasks) (hsecrets : t.secrets = s.secrets) (hjobs : t.jobs = s.jobs)
    (hnext : t.nextJob = s.nextJob) (haccounts : t.accounts = s.accounts) : AddsNothing s t user := by
  constructor
  · rw [htasks]; exact id
  · rw [hsecrets]; exact fun c hc _ => hc
  · rw [hjobs]; exact fun j hj _ => ⟨j, hj, rfl, rfl, rfl⟩
  · rw [hjobs]; exact fun j hj _ => ⟨j, hj, rfl, rfl⟩
  · exact hnext.ge
  · rw [haccounts]; exact fun a ha => ⟨a, ha, rfl, id⟩

/-- Jobs are deleted, and their executions may end. -/
theorem AddsNothing.of_sub (htasks : ∀ task ∈ t.tasks, ∃ task' ∈ s.tasks, task'.job = task.job)
    (hsecrets : ∀ c ∈ t.secrets, c ∈ s.secrets) (hjobs : ∀ j ∈ t.jobs, j ∈ s.jobs) (hnext : t.nextJob = s.nextJob)
    (haccounts : ∀ a ∈ t.accounts, ∃ a' ∈ s.accounts, a'.id = a.id ∧ (a.isActive = true → a'.isActive = true)) :
    AddsNothing s t user := by
  refine ⟨fun hs task htask => ?_, fun c hc _ => hsecrets c hc, fun j hj _ => ⟨j, hjobs j hj, rfl, rfl, rfl⟩,
    fun j hj _ => ⟨j, hjobs j hj, rfl, rfl⟩, hnext.ge, haccounts⟩
  obtain ⟨task', htask', hjob⟩ := htasks task htask
  exact hjob ▸ hs task' htask'

end

section
variable {user : UserId}

theorem not_erasing {s : Gdpr} {owner : UserId} (howner : s.erasing owner = false) (huser : s.erasing user = true) :
    owner ≠ user := by
  rintro rfl
  rw [howner] at huser
  exact Bool.false_ne_true huser

theorem active_ne {s : Gdpr} {owner : UserId} (howner : s.active owner = true) (huser : s.active user = false) :
    owner ≠ user := by
  rintro rfl
  rw [howner] at huser
  exact Bool.false_ne_true huser.symm

/-- An execution changes one job, which is not the user's. -/
theorem addsNothing_updateJob {job : ℕ} {f : DataExportJob → DataExportJob}
    (hf : ∀ j, (f j).id = j.id ∧ (f j).user = j.user)
    (hkey : ∀ j ∈ s.jobs, j.id = job → j.user = user → (f j).fileKey = j.fileKey) :
    AddsNothing s (s.updateJob job f) user := by
  refine ⟨id, fun c hc _ => hc, fun j' hj' huser => ?_, fun j' hj' _ => ?_, le_rfl, fun a ha => ⟨a, ha, rfl, id⟩⟩
  · obtain ⟨j, hj, rfl⟩ := List.mem_map.mp hj'
    refine ⟨j, hj, ?_⟩
    split_ifs at huser ⊢ with hid
    · exact ⟨(hf j).1.symm, (hf j).2.symm, (hkey j hj hid ((hf j).2.symm.trans huser)).symm⟩
    · exact ⟨rfl, rfl, rfl⟩
  · obtain ⟨j, hj, rfl⟩ := List.mem_map.mp hj'
    refine ⟨j, hj, ?_⟩
    split_ifs
    · exact ⟨(hf j).1.symm, (hf j).2.symm⟩
    · exact ⟨rfl, rfl⟩

theorem AddsNothing.trans {u : Gdpr} (h : AddsNothing s t user) (h' : AddsNothing t u user) : AddsNothing s u user := by
  refine ⟨fun hs => h'.tasks (h.tasks hs), fun c hc huser => h.secrets c (h'.secrets c hc huser) huser,
    fun j hj huser => ?_, fun j hj hlt => ?_, h.next.trans h'.next, fun a ha => ?_⟩
  · obtain ⟨j', hj', hid, huser', hkey⟩ := h'.jobs j hj huser
    obtain ⟨j'', hj'', hid', huser'', hkey'⟩ := h.jobs j' hj' (huser'.trans huser)
    exact ⟨j'', hj'', hid'.trans hid, huser''.trans huser', hkey'.trans hkey⟩
  · obtain ⟨j', hj', hid, huser'⟩ := h'.others j hj (hlt.trans_le h.next)
    obtain ⟨j'', hj'', hid', huser''⟩ := h.others j' hj' (hid ▸ hlt)
    exact ⟨j'', hj'', hid'.trans hid, huser''.trans huser'⟩
  · obtain ⟨a', ha', hid, hactive⟩ := h'.accounts a ha
    obtain ⟨a'', ha'', hid', hactive'⟩ := h.accounts a' ha'
    exact ⟨a'', ha'', hid'.trans hid, fun htrue => hactive' (hactive htrue)⟩

/-- An execution goes on, or ends. -/
theorem addsNothing_setExport (hi : s.tasks[i]? = some task) (next : Option ExportPos) :
    AddsNothing s (s.setExport i task next) user := by
  have hmem := List.mem_of_getElem? hi
  cases next with
  | none =>
    exact .of_sub (fun task' htask' => ⟨task', (List.eraseIdx_sublist s.tasks i).mem htask', rfl⟩) (fun _ => id)
      (fun _ => id) rfl fun a ha => ⟨a, ha, rfl, id⟩
  | some pos =>
    refine .of_sub (fun task' htask' => ?_) (fun _ => id) (fun _ => id) rfl fun a ha => ⟨a, ha, rfl, id⟩
    rcases List.mem_or_eq_of_mem_set htask' with hold | rfl
    · exact ⟨task', hold, rfl⟩
    · exact ⟨task, hmem, rfl⟩

theorem addsNothing_exportStep (hs : JobInv s) (hmem : task ∈ s.tasks) (hother : task.job.user ≠ user)
    {act : ExportAct} {next : Option ExportPos} (h : s.exportStep task act = some (t, next)) :
    AddsNothing s t user := by
  cases act with
  | start =>
    obtain ⟨-, ht⟩ := Option.ite_none_right_eq_some.mp h
    cases ht
    exact addsNothing_updateJob (fun _ => ⟨rfl, rfl⟩) fun _ _ _ _ => rfl
  | store suffix =>
    obtain ⟨-, ht⟩ := Option.ite_none_right_eq_some.mp h
    cases ht
    exact .of_eq rfl rfl rfl rfl rfl
  | ready =>
    obtain ⟨hpos, ht⟩ := Option.ite_none_right_eq_some.mp h
    obtain ⟨row, hrow, hid, huser, -⟩ := hs.tasks task hmem (by simp [hpos])
    cases ht
    refine addsNothing_updateJob (fun _ => ⟨rfl, rfl⟩) fun j hj hjob hown => absurd ?_ hother
    rw [← huser, ← hs.row_eq hj hrow (hjob.trans hid.symm), hown]
  | finish =>
    obtain ⟨-, ht⟩ := Option.ite_none_right_eq_some.mp h
    cases ht
    exact .of_eq rfl rfl rfl rfl rfl
  | raise =>
    unfold Gdpr.exportStep at h
    dsimp only at h
    split_ifs at h <;> cases h
    · exact .of_eq rfl rfl rfl rfl rfl
    · exact addsNothing_updateJob (fun _ => ⟨rfl, rfl⟩) fun _ _ _ _ => rfl

/-- What a view answers. -/
theorem addsNothing_answerView {view : AccountView} {copy : Account}
    (hactive : view ≠ .delete → view ≠ .cancel → ∀ a ∈ s.accounts, a.id = copy.id → a.isActive = copy.isActive) :
    AddsNothing s (s.answerView copy view) user := by
  have hupdate : ∀ {f : Account → Account} {u : Gdpr}, u.tasks = s.tasks → u.secrets = s.secrets → u.jobs = s.jobs →
      u.nextJob = s.nextJob → u.accounts = (s.updateAccount copy.id f).accounts →
      (∀ a ∈ s.accounts, a.id = copy.id → (f a).id = a.id ∧ (f a).isActive = a.isActive) → AddsNothing s u user := by
    intro f u htasks hsecrets hjobs hnext haccounts hf
    refine .of_sub (fun task htask => ⟨task, htasks ▸ htask, rfl⟩) (fun c hc => hsecrets ▸ hc) (fun j hj => hjobs ▸ hj)
      hnext fun a' ha' => ?_
    rw [haccounts] at ha'
    obtain ⟨a, ha, rfl⟩ := List.mem_map.mp ha'
    refine ⟨a, ha, ?_⟩
    split_ifs with hid
    · exact ⟨(hf a ha hid).1.symm, fun h => (hf a ha hid).2.symm.trans h⟩
    · exact ⟨rfl, id⟩
  cases view with
  | delete =>
    unfold Gdpr.answerView
    dsimp only
    split_ifs
    · exact .of_eq rfl rfl rfl rfl rfl
    · exact hupdate rfl rfl rfl rfl rfl fun _ _ _ => ⟨rfl, rfl⟩
  | cancel =>
    unfold Gdpr.answerView
    dsimp only
    split_ifs
    · exact hupdate rfl rfl rfl rfl rfl fun _ _ _ => ⟨rfl, rfl⟩
    · exact .of_eq rfl rfl rfl rfl rfl
  | reset password =>
    exact hupdate rfl rfl rfl rfl rfl fun a ha hid => ⟨hid.symm, (hactive nofun nofun a ha hid).symm⟩

/-- A step of `anonymize_user`. -/
theorem addsNothing_anonymizeStep (owner : UserId) (deleted : Bool) (token : String) (pos : AnonymizePos) :
    AddsNothing s (s.anonymizeStep owner deleted token pos).1 user := by
  have hself : ∀ a ∈ s.accounts, ∃ a' ∈ s.accounts, a'.id = a.id ∧ (a.isActive = true → a'.isActive = true) :=
    fun a ha => ⟨a, ha, rfl, id⟩
  unfold Gdpr.anonymizeStep
  split
  · exact .of_sub (fun task htask => ⟨task, htask, rfl⟩) (fun c hc => (List.mem_filter.mp hc).1) (fun _ => id) rfl hself
  · exact .of_eq rfl rfl rfl rfl rfl
  · exact .of_sub (fun task htask => ⟨task, htask, rfl⟩) (fun _ => id) (fun j hj => (List.mem_filter.mp hj).1) rfl hself
  · refine .of_sub (fun task htask => ⟨task, htask, rfl⟩) (fun _ => id) (fun _ => id) rfl fun a' ha' => ?_
    obtain ⟨a, ha, rfl⟩ := List.mem_map.mp ha'
    refine ⟨a, ha, ?_⟩
    split_ifs
    · exact ⟨rfl, fun h => nomatch h⟩
    · exact ⟨rfl, id⟩
  · exact .of_eq rfl rfl rfl rfl rfl

/-- **A step adds nothing** of a user of whom nothing is under way. -/
theorem addsNothing_step (hs : JobInv s) (hidle : NothingUnderWay s user) {a : GdprAct} (h : s.apply a = some t)
    (hquiet : Undisturbed s a) : AddsNothing s t user := by
  cases a with
  | addSecret secret =>
    obtain ⟨hactive, ht⟩ := Option.ite_none_right_eq_some.mp h
    cases ht
    have hother : secret.user ≠ user :=
      hidle.2.elim (not_erasing hquiet) fun hinactive => active_ne hactive hinactive.1
    refine ⟨id, fun c hc huser => ?_, fun j hj _ => ⟨j, hj, rfl, rfl, rfl⟩, fun j hj _ => ⟨j, hj, rfl, rfl⟩, le_rfl,
      fun a ha => ⟨a, ha, rfl, id⟩⟩
    rcases List.mem_append.mp hc with hold | hnew
    · exact hold
    · exact absurd (List.mem_singleton.mp hnew ▸ huser) hother
  | requestExport owner =>
    obtain ⟨hactive, ht⟩ := Option.ite_none_right_eq_some.mp h
    have hother : owner ≠ user :=
      hidle.2.elim (not_erasing hquiet) fun hinactive => active_ne hactive hinactive.1
    split_ifs at ht
    · cases ht
      exact .of_eq rfl rfl rfl rfl rfl
    · cases ht
      refine ⟨id, fun c hc _ => hc, fun j hj huser => ?_, fun j hj hlt => ?_, Nat.le_succ _,
        fun a ha => ⟨a, ha, rfl, id⟩⟩
      · rcases List.mem_append.mp hj with hold | hnew
        · exact ⟨j, hold, rfl, rfl, rfl⟩
        · rw [List.mem_singleton.mp hnew] at huser
          exact absurd huser hother
      · rcases List.mem_append.mp hj with hold | hnew
        · exact ⟨j, hold, rfl, rfl⟩
        · rw [List.mem_singleton.mp hnew] at hlt
          exact absurd hlt (lt_irrefl _)
  | deliver job =>
    unfold Gdpr.apply at h
    dsimp only at h
    split at h
    · cases h
      exact .of_eq rfl rfl rfl rfl rfl
    · case h_2 j hfind =>
      have hj := List.mem_of_find?_eq_some hfind
      have hid : j.id = job := by simpa using List.find?_some hfind
      split_ifs at h with hdone
      · cases h
        exact .of_eq rfl rfl rfl rfl rfl
      · cases h
        have hother : j.user ≠ user := by
          rcases hquiet j hj hid with hready | ⟨-, -, hnot⟩
          · exact absurd hready hdone
          · exact hidle.2.elim (not_erasing hnot) fun hinactive => hinactive.2 j hj
        refine ⟨fun hs task htask => ?_, fun c hc _ => hc, fun j hj _ => ⟨j, hj, rfl, rfl, rfl⟩,
          fun j hj _ => ⟨j, hj, rfl, rfl⟩, le_rfl, fun a ha => ⟨a, ha, rfl, id⟩⟩
        rcases List.mem_append.mp htask with hold | hnew
        · exact hs task hold
        · exact List.mem_singleton.mp hnew ▸ hother
  | task i act =>
    obtain ⟨task, hi, hact⟩ := Option.bind_eq_some_iff.mp h
    obtain ⟨⟨u, next⟩, hstep, rfl⟩ := Option.map_eq_some_iff.mp hact
    have hmem := List.mem_of_getElem? hi
    have htasks : u.tasks = s.tasks := by
      cases act <;> unfold Gdpr.exportStep at hstep <;> dsimp only at hstep <;> split_ifs at hstep <;> cases hstep <;> rfl
    exact (addsNothing_exportStep hs hmem (hidle.1 task hmem) hstep).trans
      (addsNothing_setExport (htasks.symm ▸ hi) next)
  | read view owner =>
    obtain ⟨copy, -, rfl⟩ := Option.map_eq_some_iff.mp h
    exact .of_eq rfl rfl rfl rfl rfl
  | answer i =>
    obtain ⟨⟨view, copy⟩, hv, rfl⟩ := Option.map_eq_some_iff.mp h
    exact (addsNothing_answerView (hquiet (view, copy) hv)).trans (.of_eq rfl rfl rfl rfl rfl)
  | startBatch =>
    cases h
    exact .of_eq rfl rfl rfl rfl rfl
  | batch i act =>
    obtain ⟨b, -, hact⟩ := Option.bind_eq_some_iff.mp h
    obtain ⟨⟨u, b'⟩, hstep, rfl⟩ := Option.map_eq_some_iff.mp hact
    cases act with
    | next =>
      obtain ⟨-, -, -, -, rfl, -⟩ := batchStep_next hstep
      exact .of_eq rfl rfl rfl rfl rfl
    | step deleted token =>
      obtain ⟨owner, pos, next, -, hanonymize, -⟩ := batchStep_step hstep
      have hadds : AddsNothing s (s.anonymizeStep owner.id deleted token pos).1 user :=
        addsNothing_anonymizeStep owner.id deleted token pos
      rw [hanonymize] at hadds
      exact hadds.trans (.of_eq rfl rfl rfl rfl rfl)
    | raise =>
      obtain ⟨rfl, -⟩ := batchStep_raise hstep
      exact .of_eq rfl rfl rfl rfl rfl
  | startEviction =>
    cases h
    exact .of_eq rfl rfl rfl rfl rfl
  | evict i deleted =>
    obtain ⟨jobs, -, hdelete⟩ := Option.bind_eq_some_iff.mp h
    cases jobs with
    | nil => cases hdelete
    | cons job jobs =>
      cases hdelete
      exact .of_sub (fun task htask => ⟨task, htask, rfl⟩) (fun _ => id) (fun j hj => (List.mem_filter.mp hj).1) rfl
        fun a ha => ⟨a, ha, rfl, id⟩
  | pass seconds =>
    cases h
    exact .of_eq rfl rfl rfl rfl rfl

end

/-! ### The run -/

/-- The account has been scrubbed: it is recorded, or about to be. -/
def Gdpr.Gone (s : Gdpr) (user : UserId) : Prop :=
  (∃ row ∈ s.audit, row.event = .anonymized ∧ row.user = user) ∨
    ∃ b ∈ s.batches, ∃ a, b.current = some (a, .saved) ∧ a.id = user

/-- **What holds in every run** in which nothing disturbs an erasure. -/
structure ErasureInv (s : Gdpr) : Prop extends JobInv s where
  /-- What is left of the accounts that are scrubbed just now is still to be deleted. -/
  scrubs : ∀ b ∈ s.batches, ∀ a pos, b.current = some (a, pos) → Scrubs s a.id pos
  /-- Nothing is left of those that have been. -/
  gone : ∀ user, s.Gone user → NothingLeft s user

theorem Initial.erasureInv (hs : Initial s) : ErasureInv s := by
  have htasks : s.tasks = [] := by rw [hs.rest]
  have hjobs : s.jobs = [] := by rw [hs.rest]
  have hfiles : s.files = [] := by rw [hs.rest]
  have hbatches : s.batches = [] := by rw [hs.rest]
  have hevictions : s.evictions = [] := by rw [hs.rest]
  have haudit : s.audit = [] := by rw [hs.rest]
  refine ⟨⟨?_, ?_, ?_, ?_, ?_, ?_, ?_, ?_⟩, ?_, fun user hgone => ?_⟩
  · simp [hjobs]
  · simp [hjobs]
  · simp [hjobs]
  · simp [hjobs]
  · simp [htasks]
  · simp [htasks]
  · simp [hfiles]
  · simp [hevictions]
  · simp [hbatches]
  · simp [Gdpr.Gone, haudit, hbatches] at hgone

theorem erasing_of_mem {b : Batch} (hb : b ∈ s.batches) {a : Account} {pos : AnonymizePos}
    (hcurrent : b.current = some (a, pos)) : s.erasing a.id = true :=
  List.any_eq_true.mpr ⟨b, hb, by simp [hcurrent]⟩

/-- What every step keeps, of the batches that do not go on with it. -/
theorem ErasureInv.adds (hs : ErasureInv s) {a : GdprAct} (h : s.apply a = some t) (hquiet : Undisturbed s a) :
    (∀ b ∈ s.batches, ∀ owner pos, b.current = some (owner, pos) → Scrubs t owner.id pos) ∧
      (JobInv t → ∀ user, s.Gone user → NothingLeft t user) := by
  refine ⟨fun b hb owner pos hcurrent => ?_, fun ht user hgone => ?_⟩
  · have hscrubs := hs.scrubs b hb owner pos hcurrent
    exact hscrubs.step (addsNothing_step hs.toJobInv ⟨hscrubs.tasks, .inl (erasing_of_mem hb hcurrent)⟩ h hquiet)
  · have hleft := hs.gone user hgone
    exact hleft.step (addsNothing_step hs.toJobInv hleft.nothingUnderWay h hquiet) ht

/-- A step that no batch makes and that records no erasure. -/
theorem ErasureInv.of_job (hs : ErasureInv s) {a : GdprAct} (h : s.apply a = some t) (hquiet : Undisturbed s a)
    (ht : JobInv t) (hbatches : ∀ b ∈ t.batches, b ∈ s.batches ∨ b.current = none)
    (haudit : ∀ row ∈ t.audit, row ∈ s.audit ∨ row.event ≠ .anonymized) : ErasureInv t := by
  obtain ⟨hscrubs, hgone⟩ := hs.adds h hquiet
  refine ⟨ht, fun b hb owner pos hcurrent => ?_, fun user hu => hgone ht user ?_⟩
  · rcases hbatches b hb with hold | hnone
    · exact hscrubs b hold owner pos hcurrent
    · rw [hnone] at hcurrent
      cases hcurrent
  · rcases hu with ⟨row, hrow, hevent, huser⟩ | ⟨b, hb, owner, hcurrent, huser⟩
    · exact .inl ⟨row, (haudit row hrow).resolve_right fun h => h hevent, hevent, huser⟩
    · refine .inr ⟨b, (hbatches b hb).resolve_right fun hnone => ?_, owner, hcurrent, huser⟩
      rw [hnone] at hcurrent
      cases hcurrent

/-- The next step of `anonymize_user`, with what is behind it. -/
theorem ErasureInv.anonymizeStep (hs : ErasureInv s) {owner : UserId} {pos : AnonymizePos}
    (hscrubs : Scrubs s owner pos) (token : String) :
    JobInv (s.anonymizeStep owner true token pos).1 ∧
      (∀ next, (s.anonymizeStep owner true token pos).2 = some next →
        Scrubs (s.anonymizeStep owner true token pos).1 owner next) ∧
      (∀ row ∈ (s.anonymizeStep owner true token pos).1.audit, row ∈ s.audit ∨ pos = .saved ∧ row.user = owner) := by
  unfold Gdpr.anonymizeStep
  split
  case h_1 table tables =>
    refine ⟨hs.toJobInv.of_eq rfl rfl rfl rfl rfl, fun next hnext => ?_, fun row hrow => .inl hrow⟩
    cases hnext
    refine ⟨hscrubs.tasks, fun c hc huser => ?_, nofun, nofun, nofun⟩
    obtain ⟨hc, hother⟩ := List.mem_filter.mp hc
    refine (List.mem_cons.mp (hscrubs.secrets c hc huser)).resolve_left fun htable => ?_
    simp [htable, huser] at hother
  case h_2 =>
    refine ⟨hs.toJobInv, fun next hnext => ?_, fun row hrow => .inl hrow⟩
    cases hnext
    refine ⟨hscrubs.tasks, hscrubs.secrets, fun jobs hpos j hj huser => ?_, fun jobs hpos e he => ?_, nofun⟩
    · cases hpos
      exact ⟨j, List.mem_filter.mpr ⟨hj, decide_eq_true huser⟩, rfl⟩
    · cases hpos
      obtain ⟨he, huser⟩ := List.mem_filter.mp he
      refine ⟨of_decide_eq_true huser, hs.fresh e he, fun j hj hid => ?_⟩
      rw [hs.row_eq hj he hid]
      exact ⟨rfl, rfl⟩
  case h_3 job jobs =>
    have hcopy := hscrubs.copies _ rfl job List.mem_cons_self
    have hnone : ∀ task ∈ s.tasks, task.pos ≠ .ready → task.job.id ≠ job.id := by
      intro task htask hpos hid
      obtain ⟨j, hj, hid', huser, -⟩ := hs.tasks task htask hpos
      exact hscrubs.tasks task htask (huser.symm.trans ((hcopy.2.2 j hj (hid'.trans hid)).1.trans hcopy.1))
    refine ⟨hs.toJobInv.deleteExport hcopy.2 hnone, fun next hnext => ?_, fun row hrow => .inl hrow⟩
    cases hnext
    refine ⟨hscrubs.tasks, hscrubs.secrets, fun jobs' hpos j hj huser => ?_, fun jobs' hpos e he => ?_, nofun⟩
    · cases hpos
      obtain ⟨hj, hother⟩ := List.mem_filter.mp hj
      obtain ⟨e, he, hid⟩ := hscrubs.listed _ rfl j hj huser
      rcases List.mem_cons.mp he with rfl | hrest
      · exact absurd hid.symm (of_decide_eq_true hother)
      · exact ⟨e, hrest, hid⟩
    · cases hpos
      obtain ⟨huser, hlt, hcurrent⟩ := hscrubs.copies _ rfl e (List.mem_cons_of_mem _ he)
      exact ⟨huser, hlt, fun j hj => hcurrent j (List.mem_filter.mp hj).1⟩
  case h_4 =>
    refine ⟨hs.toJobInv.of_eq rfl rfl rfl rfl rfl, fun next hnext => ?_, fun row hrow => .inl hrow⟩
    cases hnext
    refine ⟨hscrubs.tasks, hscrubs.secrets, nofun, nofun, fun _ => ⟨fun j hj huser => ?_, fun a ha hid => ?_⟩⟩
    · obtain ⟨e, he, -⟩ := hscrubs.listed _ rfl j hj huser
      cases he
    · obtain ⟨a, -, rfl⟩ := List.mem_map.mp ha
      split_ifs at hid ⊢ with hself
      · rfl
      · exact absurd hid hself
  case h_5 =>
    refine ⟨hs.toJobInv.of_eq rfl rfl rfl rfl rfl, nofun, fun row hrow => ?_⟩
    rcases List.mem_append.mp hrow with hrow | hnew
    · exact .inl hrow
    · exact .inr ⟨rfl, List.mem_singleton.mp hnew ▸ rfl⟩

/-- Behind the save of the row nothing is left. -/
theorem Scrubs.nothingLeft {user : UserId} (hs : Scrubs s user .saved) (hjobs : JobInv s) : NothingLeft s user :=
  ⟨fun c hc huser => (nomatch hs.secrets c hc huser), (hs.saved rfl).1, hjobs.noFiles (hs.saved rfl).1 hs.tasks, hs.tasks,
    (hs.saved rfl).2⟩

/-- A batch goes on. -/
theorem ErasureInv.batch (hs : ErasureInv s) {b b' : Batch} {act : BatchAct} (hi : s.batches[i]? = some b)
    (hstep : s.batchStep b act = some (t, b')) (h : s.apply (.batch i act) = some { t with batches := t.batches.set i b' })
    (hquiet : Undisturbed s (.batch i act)) : ErasureInv { t with batches := t.batches.set i b' } := by
  obtain ⟨hscrubs, hgone⟩ := hs.adds h hquiet
  have hmem := List.mem_of_getElem? hi
  cases act with
  | next =>
    obtain ⟨a, due, hcurrent, hdue, rfl, rfl⟩ := batchStep_next hstep
    have hnone : ∀ task ∈ t.tasks, task.job.user ≠ a.id := hquiet b hi a (by simp [hdue])
    refine ⟨hs.toJobInv.of_eq rfl rfl rfl rfl rfl, fun c hc owner pos hc' => ?_, fun user hu => ?_⟩
    · rcases List.mem_or_eq_of_mem_set hc with hold | rfl
      · exact hscrubs c hold owner pos hc'
      · cases hc'
        refine ⟨hnone, fun secret _ _ => ?_, nofun, nofun, nofun⟩
        cases secret.table <;> simp [AnonymizePos.tables, Gdpr.secretTables]
    · refine hgone (hs.toJobInv.of_eq rfl rfl rfl rfl rfl) user (hu.imp_right ?_)
      rintro ⟨c, hc, owner, hc', huser⟩
      rcases List.mem_or_eq_of_mem_set hc with hold | rfl
      · exact ⟨c, hold, owner, hc', huser⟩
      · cases hc'
  | step deleted token =>
    obtain ⟨a, pos, next, hcurrent, hanonymize, rfl⟩ := batchStep_step hstep
    have hdeleted : deleted = true := hquiet
    subst hdeleted
    have hown := hs.scrubs b hmem a pos hcurrent
    obtain ⟨hjobs, hnext, haudit⟩ := hs.anonymizeStep hown token
    have hbatches : t.batches = s.batches := by
      have hsame : (s.anonymizeStep a.id true token pos).1.batches = s.batches := by
        unfold Gdpr.anonymizeStep
        split <;> rfl
      rwa [hanonymize] at hsame
    rw [hanonymize] at hjobs hnext haudit
    have hjobs' : JobInv { t with batches := t.batches.set i ⟨b.now, b.due, next.map fun next => (a, next)⟩ } :=
      hjobs.of_eq rfl rfl rfl rfl rfl
    have hself : ∀ pos', next = some pos' → Scrubs
        { t with batches := t.batches.set i ⟨b.now, b.due, next.map fun next => (a, next)⟩ } a.id pos' :=
      fun pos' hpos' => (hnext pos' hpos').step (.of_eq rfl rfl rfl rfl rfl)
    refine ⟨hjobs', fun c hc owner pos' hc' => ?_, fun user hu => ?_⟩
    · rcases List.mem_or_eq_of_mem_set hc with hold | rfl
      · exact hscrubs c (hbatches ▸ hold) owner pos' hc'
      · obtain ⟨pos'', hpos'', hpair⟩ := Option.map_eq_some_iff.mp hc'
        cases hpair
        exact hself _ hpos''
    · rcases hu with ⟨row, hrow, hevent, rfl⟩ | ⟨c, hc, owner, hc', rfl⟩
      · rcases haudit row hrow with hold | ⟨rfl, hrowner⟩
        · exact hgone hjobs' row.user (.inl ⟨row, hold, hevent, rfl⟩)
        · exact hgone hjobs' row.user (.inr ⟨b, hmem, a, hcurrent, hrowner.symm⟩)
      · rcases List.mem_or_eq_of_mem_set hc with hold | rfl
        · exact hgone hjobs' owner.id (.inr ⟨c, hbatches ▸ hold, owner, hc', rfl⟩)
        · obtain ⟨pos'', hpos'', hpair⟩ := Option.map_eq_some_iff.mp hc'
          cases hpair
          exact (hself .saved hpos'').nothingLeft hjobs'
  | raise =>
    obtain ⟨rfl, rfl⟩ := batchStep_raise hstep
    refine hs.of_job h hquiet (hs.toJobInv.of_eq rfl rfl rfl rfl rfl) (fun c hc => ?_) fun row hrow => .inl hrow
    rcases List.mem_or_eq_of_mem_set hc with hold | rfl
    · exact .inl hold
    · exact .inr rfl

/-- One step. -/
theorem ErasureInv.step (hs : ErasureInv s) {a : GdprAct} (h : s.apply a = some t) (hquiet : Undisturbed s a) :
    ErasureInv t := by
  have hsame : ∀ {u : Gdpr}, u.batches = s.batches → ∀ b ∈ u.batches, b ∈ s.batches ∨ b.current = none :=
    fun hbatches b hb => .inl (hbatches ▸ hb)
  have hrows : ∀ {u : Gdpr}, u.audit = s.audit → ∀ row ∈ u.audit, row ∈ s.audit ∨ row.event ≠ .anonymized :=
    fun haudit row hrow => .inl (haudit ▸ hrow)
  cases a with
  | addSecret secret =>
    obtain ⟨-, ht⟩ := Option.ite_none_right_eq_some.mp h
    cases ht
    exact hs.of_job h hquiet (hs.toJobInv.of_eq rfl rfl rfl rfl rfl) (hsame rfl) (hrows rfl)
  | requestExport user =>
    obtain ⟨-, ht⟩ := Option.ite_none_right_eq_some.mp h
    split_ifs at ht
    · cases ht
      exact hs
    · cases ht
      exact hs.of_job h hquiet (hs.toJobInv.create user) (hsame rfl) (hrows rfl)
  | deliver job =>
    have hcopy := h
    unfold Gdpr.apply at h
    dsimp only at h
    split at h
    · cases h
      exact hs
    · case h_2 j hfind =>
      have hj := List.mem_of_find?_eq_some hfind
      have hid : j.id = job := by simpa using List.find?_some hfind
      split_ifs at h with hdone
      · cases h
        exact hs
      · cases h
        obtain ⟨hkey, halone, -⟩ := (hquiet j hj hid).resolve_left hdone
        exact hs.of_job hcopy hquiet (hs.toJobInv.deliver hj hkey fun task htask => hid ▸ halone task htask) (hsame rfl)
          (hrows rfl)
  | task i act =>
    obtain ⟨task, hi, hact⟩ := Option.bind_eq_some_iff.mp h
    obtain ⟨⟨u, next⟩, hstep, rfl⟩ := Option.map_eq_some_iff.mp hact
    obtain ⟨haudit, -, -, hbatches⟩ := exportStep_frame hstep
    have hraise : act = .raise → task.pos ≠ .stored := by
      rintro rfl
      exact hquiet task hi
    have hjobs := hs.toJobInv.exportStep hi hstep hraise
    cases next with
    | none => exact hs.of_job h hquiet hjobs (hsame hbatches) (hrows haudit)
    | some pos => exact hs.of_job h hquiet hjobs (hsame hbatches) (hrows haudit)
  | read view user =>
    obtain ⟨copy, -, rfl⟩ := Option.map_eq_some_iff.mp h
    exact hs.of_job h hquiet (hs.toJobInv.of_eq rfl rfl rfl rfl rfl) (hsame rfl) (hrows rfl)
  | answer i =>
    obtain ⟨⟨view, copy⟩, -, rfl⟩ := Option.map_eq_some_iff.mp h
    have hframe : (s.answerView copy view).batches = s.batches ∧ JobInv (s.answerView copy view) ∧
        ∀ row ∈ (s.answerView copy view).audit, row ∈ s.audit ∨ row.event ≠ .anonymized := by
      unfold Gdpr.answerView
      split
      case h_3 => exact ⟨rfl, hs.toJobInv.of_eq rfl rfl rfl rfl rfl, hrows rfl⟩
      all_goals
        split_ifs
        all_goals
          refine ⟨rfl, hs.toJobInv.of_eq rfl rfl rfl rfl rfl, fun row hrow => ?_⟩
          first
            | exact .inl hrow
            | exact (List.mem_append.mp hrow).imp_right fun hnew => by rw [List.mem_singleton.mp hnew]; nofun
    exact hs.of_job h hquiet (hframe.2.1.of_eq rfl rfl rfl rfl rfl) (hsame hframe.1) hframe.2.2
  | startBatch =>
    cases h
    refine hs.of_job rfl hquiet (hs.toJobInv.of_eq rfl rfl rfl rfl rfl) (fun b hb => ?_) (hrows rfl)
    exact (List.mem_append.mp hb).imp_right fun hnew => by rw [List.mem_singleton.mp hnew]
  | batch i act =>
    obtain ⟨b, hi, hact⟩ := Option.bind_eq_some_iff.mp h
    obtain ⟨⟨u, b'⟩, hstep, rfl⟩ := Option.map_eq_some_iff.mp hact
    exact hs.batch hi hstep h hquiet
  | startEviction =>
    cases h
    exact hs.of_job rfl hquiet hs.toJobInv.startEviction (hsame rfl) (hrows rfl)
  | evict i deleted =>
    have hcopy := h
    obtain ⟨jobs, hi, hdelete⟩ := Option.bind_eq_some_iff.mp h
    have hdeleted : deleted = true := hquiet
    subst hdeleted
    cases jobs with
    | nil => cases hdelete
    | cons job jobs =>
      cases hdelete
      exact hs.of_job hcopy hquiet (hs.toJobInv.evict hi) (hsame rfl) (hrows rfl)
  | pass seconds =>
    cases h
    exact hs.of_job rfl hquiet (hs.toJobInv.of_eq rfl rfl rfl rfl rfl) (hsame rfl) (hrows rfl)

/-- An export is made and kept, its account's deletion is requested, and the window passes. -/
def exported : List GdprAct :=
  [.addSecret ⟨.mfaDevice, "ada"⟩, .requestExport "ada", .deliver 0, .task 0 .start, .task 0 (.store "x"),
    .task 0 .ready, .task 0 .finish, .read .delete "ada", .answer 0, .pass deleteWindow]

/-- The steps of a batch with one account that has one export. -/
def scrubbingExport : List GdprAct := [.startBatch, .batch 0 .next] ++ List.replicate 7 (.batch 0 (.step true "0"))

/-- The export is still running when its account is scrubbed, and saves its file behind that. -/
def outlived : List GdprAct :=
  [.requestExport "ada", .deliver 0, .task 0 .start, .read .delete "ada", .answer 0, .pass deleteWindow] ++
    scrubbingExport ++ [.task 0 (.store "x"), .task 0 .ready]

-- a file that cannot be deleted is left as well
example : (follow Gdpr.apply (exported ++ [.startBatch, .batch 0 .next] ++
    List.replicate 7 (.batch 0 (.step false "0"))) { accounts := [ada] }).map (fun s => (s.jobs, s.files)) =
      some ([], [⟨"ada", 0, none⟩]) := by decide +kernel

/-- The file is left, and no job names it. -/
theorem not_erased_leaves_nothing :
    ¬ ∀ (init s : Gdpr) (row : AccountAudit), Initial init → GdprRun AnyStep init s → row ∈ s.audit →
      row.event = .anonymized → NothingLeft s row.user := by
  intro h
  have hfollow : ∃ s, follow Gdpr.apply outlived { accounts := [ada] } = some s ∧
      ⟨.anonymized, "ada", deleteWindow⟩ ∈ s.audit ∧ s.jobs = [] ∧ s.files = [⟨"ada", 0, none⟩] := by decide +kernel
  obtain ⟨s, hs, hrow, -, hfiles⟩ := hfollow
  exact (h _ s _ initial_ada (run_of_follow hs (along_anyStep _ _)) hrow rfl).files ⟨"ada", 0, none⟩
    (by simp [hfiles]) rfl

end StratTrader.Users
