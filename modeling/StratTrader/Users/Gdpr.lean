import StratTrader.Users.Models
import StratTrader.Foundation.Runs
import Mathlib.Data.List.Infix
import Mathlib.Tactic.SplitIfs

/-!
# Deleting an account

`users/views_gdpr.py`, `users/tasks.py` and `users/gdpr.py`: a request schedules the deletion of an account in thirty
days, it may be cancelled, and a nightly task scrubs the accounts that are due, in place, behind their secrets and
the exports of their data. The password's reset writes the whole row of the account, from the copy that it has read.

## What is proved

* `erased_after_window`: an account is scrubbed thirty days or more behind a request, and a cancellation within these
  days prevents it, in every run in which no reset of a password writes back a date that is out of date.
* `not_erased_after_window`: not in every run. A reset that is overtaken by a cancellation schedules the account again.

## Honest scope

A save and the audit row behind it are one step, and a view's authentication is one with its first read. An account's
sessions, its profile, the e-mails, and what the archive holds are left out, and so are the columns of a job that
nothing reads. A date is a number of seconds.
-/

namespace StratTrader.Users

open StratTrader.Brokers StratTrader.Foundation

/-! ### Rows -/

/-- `User`, as these views have it. -/
structure Account where
  /-- The primary key, as text. -/
  id : UserId
  /-- `email`. -/
  email : String
  /-- `display_name`. -/
  displayName : String
  /-- `is_active`. -/
  isActive : Bool := true
  /-- `is_verified`. -/
  isVerified : Bool := false
  /-- `password`, unless it is unusable. -/
  password : Option String
  /-- `pending_delete_at`. -/
  pendingDeleteAt : Option ℕ := none
  deriving DecidableEq

/-- The tables whose rows `anonymize_user` deletes, in its order. -/
inductive SecretTable where
  /-- `MFADevice`. -/
  | mfaDevice
  /-- `BackupCode`. -/
  | backupCode
  /-- `BrokerAccount`. -/
  | brokerAccount
  deriving DecidableEq

/-- A row of one of them. -/
structure SecretRow where
  /-- Its table. -/
  table : SecretTable
  /-- Its owner. -/
  user : UserId
  deriving DecidableEq

/-- `DataExportJob.Status`. -/
inductive ExportStatus where
  /-- `PENDING`. -/
  | pending
  /-- `RUNNING`. -/
  | running
  /-- `READY`. -/
  | ready
  /-- `FAILED`. -/
  | failed
  /-- `EXPIRED`. -/
  | expired
  deriving DecidableEq

/-- A file of the export storage: `exports/{user.id}/{job.id}.zip`, or another name where that one is taken. -/
structure ExportFile where
  /-- The user. -/
  user : UserId
  /-- The job. -/
  job : ℕ
  /-- What the storage has put behind the name, if anything. -/
  suffix : Option String
  deriving DecidableEq

/-- `DataExportJob`. -/
structure DataExportJob where
  /-- The primary key. -/
  id : ℕ
  /-- `user`. -/
  user : UserId
  /-- `status`. -/
  status : ExportStatus := .pending
  /-- `file_key`, unless it is empty. -/
  fileKey : Option ExportFile := none
  /-- `expires_at`. -/
  expiresAt : Option ℕ := none
  deriving DecidableEq

/-- The events of the audit log. -/
inductive AccountEvent where
  /-- `account.delete_requested`. -/
  | deleteRequested
  /-- `account.delete_cancelled`. -/
  | deleteCancelled
  /-- `account.anonymized`. -/
  | anonymized
  deriving DecidableEq

/-- A row of the audit log. -/
structure AccountAudit where
  /-- The event. -/
  event : AccountEvent
  /-- The user. -/
  user : UserId
  /-- When. -/
  at_ : ℕ
  deriving DecidableEq

/-- `DELETE_WINDOW`. -/
def deleteWindow : ℕ := 30 * 86400

/-- `EXPORT_TTL`. -/
def exportTtl : ℕ := 86400

/-! ### Who is under way -/

/-- Where an execution of `run_data_export` stands. -/
inductive ExportPos where
  /-- It has read its job. -/
  | fetched
  /-- The job is `RUNNING`. -/
  | running
  /-- The file is saved. -/
  | stored
  /-- The job is `READY`. -/
  | ready
  deriving DecidableEq

/-- An execution of `run_data_export`. -/
structure ExportTask where
  /-- Its copy of the job. -/
  job : DataExportJob
  /-- Where it stands. -/
  pos : ExportPos
  deriving DecidableEq

/-- What an execution of `run_data_export` does. -/
inductive ExportAct where
  /-- It saves `RUNNING`. -/
  | start
  /-- It saves the file, with a suffix where the name is taken. -/
  | store (suffix : String)
  /-- It saves `READY`. -/
  | ready
  /-- It is done. -/
  | finish
  /-- An exception is raised. -/
  | raise
  deriving DecidableEq

/-- Where `anonymize_user` stands. -/
inductive AnonymizePos where
  /-- It deletes the user's rows of these tables, then lists the exports. -/
  | secrets (tables : List SecretTable)
  /-- It deletes these exports. -/
  | exports (jobs : List DataExportJob)
  /-- It has saved the row. -/
  | saved
  deriving DecidableEq

/-- An execution of `anonymize_expired_accounts`. -/
structure Batch where
  /-- When it has read. -/
  now : ℕ
  /-- The accounts that are due. -/
  due : List Account
  /-- The account that it scrubs. -/
  current : Option (Account × AnonymizePos) := none
  deriving DecidableEq

/-- What an execution of `anonymize_expired_accounts` does. -/
inductive BatchAct where
  /-- The next account. -/
  | next
  /-- The next step of `anonymize_user`; a file that cannot be deleted is left. -/
  | step (deleted : Bool) (token : String)
  /-- An exception is raised. -/
  | raise
  deriving DecidableEq

/-- A view that has read the account. -/
inductive AccountView where
  /-- `AccountDeleteView`. -/
  | delete
  /-- `AccountDeleteCancelView`. -/
  | cancel
  /-- `PasswordResetConfirmView`, with the hash of the new password. -/
  | reset (password : String)
  deriving DecidableEq

/-- The tables, the storage, and who is under way. -/
structure Gdpr where
  /-- `User`. -/
  accounts : List Account
  /-- The rows of the secrets' tables. -/
  secrets : List SecretRow := []
  /-- `DataExportJob`. -/
  jobs : List DataExportJob := []
  /-- The next primary key of a job. -/
  nextJob : ℕ := 0
  /-- The export storage. -/
  files : List ExportFile := []
  /-- The audit log. -/
  audit : List AccountAudit := []
  /-- The views under way, with their copies. -/
  views : List (AccountView × Account) := []
  /-- The executions of `run_data_export`. -/
  tasks : List ExportTask := []
  /-- The executions of `anonymize_expired_accounts`. -/
  batches : List Batch := []
  /-- The executions of `evict_expired_exports`, with the jobs that they delete. -/
  evictions : List (List DataExportJob) := []
  /-- The time. -/
  now : ℕ := 0
  deriving DecidableEq

/-- What can happen. -/
inductive GdprAct where
  /-- A user's secret is saved. -/
  | addSecret (secret : SecretRow)
  /-- `DataExportRequestView`. -/
  | requestExport (user : UserId)
  /-- `run_data_export` is delivered, and reads its job. -/
  | deliver (job : ℕ)
  /-- An execution of it goes on. -/
  | task (i : ℕ) (act : ExportAct)
  /-- A view reads the account. -/
  | read (view : AccountView) (user : UserId)
  /-- It answers. -/
  | answer (i : ℕ)
  /-- `anonymize_expired_accounts` reads the accounts that are due. -/
  | startBatch
  /-- An execution of it goes on. -/
  | batch (i : ℕ) (act : BatchAct)
  /-- `evict_expired_exports` reads the jobs that have expired. -/
  | startEviction
  /-- An execution of it deletes a job; a file that cannot be deleted is left. -/
  | evict (i : ℕ) (deleted : Bool)
  /-- Time passes. -/
  | pass (seconds : ℕ)
  deriving DecidableEq

namespace Gdpr

/-! ### Writes -/

/-- `emit`. -/
def emit (s : Gdpr) (event : AccountEvent) (user : UserId) : Gdpr :=
  { s with audit := s.audit ++ [⟨event, user, s.now⟩] }

/-- An `UPDATE` of an account. -/
def updateAccount (s : Gdpr) (user : UserId) (f : Account → Account) : Gdpr :=
  { s with accounts := s.accounts.map fun a => if a.id = user then f a else a }

/-- An `UPDATE` of a job. -/
def updateJob (s : Gdpr) (job : ℕ) (f : DataExportJob → DataExportJob) : Gdpr :=
  { s with jobs := s.jobs.map fun j => if j.id = job then f j else j }

/-- The job is there. -/
def hasJob (s : Gdpr) (job : ℕ) : Bool := s.jobs.any fun j => j.id == job

/-- The user is active. -/
def active (s : Gdpr) (user : UserId) : Bool := s.accounts.any fun a => a.id == user && a.isActive

/-- One round of `_delete_export_jobs`: the file that the copy of the job names, then the row. -/
def deleteExport (s : Gdpr) (job : DataExportJob) (deleted : Bool) : Gdpr :=
  { s with
    files := if deleted then s.files.filter fun f => some f ≠ job.fileKey else s.files
    jobs := s.jobs.filter fun j => j.id ≠ job.id }

/-! ### `run_data_export` -/

/-- The name of a job's file. -/
def fileName (job : DataExportJob) : ExportFile := ⟨job.user, job.id, none⟩

/-- `export_storage().save`. -/
def storeFile (s : Gdpr) (job : DataExportJob) (suffix : String) : Gdpr :=
  { s with files := s.files ++ [if fileName job ∈ s.files then ⟨job.user, job.id, some suffix⟩ else fileName job] }

/-- The job fails, if it is still there. -/
def failExport (s : Gdpr) (job : ℕ) : Gdpr := s.updateJob job fun j => { j with status := .failed }

/-- An execution of `run_data_export` goes on: what is behind it, and where it stands if it is not over. -/
def exportStep (s : Gdpr) (task : ExportTask) : ExportAct → Option (Gdpr × Option ExportPos)
  | .start =>
    if task.pos = .fetched then
      -- a save with `update_fields` raises where no row is left, and this one is outside the `try`
      some (s.updateJob task.job.id fun j => { j with status := .running },
        if s.hasJob task.job.id then some .running else none)
    else none
  | .store suffix => if task.pos = .running then some (s.storeFile task.job suffix, some .stored) else none
  | .ready =>
    if task.pos = .stored then
      some (s.updateJob task.job.id fun j =>
          { j with status := .ready, fileKey := some (fileName task.job), expiresAt := some (s.now + exportTtl) },
        if s.hasJob task.job.id then some .ready else none)
    else none
  | .finish => if task.pos = .ready then some (s, none) else none
  | .raise => if task.pos = .fetched then some (s, none) else some (s.failExport task.job.id, none)

/-! ### `anonymize_user` -/

/-- The row of an account that is scrubbed. -/
def scrub (token : String) (a : Account) : Account :=
  { a with
    email := "deleted-" ++ token ++ "@anonymized.invalid"
    displayName := "deleted user"
    isActive := false
    isVerified := false
    password := none
    pendingDeleteAt := none }

/-- The next step of `anonymize_user`: what is behind it, and where it stands if it is not over. -/
def anonymizeStep (s : Gdpr) (user : UserId) (deleted : Bool) (token : String) :
    AnonymizePos → Gdpr × Option AnonymizePos
  | .secrets (table :: tables) =>
    ({ s with secrets := s.secrets.filter fun c => ¬(c.table = table ∧ c.user = user) }, some (.secrets tables))
  | .secrets [] => (s, some (.exports (s.jobs.filter fun j => j.user = user)))
  | .exports (job :: jobs) => (s.deleteExport job deleted, some (.exports jobs))
  | .exports [] => (s.updateAccount user (scrub token), some .saved)
  | .saved => (s.emit .anonymized user, none)

/-- The tables whose rows it deletes. -/
def secretTables : List SecretTable := [.mfaDevice, .backupCode, .brokerAccount]

/-- An execution of `anonymize_expired_accounts` goes on. -/
def batchStep (s : Gdpr) (b : Batch) : BatchAct → Option (Gdpr × Batch)
  | .next =>
    match b.current, b.due with
    | none, a :: due => some (s, { b with due, current := some (a, .secrets secretTables) })
    | _, _ => none
  | .step deleted token =>
    b.current.map fun (a, pos) =>
      let (t, next) := s.anonymizeStep a.id deleted token pos
      (t, { b with current := next.map fun next => (a, next) })
  | .raise => b.current.map fun _ => (s, { b with current := none })

/-! ### The views -/

/-- A view answers. -/
def answerView (s : Gdpr) (copy : Account) : AccountView → Gdpr
  | .delete =>
    if copy.pendingDeleteAt.isSome then s
    else
      (s.updateAccount copy.id fun a => { a with pendingDeleteAt := some (s.now + deleteWindow) }).emit
        .deleteRequested copy.id
  | .cancel =>
    if copy.pendingDeleteAt.isSome then
      (s.updateAccount copy.id fun a => { a with pendingDeleteAt := none }).emit .deleteCancelled copy.id
    else s
  | .reset password => s.updateAccount copy.id fun _ => { copy with password := some password, isVerified := true }

/-- The account that a view reads: `PasswordResetConfirmView` does not look whether it is active. -/
def readable (s : Gdpr) (view : AccountView) (user : UserId) : Option Account :=
  match view with
  | .reset _ => s.accounts.find? fun a => a.id = user
  | _ => s.accounts.find? fun a => a.id = user && a.isActive

/-- One step. -/
def apply (s : Gdpr) : GdprAct → Option Gdpr
  | .addSecret secret => if s.active secret.user then some { s with secrets := s.secrets ++ [secret] } else none
  | .requestExport user =>
    if s.active user then
      if s.jobs.any fun j => j.user = user && (j.status = .pending || j.status = .running) then some s
      else some { s with jobs := s.jobs ++ [{ id := s.nextJob, user }], nextJob := s.nextJob + 1 }
    else none
  | .deliver job =>
    match s.jobs.find? fun j => j.id = job with
    | none => some s
    | some j =>
      if j.status = .ready ∨ j.status = .expired then some s else some { s with tasks := s.tasks ++ [⟨j, .fetched⟩] }
  | .task i act => s.tasks[i]?.bind fun task => (s.exportStep task act).map fun (t, next) =>
    match next with
    | some pos => { t with tasks := t.tasks.set i { task with pos } }
    | none => { t with tasks := t.tasks.eraseIdx i }
  | .read view user => (s.readable view user).map fun copy => { s with views := s.views ++ [(view, copy)] }
  | .answer i => s.views[i]?.map fun (view, copy) => { s.answerView copy view with views := s.views.eraseIdx i }
  | .startBatch =>
    some { s with
      batches := s.batches ++ [⟨s.now, s.accounts.filter fun a => a.isActive && a.pendingDeleteAt.any (· ≤ s.now), none⟩] }
  | .batch i act => s.batches[i]?.bind fun b => (s.batchStep b act).map fun (t, b) =>
    { t with batches := t.batches.set i b }
  | .startEviction =>
    some { s with evictions := s.evictions ++ [s.jobs.filter fun j => j.expiresAt.any (· < s.now)] }
  | .evict i deleted => s.evictions[i]?.bind fun jobs =>
    match jobs with
    | [] => none
    | job :: jobs => some { s.deleteExport job deleted with evictions := s.evictions.set i jobs }
  | .pass seconds => some { s with now := s.now + seconds }

end Gdpr

/-- A run. -/
abbrev GdprRun : (Gdpr → GdprAct → Prop) → Gdpr → Gdpr → Prop := Run fun s a t => s.apply a = some t

/-- Accounts that are not to be deleted, and nothing else. -/
structure Initial (s : Gdpr) : Prop where
  /-- No two accounts have the same primary key. -/
  nodup : (s.accounts.map Account.id).Nodup
  /-- No deletion is scheduled. -/
  pending : ∀ a ∈ s.accounts, a.pendingDeleteAt = none
  /-- There is nothing else. -/
  rest : s = { accounts := s.accounts, secrets := s.secrets }

/-! ### The window -/

/-- A request is recorded that has the user deleted at a time, and no cancellation behind it. -/
def Requested (audit : List AccountAudit) (user : UserId) (deleteAt : ℕ) : Prop :=
  ∃ front r back, audit = front ++ ⟨.deleteRequested, user, r⟩ :: back ∧ deleteAt = r + deleteWindow ∧
    ∀ row ∈ back, row.user = user → row.event ≠ .deleteCancelled

/-- A request is recorded whose window has passed by a time, and no cancellation within it. -/
def Entitled (audit : List AccountAudit) (user : UserId) (time : ℕ) : Prop :=
  ∃ front r back, audit = front ++ ⟨.deleteRequested, user, r⟩ :: back ∧ r + deleteWindow ≤ time ∧
    ∀ row ∈ back, row.user = user → row.event = .deleteCancelled → r + deleteWindow ≤ row.at_

section
variable {audit : List AccountAudit} {user : UserId} {row : AccountAudit}

theorem Requested.append {deleteAt : ℕ} (h : Requested audit user deleteAt)
    (hrow : row.user = user → row.event ≠ .deleteCancelled) : Requested (audit ++ [row]) user deleteAt := by
  obtain ⟨front, r, back, rfl, hdate, hback⟩ := h
  refine ⟨front, r, back ++ [row], by simp, hdate, fun row' hrow' => ?_⟩
  rcases List.mem_append.mp hrow' with hold | hnew
  · exact hback row' hold
  · exact List.mem_singleton.mp hnew ▸ hrow

/-- The request itself. -/
theorem requested_append (audit : List AccountAudit) (user : UserId) (now : ℕ) :
    Requested (audit ++ [⟨.deleteRequested, user, now⟩]) user (now + deleteWindow) :=
  ⟨audit, now, [], rfl, rfl, fun _ h => (nomatch h)⟩

theorem Requested.entitled {deleteAt time : ℕ} (h : Requested audit user deleteAt) (hdue : deleteAt ≤ time) :
    Entitled audit user time := by
  obtain ⟨front, r, back, haudit, rfl, hback⟩ := h
  exact ⟨front, r, back, haudit, hdue, fun row hrow huser hcancel => absurd hcancel (hback row hrow huser)⟩

theorem Entitled.append {time : ℕ} (h : Entitled audit user time) (hrow : time ≤ row.at_) :
    Entitled (audit ++ [row]) user time := by
  obtain ⟨front, r, back, rfl, hwindow, hback⟩ := h
  refine ⟨front, r, back ++ [row], by simp, hwindow, fun row' hrow' huser hcancel => ?_⟩
  rcases List.mem_append.mp hrow' with hold | hnew
  · exact hback row' hold huser hcancel
  · exact List.mem_singleton.mp hnew ▸ hwindow.trans hrow

theorem Entitled.mono {time time' : ℕ} (h : Entitled audit user time) (hle : time ≤ time') :
    Entitled audit user time' := by
  obtain ⟨front, r, back, haudit, hwindow, hback⟩ := h
  exact ⟨front, r, back, haudit, hwindow.trans hle, hback⟩

/-- A row stands before the last one, or is the last. -/
theorem split_append {front back : List AccountAudit} {x : AccountAudit} (h : audit ++ [row] = front ++ x :: back) :
    (front = audit ∧ x = row) ∨ ∃ back', audit = front ++ x :: back' := by
  rcases List.append_eq_append_iff.mp h with ⟨more, rfl, hmore⟩ | ⟨less, rfl, hless⟩
  · cases more with
    | nil =>
      rw [List.nil_append, List.cons.injEq] at hmore
      exact .inl ⟨by simp, hmore.1.symm⟩
    | cons y ys =>
      rw [List.cons_append, List.cons.injEq] at hmore
      exact absurd hmore.2.symm (by simp)
  · cases less with
    | nil =>
      rw [List.nil_append, List.cons.injEq] at hless
      exact .inl ⟨by simp, hless.1⟩
    | cons y ys =>
      rw [List.cons_append, List.cons.injEq] at hless
      exact .inr ⟨ys, by rw [hless.1]⟩

end

/-- The accounts that a batch is to scrub. -/
def Batch.accounts (b : Batch) : List Account := b.due ++ b.current.toList.map Prod.fst

/-- **What holds in every run** in which no reset writes back a date that is out of date. -/
structure WindowInv (s : Gdpr) : Prop where
  /-- A date is a request's that has not been cancelled. -/
  requested : ∀ a ∈ s.accounts, ∀ d, a.pendingDeleteAt = some d → Requested s.audit a.id d
  /-- A batch has read. -/
  read : ∀ b ∈ s.batches, b.now ≤ s.now
  /-- The window of the accounts that it is to scrub had passed. -/
  due : ∀ b ∈ s.batches, ∀ a ∈ b.accounts, Entitled s.audit a.id b.now
  /-- And that of those that have been scrubbed. -/
  erased : ∀ front row back, s.audit = front ++ row :: back → row.event = .anonymized → Entitled front row.user row.at_

variable {s t : Gdpr}

theorem Initial.windowInv (hs : Initial s) : WindowInv s := by
  refine ⟨fun a ha d hd => ?_, ?_, ?_, ?_⟩
  · rw [hs.pending a ha] at hd
    cases hd
  all_goals rw [hs.rest]
  · exact fun b hb => nomatch hb
  · exact fun b hb => nomatch hb
  · exact fun front row back h => by simp at h

/-- Nothing is recorded, and no date is set. -/
theorem WindowInv.of_eq (hs : WindowInv s) (haudit : t.audit = s.audit) (hnow : s.now ≤ t.now)
    (haccounts : ∀ a' ∈ t.accounts, ∀ d, a'.pendingDeleteAt = some d →
      ∃ a ∈ s.accounts, a.id = a'.id ∧ a.pendingDeleteAt = some d)
    (hbatches : ∀ b' ∈ t.batches, ∃ b ∈ s.batches, b'.now = b.now ∧ ∀ a ∈ b'.accounts, a ∈ b.accounts) : WindowInv t := by
  refine ⟨fun a ha d hd => ?_, fun b' hb' => ?_, fun b' hb' a ha => ?_, ?_⟩
  · obtain ⟨a₀, ha₀, hid, hpending⟩ := haccounts a ha d hd
    exact haudit ▸ hid ▸ hs.requested a₀ ha₀ d hpending
  · obtain ⟨b, hb, htime, -⟩ := hbatches b' hb'
    exact htime ▸ (hs.read b hb).trans hnow
  · obtain ⟨b, hb, htime, hmem⟩ := hbatches b' hb'
    exact haudit ▸ htime ▸ hs.due b hb a (hmem a ha)
  · exact haudit ▸ hs.erased

theorem self_batches (s : Gdpr) : ∀ b' ∈ s.batches, ∃ b ∈ s.batches, b'.now = b.now ∧ ∀ a ∈ b'.accounts, a ∈ b.accounts :=
  fun b hb => ⟨b, hb, rfl, fun _ => id⟩

theorem self_accounts (s : Gdpr) : ∀ a' ∈ s.accounts, ∀ d, a'.pendingDeleteAt = some d →
    ∃ a ∈ s.accounts, a.id = a'.id ∧ a.pendingDeleteAt = some d := fun a ha _ hd => ⟨a, ha, rfl, hd⟩

/-- What only the exports and the secrets see. -/
theorem WindowInv.of_same (hs : WindowInv s) (haudit : t.audit = s.audit) (hnow : t.now = s.now)
    (haccounts : t.accounts = s.accounts) (hbatches : t.batches = s.batches) : WindowInv t := by
  refine hs.of_eq haudit hnow.ge ?_ ?_
  · rw [haccounts]
    exact self_accounts s
  · rw [hbatches]
    exact self_batches s

/-- An event is recorded that is no cancellation. -/
theorem WindowInv.emit (hs : WindowInv s) {event : AccountEvent} {user : UserId} (hevent : event ≠ .deleteCancelled)
    (hentitled : event = .anonymized → Entitled s.audit user s.now) : WindowInv (s.emit event user) := by
  refine ⟨fun a ha d hd => (hs.requested a ha d hd).append fun _ => hevent, hs.read,
    fun b hb a ha => (hs.due b hb a ha).append (hs.read b hb), fun front row back h hrow => ?_⟩
  rcases split_append h with ⟨rfl, rfl⟩ | ⟨back', hback⟩
  · exact hentitled hrow
  · exact hs.erased front row back' hback hrow

/-- An account is updated, and the event recorded that sets its date or takes it away. -/
theorem WindowInv.record (hs : WindowInv s) {event : AccountEvent} {user : UserId} {f : Account → Account}
    (hid : ∀ a, (f a).id = a.id) (hevent : event ≠ .anonymized)
    (hdate : ∀ a d, (f a).pendingDeleteAt = some d → Requested (s.audit ++ [⟨event, user, s.now⟩]) user d) :
    WindowInv ((s.updateAccount user f).emit event user) := by
  refine ⟨fun a ha d hd => ?_, hs.read, fun b hb a ha => (hs.due b hb a ha).append (hs.read b hb),
    fun front row back h hrow => ?_⟩
  · obtain ⟨a₀, ha₀, rfl⟩ := List.mem_map.mp ha
    split_ifs at hd ⊢ with huser
    · rw [hid, huser]
      exact hdate a₀ d hd
    · exact (hs.requested a₀ ha₀ d hd).append fun h => absurd h.symm huser
  · rcases split_append h with ⟨-, rfl⟩ | ⟨back', hback⟩
    · exact absurd hrow hevent
    · exact hs.erased front row back' hback hrow

/-- A reset writes the date that is there. -/
def UpToDate (s : Gdpr) : GdprAct → Prop
  | .answer i => ∀ v ∈ s.views[i]?, v.1 ≠ .delete → v.1 ≠ .cancel →
    ∀ a ∈ s.accounts, a.id = v.2.id → a.pendingDeleteAt = v.2.pendingDeleteAt
  | _ => True

instance : ∀ (s : Gdpr) (a : GdprAct), Decidable (UpToDate s a)
  | s, .answer i => inferInstanceAs (Decidable (∀ v ∈ s.views[i]?, v.1 ≠ .delete → v.1 ≠ .cancel →
      ∀ a ∈ s.accounts, a.id = v.2.id → a.pendingDeleteAt = v.2.pendingDeleteAt))
  | _, .addSecret _ | _, .requestExport _ | _, .deliver _ | _, .task _ _ | _, .read _ _ | _, .startBatch
  | _, .batch _ _ | _, .startEviction | _, .evict _ _ | _, .pass _ => .isTrue trivial

theorem WindowInv.answerView (hs : WindowInv s) {view : AccountView} {copy : Account}
    (hdate : view ≠ .delete → view ≠ .cancel →
      ∀ a ∈ s.accounts, a.id = copy.id → a.pendingDeleteAt = copy.pendingDeleteAt) :
    WindowInv (s.answerView copy view) := by
  cases view with
  | delete =>
    unfold Gdpr.answerView
    dsimp only
    split_ifs
    · exact hs
    · refine hs.record (fun _ => rfl) nofun fun a d hd => ?_
      cases hd
      exact requested_append s.audit copy.id s.now
  | cancel =>
    unfold Gdpr.answerView
    dsimp only
    split_ifs
    · exact hs.record (fun _ => rfl) nofun fun a d hd => nomatch hd
    · exact hs
  | reset password =>
    refine hs.of_eq rfl le_rfl (fun a' ha' d hd => ?_) (self_batches s)
    obtain ⟨a, ha, rfl⟩ := List.mem_map.mp ha'
    split_ifs at hd ⊢ with hid
    · exact ⟨a, ha, hid, (hdate nofun nofun a ha hid).trans hd⟩
    · exact ⟨a, ha, rfl, hd⟩

/-- A step of `anonymize_user`, of an account whose window has passed. -/
theorem WindowInv.anonymizeStep (hs : WindowInv s) {user : UserId} (hentitled : Entitled s.audit user s.now)
    (deleted : Bool) (token : String) (pos : AnonymizePos) :
    WindowInv (s.anonymizeStep user deleted token pos).1 ∧
      (s.anonymizeStep user deleted token pos).1.batches = s.batches := by
  unfold Gdpr.anonymizeStep
  split
  · exact ⟨hs.of_same rfl rfl rfl rfl, rfl⟩
  · exact ⟨hs, rfl⟩
  · exact ⟨hs.of_same rfl rfl rfl rfl, rfl⟩
  · refine ⟨hs.of_eq rfl le_rfl (fun a' ha' d hd => ?_) (self_batches s), rfl⟩
    obtain ⟨a, ha, rfl⟩ := List.mem_map.mp ha'
    split_ifs at hd ⊢
    · cases hd
    · exact ⟨a, ha, rfl, hd⟩
  · exact ⟨hs.emit nofun fun _ => hentitled, rfl⟩

/-- One of the batches goes on with accounts that it has read. -/
theorem WindowInv.set_batch (hs : WindowInv s) {i : ℕ} {b b' : Batch} (hb : s.batches[i]? = some b)
    (hnow : b'.now = b.now) (haccounts : ∀ a ∈ b'.accounts, a ∈ b.accounts) :
    WindowInv { s with batches := s.batches.set i b' } := by
  refine hs.of_eq rfl le_rfl (self_accounts s) fun c hc => ?_
  rcases List.mem_or_eq_of_mem_set hc with hold | rfl
  · exact self_batches s c hold
  · exact ⟨b, List.mem_of_getElem? hb, hnow, haccounts⟩

/-- What an execution of `anonymize_expired_accounts` does. -/
theorem batchStep_next {b b' : Batch} (h : s.batchStep b .next = some (t, b')) :
    ∃ a due, b.current = none ∧ b.due = a :: due ∧ t = s ∧ b' = ⟨b.now, due, some (a, .secrets Gdpr.secretTables)⟩ := by
  unfold Gdpr.batchStep at h
  dsimp only at h
  split at h
  case h_1 a due hcurrent hdue =>
    cases h
    exact ⟨a, due, hcurrent, hdue, rfl, rfl⟩
  case h_2 => cases h

theorem batchStep_step {b b' : Batch} {deleted : Bool} {token : String}
    (h : s.batchStep b (.step deleted token) = some (t, b')) :
    ∃ a pos next, b.current = some (a, pos) ∧ s.anonymizeStep a.id deleted token pos = (t, next) ∧
      b' = ⟨b.now, b.due, next.map fun next => (a, next)⟩ := by
  obtain ⟨⟨a, pos⟩, hcurrent, hstep⟩ := Option.map_eq_some_iff.mp h
  cases hstep
  exact ⟨a, pos, _, hcurrent, rfl, rfl⟩

theorem batchStep_raise {b b' : Batch} (h : s.batchStep b .raise = some (t, b')) :
    t = s ∧ b' = ⟨b.now, b.due, none⟩ := by
  obtain ⟨-, -, hraise⟩ := Option.map_eq_some_iff.mp h
  cases hraise
  exact ⟨rfl, rfl⟩

theorem WindowInv.batchStep (hs : WindowInv s) {i : ℕ} {b b' : Batch} {act : BatchAct} (hb : s.batches[i]? = some b)
    (h : s.batchStep b act = some (t, b')) : WindowInv { t with batches := t.batches.set i b' } := by
  have hmem := List.mem_of_getElem? hb
  cases act with
  | next =>
    obtain ⟨a, due, hcurrent, hdue, rfl, rfl⟩ := batchStep_next h
    refine hs.set_batch hb rfl fun c hc => ?_
    simp only [Batch.accounts, Option.toList_some, List.map_cons, List.map_nil, List.mem_append,
      List.mem_singleton] at hc
    simp only [Batch.accounts, hcurrent, hdue, Option.toList_none, List.map_nil, List.append_nil, List.mem_cons]
    exact hc.symm
  | step deleted token =>
    obtain ⟨a, pos, next, hcurrent, hstep, rfl⟩ := batchStep_step h
    have hentitled : Entitled s.audit a.id s.now :=
      (hs.due b hmem a (by simp [Batch.accounts, hcurrent])).mono (hs.read b hmem)
    obtain ⟨hnext, hbatches⟩ := hs.anonymizeStep hentitled deleted token pos
    rw [hstep] at hnext hbatches
    refine hnext.set_batch (b := b) (hbatches.symm ▸ hb) rfl fun c hc => ?_
    rcases List.mem_append.mp hc with hdue | hnow
    · exact List.mem_append_left _ hdue
    · obtain ⟨p, hp, rfl⟩ := List.mem_map.mp hnow
      obtain ⟨-, -, rfl⟩ := Option.map_eq_some_iff.mp (Option.mem_toList.mp hp)
      simp [Batch.accounts, hcurrent]
  | raise =>
    obtain ⟨rfl, rfl⟩ := batchStep_raise h
    exact hs.set_batch hb rfl fun c hc => List.mem_append_left _ (by simpa [Batch.accounts] using hc)

/-- An execution of `run_data_export` changes the jobs and the files only. -/
theorem exportStep_frame {task : ExportTask} {act : ExportAct} {next : Option ExportPos}
    (h : s.exportStep task act = some (t, next)) :
    t.audit = s.audit ∧ t.now = s.now ∧ t.accounts = s.accounts ∧ t.batches = s.batches := by
  cases act <;> unfold Gdpr.exportStep at h <;> dsimp only at h <;> split_ifs at h <;> cases h <;>
    exact ⟨rfl, rfl, rfl, rfl⟩

/-- One step. -/
theorem WindowInv.step (hs : WindowInv s) {a : GdprAct} (h : s.apply a = some t) (hdate : UpToDate s a) :
    WindowInv t := by
  cases a with
  | addSecret secret =>
    obtain ⟨-, ht⟩ := Option.ite_none_right_eq_some.mp h
    cases ht
    exact hs.of_same rfl rfl rfl rfl
  | requestExport user =>
    obtain ⟨-, ht⟩ := Option.ite_none_right_eq_some.mp h
    split_ifs at ht <;> cases ht <;> exact hs.of_same rfl rfl rfl rfl
  | deliver job =>
    unfold Gdpr.apply at h
    dsimp only at h
    split at h
    · cases h
      exact hs
    · split_ifs at h <;> cases h <;> exact hs.of_same rfl rfl rfl rfl
  | task i act =>
    obtain ⟨task, -, hact⟩ := Option.bind_eq_some_iff.mp h
    obtain ⟨⟨u, next⟩, hstep, ht⟩ := Option.map_eq_some_iff.mp hact
    obtain ⟨haudit, hnow, haccounts, hbatches⟩ := exportStep_frame hstep
    cases next <;> cases ht <;> exact hs.of_same haudit hnow haccounts hbatches
  | read view user =>
    obtain ⟨copy, -, rfl⟩ := Option.map_eq_some_iff.mp h
    exact hs.of_same rfl rfl rfl rfl
  | answer i =>
    obtain ⟨⟨view, copy⟩, hv, rfl⟩ := Option.map_eq_some_iff.mp h
    exact (hs.answerView (hdate (view, copy) hv)).of_same rfl rfl rfl rfl
  | startBatch =>
    cases h
    refine ⟨hs.requested, fun b hb => ?_, fun b hb a ha => ?_, hs.erased⟩
    · rcases List.mem_append.mp hb with hold | hnew
      · exact hs.read b hold
      · cases List.mem_singleton.mp hnew
        exact le_refl s.now
    · rcases List.mem_append.mp hb with hold | hnew
      · exact hs.due b hold a ha
      · rw [List.mem_singleton.mp hnew] at ha ⊢
        simp only [Batch.accounts, Option.toList_none, List.map_nil, List.append_nil, List.mem_filter,
          Bool.and_eq_true, Option.any_eq_true, decide_eq_true_eq] at ha
        obtain ⟨hmem, -, d, hd, hdue⟩ := ha
        exact (hs.requested a hmem d hd).entitled hdue
  | batch i act =>
    obtain ⟨b, hb, hact⟩ := Option.bind_eq_some_iff.mp h
    obtain ⟨⟨u, b'⟩, hstep, rfl⟩ := Option.map_eq_some_iff.mp hact
    exact hs.batchStep hb hstep
  | startEviction =>
    cases h
    exact hs.of_same rfl rfl rfl rfl
  | evict i deleted =>
    obtain ⟨jobs, -, hdelete⟩ := Option.bind_eq_some_iff.mp h
    cases jobs with
    | nil => cases hdelete
    | cons job jobs =>
      cases hdelete
      exact hs.of_same rfl rfl rfl rfl
  | pass seconds =>
    cases h
    exact hs.of_eq rfl (Nat.le_add_right _ _) (self_accounts s) (self_batches s)

/-- **An account is scrubbed behind its window only**: thirty days or more behind a request, and not when the request
has been cancelled within these days. -/
theorem erased_after_window {init : Gdpr} (hinit : Initial init) (h : GdprRun UpToDate init s)
    {front back : List AccountAudit} {user : UserId} {time : ℕ}
    (haudit : s.audit = front ++ ⟨.anonymized, user, time⟩ :: back) : Entitled front user time :=
  (h.invariant WindowInv hinit.windowInv fun hstep hdate hs => hs.step hstep hdate).erased front _ back haudit rfl

/-! ### Samples -/

/-- An account. -/
def ada : Account := { id := "ada", email := "ada@example.com", displayName := "Ada", password := some "hash" }

theorem initial_ada : Initial { accounts := [ada] } := ⟨by simp, by simp [ada], rfl⟩

/-- The steps of a batch with one account that has no export. -/
def scrubbing : List GdprAct :=
  [.startBatch, .batch 0 .next] ++ List.replicate 6 (.batch 0 (.step true "0"))

/-- A deletion is requested, the window passes, and the account is scrubbed. -/
def deleted : List GdprAct := [.read .delete "ada", .answer 0, .pass deleteWindow] ++ scrubbing

theorem erased_after_window_sample :
    ∃ front, Entitled front "ada" deleteWindow ∧ front = [⟨.deleteRequested, "ada", 0⟩] := by
  have hfollow : ∃ s, follow Gdpr.apply deleted { accounts := [ada] } = some s ∧
      s.audit = [⟨.deleteRequested, "ada", 0⟩] ++ [⟨.anonymized, "ada", deleteWindow⟩] := by decide +kernel
  obtain ⟨s, hs, haudit⟩ := hfollow
  exact ⟨_, erased_after_window initial_ada (run_of_follow hs (by decide +kernel)) haudit, rfl⟩

/-- A cancellation comes between the read of a reset and its write. -/
def restored : List GdprAct :=
  [.read .delete "ada", .answer 0, .read (.reset "new") "ada", .read .cancel "ada", .answer 1, .answer 0,
    .pass deleteWindow] ++ scrubbing

/-- The account is scrubbed, though its deletion has been cancelled at once. -/
theorem not_erased_after_window :
    ¬ ∀ (init s : Gdpr) front back user time, Initial init → GdprRun AnyStep init s →
      s.audit = front ++ ⟨.anonymized, user, time⟩ :: back → Entitled front user time := by
  intro h
  have hfollow : ∃ s, follow Gdpr.apply restored { accounts := [ada] } = some s ∧
      s.audit = [⟨.deleteRequested, "ada", 0⟩, ⟨.deleteCancelled, "ada", 0⟩] ++
        [⟨.anonymized, "ada", deleteWindow⟩] := by decide +kernel
  obtain ⟨s, hs, haudit⟩ := hfollow
  obtain ⟨front, r, back, hsplit, -, hback⟩ :=
    h _ s _ _ _ _ initial_ada (run_of_follow hs (along_anyStep _ _)) haudit
  cases front with
  | nil =>
    simp only [List.nil_append, List.cons.injEq] at hsplit
    have hlate := hback ⟨.deleteCancelled, "ada", 0⟩ (by simp [← hsplit.2]) rfl rfl
    simp [deleteWindow] at hlate
  | cons x xs =>
    simp only [List.cons_append, List.cons.injEq] at hsplit
    cases xs with
    | nil => simp at hsplit
    | cons y ys => simp at hsplit

end StratTrader.Users
