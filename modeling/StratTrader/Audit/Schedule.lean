import StratTrader.Audit.Guard
import StratTrader.Audit.Verifier

/-!
# Verifying on a schedule

`run_verifier` of `audit/verifier.py`: a walk that goes on from a cursor, which is moved to the
end of every walk that succeeds. A history is a sequence of calls of `emit` and of runs.

## What is proved

* `apply_spec`: whether the rows above the cursor go on from it to the last hash is changed by no
  call and no run; a run fails exactly where they do not, and there are such rows.
* `fails_iff`: some run of a history fails exactly where they do not at its start, and some run
  has such rows to look at.
* `intact_after`: from an empty table they always do.

## Honest scope

Columns are read back as they were written. A primary key, and a number of rows, fits a `bigint`. A run
that finds a row of the cursor missing creates it as it is here at first. The mail to the operator is left
out.
-/

namespace StratTrader.Audit

open StratTrader.Foundation

/-! ### A run -/

/-- `AuditVerifierState`. -/
structure AuditVerifierState where
  /-- The primary key of the last row that was verified. -/
  lastVerifiedId : ℤ := 0
  /-- Its hash. -/
  lastVerifiedHash : String := ""
  /-- When the last run was. -/
  runAt : Option UtcTime := none
  /-- How it ended. -/
  result : String := ""

/-- The audit log and the cursor of its verifier. -/
structure AuditState where
  /-- The log. -/
  db : AuditDb
  /-- The cursor. -/
  cursor : AuditVerifierState

/-- The world that a run meets. -/
structure RunEnvironment where
  /-- What its call of `emit` meets. -/
  emission : Environment
  /-- `timezone.now()`. -/
  runAt : UtcTime
  /-- `triggers_present()`. -/
  triggersPresent : Bool
  /-- `round(duration, 3)`. -/
  duration : JsonFloat

/-- What `run_verifier` returns. -/
structure RunResult extends VerifyResult where
  /-- Whether the triggers are there. -/
  triggerOk : Bool

/-- An `int` that a `bigint` holds, as every primary key is. -/
def bigint (n : ℤ) : PyValue := .scalar (.int (n.bmod (2 ^ 64)))

/-- A name and an `int`. -/
def intEntry (name : String) (n : ℤ) : PyKey × PyValue := (.str name, bigint n)

/-- The row of a run that succeeds. -/
def completedArgs (result : VerifyResult) (duration : JsonFloat) : EmitArgs where
  eventType := "audit.verifier_completed"
  entityType := .str "audit_verifier"
  dataAfter := .dict [intEntry "checked" result.checked, intEntry "last_id" result.lastId,
    (.str "duration_s", .scalar (.float duration))]

/-- `str(failed_id or "")`. -/
def failedIdText (failedId : Option ℤ) : String :=
  match failedId with
  | none => ""
  | some id => if id ≠ 0 then String.ofList (intText id) else ""

/-- The row of a run that fails. -/
def failureArgs (result : VerifyResult) (triggerOk : Bool) : EmitArgs where
  eventType := "audit.integrity_failure"
  entityType := .str "audit_log"
  entityId := .str (failedIdText result.failedId)
  dataAfter := .dict [
    (.str "reason", .str (if result.reason ≠ "" then result.reason
      else if !triggerOk then "trigger_missing" else "unknown")),
    (.str "suspect_id", match result.failedId with
      | none => .none
      | some id => bigint id),
    intEntry "last_good_id" result.lastId,
    (.str "triggers_present", .scalar (.bool triggerOk))]

section
variable (rt : Runtime)

/-- The cursor after a walk. -/
def AuditVerifierState.after (cursor : AuditVerifierState) (result : VerifyResult) (env : RunEnvironment) :
    AuditVerifierState :=
  if result.ok && env.triggersPresent then
    { lastVerifiedId := result.lastId, lastVerifiedHash := result.lastHash, runAt := some env.runAt, result := "ok" }
  else { cursor with runAt := some env.runAt, result := "fail" }

/-- `run_verifier`; `none` if it raises. -/
def runVerifier (env : RunEnvironment) (s : AuditState) : AuditState × Option RunResult :=
  match verifyChain rt s.db.toAuditTable s.cursor.lastVerifiedId (orGenesis s.cursor.lastVerifiedHash) with
  | none => (s, none)
  | some result =>
    let args := if result.ok && env.triggersPresent then completedArgs result env.duration
      else failureArgs result env.triggersPresent
    let (db, emitted) := emit rt env.emission args s.db
    (⟨db, s.cursor.after result env⟩,
      match emitted with
      | .raised => none
      | _ => some { result with triggerOk := env.triggersPresent })

/-! ### Histories -/

/-- What happens in a history. -/
inductive AuditStep where
  /-- A call of `emit`. -/
  | emit (env : Environment) (args : EmitArgs)
  /-- A run of the verifier. -/
  | run (env : RunEnvironment)

/-- A step, and what a run returns. -/
def AuditStep.apply : AuditStep → AuditState → AuditState × Option RunResult
  | .emit env args, s => ({ s with db := (Audit.emit rt env args s.db).1 }, none)
  | .run env, s => runVerifier rt env s

/-- The state after a history. -/
def after : List AuditStep → AuditState → AuditState
  | [], s => s
  | step :: steps, s => after steps (step.apply rt s).1

/-- What the runs of a history return. -/
def runResults : List AuditStep → AuditState → List RunResult
  | [], _ => []
  | step :: steps, s => (step.apply rt s).2.toList ++ runResults steps (step.apply rt s).1

/-- Some run of the history finds a row above the cursor. -/
def Looks : List AuditStep → AuditState → Prop
  | [], _ => False
  | step :: steps, s =>
    (∃ env, step = .run env ∧ s.db.above s.cursor.lastVerifiedId ≠ []) ∨ Looks steps (step.apply rt s).1

end

theorem after_concat (rt : Runtime) (steps : List AuditStep) (step : AuditStep) (s : AuditState) :
    after rt (steps ++ [step]) s = (step.apply rt (after rt steps s)).1 := by
  induction steps generalizing s with
  | nil => rfl
  | cons first steps ih => exact ih _

/-- The world lets the step read back what it writes, and keeps the triggers. -/
def AuditStep.Fair : AuditStep → Prop
  | .emit env _ => env.ReadsBack
  | .run env => env.emission.ReadsBack ∧ env.triggersPresent = true

/-- Nothing has been written or verified yet. -/
def AuditState.initial : AuditState := ⟨AuditDb.empty, {}⟩

/-! ### Whether the rows go on from the cursor -/

/-- The hash that the next run goes on from. -/
def AuditState.cursorHash (s : AuditState) : String := orGenesis s.cursor.lastVerifiedHash

/-- The rows that the next run looks at. -/
def AuditState.pending (s : AuditState) : List AuditLog := s.db.above s.cursor.lastVerifiedId

/-- The rows above the cursor go on from it, to the hash that the next row goes on from. -/
structure Coherent (rt : Runtime) (s : AuditState) : Prop where
  /-- They form a chain. -/
  linked : (auditChain rt).Linked s.cursorHash s.pending
  /-- It ends in the last hash of the table. -/
  head : s.db.headHash = (auditChain rt).head s.cursorHash s.pending

/-- What holds of every state, tampered with or not. -/
structure WellFormed (s : AuditState) : Prop where
  /-- The cursor's hash is a digest. -/
  cursor : IsDigest s.cursorHash
  /-- The cursor is below every primary key to come. -/
  le_sequence : s.cursor.lastVerifiedId ≤ s.db.sequence
  /-- Every row has a digest. -/
  digests : ∀ row ∈ s.db.rows, IsDigest row.selfHash

section
variable {rt : Runtime} {s : AuditState}

theorem headHash_of_rows {t : AuditTable} {front : List AuditLog} {last : AuditLog} (h : t.rows = front ++ [last])
    (hlast : IsDigest last.selfHash) : t.headHash = last.selfHash := by
  unfold AuditTable.headHash
  rw [h, List.getLast?_concat, Option.map_some, orNone_some hlast.ne_empty]

/-- The last row above the cursor is the last row. -/
theorem headHash_of_pending {front : List AuditLog} {last : AuditLog} (h : WellFormed s)
    (hpending : s.pending = front ++ [last]) : s.db.headHash = last.selfHash := by
  have hmem : last ∈ s.pending := by rw [hpending]; simp
  obtain ⟨hrow, habove⟩ := List.mem_filter.mp hmem
  obtain ⟨before, final, hrows⟩ : ∃ before final, s.db.rows = before ++ [final] := by
    rcases List.eq_nil_or_concat s.db.rows with hnil | ⟨before, final, hrows⟩
    · rw [hnil] at hrow
      cases hrow
    · exact ⟨before, final, by rw [hrows, List.concat_eq_append]⟩
  have hfinal : final = last := by
    -- the last row is above the cursor, too, so it ends what is above it
    have hsplit : s.pending = (before.filter fun row => decide (s.cursor.lastVerifiedId < row.id)) ++
        [final].filter fun row => decide (s.cursor.lastVerifiedId < row.id) := by
      unfold AuditState.pending AuditTable.above
      rw [hrows, List.filter_append]
    have hle : last.id ≤ final.id := by
      have hsorted := s.db.sorted
      rw [hrows] at hsorted hrow
      rcases List.mem_append.mp hrow with hbefore | hlast
      · exact ((List.pairwise_append.mp hsorted).2.2 last hbefore final (by simp)).le
      · rw [List.mem_singleton.mp hlast]
    have habove' : s.cursor.lastVerifiedId < final.id := (of_decide_eq_true habove).trans_le hle
    rw [List.filter_singleton, decide_eq_true habove', cond_true, hpending] at hsplit
    exact (List.cons.inj (List.append_inj' hsplit rfl).2).1.symm
  rw [headHash_of_rows hrows (h.digests final (by rw [hrows]; simp)), hfinal]

/-- **A run fails exactly where the rows above the cursor do not go on from it**, and there are such rows. -/
theorem not_linked_iff (h : WellFormed s) :
    ¬ (auditChain rt).Linked s.cursorHash s.pending ↔ ¬ Coherent rt s ∧ s.pending ≠ [] := by
  constructor
  · intro hnot
    refine ⟨fun hcoherent => hnot hcoherent.linked, fun hnil => ?_⟩
    rw [hnil] at hnot
    exact hnot trivial
  · rintro ⟨hnot, hpending⟩ hlinked
    rcases List.eq_nil_or_concat s.pending with hnil | ⟨front, last, hlast⟩
    · exact hpending hnil
    · rw [List.concat_eq_append] at hlast
      refine hnot ⟨hlinked, ?_⟩
      rw [headHash_of_pending h hlast, hlast, head_concat]

end

/-! ### What a step keeps -/

section
variable {rt : Runtime} {s : AuditState}

/-- A row that is inserted stands behind the rows above the cursor. -/
theorem pending_insert (h : WellFormed s) {db : AuditDb} {row : AuditLog} (hrows : db.rows = s.db.rows ++ [row])
    (hid : s.db.sequence < row.id) : AuditState.pending { s with db := db } = s.pending ++ [row] := by
  have habove : s.cursor.lastVerifiedId < row.id := h.le_sequence.trans_lt hid
  unfold AuditState.pending AuditTable.above
  rw [hrows, List.filter_append, List.filter_singleton, decide_eq_true habove, cond_true]

theorem sequence_le_emit (env : Environment) (args : EmitArgs) (db : AuditDb) :
    db.sequence ≤ (emit rt env args db).1.sequence := by
  unfold emit
  cases prepare rt env.now args with
  | none => exact le_rfl
  | some fields =>
    dsimp only
    split
    · exact Nat.le_add_right_of_le (Nat.le_succ _)
    · exact le_rfl

/-- A call of `emit` in a state that may have been tampered with. -/
theorem emit_step {env : Environment} (args : EmitArgs) (h : WellFormed s) (hreads : env.ReadsBack) :
    WellFormed { s with db := (emit rt env args s.db).1 } ∧
      (Coherent rt { s with db := (emit rt env args s.db).1 } ↔ Coherent rt s) := by
  rcases emit_cases rt env args s.db with ⟨hsame, -⟩ | ⟨fields, row, -, hmade, hrows, -⟩
  · rw [hsame]
    exact ⟨h, Iff.rfl⟩
  · obtain ⟨hprev, hself⟩ := hmade.seals hreads
    have hdigest : IsDigest row.selfHash := isDigest_of_rowSelfHash hself
    have hid : s.db.sequence < row.id := by
      rw [hmade.id]
      unfold AuditDb.nextId
      omega
    have hpending := pending_insert h hrows hid
    have hhead : AuditTable.headHash (emit rt env args s.db).1.toAuditTable = row.selfHash :=
      headHash_of_rows hrows hdigest
    refine ⟨⟨h.cursor, ?_, ?_⟩, ?_, ?_⟩
    · have hsequence : s.db.sequence ≤ (emit rt env args s.db).1.sequence := sequence_le_emit env args s.db
      exact h.le_sequence.trans (by exact_mod_cast hsequence)
    · intro other hother
      rw [hrows] at hother
      rcases List.mem_append.mp hother with hold | hnew
      · exact h.digests other hold
      · rw [List.mem_singleton.mp hnew]
        exact hdigest
    · rintro ⟨hlinked, -⟩
      rw [hpending] at hlinked
      obtain ⟨hbefore, hprevious, -⟩ := linked_concat.mp hlinked
      exact ⟨hbefore, hprev.symm.trans hprevious⟩
    · intro hcoherent
      rw [hcoherent.head] at hprev hself
      refine ⟨?_, ?_⟩
      · rw [hpending]
        exact linked_concat.mpr ⟨hcoherent.linked, hprev, hself⟩
      · rw [hpending, head_concat]
        exact hhead

/-- The walk of a run. -/
theorem exists_verifyChain (rt : Runtime) (h : WellFormed s) : ∃ result,
    verifyChain rt s.db.toAuditTable s.cursor.lastVerifiedId s.cursorHash = some result ∧
      (result.ok = true ↔ (auditChain rt).Linked s.cursorHash s.pending) ∧
      (result.ok = true → result.lastId = lastId s.cursor.lastVerifiedId s.pending ∧
        result.lastHash = (auditChain rt).head s.cursorHash s.pending) := by
  have hwalk : verifyChain rt s.db.toAuditTable s.cursor.lastVerifiedId s.cursorHash =
      walk rt s.cursorHash s.cursor.lastVerifiedId 0 s.pending := by
    unfold verifyChain
    rw [orGenesis_eq h.cursor]
    rfl
  rw [hwalk]
  have hsome : (walk rt s.cursorHash s.cursor.lastVerifiedId 0 s.pending).isSome = true := walk_isSome h.cursor
  obtain ⟨result, hresult⟩ := Option.isSome_iff_exists.mp hsome
  have hlinked : result.ok = true → (auditChain rt).Linked s.cursorHash s.pending := linked_of_walk hresult
  have heq : (auditChain rt).Linked s.cursorHash s.pending → result.ok = true ∧
      result.lastId = lastId s.cursor.lastVerifiedId s.pending ∧
      result.lastHash = (auditChain rt).head s.cursorHash s.pending := by
    intro h
    rw [walk_of_linked h, Option.some_inj] at hresult
    rw [← hresult]
    exact ⟨rfl, rfl, rfl⟩
  exact ⟨result, hresult, ⟨hlinked, fun h => (heq h).1⟩, fun hok => (heq (hlinked hok)).2⟩

/-- The last of some rows is one of them. -/
theorem lastId_le {id bound : ℤ} {rows : List AuditLog} (hid : id ≤ bound) (h : ∀ row ∈ rows, row.id ≤ bound) :
    lastId id rows ≤ bound := by
  rcases List.eq_nil_or_concat rows with rfl | ⟨front, last, rfl⟩
  · exact hid
  · rw [List.concat_eq_append] at h ⊢
    rw [lastId_concat]
    exact h last (by simp)

/-- Where a walk succeeds, the cursor is moved to its end. -/
theorem after_of_ok (cursor : AuditVerifierState) {result : VerifyResult} {env : RunEnvironment}
    (hok : result.ok = true) (htriggers : env.triggersPresent = true) :
    (cursor.after result env).lastVerifiedId = result.lastId ∧
      (cursor.after result env).lastVerifiedHash = result.lastHash := by
  unfold AuditVerifierState.after
  rw [hok, htriggers, Bool.true_and, if_pos rfl]
  exact ⟨rfl, rfl⟩

/-- Behind a walk that succeeds, nothing is above the cursor, which has the last hash of the walk. -/
theorem moved {env : RunEnvironment} (h : WellFormed s) (htriggers : env.triggersPresent = true)
    {result : VerifyResult}
    (hresult : verifyChain rt s.db.toAuditTable s.cursor.lastVerifiedId s.cursorHash = some result)
    (hok : result.ok = true) :
    (s.cursor.after result env).lastVerifiedId = lastId s.cursor.lastVerifiedId s.pending ∧
      AuditState.pending ⟨s.db, s.cursor.after result env⟩ = [] ∧
      AuditState.cursorHash ⟨s.db, s.cursor.after result env⟩ = (auditChain rt).head s.cursorHash s.pending := by
  obtain ⟨found, hfound, hlinked, hlast⟩ := exists_verifyChain rt h
  rw [hfound, Option.some_inj] at hresult
  subst hresult
  obtain ⟨hid, hhash⟩ := hlast hok
  obtain ⟨hid', hhash'⟩ := after_of_ok s.cursor hok htriggers
  rw [hid] at hid'
  rw [hhash] at hhash'
  refine ⟨hid', ?_, ?_⟩
  · change s.db.above (s.cursor.after found env).lastVerifiedId = []
    rw [hid']
    exact above_lastId (List.append_nil s.pending).symm
  · change orGenesis (s.cursor.after found env).lastVerifiedHash = _
    rw [hhash', orGenesis_eq (isDigest_head (hlinked.mp hok) h.cursor)]

/-- The cursor is moved to the end of the rows above it where they form a chain, and stays otherwise. -/
theorem cursor_step {env : RunEnvironment} (h : WellFormed s) (htriggers : env.triggersPresent = true)
    {result : VerifyResult}
    (hresult : verifyChain rt s.db.toAuditTable s.cursor.lastVerifiedId s.cursorHash = some result) :
    WellFormed ⟨s.db, s.cursor.after result env⟩ ∧
      (Coherent rt ⟨s.db, s.cursor.after result env⟩ ↔ Coherent rt s) := by
  obtain ⟨found, hfound, hok, -⟩ := exists_verifyChain rt h
  rw [hfound, Option.some_inj] at hresult
  subst hresult
  cases hvalue : found.ok with
  | false =>
    have hafter : s.cursor.after found env = { s.cursor with runAt := some env.runAt, result := "fail" } := by
      unfold AuditVerifierState.after
      rw [hvalue, Bool.false_and, if_neg Bool.false_ne_true]
    rw [hafter]
    exact ⟨⟨h.cursor, h.le_sequence, h.digests⟩, fun hc => ⟨hc.linked, hc.head⟩, fun hc => ⟨hc.linked, hc.head⟩⟩
  | true =>
    have hlinked := hok.mp hvalue
    obtain ⟨hid, hpending, hcursor⟩ := moved h htriggers hfound hvalue
    have hdigest : IsDigest ((auditChain rt).head s.cursorHash s.pending) := isDigest_head hlinked h.cursor
    have hle : (s.cursor.after found env).lastVerifiedId ≤ s.db.sequence := by
      rw [hid]
      exact lastId_le h.le_sequence fun row hrow => s.db.le_sequence row (List.mem_filter.mp hrow).1
    refine ⟨⟨hcursor ▸ hdigest, hle, h.digests⟩, ?_, ?_⟩
    · rintro ⟨-, hhead⟩
      rw [hcursor, hpending] at hhead
      exact ⟨hlinked, hhead⟩
    · intro hcoherent
      refine ⟨?_, ?_⟩
      · rw [hpending]
        trivial
      · rw [hcursor, hpending]
        exact hcoherent.head

/-- An `int` of 64 bits is written. -/
theorem hasText_bigint (n : ℤ) : (JsonScalar.int (n.bmod (2 ^ 64))).hasText = true := by
  have hlow : -((2 : ℤ) ^ 64) ≤ n.bmod (2 ^ 64) := (by decide : -((2 : ℤ) ^ 64) ≤ -(((2 ^ 64 : ℕ) : ℤ) / 2)).trans
    (Int.le_bmod (by decide))
  have hhigh : n.bmod (2 ^ 64) < 2 ^ 64 := (Int.bmod_lt (by decide)).trans (by decide)
  have hsmall : (n.bmod (2 ^ 64)).natAbs < 10 ^ 20 := by
    generalize n.bmod (2 ^ 64) = m at hlow hhigh
    omega
  have hdigits := hsmall.trans_le (Nat.pow_le_pow_right (by decide : 0 < 10) (by decide : 20 ≤ 4300))
  exact decide_eq_true ((Nat.length_toDigits_le_iff (by decide) (by decide)).mpr hdigits)

/-- A text, or a scalar that is written. -/
inductive Plain : PyValue → Prop
  /-- A text. -/
  | str (s : String) : Plain (.str s)
  /-- A scalar. -/
  | scalar {s : JsonScalar} (h : s.hasText = true) : Plain (.scalar s)

theorem Plain.reach_eq {v : PyValue} (h : Plain v) : reach v = 1 := by
  cases h <;> rw [reach]

theorem Plain.nesting_eq {v : PyValue} (h : Plain v) : nesting (scrubbed v) = 0 := by
  cases h <;> rw [scrubbed, nesting]

theorem Plain.encodable {v : PyValue} (h : Plain v) : encodable v = true := by
  cases h with
  | str s => rw [Audit.encodable]
  | scalar hs => rw [Audit.encodable, hs]

theorem plain_bigint (n : ℤ) : Plain (bigint n) := .scalar (hasText_bigint n)

section
variable {ms : List (String × PyValue)}

theorem reachEntries_of_plain (h : ∀ m ∈ ms, Plain m.2) : reachEntries (ms.map fun m => (.str m.1, m.2)) ≤ 1 := by
  induction ms with
  | nil => exact Nat.zero_le 1
  | cons m ms ih =>
    obtain ⟨hplain, hrest⟩ := List.forall_mem_cons.mp h
    rw [List.map_cons, reachEntries]
    refine Nat.max_le.mpr ⟨?_, ih hrest⟩
    split_ifs
    · exact Nat.zero_le 1
    · exact hplain.reach_eq.le

theorem nestingEntries_of_plain (h : ∀ m ∈ ms, Plain m.2) :
    nestingEntries (scrubbedEntries (ms.map fun m => (.str m.1, m.2))) = 0 := by
  induction ms with
  | nil => rfl
  | cons m ms ih =>
    obtain ⟨hplain, hrest⟩ := List.forall_mem_cons.mp h
    rw [List.map_cons, scrubbedEntries, nestingEntries, ih hrest, Nat.max_zero]
    split_ifs
    · rw [nesting]
    · exact hplain.nesting_eq

theorem encodableEntries_of_plain (h : ∀ m ∈ ms, Plain m.2) :
    encodableEntries (ms.map fun m => (.str m.1, m.2)) = true := by
  induction ms with
  | nil => rfl
  | cons m ms ih =>
    obtain ⟨hplain, hrest⟩ := List.forall_mem_cons.mp h
    rw [List.map_cons, encodableEntries, hplain.encodable, ih hrest, Bool.or_true]
    rfl

/-- A `dict` of texts and scalars fits everywhere. -/
theorem fits_of_plain (rt : Runtime) (h : ∀ m ∈ ms, Plain m.2) : Fits rt (.dict (ms.map fun m => (.str m.1, m.2))) where
  calls := by
    rw [reach]
    exact (Nat.succ_le_succ (reachEntries_of_plain h)).trans rt.two_le_calls
  nested := by
    rw [scrubbed, nesting, nestingEntries_of_plain h]
    exact rt.nested_pos
  encodable := by rw [encodable, encodableEntries_of_plain h]

end

/-- The rows that a run writes can be prepared. -/
theorem preparable_completedArgs (rt : Runtime) (result : VerifyResult) (duration : JsonFloat) :
    Preparable rt (completedArgs result duration) where
  before := .inl rfl
  after := by
    have hplain : ∀ m ∈ [("checked", bigint result.checked), ("last_id", bigint result.lastId),
        ("duration_s", .scalar (.float duration))], Plain m.2 := by
      simp only [List.forall_mem_cons]
      exact ⟨plain_bigint _, plain_bigint _, .scalar rfl, List.forall_mem_nil _⟩
    exact ⟨rfl, .inr (fits_of_plain rt hplain)⟩
  entityType := trivial
  entityId := .inr rfl

theorem preparable_failureArgs (rt : Runtime) (result : VerifyResult) (triggerOk : Bool) :
    Preparable rt (failureArgs result triggerOk) where
  before := .inl rfl
  after := by
    have hsuspect : Plain (match result.failedId with
        | none => .none
        | some id => bigint id) := by
      cases result.failedId with
      | none => exact .scalar rfl
      | some id => exact plain_bigint id
    have hplain : ∀ m ∈ [("reason", .str (if result.reason ≠ "" then result.reason
          else if !triggerOk then "trigger_missing" else "unknown")),
        ("suspect_id", match result.failedId with
          | none => .none
          | some id => bigint id),
        ("last_good_id", bigint result.lastId), ("triggers_present", .scalar (.bool triggerOk))], Plain m.2 := by
      simp only [List.forall_mem_cons]
      exact ⟨.str _, hsuspect, plain_bigint _, .scalar rfl, List.forall_mem_nil _⟩
    exact ⟨rfl, .inr (fits_of_plain rt hplain)⟩
  entityType := trivial
  entityId := .inr rfl

/-- What a run does: it moves the cursor and calls `emit`, and returns what its walk found. -/
theorem runVerifier_eq (env : RunEnvironment) {result : VerifyResult}
    (hresult : verifyChain rt s.db.toAuditTable s.cursor.lastVerifiedId s.cursorHash = some result) :
    ∃ args, runVerifier rt env s = (⟨(emit rt env.emission args s.db).1, s.cursor.after result env⟩,
      some { result with triggerOk := env.triggersPresent }) := by
  have hraised : ∀ args, Preparable rt args → (emit rt env.emission args s.db).2 ≠ .raised := by
    intro args hargs
    rw [ne_eq, emit_raised_iff, ← ne_eq, ← Option.isSome_iff_ne_none]
    exact (prepare_isSome_iff _).mpr hargs
  have hcall : (emit rt env.emission (if result.ok && env.triggersPresent then completedArgs result env.duration
      else failureArgs result env.triggersPresent) s.db).2 ≠ .raised := by
    split_ifs
    · exact hraised _ (preparable_completedArgs rt result env.duration)
    · exact hraised _ (preparable_failureArgs rt result env.triggersPresent)
  unfold runVerifier
  rw [show verifyChain rt s.db.toAuditTable s.cursor.lastVerifiedId (orGenesis s.cursor.lastVerifiedHash) =
    some result from hresult]
  dsimp only
  generalize (if result.ok && env.triggersPresent then completedArgs result env.duration
    else failureArgs result env.triggersPresent) = args at hcall
  refine ⟨args, ?_⟩
  cases hemitted : (emit rt env.emission args s.db).2 with
  | raised => exact absurd hemitted hcall
  | dropped => rfl
  | written row => rfl

/-- **No step changes whether the rows above the cursor go on from it**, and a run fails exactly where they do
not and there are some. -/
theorem apply_spec {step : AuditStep} (h : WellFormed s) (hfair : step.Fair) :
    WellFormed (step.apply rt s).1 ∧ (Coherent rt (step.apply rt s).1 ↔ Coherent rt s) ∧
      ((∃ r ∈ (step.apply rt s).2, r.ok = false) ↔
        ¬ Coherent rt s ∧ ∃ env, step = .run env ∧ s.pending ≠ []) := by
  cases step with
  | emit env args =>
    obtain ⟨hwell, hcoherent⟩ := emit_step args h hfair
    refine ⟨hwell, hcoherent, ?_, ?_⟩
    · rintro ⟨r, hr, -⟩
      cases hr
    · rintro ⟨-, env', henv, -⟩
      cases henv
  | run env =>
    obtain ⟨hreads, htriggers⟩ := hfair
    obtain ⟨result, hresult, hok, -⟩ := exists_verifyChain rt h
    obtain ⟨args, hrun⟩ := runVerifier_eq env hresult
    obtain ⟨hwell, hcoherent⟩ := cursor_step h htriggers hresult
    obtain ⟨hwell', hcoherent'⟩ := emit_step args hwell hreads
    rw [AuditStep.apply, hrun]
    refine ⟨hwell', hcoherent'.trans hcoherent, ?_⟩
    have hfails : result.ok = false ↔ ¬ (auditChain rt).Linked s.cursorHash s.pending := by
      rw [← hok, Bool.not_eq_true]
    rw [not_linked_iff h] at hfails
    constructor
    · rintro ⟨r, hr, hr'⟩
      rw [Option.mem_some] at hr
      subst hr
      exact ⟨(hfails.mp hr').1, env, rfl, (hfails.mp hr').2⟩
    · rintro ⟨hnot, -, -, hpending⟩
      exact ⟨_, rfl, hfails.mpr ⟨hnot, hpending⟩⟩

/-- **Some run of a history fails exactly where the rows above the cursor do not go on from it at its start**,
and some run has any to look at. -/
theorem fails_iff {steps : List AuditStep} (h : WellFormed s) (hfair : ∀ step ∈ steps, step.Fair) :
    (∃ r ∈ runResults rt steps s, r.ok = false) ↔ ¬ Coherent rt s ∧ Looks rt steps s := by
  induction steps generalizing s with
  | nil => simp [runResults, Looks]
  | cons step steps ih =>
    obtain ⟨hwell, hcoherent, hfails⟩ :=
      (apply_spec h (hfair step List.mem_cons_self) : WellFormed (step.apply rt s).1 ∧ _)
    have hrest := ih hwell fun other hother => hfair other (List.mem_cons_of_mem _ hother)
    rw [hcoherent] at hrest
    simp only [runResults, Looks, List.mem_append, Option.mem_toList, or_and_right, exists_or, hrest]
    simp only [Option.mem_def] at hfails
    rw [hfails]
    unfold AuditState.pending
    constructor
    · rintro (⟨hnot, hlooks⟩ | ⟨hnot, hlooks⟩)
      · exact ⟨hnot, .inl hlooks⟩
      · exact ⟨hnot, .inr hlooks⟩
    · rintro ⟨hnot, hlooks | hlooks⟩
      · exact .inl ⟨hnot, hlooks⟩
      · exact .inr ⟨hnot, hlooks⟩

end

/-! ### Before anything is tampered with -/

/-- Nothing has been tampered with: the cursor stands behind the first rows of a chain. -/
structure Intact (rt : Runtime) (s : AuditState) : Prop where
  /-- Every hash is a digest. -/
  wellFormed : WellFormed s
  /-- The rows form a chain from the genesis hash. -/
  sound : Sound rt s.db
  /-- The rows above the cursor are the rest behind those it stands behind. -/
  behind : ∃ front, s.db.rows = front ++ s.pending ∧ s.cursor.lastVerifiedId = lastId 0 front ∧
    s.cursorHash = (auditChain rt).head genesisPrevHash front

theorem intact_initial (rt : Runtime) : Intact rt AuditState.initial where
  wellFormed := ⟨isDigest_genesisPrevHash, le_rfl, fun row hrow => by cases hrow⟩
  sound := sound_of_rows_eq_nil rfl
  behind := ⟨[], rfl, rfl, rfl⟩

section
variable {rt : Runtime} {s : AuditState}

/-- Where every hash is a digest, the hash that the next row goes on from is the last. -/
theorem WellFormed.headHash_eq (h : WellFormed s) :
    s.db.headHash = (auditChain rt).head genesisPrevHash s.db.rows := by
  rcases List.eq_nil_or_concat s.db.rows with hrows | ⟨front, last, hrows⟩
  · unfold AuditTable.headHash
    rw [hrows]
    rfl
  · rw [List.concat_eq_append] at hrows
    rw [headHash_of_rows hrows (h.digests last (by rw [hrows]; simp)), hrows, head_concat]

theorem Intact.linked (h : Intact rt s) : (auditChain rt).Linked s.cursorHash s.pending := by
  obtain ⟨front, hrows, -, hhash⟩ := h.behind
  have hlinked := h.sound.linked
  rw [hrows] at hlinked
  rw [hhash]
  exact (Chain.linked_append.mp hlinked).2

/-- As long as nothing is tampered with, the rows above the cursor go on from it. -/
theorem Intact.coherent (h : Intact rt s) : Coherent rt s := by
  refine ⟨h.linked, ?_⟩
  obtain ⟨front, hrows, -, hhash⟩ := h.behind
  rw [h.wellFormed.headHash_eq, hhash]
  calc (auditChain rt).head genesisPrevHash s.db.rows
      = (auditChain rt).head genesisPrevHash (front ++ s.pending) := by rw [← hrows]
    _ = (auditChain rt).head ((auditChain rt).head genesisPrevHash front) s.pending := Chain.head_append

/-- A call of `emit` tampers with nothing. -/
theorem Intact.emitted {env : Environment} (args : EmitArgs) (h : Intact rt s) (hreads : env.ReadsBack) :
    Intact rt { s with db := (emit rt env args s.db).1 } := by
  refine ⟨(emit_step args h.wellFormed hreads).1, emit_sound args hreads h.sound, ?_⟩
  obtain ⟨front, hrows, hid, hhash⟩ := h.behind
  refine ⟨front, ?_, hid, hhash⟩
  rcases emit_cases rt env args s.db with ⟨hsame, -⟩ | ⟨fields, row, -, hmade, hadded, -⟩
  · rw [hsame]
    exact hrows
  · have hnew : s.db.sequence < row.id := by
      rw [hmade.id]
      unfold AuditDb.nextId
      omega
    rw [pending_insert h.wellFormed hadded hnew, hadded, ← List.append_assoc, ← hrows]

/-- Nor does a run. -/
theorem Intact.ran {env : RunEnvironment} (h : Intact rt s) (hfair : (AuditStep.run env).Fair) :
    Intact rt (runVerifier rt env s).1 := by
  obtain ⟨hreads, htriggers⟩ := hfair
  obtain ⟨result, hresult, hok, -⟩ := exists_verifyChain rt h.wellFormed
  obtain ⟨args, hrun⟩ := runVerifier_eq env hresult
  rw [hrun]
  have hmoved : Intact rt ⟨s.db, s.cursor.after result env⟩ := by
    obtain ⟨front, hrows, hfront, hfronthash⟩ := h.behind
    obtain ⟨hid, hpending, hcursor⟩ := moved h.wellFormed htriggers hresult (hok.mpr h.linked)
    refine ⟨(cursor_step h.wellFormed htriggers hresult).1, h.sound, s.db.rows, ?_, ?_, ?_⟩
    · rw [hpending, List.append_nil]
    · rw [hid, hfront]
      calc lastId (lastId 0 front) s.pending = lastId 0 (front ++ s.pending) := (List.foldl_append ..).symm
        _ = lastId 0 s.db.rows := by rw [← hrows]
    · rw [hcursor, hfronthash]
      calc (auditChain rt).head ((auditChain rt).head genesisPrevHash front) s.pending
          = (auditChain rt).head genesisPrevHash (front ++ s.pending) := Chain.head_append.symm
        _ = (auditChain rt).head genesisPrevHash s.db.rows := by rw [← hrows]
  exact hmoved.emitted args hreads

/-- **In a history without tampering**, nothing is tampered with. -/
theorem intact_after {steps : List AuditStep} (h : Intact rt s) (hfair : ∀ step ∈ steps, step.Fair) :
    Intact rt (after rt steps s) := by
  induction steps generalizing s with
  | nil => exact h
  | cons step steps ih =>
    refine ih ?_ fun other hother => hfair other (List.mem_cons_of_mem _ hother)
    cases step with
    | emit env args => exact h.emitted args (hfair _ List.mem_cons_self)
    | run env => exact h.ran (hfair _ List.mem_cons_self)

end

end StratTrader.Audit
