import StratTrader.Audit.Hashing
import StratTrader.Audit.Scrub

/-!
# Writing an audit row

`emit` of `audit/services.py`. It prepares what is to be written outside its `try`, and inside
it reads the hash of the last row, computes that of the new one and inserts it. What the
database makes of the columns (`Environment.store`) is a parameter of every call.

## What is proved

* `emit_cases`: a call raises, writes nothing, or adds one row that goes on from the last hash.
* `emitAll_linked`: where columns are read back as they were written, calls one after another
  keep the rows one chain.

## Honest scope

The advisory lock makes the calls follow one another. No key of a dictionary is a slice. That the
text that is hashed holds the diffs one level deeper is a matter of what is refused
(`Environment.store`). The metrics and the log are left out.
-/

namespace StratTrader.Audit

open StratTrader.Brokers StratTrader.Foundation

/-! ### What is to be written -/

/-- The arguments of `emit`. -/
structure EmitArgs where
  /-- `str(event_type)`. -/
  eventType : String
  /-- The primary key of `user`, if there is one. -/
  user : Option UserId := none
  /-- The primary key of `actor`, if there is one. -/
  actor : Option UserId := none
  /-- `user_id`. -/
  userId : Option UserId := none
  /-- `actor_id`. -/
  actorId : Option UserId := none
  /-- `entity_type`. -/
  entityType : PyValue := .str ""
  /-- `entity_id`. -/
  entityId : PyValue := .str ""
  /-- `data_before`. -/
  dataBefore : PyValue := .none
  /-- `data_after`. -/
  dataAfter : PyValue := .none
  /-- `request`. -/
  request : Option RequestMeta := none
  /-- `metadata`. -/
  metadata : PyValue := .none
  /-- `ip`. -/
  ip : Option String := none
  /-- `ua`. -/
  ua : String := ""

/-- The world that a call meets. -/
structure Environment where
  /-- `timezone.now()`. -/
  now : UtcTime
  /-- What is read back of columns that are written; `none` if the database or its adapter refuses them. -/
  store : Fields → Option Columns
  /-- How many primary keys have been taken from the sequence in vain. -/
  gap : ℕ

/-- `a or b`, of texts. -/
def orText (a b : Option String) : Option String := if (orNone a).isSome then a else b

/-- `_client_ip`. -/
def clientIp (request : RequestMeta) : Option String :=
  match orNone request.forwardedFor with
  | some forwarded => orNone (some (firstHop forwarded))
  | none => orNone request.remoteAddr

/-- `{**(data_after or {}), **metadata}`, where there are metadata; `none` if it raises. -/
def foldMetadata (dataAfter metadata : PyValue) : Option PyValue :=
  if !metadata.hasTruth then none
  else if !metadata.truthy then some dataAfter
  else if !dataAfter.hasTruth then none
  else do
    let ms ← (if dataAfter.truthy then dataAfter else .dict []).entries?
    let ns ← metadata.entries?
    return .dict (mergeEntries ms ns)

/-- `(entity_type or "")[:64]`; `none` if it raises. -/
def sliceEntityType (entityType : PyValue) : Option PyValue :=
  if !entityType.hasTruth then none
  else if !entityType.truthy then some (.str "")
  else
    match entityType with
    | .str s => some (.str (truncate s 64))
    | .list vs => some (.list (vs.take 64))
    | .tuple vs => some (.tuple (vs.take 64))
    | .other _ _ _ slice _ => slice
    | .scalar _ | .dict _ => none

section
variable (rt : Runtime)

/-- `normalize_json(scrub(value)) if value is not None else None`; `none` if it raises. -/
def normalizeDiff : PyValue → Option JsonValue
  | .scalar .null => some (.scalar .null)
  | value => do
    let value ← scrub rt.calls value
    if rt.nested < nesting value then none
    toJson true value

/-- `repr` of a float. -/
def reprFloat (x : JsonFloat) : String :=
  match String.ofList x.text with
  | "NaN" => "nan"
  | "Infinity" => "inf"
  | "-Infinity" => "-inf"
  | text => text

/-- `str`; `none` if it raises. -/
def strOf : PyValue → Option String
  | .scalar .null => some "None"
  | .scalar (.bool true) => some "True"
  | .scalar (.bool false) => some "False"
  | .scalar (.int n) => if (JsonScalar.int n).hasText then some (String.ofList (intText n)) else none
  | .scalar (.float x) => some (reprFloat x)
  | .str s => some s
  | .other _ _ shown _ _ => shown
  | value => rt.repr value

/-- `("" if entity_id in (None, "") else str(entity_id))[:64]`; `none` if it raises. -/
def entityIdText (entityId : PyValue) : Option String :=
  match entityId with
  | .scalar .null => some ""
  | value => (strOf rt value).map fun s => truncate s 64

/-- What `emit` does before its `try`; `none` if it raises. -/
def prepare (now : UtcTime) (args : EmitArgs) : Option Fields := do
  let dataAfter ← foldMetadata args.dataAfter args.metadata
  let before ← normalizeDiff rt args.dataBefore
  let after ← normalizeDiff rt dataAfter
  let entityType ← sliceEntityType args.entityType
  let entityId ← entityIdText rt args.entityId
  return {
    occurredAt := now
    userId := args.userId.or args.user
    actorId := args.actorId.or args.actor
    eventType := args.eventType
    entityType := entityType
    entityId := entityId
    dataBefore := before
    dataAfter := after
    ip := match args.request with
      | some request => orText args.ip (clientIp request)
      | none => args.ip
    ua := truncate (match args.request with
      | some request => if args.ua ≠ "" then args.ua else request.userAgent.getD ""
      | none => args.ua) 512 }

/-! ### Writing it -/

/-- The hash of the last row, or the genesis hash. -/
def AuditTable.headHash (t : AuditTable) : String :=
  match orNone (t.rows.getLast?.map AuditLog.selfHash) with
  | some head => head
  | none => genesisPrevHash

/-- How a call of `emit` ends. -/
inductive EmitResult where
  /-- It raises. -/
  | raised
  /-- It returns `None`. -/
  | dropped
  /-- It returns the row. -/
  | written (row : AuditLog)

/-- The hashes that a row goes on from and has; `none` if computing them raises. -/
def hashes (t : AuditTable) (fields : Fields) : Option (String × String) := do
  let payload ← canonicalPayload fields
  let selfHash ← computeSelfHash rt t.headHash payload
  return (t.headHash, selfHash)

/-- `emit`. -/
def emit (env : Environment) (args : EmitArgs) (db : AuditDb) : AuditDb × EmitResult :=
  match prepare rt env.now args with
  | none => (db, .raised)
  | some fields =>
    match hashes rt db.toAuditTable fields, env.store fields with
    | some (prevHash, selfHash), some columns =>
      let row : AuditLog :=
        { columns with id := db.nextId env.gap, prevHash := prevHash, selfHash := selfHash }
      (db.insert env.gap row rfl, .written row)
    | _, _ => (db, .dropped)

/-- Calls of `emit`, one after another. -/
def emitAll : List (Environment × EmitArgs) → AuditDb → AuditDb × List EmitResult
  | [], db => (db, [])
  | (env, args) :: calls, db =>
    let (next, result) := emit rt env args db
    let (last, results) := emitAll calls next
    (last, result :: results)

end

/-! ### What a call does -/

/-- The calls that returned a row. -/
def EmitResult.isWritten : EmitResult → Bool
  | written _ => true
  | _ => false

section
variable {rt : Runtime} {env : Environment} {args : EmitArgs} {db : AuditDb}

/-- A row that `emit` has made of what was to be written. -/
structure Made (rt : Runtime) (env : Environment) (db : AuditDb) (fields : Fields) (row : AuditLog) : Prop where
  /-- What was written is what is read back. -/
  store : env.store fields = some row.toColumns
  /-- The next primary key. -/
  id : row.id = db.nextId env.gap
  /-- It goes on from the last row. -/
  chained : hashes rt db.toAuditTable fields = some (row.prevHash, row.selfHash)

/-- **A call leaves the table alone or adds one row to it**, which it returns. -/
theorem emit_cases (rt : Runtime) (env : Environment) (args : EmitArgs) (db : AuditDb) :
    (emit rt env args db).1 = db ∧ (emit rt env args db).2.isWritten = false ∨
      ∃ fields row, prepare rt env.now args = some fields ∧ Made rt env db fields row ∧
        (emit rt env args db).1.rows = db.rows ++ [row] ∧ (emit rt env args db).2 = .written row := by
  unfold emit
  cases hprepare : prepare rt env.now args with
  | none => exact .inl ⟨rfl, rfl⟩
  | some fields =>
    dsimp only
    cases hhashes : hashes rt db.toAuditTable fields with
    | none => exact .inl ⟨rfl, rfl⟩
    | some pair =>
      obtain ⟨prevHash, selfHash⟩ := pair
      cases hstore : env.store fields with
      | none => exact .inl ⟨rfl, rfl⟩
      | some columns => exact .inr ⟨fields, _, rfl, ⟨hstore, rfl, hhashes⟩, rfl, rfl⟩

end

/-- A call raises exactly where something raises before the `try`. -/
theorem emit_raised_iff {rt : Runtime} {env : Environment} {args : EmitArgs} {db : AuditDb} :
    (emit rt env args db).2 = .raised ↔ prepare rt env.now args = none := by
  unfold emit
  cases prepare rt env.now args with
  | none => simp
  | some fields =>
    dsimp only
    split <;> simp

/-! ### The chain that calls write -/

section
variable {rt : Runtime} {prevHash : String} {rows : List AuditLog}

theorem isDigest_of_rowSelfHash {row : AuditLog} {selfHash : String} (h : rowSelfHash rt row prevHash = some selfHash) :
    IsDigest selfHash := by
  unfold rowSelfHash computeSelfHash at h
  rw [canonicalPayload_fields] at h
  simp only [Option.bind_eq_bind, Option.bind_some] at h
  split_ifs at h
  rw [Option.some_inj] at h
  rw [← h]
  exact rt.sha256_digest _

/-- In a chain that starts from a digest, every row goes on from one. -/
theorem isDigest_prevHash (h : (auditChain rt).Linked prevHash rows) (hstart : IsDigest prevHash) :
    ∀ row ∈ rows, IsDigest row.prevHash := by
  induction rows generalizing prevHash with
  | nil => intro row hrow; cases hrow
  | cons first rows ih =>
    obtain ⟨hprev, hseals, hrest⟩ := linked_cons.mp h
    intro row hrow
    rcases List.mem_cons.mp hrow with rfl | hrow
    · rw [hprev]
      exact hstart
    · exact ih hrest (isDigest_of_rowSelfHash hseals) row hrow

/-- It also ends in one. -/
theorem isDigest_head (h : (auditChain rt).Linked prevHash rows) (hstart : IsDigest prevHash) :
    IsDigest ((auditChain rt).head prevHash rows) := by
  rcases List.eq_nil_or_concat rows with rfl | ⟨front, last, rfl⟩
  · exact hstart
  · rw [List.concat_eq_append] at h ⊢
    rw [head_concat]
    exact isDigest_of_rowSelfHash (linked_concat.mp h).2.2

theorem IsDigest.ne_empty {s : String} (h : IsDigest s) : s ≠ "" := by
  rintro rfl
  exact absurd h.1 (by decide)

/-- The hash that `emit` goes on from is the last of the chain. -/
theorem headHash_eq {t : AuditTable} (h : (auditChain rt).Linked genesisPrevHash t.rows) :
    t.headHash = (auditChain rt).head genesisPrevHash t.rows := by
  unfold AuditTable.headHash
  rcases List.eq_nil_or_concat t.rows with hrows | ⟨front, last, hrows⟩
  · rw [hrows]
    rfl
  · rw [List.concat_eq_append] at hrows
    rw [hrows] at h ⊢
    have hlast : last.selfHash ≠ "" := (isDigest_of_rowSelfHash (linked_concat.mp h).2.2).ne_empty
    rw [head_concat, List.getLast?_append_of_ne_nil _ (by simp)]
    have hhead : orNone ([last].getLast?.map AuditLog.selfHash) = some last.selfHash := orNone_some hlast
    rw [hhead]

end

/-- Columns are read back as they were written. -/
def Environment.ReadsBack (env : Environment) : Prop :=
  ∀ fields columns, env.store fields = some columns → SameFields columns.fields fields

/-- The rows form a chain from the genesis hash, under positive primary keys. -/
structure Sound (rt : Runtime) (db : AuditDb) : Prop where
  /-- The chain. -/
  linked : (auditChain rt).Linked genesisPrevHash db.rows
  /-- The primary keys. -/
  positive : ∀ row ∈ db.rows, 0 < row.id

section
variable {rt : Runtime}

theorem sound_of_rows_eq_nil {db : AuditDb} (h : db.rows = []) : Sound rt db := by
  constructor
  · rw [h]
    trivial
  · intro row hrow
    rw [h] at hrow
    cases hrow

/-- What the writer hashes is what the verifier does, if the row is read back as it was written. -/
theorem Made.seals_of_sameFields {env : Environment} {db : AuditDb} {fields : Fields} {row : AuditLog}
    (h : Made rt env db fields row) (hsame : SameFields row.fields fields) :
    row.prevHash = db.headHash ∧ rowSelfHash rt row db.headHash = some row.selfHash := by
  have hpayload := canonicalPayload_congr hsame
  rw [canonicalPayload_fields] at hpayload
  have hhashes := h.chained
  simp only [hashes, ← hpayload, Option.bind_eq_bind, Option.bind_some] at hhashes
  obtain ⟨selfHash, hself, hpair⟩ := Option.bind_eq_some_iff.mp hhashes
  obtain ⟨hprev, rfl⟩ := Prod.mk.injEq .. ▸ Option.some_inj.mp hpair
  refine ⟨hprev.symm, ?_⟩
  unfold rowSelfHash
  rw [canonicalPayload_fields]
  exact hself

theorem Made.seals {env : Environment} {db : AuditDb} {fields : Fields} {row : AuditLog}
    (h : Made rt env db fields row) (hreads : env.ReadsBack) :
    row.prevHash = db.headHash ∧ rowSelfHash rt row db.headHash = some row.selfHash :=
  h.seals_of_sameFields (hreads fields row.toColumns h.store)

/-- A call keeps the chain. -/
theorem emit_sound {env : Environment} (args : EmitArgs) {db : AuditDb} (hreads : env.ReadsBack)
    (h : Sound rt db) : Sound rt (emit rt env args db).1 := by
  rcases emit_cases rt env args db with ⟨hsame, -⟩ | ⟨fields, row, -, hmade, hrows, -⟩
  · rw [hsame]
    exact h
  · obtain ⟨hprev, hself⟩ := hmade.seals hreads
    rw [headHash_eq h.linked] at hprev hself
    constructor
    · rw [hrows]
      exact linked_concat.mpr ⟨h.linked, hprev, hself⟩
    · intro other hother
      rw [hrows] at hother
      rcases List.mem_append.mp hother with hold | hnew
      · exact h.positive other hold
      · rw [List.mem_singleton.mp hnew, hmade.id]
        unfold AuditDb.nextId
        omega

/-- **Calls one after another keep the chain.** -/
theorem emitAll_sound (calls : List (Environment × EmitArgs)) {db : AuditDb}
    (hreads : ∀ call ∈ calls, call.1.ReadsBack) (h : Sound rt db) : Sound rt (emitAll rt calls db).1 := by
  induction calls generalizing db with
  | nil => exact h
  | cons call calls ih =>
    apply ih (fun other hother => hreads other (List.mem_cons_of_mem _ hother))
    exact emit_sound call.2 (hreads call List.mem_cons_self) h

variable (rt) in
/-- Nothing that a call is given, and nothing that the database does, stands in the way of its row. -/
def writable (env : Environment) (args : EmitArgs) : Bool :=
  (prepare rt env.now args).any fun fields => (canonicalPayload fields).isSome && (env.store fields).isSome

/-- Where the last hash is a digest, a call writes its row if it can be written. -/
theorem emit_isWritten_of_isDigest {db : AuditDb} (h : IsDigest db.headHash) (env : Environment) (args : EmitArgs) :
    (emit rt env args db).2.isWritten = writable rt env args := by
  have hascii : isAscii db.headHash = true := h.isAscii
  unfold emit writable hashes
  cases prepare rt env.now args with
  | none => rfl
  | some fields =>
    simp only [Option.any_some, computeSelfHash, hascii, if_true, Option.bind_eq_bind]
    cases canonicalPayload fields with
    | none => rfl
    | some payload =>
      cases env.store fields with
      | none => rfl
      | some columns => rfl

/-- So it does where the rows form a chain. -/
theorem emit_isWritten {db : AuditDb} (h : Sound rt db) (env : Environment) (args : EmitArgs) :
    (emit rt env args db).2.isWritten = writable rt env args := by
  apply emit_isWritten_of_isDigest
  rw [headHash_eq h.linked]
  exact isDigest_head h.linked isDigest_genesisPrevHash

/-- So calls one after another write the rows that can be written. -/
theorem countP_emitAll (calls : List (Environment × EmitArgs)) {db : AuditDb}
    (hreads : ∀ call ∈ calls, call.1.ReadsBack) (h : Sound rt db) :
    (emitAll rt calls db).2.countP EmitResult.isWritten =
      calls.countP fun call => writable rt call.1 call.2 := by
  induction calls generalizing db with
  | nil => rfl
  | cons call calls ih =>
    have hnext : Sound rt (emit rt call.1 call.2 db).1 := emit_sound call.2 (hreads call List.mem_cons_self) h
    have hrest := ih (fun other hother => hreads other (List.mem_cons_of_mem _ hother)) hnext
    simp only [emitAll, List.countP_cons, hrest, emit_isWritten h]

/-- Each row was returned by a call. -/
theorem length_emitAll (calls : List (Environment × EmitArgs)) (db : AuditDb) :
    (emitAll rt calls db).1.rows.length =
      db.rows.length + (emitAll rt calls db).2.countP EmitResult.isWritten := by
  induction calls generalizing db with
  | nil => rfl
  | cons call calls ih =>
    have hnext : (emit rt call.1 call.2 db).1.rows.length =
        db.rows.length + if (emit rt call.1 call.2 db).2.isWritten then 1 else 0 := by
      rcases emit_cases rt call.1 call.2 db with ⟨hsame, hnone⟩ | ⟨fields, row, -, -, hrows, hresult⟩
      · rw [hsame, hnone]
        rfl
      · rw [hrows, hresult, List.length_append]
        rfl
    simp only [emitAll, ih, hnext, List.countP_cons]
    omega

end

/-! ### A sample -/

/-- A number made of bytes. -/
def checksum (data : ByteArray) : ℕ := data.data.toList.foldl (fun n byte => (257 * n + byte.toNat + 1) % 10 ^ 62) 0

theorem isHexDigit_of_mem_padded {width n : ℕ} {c : Char} (h : c ∈ padded width n) : isHexDigit c = true := by
  induction width generalizing n with
  | zero => cases h
  | succ width ih =>
    rcases List.mem_append.mp h with hfront | hlast
    · exact ih hfront
    · rw [List.mem_singleton.mp hlast]
      have hdigit : ∀ d < 10, isHexDigit (Nat.digitChar d) = true := by decide
      exact hdigit _ (Nat.mod_lt _ (by decide))

/-- A runtime that hashes by check sums. -/
def sampleRuntime : Runtime where
  sha256 data := String.ofList (padded 64 (10 ^ 63 + checksum data))
  sha256_digest data := by
    unfold IsDigest
    rw [String.toList_ofList]
    exact ⟨length_padded _ _, List.all_eq_true.mpr fun _ => isHexDigit_of_mem_padded⟩
  repr _ := none
  calls := 900
  two_le_calls := by decide
  nested := 1500
  nested_pos := by decide

/-- A database that takes every text. -/
def sampleStore (fields : Fields) : Option Columns :=
  match fields.entityType with
  | .str entityType => some { fields with entityType := entityType }
  | _ => none

/-- A call at noon, in some second. -/
def sampleEnvironment (second : Fin 60) : Environment where
  now := ⟨2026, 7, 9, 12, 0, second, 123456⟩
  store := sampleStore
  gap := 0

/-- The first call. -/
def firstEnvironment : Environment := sampleEnvironment 1

/-- The second. -/
def secondEnvironment : Environment := sampleEnvironment 2

theorem readsBack_sampleEnvironment (second : Fin 60) : (sampleEnvironment second).ReadsBack := by
  intro fields columns h
  change sampleStore fields = some columns at h
  unfold sampleStore at h
  cases htype : fields.entityType with
  | str entityType =>
    rw [htype, Option.some_inj] at h
    subst h
    exact ⟨rfl, rfl, rfl, rfl, htype.symm, rfl, rfl, rfl, rfl, rfl⟩
  | scalar _ => rw [htype] at h; cases h
  | list _ => rw [htype] at h; cases h
  | tuple _ => rw [htype] at h; cases h
  | dict _ => rw [htype] at h; cases h
  | other _ _ _ _ _ => rw [htype] at h; cases h

/-- A user is disabled, and signs in in vain. -/
def sampleCalls : List (Environment × EmitArgs) :=
  [(sampleEnvironment 1, {
      eventType := "admin.user_disabled"
      user := some "u"
      actor := some "a"
      entityType := .str "user"
      entityId := .str "u"
      dataBefore := .dict [(.str "is_active", .scalar (.bool true))]
      dataAfter := .dict [(.str "is_active", .scalar (.bool false))] }),
    (sampleEnvironment 2, {
      eventType := "auth.login_failed"
      user := some "u"
      dataAfter := .dict [(.str "password", .str "hunter2")]
      request := some ⟨some "192.0.2.7, 10.0.0.1", none, some "curl"⟩ })]

theorem readsBack_sampleCalls : ∀ call ∈ sampleCalls, call.1.ReadsBack := by
  intro call hcall
  simp only [sampleCalls, List.mem_cons, List.not_mem_nil, or_false] at hcall
  rcases hcall with rfl | rfl <;> exact readsBack_sampleEnvironment _

/-- These calls on an empty table. -/
def sampleRun : AuditDb × List EmitResult := emitAll sampleRuntime sampleCalls AuditDb.empty

theorem sound_sampleRun : Sound sampleRuntime sampleRun.1 :=
  emitAll_sound sampleCalls readsBack_sampleCalls (sound_of_rows_eq_nil rfl)

end StratTrader.Audit
