import StratTrader.Audit.Tamper

/-!
# What a requester can do to the audit log

`emit` writes the address of the client and its user agent, as they stand in the headers of a
request, into columns of Postgres: the address into one of type `inet`, which refuses what is no
address and writes one its own way; the user agent into a text, which refuses NUL.

## What is proved

* `headHash_emitAll`: whatever the database does, the hash to go on from is a digest.
* `prepare_request`: the headers reach the address and the user agent of the row only.
* `persisted_iff`: the row of a request is stored and verifies exactly if its address is as
  Postgres writes it, or empty, and its user agent is without NUL.

## Honest scope

What Postgres takes for an address, and how it writes it, is a parameter; so is what it takes for
a `jsonb`. The hash is taken for injective on the two byte strings at hand.
-/

namespace StratTrader.Audit

open StratTrader.Foundation

/-! ### The columns of Postgres -/

/-- What Postgres makes of the values of some columns. -/
structure Postgres where
  /-- What is read back of a text that is written to an `inet`; `none` if it is refused. -/
  inet : String → Option String
  /-- Whether a `jsonb` takes a value. -/
  jsonb : JsonValue → Bool

/-- Whether a column of at most so many characters takes a text. -/
def takesText (limit : ℕ) (s : String) : Bool := decide (s.toList.length ≤ limit) && decide ('\x00' ∉ s.toList)

section
variable (pg : Postgres)

/-- What is read back of the address. -/
def Postgres.address (ip : Option String) : Option (Option String) :=
  match orNone ip with
  | none => some none
  | some ip => (pg.inet ip).map some

/-- What is read back of the columns; `none` if any is refused. -/
def Postgres.store (fields : Fields) : Option Columns :=
  match fields.entityType with
  | .str entityType =>
    if takesText 64 fields.eventType && takesText 64 entityType && takesText 64 fields.entityId &&
        pg.jsonb fields.dataBefore && pg.jsonb fields.dataAfter && takesText 512 fields.ua then
      (pg.address fields.ip).map fun ip => { fields with entityType := entityType, ip := ip }
    else none
  | _ => none

/-- A call on Postgres. -/
def Postgres.environment (now : UtcTime) (gap : ℕ) : Environment := ⟨now, pg.store, gap⟩

end

/-! ### What a request brings -/

/-- `ip or _client_ip(request)`. -/
def requestIp (args : EmitArgs) (request : RequestMeta) : Option String := orText args.ip (clientIp request)

/-- `(ua or (request.META.get("HTTP_USER_AGENT") or ""))[:512]`. -/
def requestUa (args : EmitArgs) (request : RequestMeta) : String :=
  truncate (if args.ua ≠ "" then args.ua else request.userAgent.getD "") 512

/-- The arguments without what a request brings. -/
def EmitArgs.bare (args : EmitArgs) : EmitArgs := { args with request := none, ip := none, ua := "" }

/-- The row can be stored as far as no request has a part in it. -/
def Storable (rt : Runtime) (pg : Postgres) (now : UtcTime) (args : EmitArgs) : Prop :=
  ∃ fields, prepare rt now args.bare = some fields ∧ (pg.store fields).isSome = true

/-- The address is as Postgres writes it, or there is none; the user agent is without NUL. -/
structure Harmless (pg : Postgres) (args : EmitArgs) (request : RequestMeta) : Prop where
  /-- The address. -/
  ip : ∀ ip, orNone (requestIp args request) = some ip → pg.inet ip = some ip
  /-- The user agent. -/
  ua : '\x00' ∉ (requestUa args request).toList

/-- What is to be written, with what a request brings. -/
def Fields.requested (fields : Fields) (args : EmitArgs) (request : RequestMeta) : Fields :=
  { fields with ip := requestIp args request, ua := requestUa args request }

/-- **The headers of a request reach the address and the user agent of the row only.** -/
theorem prepare_request (rt : Runtime) (now : UtcTime) (args : EmitArgs) (request : RequestMeta) :
    prepare rt now { args with request := some request } =
      (prepare rt now args.bare).map fun fields => fields.requested args request := by
  unfold prepare EmitArgs.bare
  simp only [Option.bind_eq_bind, Option.map_bind, Option.pure_def, Function.comp_def, Option.map_some]
  rfl

/-! ### The hash to go on from -/

/-- Whatever the database does, a row has a digest. -/
theorem Made.isDigest {rt : Runtime} {env : Environment} {db : AuditDb} {fields : Fields} {row : AuditLog}
    (h : Made rt env db fields row) : IsDigest row.selfHash := by
  have hhashes := h.chained
  simp only [hashes, Option.bind_eq_bind] at hhashes
  obtain ⟨payload, -, hpayload⟩ := Option.bind_eq_some_iff.mp hhashes
  obtain ⟨selfHash, hself, hpair⟩ := Option.bind_eq_some_iff.mp hpayload
  obtain ⟨-, rfl⟩ := Prod.mk.injEq .. ▸ Option.some_inj.mp hpair
  unfold computeSelfHash at hself
  split_ifs at hself
  rw [← Option.some_inj.mp hself]
  exact rt.sha256_digest _

/-- Every row has a digest. -/
def AuditTable.Hashed (t : AuditTable) : Prop := ∀ row ∈ t.rows, IsDigest row.selfHash

/-- A call keeps that. -/
theorem emit_hashed {rt : Runtime} {db : AuditDb} (env : Environment) (args : EmitArgs) (h : db.Hashed) :
    (emit rt env args db).1.Hashed := by
  rcases emit_cases rt env args db with ⟨hsame, -⟩ | ⟨fields, row, -, hmade, hrows, -⟩
  · rw [hsame]
    exact h
  · intro other hother
    rw [hrows] at hother
    rcases List.mem_append.mp hother with hold | hnew
    · exact h other hold
    · rw [List.mem_singleton.mp hnew]
      exact hmade.isDigest

/-- So do calls one after another. -/
theorem emitAll_hashed {rt : Runtime} {db : AuditDb} (calls : List (Environment × EmitArgs)) (h : db.Hashed) :
    (emitAll rt calls db).1.Hashed := by
  induction calls generalizing db with
  | nil => exact h
  | cons call calls ih => exact ih (emit_hashed call.1 call.2 h)

/-- **The hash to go on from is then a digest.** -/
theorem AuditTable.Hashed.headHash {t : AuditTable} (h : t.Hashed) : IsDigest t.headHash := by
  unfold AuditTable.headHash
  rcases List.eq_nil_or_concat t.rows with hrows | ⟨front, last, hrows⟩
  · rw [hrows]
    exact isDigest_genesisPrevHash
  · rw [List.concat_eq_append] at hrows
    have hlast : IsDigest last.selfHash := h last (by rw [hrows]; simp)
    rw [hrows, List.getLast?_concat, Option.map_some, orNone_some hlast.ne_empty]
    exact hlast

/-! ### The row of a request -/

section
variable {pg : Postgres} {fields : Fields}

/-- What is stored differs from what was sent in the address only. -/
theorem store_eq {columns : Columns} (h : pg.store fields = some columns) :
    pg.address fields.ip = some columns.ip ∧ takesText 512 fields.ua = true ∧
      fields = Columns.fields { columns with ip := fields.ip } := by
  unfold Postgres.store at h
  cases htype : fields.entityType with
  | str entityType =>
    rw [htype] at h
    dsimp only at h
    split_ifs at h with htaken
    obtain ⟨ip, hip, rfl⟩ := Option.map_eq_some_iff.mp h
    rw [Bool.and_eq_true] at htaken
    refine ⟨hip, htaken.2, ?_⟩
    unfold Columns.fields
    rw [← htype]
  | scalar _ => rw [htype] at h; cases h
  | list _ => rw [htype] at h; cases h
  | tuple _ => rw [htype] at h; cases h
  | dict _ => rw [htype] at h; cases h
  | other _ _ _ _ _ => rw [htype] at h; cases h

/-- A row that is stored is so with another address and user agent, if their columns take them. -/
theorem store_isSome (h : (pg.store fields).isSome = true) {ip : Option String} {ua : String}
    (hip : (pg.address ip).isSome = true) (hua : takesText 512 ua = true) :
    (pg.store { fields with ip := ip, ua := ua }).isSome = true := by
  unfold Postgres.store at h ⊢
  cases htype : fields.entityType with
  | str entityType =>
    rw [htype] at h
    dsimp only at h ⊢
    split_ifs at h with htaken
    · rw [Bool.and_eq_true] at htaken
      rw [htaken.1, hua, Bool.true_and, if_pos rfl, Option.isSome_map]
      exact hip
    · cases h
  | scalar _ => rw [htype] at h; cases h
  | list _ => rw [htype] at h; cases h
  | tuple _ => rw [htype] at h; cases h
  | dict _ => rw [htype] at h; cases h
  | other _ _ _ _ _ => rw [htype] at h; cases h

/-- The address is read back as it was written exactly if it is as Postgres writes it. -/
theorem address_same {ip stored : Option String} (h : pg.address ip = some stored) :
    orNone stored = orNone ip ↔ ∀ text, orNone ip = some text → pg.inet text = some text := by
  unfold Postgres.address at h
  cases hip : orNone ip with
  | none =>
    rw [hip] at h
    rw [← Option.some_inj.mp h]
    refine ⟨?_, fun _ => rfl⟩
    intro _ text htext
    cases htext
  | some text =>
    rw [hip] at h
    obtain ⟨found, hfound, rfl⟩ := Option.map_eq_some_iff.mp h
    have htext : text ≠ "" := of_decide_eq_true (Option.filter_eq_some_iff.mp hip).2
    constructor
    · intro hsame other hother
      have hword : found = text := by
        obtain ⟨hstored, -⟩ := Option.filter_eq_some_iff.mp hsame
        exact Option.some_inj.mp hstored
      rw [← Option.some_inj.mp hother]
      rw [hword] at hfound
      exact hfound
    · intro hsame
      have hword := hfound.symm.trans (hsame text rfl)
      rw [hword]
      exact orNone_some htext

/-- So are the columns. -/
theorem store_same {columns : Columns} (h : pg.store fields = some columns) :
    SameFields columns.fields fields ↔ ∀ text, orNone fields.ip = some text → pg.inet text = some text := by
  obtain ⟨haddress, -, hsent⟩ := store_eq h
  rw [← address_same haddress]
  constructor
  · intro hsame
    exact hsame.ip
  · intro hip
    rw [hsent]
    exact ⟨rfl, rfl, rfl, rfl, rfl, rfl, rfl, rfl, hip, rfl⟩

theorem takesText_truncate (s : String) : takesText 512 (truncate s 512) = true ↔
    '\x00' ∉ (truncate s 512).toList := by
  unfold takesText truncate
  rw [Bool.and_eq_true, decide_eq_true_eq, decide_eq_true_eq, String.toList_ofList]
  exact and_iff_right (List.length_take_le _ _)

end

/-- The bytes that are hashed for columns that go on from a hash. -/
def bytesOf (prevHash : String) (fields : Fields) : Option ByteArray :=
  (canonicalPayload fields).map fun payload => prevHash.toUTF8 ++ payload.toUTF8

/-- What is hashed when the row is written, and what is hashed when it is read back. -/
def hashedFor (rt : Runtime) (env : Environment) (args : EmitArgs) (t : AuditTable) : Set ByteArray :=
  {data | ∃ fields columns, prepare rt env.now args = some fields ∧ env.store fields = some columns ∧
    (bytesOf t.headHash fields = some data ∨ bytesOf t.headHash columns.fields = some data)}

/-- The row stands in the table, and its hash is the one that is computed from what is read back. -/
def Persisted (rt : Runtime) (env : Environment) (args : EmitArgs) (db : AuditDb) : Prop :=
  ∃ row, (emit rt env args db).1.rows = db.rows ++ [row] ∧ rowSelfHash rt row row.prevHash = some row.selfHash

/-- Where a row is read back as it was written, the same is hashed both times. -/
theorem injOn_hashedFor {rt : Runtime} {env : Environment} {args : EmitArgs} {t : AuditTable}
    (h : ∀ fields columns, prepare rt env.now args = some fields → env.store fields = some columns →
      SameFields columns.fields fields) : Set.InjOn rt.sha256 (hashedFor rt env args t) := by
  have hsame : ∀ data ∈ hashedFor rt env args t, (prepare rt env.now args).bind (bytesOf t.headHash) = some data := by
    rintro data ⟨fields, columns, hfields, hcolumns, hdata⟩
    rw [hfields, Option.bind_some]
    rcases hdata with hdata | hdata
    · exact hdata
    · unfold bytesOf at hdata ⊢
      rw [← canonicalPayload_congr (h fields columns hfields hcolumns)]
      exact hdata
  intro data hdata data' hdata' _
  exact Option.some_inj.mp ((hsame data hdata).symm.trans (hsame data' hdata'))

/-- What a row that is made goes on from, and the hash that it gets. -/
theorem Made.hashed {rt : Runtime} {env : Environment} {db : AuditDb} {fields : Fields} {row : AuditLog}
    (h : Made rt env db fields row) {sent : Columns} (hsent : fields = sent.fields) : row.prevHash = db.headHash ∧
      rt.sha256 (AuditLog.hashedBytes { sent with id := 0, prevHash := db.headHash, selfHash := "" }) =
        row.selfHash := by
  have hhashes := h.chained
  simp only [hashes, hsent, canonicalPayload_fields, Option.bind_eq_bind, Option.bind_some] at hhashes
  obtain ⟨selfHash, hself, hpair⟩ := Option.bind_eq_some_iff.mp hhashes
  obtain ⟨hprev, rfl⟩ := Prod.mk.injEq .. ▸ Option.some_inj.mp hpair
  refine ⟨hprev.symm, ?_⟩
  unfold computeSelfHash at hself
  split_ifs at hself
  exact Option.some_inj.mp hself

/-- A row that is made verifies exactly if it is read back as it was written. -/
theorem Made.verifies_iff {rt : Runtime} {env : Environment} {args : EmitArgs} {db : AuditDb} {fields : Fields}
    {row : AuditLog} (h : Made rt env db fields row) (hprepare : prepare rt env.now args = some fields)
    {sent : Columns} (hsent : fields = sent.fields)
    (hinj : Set.InjOn rt.sha256 (hashedFor rt env args db.toAuditTable)) :
    rowSelfHash rt row row.prevHash = some row.selfHash ↔ SameFields row.fields fields := by
  constructor
  · intro hseals
    obtain ⟨hprev, hself⟩ := h.hashed hsent
    have hread := selfHash_of_rowSelfHash hseals
    let sentRow : AuditLog := { sent with id := 0, prevHash := db.headHash, selfHash := "" }
    have hbytes : row.hashedBytes = sentRow.hashedBytes := by
      refine hinj ⟨fields, row.toColumns, hprepare, h.store, .inr ?_⟩ ⟨fields, row.toColumns, hprepare, h.store, .inl ?_⟩
        (hread.trans hself.symm)
      · unfold bytesOf
        rw [canonicalPayload_fields, Option.map_some, ← hprev]
        rfl
      · unfold bytesOf
        rw [hsent, canonicalPayload_fields, Option.map_some]
        rfl
    have hsame : SameRow row sentRow := (hashedBytes_inj (congrArg (fun s => s.toList.length) hprev) hbytes).2
    rw [hsent]
    exact hsame
  · intro hsame
    obtain ⟨hprev, hself⟩ := h.seals_of_sameFields hsame
    rw [hprev]
    exact hself

section
variable {rt : Runtime} {pg : Postgres} {now : UtcTime} {gap : ℕ} {args : EmitArgs} {request : RequestMeta}
  {db : AuditDb}

/-- A row that is stored and verifies is that of a harmless request. -/
theorem harmless_of_persisted (hinj : Set.InjOn rt.sha256 (hashedFor rt (pg.environment now gap)
    { args with request := some request } db.toAuditTable))
    (h : Persisted rt (pg.environment now gap) { args with request := some request } db) :
    Harmless pg args request := by
  obtain ⟨row, hrows, hseals⟩ := h
  rcases emit_cases rt (pg.environment now gap) { args with request := some request } db with
    ⟨hsame, -⟩ | ⟨fields, made, hfields, hmade, hadded, -⟩
  · rw [hsame] at hrows
    have hlength := congrArg List.length hrows
    rw [List.length_append, List.length_singleton] at hlength
    omega
  · rw [hrows] at hadded
    obtain rfl := List.singleton_inj.mp (List.append_cancel_left hadded)
    obtain ⟨-, hua, hsent⟩ := store_eq hmade.store
    have hread := (hmade.verifies_iff hfields hsent hinj).mp hseals
    rw [store_same hmade.store] at hread
    rw [prepare_request] at hfields
    obtain ⟨bare, -, rfl⟩ := Option.map_eq_some_iff.mp hfields
    exact ⟨hread, (takesText_truncate _).mp hua⟩

/-- The row of a harmless request is stored and verifies. -/
theorem persisted_of_harmless (hdigest : IsDigest db.headHash) (hstorable : Storable rt pg now args)
    (h : Harmless pg args request) :
    Persisted rt (pg.environment now gap) { args with request := some request } db := by
  obtain ⟨bare, hbare, hstored⟩ := hstorable
  have hprepare : prepare rt now { args with request := some request } = some (bare.requested args request) := by
    rw [prepare_request, hbare, Option.map_some]
  have haddress : (pg.address (requestIp args request)).isSome = true := by
    unfold Postgres.address
    cases hrequest : orNone (requestIp args request) with
    | none => rfl
    | some text =>
      dsimp only
      rw [h.ip text hrequest]
      rfl
  have hstored' : (pg.store (bare.requested args request)).isSome = true :=
    store_isSome hstored haddress ((takesText_truncate _).mpr h.ua)
  have hwritten : writable rt (pg.environment now gap) { args with request := some request } = true := by
    obtain ⟨columns, hcolumns⟩ := Option.isSome_iff_exists.mp hstored'
    obtain ⟨-, -, hsent⟩ := store_eq hcolumns
    unfold writable
    rw [show (pg.environment now gap).now = now from rfl, hprepare, Option.any_some, Bool.and_eq_true]
    refine ⟨?_, hstored'⟩
    rw [hsent, canonicalPayload_fields]
    rfl
  rw [← emit_isWritten_of_isDigest hdigest] at hwritten
  rcases emit_cases rt (pg.environment now gap) { args with request := some request } db with
    ⟨-, hnone⟩ | ⟨fields, row, hfields, hmade, hrows, -⟩
  · rw [hnone] at hwritten
    cases hwritten
  · have hfields : prepare rt now { args with request := some request } = some fields := hfields
    rw [hprepare, Option.some_inj] at hfields
    subst hfields
    obtain ⟨hprev, hself⟩ := hmade.seals_of_sameFields ((store_same hmade.store).mpr h.ip)
    refine ⟨row, hrows, ?_⟩
    rw [hprev]
    exact hself

end

/-- The number that stands between the points of an address. -/
def isOctet (cs : List Char) : Bool :=
  cs.all Char.isDigit && decide (0 < cs.length ∧ cs.length ≤ 3) &&
    decide (cs.foldl (fun n c => 10 * n + (c.toNat - 48)) 0 < 256)

/-- An `inet` that knows addresses of four numbers only. -/
def sampleInet (ip : String) : Option String :=
  let parts := ip.toList.splitOn '.'
  if parts.length = 4 ∧ parts.all isOctet = true then some ip else none

/-- A Postgres with these addresses. -/
def samplePostgres : Postgres := ⟨sampleInet, fun _ => true⟩

/-- A call without anything but its event. -/
theorem storable_sample : Storable sampleRuntime samplePostgres firstEnvironment.now { eventType := "a" } := by
  have hstored : ((prepare sampleRuntime firstEnvironment.now (EmitArgs.bare { eventType := "a" })).any fun fields =>
      (samplePostgres.store fields).isSome) = true := by decide +kernel
  exact (Option.any_eq_true _ _).mp hstored

/-- A request that came through two proxies. -/
def sampleRequest : RequestMeta := ⟨some "192.0.2.7, 10.0.0.1", none, some "curl"⟩

theorem harmless_sampleRequest : Harmless samplePostgres { eventType := "a" } sampleRequest where
  ip := by
    have hip : orNone (requestIp { eventType := "a" } sampleRequest) = some "192.0.2.7" := by decide +kernel
    have hinet : sampleInet "192.0.2.7" = some "192.0.2.7" := by decide +kernel
    intro ip h
    rw [hip, Option.some_inj] at h
    rw [← h]
    exact hinet
  ua := by decide +kernel

/-- A request of which a proxy does not say whose it is. -/
def unknownRequest : RequestMeta := ⟨some "unknown", none, some "curl"⟩

theorem orNone_unknownRequest : orNone (requestIp { eventType := "a" } unknownRequest) = some "unknown" := by
  decide +kernel

theorem sampleInet_unknown : sampleInet "unknown" = none := by decide +kernel

end StratTrader.Audit
