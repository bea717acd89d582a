import StratTrader.Audit.Services
import StratTrader.Foundation.Savepoint

/-!
# What `emit` lets through

`emit` is called inside the transaction of the action that it records. Its `try` stands around a
savepoint, but the diffs, the kind of the entity and the identifier are prepared before it.

## What is proved

* `prepare_isSome_iff`: the arguments are prepared exactly if the diffs are not too deep and every value
  that scrubbing leaves in them can be written as JSON, the kind of the entity can be sliced, and its
  identifier has a text.
* `emitIn_eq_emit`: where every statement is taken, a call in a transaction does what `emit` does.
* `emitIn_dropped`: a call that returns `None` leaves the transaction as it was.
* `breaksNothing_iff`: whatever the database does, a call raises nothing and loses no earlier write
  exactly if its arguments can be prepared.

## Honest scope

The connection is not lost. An object that raises when it is compared with a text is one that has no
text.
-/

namespace StratTrader.Audit

open StratTrader.Foundation

/-! ### Diffs that can be prepared -/

mutual

/-- What `scrub` leaves of a value can be written as JSON, if it is not too deep. -/
def encodable : PyValue → Bool
  | .scalar s => s.hasText
  | .str _ => true
  | .list vs => encodableItems vs
  | .tuple vs => encodableItems vs
  | .dict ms => encodableEntries ms
  | .other _ encoded _ _ _ => encoded.isSome

/-- `encodable` of every item. -/
def encodableItems : List PyValue → Bool
  | [] => true
  | v :: vs => encodable v && encodableItems vs

/-- Every key has a name, and every value that is not redacted is `encodable`. -/
def encodableEntries : List (PyKey × PyValue) → Bool
  | [] => true
  | (k, v) :: ms => k.name.isSome && (entryIsSensitive k || encodable v) && encodableEntries ms

end

mutual

/-- **A diff can be written exactly if what scrubbing leaves of it can be.** -/
theorem toJson_scrubbed : ∀ v : PyValue, (toJson true (scrubbed v)).isSome = encodable v
  | .scalar s => by
    rw [scrubbed, toJson, encodable]
    cases s.hasText <;> rfl
  | .str s => by rw [scrubbed, toJson, encodable, Option.isSome_some]
  | .list vs => by rw [scrubbed, toJson, encodable, Option.isSome_map, toJsonItems_scrubbedItems vs]
  | .tuple vs => by rw [scrubbed, toJson, encodable, Option.isSome_map, toJsonItems_scrubbedItems vs]
  | .dict ms => by rw [scrubbed, toJson, encodable, Option.isSome_map, toJsonMembers_scrubbedEntries ms]
  | .other truth encoded shown slice entries => by rw [scrubbed, toJson, encodable, if_pos rfl, Option.isSome_map]

theorem toJsonItems_scrubbedItems : ∀ vs : List PyValue,
    (toJsonItems true (scrubbedItems vs)).isSome = encodableItems vs
  | [] => by rw [scrubbedItems, toJsonItems, encodableItems, Option.isSome_some]
  | v :: vs => by
    rw [scrubbedItems, toJsonItems, encodableItems, ← toJson_scrubbed v, ← toJsonItems_scrubbedItems vs]
    cases toJson true (scrubbed v) with
    | none => rfl
    | some first =>
      cases toJsonItems true (scrubbedItems vs) with
      | none => rfl
      | some rest => rfl

theorem toJsonMembers_scrubbedEntries : ∀ ms : List (PyKey × PyValue),
    (toJsonMembers true (scrubbedEntries ms)).isSome = encodableEntries ms
  | [] => by rw [scrubbedEntries, toJsonMembers, encodableEntries, Option.isSome_some]
  | (k, v) :: ms => by
    have hvalue : (toJson true (if entryIsSensitive k then .str redacted else scrubbed v)).isSome =
        (entryIsSensitive k || encodable v) := by
      split_ifs with hk
      · rw [hk, toJson_text, Option.isSome_some, Bool.true_or]
      · rw [Bool.not_eq_true] at hk
        rw [hk, Bool.false_or, toJson_scrubbed v]
    rw [scrubbedEntries, toJsonMembers, encodableEntries, ← hvalue, ← toJsonMembers_scrubbedEntries ms]
    cases k.name with
    | none => rfl
    | some name =>
      cases toJson true (if entryIsSensitive k then .str redacted else scrubbed v) with
      | none => rfl
      | some first =>
        cases toJsonMembers true (scrubbedEntries ms) with
        | none => rfl
        | some rest => rfl

end

/-! ### Arguments that can be prepared -/

/-- A diff that is not too deep and can be written. -/
structure Fits (rt : Runtime) (value : PyValue) : Prop where
  /-- The stack has room for the calls of `scrub`. -/
  calls : reach value ≤ rt.calls
  /-- The encoder takes as many values within one another. -/
  nested : nesting (scrubbed value) ≤ rt.nested
  /-- What is left can be written. -/
  encodable : encodable value = true

/-- The diff is `None`, or it fits. -/
def DiffPreparable (rt : Runtime) (value : PyValue) : Prop := value = .none ∨ Fits rt value

/-- `data_after` with the metadata can be prepared: without metadata it can be itself; otherwise both are
mappings, or there is no `data_after`, and the `dict` of both can be. -/
def AfterPreparable (rt : Runtime) (dataAfter metadata : PyValue) : Prop :=
  metadata.hasTruth = true ∧
    if metadata.truthy then
      dataAfter.hasTruth = true ∧ ∃ ms ns, (if dataAfter.truthy then dataAfter else .dict []).entries? = some ms ∧
        metadata.entries? = some ns ∧ DiffPreparable rt (.dict (mergeEntries ms ns))
    else DiffPreparable rt dataAfter

/-- `entity_type` counts as false, or can be sliced. -/
def Sliceable : PyValue → Prop
  | .str _ => True
  | .list _ => True
  | .tuple _ => True
  | .other truth _ _ slice _ => truth = some false ∨ truth = some true ∧ slice.isSome = true
  | value => value.truthy = false

/-- The arguments of `emit` that are prepared without an exception. -/
structure Preparable (rt : Runtime) (args : EmitArgs) : Prop where
  /-- The diff before. -/
  before : DiffPreparable rt args.dataBefore
  /-- The diff after, with the metadata. -/
  after : AfterPreparable rt args.dataAfter args.metadata
  /-- The kind of the entity. -/
  entityType : Sliceable args.entityType
  /-- The entity is `None`, or has a text. -/
  entityId : args.entityId = .none ∨ (strOf rt args.entityId).isSome = true

section
variable {rt : Runtime} {args : EmitArgs}

theorem normalizeDiff_isSome_iff (value : PyValue) : (normalizeDiff rt value).isSome = true ↔ DiffPreparable rt value := by
  unfold DiffPreparable
  by_cases hnone : value = .none
  · subst hnone
    exact iff_of_true rfl (.inl rfl)
  · have hscrub : normalizeDiff rt value = (do
        let value ← scrub rt.calls value
        if rt.nested < nesting value then none
        toJson true value) := by
      unfold normalizeDiff
      split
      · exact absurd rfl hnone
      · rfl
    rw [hscrub, or_iff_right hnone, scrub_eq]
    by_cases hcalls : reach value ≤ rt.calls
    · rw [if_pos hcalls]
      by_cases hnested : rt.nested < nesting (scrubbed value)
      · refine iff_of_false ?_ fun h => absurd hnested (Nat.not_lt.mpr h.nested)
        simp [hnested]
      · have hjson := toJson_scrubbed value
        simp only [Option.bind_eq_bind, Option.bind_some, if_neg hnested, hjson]
        exact ⟨fun h => ⟨hcalls, Nat.not_lt.mp hnested, h⟩, Fits.encodable⟩
    · rw [if_neg hcalls]
      exact iff_of_false Bool.false_ne_true fun h => hcalls h.calls

/-- The diff after is prepared exactly if it can be. -/
theorem foldMetadata_isSome_iff :
    (∃ merged, foldMetadata args.dataAfter args.metadata = some merged ∧ DiffPreparable rt merged) ↔
      AfterPreparable rt args.dataAfter args.metadata := by
  unfold foldMetadata AfterPreparable
  cases args.metadata.hasTruth with
  | false => simp
  | true =>
    cases args.metadata.truthy with
    | false => simp
    | true =>
      cases args.dataAfter.hasTruth with
      | false => simp
      | true =>
        cases (if args.dataAfter.truthy then args.dataAfter else .dict []).entries? with
        | none => simp
        | some ms => cases args.metadata.entries? <;> simp

theorem sliceEntityType_isSome_iff (value : PyValue) : (sliceEntityType value).isSome = true ↔ Sliceable value := by
  unfold sliceEntityType Sliceable
  cases value with
  | other truth encoded shown slice entries =>
    rcases truth with _ | _ | _ <;> simp [PyValue.hasTruth, PyValue.truthy]
  | scalar s => cases hs : s.truthy <;> simp [PyValue.hasTruth, PyValue.truthy, hs]
  | dict ms => cases hms : ms.isEmpty <;> simp [PyValue.hasTruth, PyValue.truthy, hms]
  | str s => by_cases hs : s = "" <;> simp [PyValue.hasTruth, PyValue.truthy, hs]
  | list vs => cases hvs : vs.isEmpty <;> simp [PyValue.hasTruth, PyValue.truthy, hvs]
  | tuple vs => cases hvs : vs.isEmpty <;> simp [PyValue.hasTruth, PyValue.truthy, hvs]

theorem entityIdText_isSome_iff (value : PyValue) :
    (entityIdText rt value).isSome = true ↔ value = .none ∨ (strOf rt value).isSome = true := by
  unfold entityIdText
  split
  · simp [PyValue.none]
  · next hne =>
    rw [Option.isSome_map]
    exact ⟨.inr, fun h => h.resolve_left hne⟩

/-- The steps that are taken before the `try`, each of which may raise. -/
theorem prepare_isSome_iff_steps (now : UtcTime) : (prepare rt now args).isSome = true ↔
    (normalizeDiff rt args.dataBefore).isSome = true ∧
      (∃ merged, foldMetadata args.dataAfter args.metadata = some merged ∧ (normalizeDiff rt merged).isSome = true) ∧
      (sliceEntityType args.entityType).isSome = true ∧ (entityIdText rt args.entityId).isSome = true := by
  unfold prepare
  cases foldMetadata args.dataAfter args.metadata with
  | none => simp
  | some merged =>
    cases normalizeDiff rt args.dataBefore with
    | none => simp
    | some before =>
      cases hafter : normalizeDiff rt merged with
      | none => simp [hafter]
      | some after =>
        cases sliceEntityType args.entityType with
        | none => simp [hafter]
        | some entityType =>
          cases entityIdText rt args.entityId with
          | none => simp [hafter]
          | some entityId => simp [hafter]

/-- **What `emit` does before its `try` succeeds exactly if the arguments are preparable.** -/
theorem prepare_isSome_iff (now : UtcTime) : (prepare rt now args).isSome = true ↔ Preparable rt args := by
  rw [prepare_isSome_iff_steps]
  simp only [normalizeDiff_isSome_iff, foldMetadata_isSome_iff, sliceEntityType_isSome_iff, entityIdText_isSome_iff]
  constructor
  · rintro ⟨hbefore, hafter, htype, hid⟩
    exact ⟨hbefore, hafter, htype, hid⟩
  · rintro ⟨hbefore, hafter, htype, hid⟩
    exact ⟨hbefore, hafter, htype, hid⟩

end

/-! ### Inside a transaction -/

/-- What the database makes of the statements of `emit` that do not insert. -/
structure DbAnswers where
  /-- It grants the advisory lock. -/
  lock : Bool
  /-- It returns the last hash. -/
  head : Bool

section
variable {β : Type*} (rt : Runtime) (answers : DbAnswers) (env : Environment)

/-- The block of `emit` under its savepoint, in a transaction that has also written something else. -/
def emitBlock (fields : Fields) : Block (β × AuditDb) AuditLog :=
  Block.andThen (Block.statement fun s => if answers.lock then some (s, ()) else none) fun _ =>
  Block.andThen (Block.statement fun s => if answers.head then some (s, ()) else none) fun _ =>
  Block.andThen (Block.compute fun s => hashes rt s.2.toAuditTable fields) fun pair =>
  Block.statement fun s =>
    (env.store fields).map fun columns =>
      let row : AuditLog := { columns with id := s.2.nextId env.gap, prevHash := pair.1, selfHash := pair.2 }
      ((s.1, s.2.insert env.gap row rfl), row)

/-- `emit`, in a transaction. -/
def emitIn (args : EmitArgs) (tx : Tx (β × AuditDb)) : Tx (β × AuditDb) × EmitResult :=
  match prepare rt env.now args with
  | none => (tx, .raised)
  | some fields =>
    match Block.savepoint (emitBlock rt answers env fields) tx with
    | (tx', none) => (tx', .dropped)
    | (tx', some row) => (tx', .written row)

end

section
variable {β : Type*} {rt : Runtime} {answers : DbAnswers} {env : Environment} {args : EmitArgs} {tx : Tx (β × AuditDb)}

/-- It raises exactly where something raises before the `try`. -/
theorem emitIn_raised_iff : (emitIn rt answers env args tx).2 = .raised ↔ prepare rt env.now args = none := by
  unfold emitIn
  cases prepare rt env.now args with
  | none => simp
  | some fields =>
    dsimp only
    split <;> simp

/-- **A call that returns `None` leaves the transaction as it was.** -/
theorem emitIn_dropped (h : (emitIn rt answers env args tx).2 = .dropped) : (emitIn rt answers env args tx).1 = tx := by
  unfold emitIn at h ⊢
  cases hprepare : prepare rt env.now args with
  | none => rfl
  | some fields =>
    rw [hprepare] at h
    dsimp only at h ⊢
    cases hblock : Block.savepoint (emitBlock rt answers env fields) tx with
    | mk tx' result =>
      cases result with
      | some row =>
        rw [hblock] at h
        cases h
      | none =>
        have hkept : (Block.savepoint (emitBlock rt answers env fields) tx).1 = tx :=
          Block.savepoint_none (by rw [hblock])
        rw [hblock] at hkept
        exact hkept

/-- Where every statement is taken, it does what `emit` does, and nothing else. -/
theorem emitIn_eq_emit (hlock : answers.lock = true) (hhead : answers.head = true) (htx : tx.aborted = false) :
    emitIn rt answers env args tx =
      ({ tx with state := (tx.state.1, (emit rt env args tx.state.2).1) }, (emit rt env args tx.state.2).2) := by
  obtain ⟨⟨business, db⟩, aborted⟩ := tx
  dsimp only at htx
  subst htx
  unfold emitIn emit
  cases prepare rt env.now args with
  | none => rfl
  | some fields =>
    simp only [Block.savepoint, emitBlock, Block.andThen, Block.statement, Block.compute, hlock, hhead, if_true,
      Bool.false_eq_true, if_false]
    cases hashes rt db.toAuditTable fields with
    | none => rfl
    | some pair =>
      cases env.store fields with
      | none => rfl
      | some columns => rfl

end

/-- **Emission never breaks the business action exactly where its arguments can be prepared**: whatever the
database does, nothing is raised, and where `None` is returned the transaction commits what it would have
committed without the call. -/
theorem breaksNothing_iff {β : Type*} (rt : Runtime) (args : EmitArgs) (tx : Tx (β × AuditDb)) :
    (∀ (answers : DbAnswers) (env : Environment), (emitIn rt answers env args tx).2 ≠ .raised ∧
        ((emitIn rt answers env args tx).2 = .dropped → (emitIn rt answers env args tx).1.commit = tx.commit)) ↔
      Preparable rt args := by
  constructor
  · intro hguarded
    have hnot := (hguarded ⟨true, true⟩ ⟨⟨0, 0, 0, 0, 0, 0, 0⟩, fun _ => none, 0⟩).1
    rw [ne_eq, emitIn_raised_iff] at hnot
    exact (prepare_isSome_iff _).mp (Option.isSome_iff_ne_none.mpr hnot)
  · intro hpreparable answers env
    constructor
    · rw [ne_eq, emitIn_raised_iff]
      exact Option.isSome_iff_ne_none.mp ((prepare_isSome_iff env.now).mpr hpreparable)
    · intro hdropped
      rw [emitIn_dropped hdropped]

/-- A call that records who is locked out. Its metadata hold a number for a key, and an object that cannot be written
under a key that is redacted. -/
def sampleArgs : EmitArgs where
  eventType := "auth.account_locked"
  entityType := .str "user"
  metadata := .dict [(.str "password", .other (some true) none none none none), (.scalar (.int 3), .str "attempts")]

-- bytes can be sliced; a number of 4301 digits has no text
example : Sliceable (.other (some true) none (some "b'x'") (some (.other (some true) none (some "b'x'") none none)) none) :=
  .inr ⟨rfl, rfl⟩
example : (prepare sampleRuntime ⟨0, 0, 0, 0, 0, 0, 0⟩ sampleArgs).isSome = true := by decide +kernel
example : (prepare sampleRuntime ⟨0, 0, 0, 0, 0, 0, 0⟩
    { sampleArgs with dataBefore := .list [.scalar (.int (10 ^ 4300))] }).isSome = false := by decide +kernel

/-- **A diff that holds an object that cannot be written breaks the action.** -/
theorem not_breaksNothing : ¬ ∀ (rt : Runtime) (args : EmitArgs) (answers : DbAnswers) (env : Environment)
    (tx : Tx (List ℕ × AuditDb)), (emitIn rt answers env args tx).2 ≠ .raised ∧
      ((emitIn rt answers env args tx).2 = .dropped → (emitIn rt answers env args tx).1.commit = tx.commit) := by
  intro hclaim
  refine (hclaim sampleRuntime
    { eventType := "order.submitted", dataAfter := .dict [(.str "when", .other (some true) none none none none)] }
    ⟨true, true⟩ (sampleEnvironment 1) ⟨([1, 2], AuditDb.empty), false⟩).1 ?_
  rw [emitIn_raised_iff]
  decide +kernel

end StratTrader.Audit
