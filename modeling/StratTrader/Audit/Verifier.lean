import StratTrader.Audit.Services

/-!
# Verifying the audit log

`verify_chain` of `audit/verifier.py`: a walk over the rows above a primary key, which goes on
from a hash and stops at the first row that does not.

## What is proved

* `verifyChain_ok_iff`: a walk that goes on from a digest succeeds exactly on a chain.
* `walk_append`: behind rows that form a chain, the walk goes on from their last hash.
* `chain_verifies_and_resumes`: the rows that `emit` writes verify; and a walk that is resumed
  behind rows that verify ends as the full one does.

## Honest scope

What a walk returns beside its verdict is all kept. The scheduled run around it is not here.
-/

namespace StratTrader.Audit

open StratTrader.Foundation

/-- What `verify_chain` returns. -/
structure VerifyResult where
  /-- Whether every row verified. -/
  ok : Bool
  /-- How many rows did. -/
  checked : ℕ
  /-- The primary key of the last that did. -/
  lastId : ℤ
  /-- The hash of the last that did. -/
  lastHash : String
  /-- The primary key of the row that did not. -/
  failedId : Option ℤ
  /-- What is wrong with it. -/
  reason : String
  deriving DecidableEq

section
variable (rt : Runtime)

/-- The loop of `verify_chain`; `none` if it raises. -/
def walk : String → ℤ → ℕ → List AuditLog → Option VerifyResult
  | prevHash, lastId, checked, [] => some ⟨true, checked, lastId, prevHash, none, ""⟩
  | prevHash, lastId, checked, row :: rows =>
    if row.prevHash ≠ prevHash then some ⟨false, checked, lastId, prevHash, some row.id, "linkage_break"⟩
    else do
      let expected ← rowSelfHash rt row prevHash
      if expected ≠ row.selfHash then
        return ⟨false, checked, lastId, prevHash, some row.id, "hash_mismatch"⟩
      else walk row.selfHash row.id (checked + 1) rows

/-- `start_prev_hash or GENESIS_PREV_HASH`. -/
def orGenesis (s : String) : String := if s ≠ "" then s else genesisPrevHash

/-- `verify_chain`; `none` if it raises. -/
def verifyChain (t : AuditTable) (startId : ℤ) (startPrevHash : String) : Option VerifyResult :=
  walk rt (orGenesis startPrevHash) startId 0 (t.above startId)

end

/-- The primary key of the last row, if there is one. -/
def lastId (id : ℤ) (rows : List AuditLog) : ℤ := rows.foldl (fun _ row => row.id) id

section
variable {rt : Runtime} {prevHash : String} {rows rest : List AuditLog} {id : ℤ} {n : ℕ}

/-- **Behind rows that form a chain, the walk goes on from the last of them.** -/
theorem walk_append (h : (auditChain rt).Linked prevHash rows) :
    walk rt prevHash id n (rows ++ rest) =
      walk rt ((auditChain rt).head prevHash rows) (lastId id rows) (n + rows.length) rest := by
  induction rows generalizing prevHash id n with
  | nil => rfl
  | cons row rows ih =>
    obtain ⟨hprev, hself, hrest⟩ := linked_cons.mp h
    rw [List.cons_append, walk, if_neg (not_not.mpr hprev), hself]
    simp only [Option.bind_eq_bind, Option.bind_some, ne_eq, not_true_eq_false, if_false]
    rw [ih hrest, List.length_cons, Nat.add_assoc n, Nat.add_comm 1]
    rfl

/-- Over a chain, the walk succeeds. -/
theorem walk_of_linked (h : (auditChain rt).Linked prevHash rows) :
    walk rt prevHash id n rows =
      some ⟨true, n + rows.length, lastId id rows, (auditChain rt).head prevHash rows, none, ""⟩ := by
  have happend : walk rt prevHash id n (rows ++ []) =
      walk rt ((auditChain rt).head prevHash rows) (lastId id rows) (n + rows.length) [] := walk_append h
  rw [List.append_nil] at happend
  rw [happend, walk]

/-- A walk succeeds only over a chain. -/
theorem linked_of_walk {r : VerifyResult} (h : walk rt prevHash id n rows = some r) (hok : r.ok = true) :
    (auditChain rt).Linked prevHash rows := by
  induction rows generalizing prevHash id n with
  | nil => trivial
  | cons row rows ih =>
    rw [walk] at h
    split_ifs at h with hprev
    · cases h
      cases hok
    · obtain ⟨expected, hexpected, h⟩ := Option.bind_eq_some_iff.mp h
      split_ifs at h with hself
      · cases h
        cases hok
      · rw [not_not] at hprev hself
        exact ⟨hprev, hexpected.trans (congrArg some hself), ih h⟩

/-- A walk that goes on from a digest does not raise. -/
theorem walk_isSome (h : IsDigest prevHash) : (walk rt prevHash id n rows).isSome = true := by
  induction rows generalizing prevHash id n with
  | nil => rfl
  | cons row rows ih =>
    rw [walk]
    split_ifs with hprev
    · rfl
    · rw [rowSelfHash_of_isDigest h]
      simp only [Option.bind_eq_bind, Option.bind_some]
      split_ifs with hself
      · rfl
      · rw [not_not] at hself
        exact ih (hself ▸ rt.sha256_digest _)

/-- The walk counts on from where it starts. -/
theorem walk_add (k : ℕ) : walk rt prevHash id (n + k) rows =
    (walk rt prevHash id n rows).map fun r => { r with checked := r.checked + k } := by
  induction rows generalizing prevHash id n with
  | nil => rfl
  | cons row rows ih =>
    rw [walk, walk]
    split_ifs with hprev
    · rfl
    · cases rowSelfHash rt row prevHash with
      | none => rfl
      | some expected =>
        simp only [Option.bind_eq_bind, Option.bind_some]
        split_ifs with hself
        · rfl
        · rw [← ih, Nat.add_right_comm]

end

/-! ### The table -/

section
variable {rt : Runtime} {t : AuditTable}

theorem orGenesis_eq {s : String} (h : IsDigest s) : orGenesis s = s := if_pos h.ne_empty

/-- **A walk that goes on from a digest succeeds exactly over a chain**, all of whose rows it counts. -/
theorem verifyChain_ok_iff {id : ℤ} {prevHash : String} (h : IsDigest prevHash) :
    (∃ r, verifyChain rt t id prevHash = some r ∧ r.ok = true) ↔ (auditChain rt).Linked prevHash (t.above id) := by
  unfold verifyChain
  rw [orGenesis_eq h]
  constructor
  · rintro ⟨r, hwalk, hok⟩
    exact linked_of_walk hwalk hok
  · intro hlinked
    exact ⟨_, walk_of_linked hlinked, rfl⟩

/-- The primary key of the last row is the highest. -/
theorem lastId_concat (id : ℤ) (rows : List AuditLog) (row : AuditLog) : lastId id (rows ++ [row]) = row.id := by
  rw [lastId, List.foldl_append]
  rfl

/-- What is above a primary key that is above another. -/
theorem above_above {id id' : ℤ} (h : id ≤ id') : t.above id' = (t.above id).filter fun row => decide (id' < row.id) := by
  unfold AuditTable.above
  rw [List.filter_filter]
  apply List.filter_congr
  intro row _
  have himp : id' < row.id → id < row.id := lt_of_le_of_lt h
  by_cases hid : id' < row.id <;> simp [hid, himp]

/-- Rows in the order of their primary keys, cut in two: what is above the last of the front is the rest. -/
theorem above_lastId {front rest : List AuditLog} {id : ℤ} (hrows : t.above id = front ++ rest) :
    t.above (lastId id front) = rest := by
  rcases List.eq_nil_or_concat front with rfl | ⟨before, last, rfl⟩
  · exact hrows
  · rw [List.concat_eq_append] at hrows ⊢
    rw [lastId_concat]
    have hsorted : (before ++ [last] ++ rest).Pairwise fun row row' => row.id < row'.id := by
      rw [← hrows]
      exact t.sorted.sublist List.filter_sublist
    obtain ⟨hfront, -, hrest⟩ := List.pairwise_append.mp hsorted
    have hbefore := (List.pairwise_append.mp hfront).2.2
    have hlast : id < last.id := by
      have hmem : last ∈ t.above id := by rw [hrows]; simp
      exact of_decide_eq_true (List.mem_filter.mp hmem).2
    rw [above_above hlast.le, hrows, List.filter_append, List.filter_eq_nil_iff.mpr, List.nil_append,
      List.filter_eq_self.mpr]
    · intro row hrow
      exact decide_eq_true (hrest last (by simp) row hrow)
    · intro row hrow
      rw [decide_eq_true_eq, not_lt]
      rcases List.mem_append.mp hrow with hrow | hrow
      · exact (hbefore row hrow last (by simp)).le
      · rw [List.mem_singleton.mp hrow]

/-- **A walk that is resumed behind rows that verify ends as the full one does.** -/
theorem verifyChain_resume {k : ℕ} {r : VerifyResult} (h : verifyChain rt (t.first k) 0 genesisPrevHash = some r)
    (hok : r.ok = true) : verifyChain rt t 0 genesisPrevHash =
      (verifyChain rt t r.lastId r.lastHash).map fun resumed =>
        { resumed with checked := resumed.checked + r.checked } := by
  unfold verifyChain at h ⊢
  rw [orGenesis_eq isDigest_genesisPrevHash] at h ⊢
  have hlinked := linked_of_walk h hok
  have hrows : t.above 0 = (t.first k).above 0 ++ (t.rows.drop k).filter fun row => decide (0 < row.id) := by
    unfold AuditTable.above AuditTable.first
    rw [← List.filter_append, List.take_append_drop]
  rw [walk_of_linked hlinked, Option.some_inj] at h
  subst h
  rw [orGenesis_eq (isDigest_head hlinked isDigest_genesisPrevHash), above_lastId hrows, hrows, walk_append hlinked,
    walk_add]
  simp only [Nat.zero_add]

/-- What a walk that succeeds returns. -/
theorem verifyChain_eq {r : VerifyResult} (h : verifyChain rt t 0 genesisPrevHash = some r) (hok : r.ok = true) :
    r = ⟨true, (t.above 0).length, lastId 0 (t.above 0), (auditChain rt).head genesisPrevHash (t.above 0), none, ""⟩ := by
  have hlinked := (verifyChain_ok_iff isDigest_genesisPrevHash).mp ⟨r, h, hok⟩
  unfold verifyChain at h
  rw [orGenesis_eq isDigest_genesisPrevHash, walk_of_linked hlinked, Option.some_inj, Nat.zero_add] at h
  exact h.symm

theorem verifyChain_lastHash {r : VerifyResult} (h : verifyChain rt t 0 genesisPrevHash = some r)
    (hok : r.ok = true) : r.lastHash = (auditChain rt).head genesisPrevHash (t.above 0) := by
  rw [verifyChain_eq h hok]

/-- It stops at the last of its rows. -/
theorem verifyChain_last {r : VerifyResult} (h : verifyChain rt t 0 genesisPrevHash = some r) (hok : r.ok = true) :
    ∀ row ∈ (t.above 0).getLast?, r.lastId = row.id ∧ r.lastHash = row.selfHash := by
  intro row hrow
  obtain ⟨front, hfront⟩ := List.getLast?_eq_some_iff.mp hrow
  rw [verifyChain_eq h hok, hfront]
  exact ⟨lastId_concat 0 front row, head_concat⟩

/-- A chain under positive primary keys verifies. -/
theorem verifyChain_of_sound {db : AuditDb} (h : Sound rt db) :
    ∃ r, verifyChain rt db.toAuditTable 0 genesisPrevHash = some r ∧ r.ok = true ∧ r.checked = db.rows.length := by
  have habove : db.above 0 = db.rows := List.filter_eq_self.mpr fun row hrow => decide_eq_true (h.positive row hrow)
  unfold verifyChain
  rw [orGenesis_eq isDigest_genesisPrevHash, habove]
  exact ⟨_, walk_of_linked h.linked, rfl, Nat.zero_add _⟩

/-- So do its first rows. -/
theorem verifyChain_first {db : AuditDb} (h : Sound rt db) (k : ℕ) :
    ∃ r, verifyChain rt (db.first k) 0 genesisPrevHash = some r ∧ r.ok = true := by
  rw [verifyChain_ok_iff isDigest_genesisPrevHash]
  have habove : (db.first k).above 0 = db.rows.take k :=
    List.filter_eq_self.mpr fun row hrow => decide_eq_true (h.positive row (List.mem_of_mem_take hrow))
  rw [habove]
  have hlinked := h.linked
  rw [← List.take_append_drop k db.rows] at hlinked
  exact (Chain.linked_append.mp hlinked).1

end

/-- **What `emit` writes verifies, and a walk can be resumed anywhere.** However many calls there are and
whatever they are given, the walk from the genesis hash succeeds on all their rows. Where the first rows of
any table verify, the walk resumed behind them ends as the full one does. -/
theorem chain_verifies_and_resumes (rt : Runtime) :
    (∀ (calls : List (Environment × EmitArgs)) (db : AuditDb), (∀ call ∈ calls, call.1.ReadsBack) → db.rows = [] →
      ∃ r, verifyChain rt (emitAll rt calls db).1.toAuditTable 0 genesisPrevHash = some r ∧ r.ok = true ∧
        r.checked = (emitAll rt calls db).1.rows.length ∧
        (emitAll rt calls db).1.rows.length = (emitAll rt calls db).2.countP EmitResult.isWritten) ∧
    ∀ (t : AuditTable) (k : ℕ) (r : VerifyResult),
      verifyChain rt (t.first k) 0 genesisPrevHash = some r → r.ok = true →
      (∀ row ∈ ((t.first k).above 0).getLast?, r.lastId = row.id ∧ r.lastHash = row.selfHash) ∧
        verifyChain rt t 0 genesisPrevHash =
          (verifyChain rt t r.lastId r.lastHash).map fun resumed =>
            { resumed with checked := resumed.checked + r.checked } := by
  constructor
  · intro calls db hreads hrows
    have hsound : Sound rt (emitAll rt calls db).1 := emitAll_sound calls hreads (sound_of_rows_eq_nil hrows)
    obtain ⟨r, hwalk, hok, hchecked⟩ := verifyChain_of_sound hsound
    refine ⟨r, hwalk, hok, hchecked, ?_⟩
    rw [length_emitAll, hrows]
    exact Nat.zero_add _
  · intro t k r hfirst hok
    exact ⟨verifyChain_last hfirst hok, verifyChain_resume hfirst hok⟩

theorem countP_sampleRun : sampleRun.2.countP EmitResult.isWritten = 2 := by
  unfold sampleRun
  rw [countP_emitAll sampleCalls readsBack_sampleCalls (sound_of_rows_eq_nil rfl)]
  decide +kernel

/-- The two rows of the sample verify, and the walk over them can be resumed behind the first. -/
theorem chain_verifies_and_resumes_sample :
    (∃ r, verifyChain sampleRuntime sampleRun.1.toAuditTable 0 genesisPrevHash = some r ∧ r.ok = true ∧
        r.checked = 2) ∧
      ∃ r, verifyChain sampleRuntime (sampleRun.1.first 1) 0 genesisPrevHash = some r ∧
        verifyChain sampleRuntime sampleRun.1.toAuditTable 0 genesisPrevHash =
          (verifyChain sampleRuntime sampleRun.1.toAuditTable r.lastId r.lastHash).map fun resumed =>
            { resumed with checked := resumed.checked + r.checked } := by
  constructor
  · have hwritten := countP_sampleRun
    unfold sampleRun at hwritten ⊢
    obtain ⟨r, hwalk, hok, hchecked, hcount⟩ :=
      (chain_verifies_and_resumes sampleRuntime).1 sampleCalls AuditDb.empty readsBack_sampleCalls rfl
    exact ⟨r, hwalk, hok, (hchecked.trans hcount).trans hwritten⟩
  · obtain ⟨r, hwalk, hok⟩ := verifyChain_first sound_sampleRun 1
    exact ⟨r, hwalk, ((chain_verifies_and_resumes sampleRuntime).2 sampleRun.1.toAuditTable 1 r hwalk hok).2⟩

end StratTrader.Audit
