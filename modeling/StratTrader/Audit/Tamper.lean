import StratTrader.Audit.Verifier

/-!
# Tampering with the audit log

Two tables that both verify from the genesis hash and end in the same hash. The walk reads the
rows with a positive primary key; the others can be anything.

## What is proved

* `above_same`: the rows that the walk reads are the same in both tables, column by column.
* `tamper_evident_iff`: so are all rows exactly when those are that it does not read.

## Honest scope

The hash is taken for injective on the bytes that the two walks hash, and for none of them the
genesis hash.
-/

namespace StratTrader.Audit

open StratTrader.Foundation

/-- The tables hold the same rows in the same order, in every column that is hashed. -/
def SameRows (rows rows' : List AuditLog) : Prop := List.Forall₂ SameRow rows rows'

/-- The rows that a walk from the genesis hash does not read. -/
def AuditTable.unread (t : AuditTable) : List AuditLog := t.rows.filter fun row => decide (row.id ≤ 0)

/-- The bytes that a walk over the table hashes. -/
def AuditTable.hashed (t : AuditTable) : Set ByteArray := {data | ∃ row ∈ t.above 0, row.hashedBytes = data}

/-- A table in the order of its primary keys begins with the rows that are not read. -/
theorem rows_eq_unread_append (t : AuditTable) : t.rows = t.unread ++ t.above 0 := by
  obtain ⟨rows, hsorted⟩ := t
  unfold AuditTable.unread AuditTable.above
  dsimp only
  induction rows with
  | nil => rfl
  | cons row rows ih =>
    obtain ⟨habove, hrows⟩ := List.pairwise_cons.mp hsorted
    by_cases hid : row.id ≤ 0
    · simp only [List.filter_cons, hid, decide_true, if_true, not_lt.mpr hid, decide_false, Bool.false_eq_true,
        if_false, List.cons_append]
      rw [← ih hrows]
    · -- behind a positive primary key there are only such
      have hpos : 0 < row.id := not_le.mp hid
      have hunread : rows.filter (fun row => decide (row.id ≤ 0)) = [] := by
        rw [List.filter_eq_nil_iff]
        intro other hother
        rw [decide_eq_true_eq, not_le]
        exact hpos.trans (habove other hother)
      have hread : rows.filter (fun row => decide (0 < row.id)) = rows := by
        rw [List.filter_eq_self]
        intro other hother
        exact decide_eq_true (hpos.trans (habove other hother))
      simp only [List.filter_cons, hid, decide_false, Bool.false_eq_true, if_false, hpos, decide_true, if_true,
        hunread, hread, List.nil_append]

section
variable {rt : Runtime} {t t' : AuditTable} {r r' : VerifyResult}

/-- In a chain that starts from a digest, the hash of a row is that of its bytes. -/
theorem selfHash_of_rowSelfHash {row : AuditLog} {selfHash : String}
    (h : rowSelfHash rt row row.prevHash = some selfHash) : rt.sha256 row.hashedBytes = selfHash := by
  unfold rowSelfHash computeSelfHash at h
  rw [canonicalPayload_fields] at h
  simp only [Option.bind_eq_bind, Option.bind_some] at h
  split_ifs at h
  exact Option.some_inj.mp h

/-- Where the hash is injective on what is hashed, the hash of a row tells what it was made of. -/
theorem auditChain_tells {hashed : Set ByteArray} {rows rows' : List AuditLog} (hinj : Set.InjOn rt.sha256 hashed)
    (hrows : ∀ row ∈ rows, row.hashedBytes ∈ hashed) (hrows' : ∀ row ∈ rows', row.hashedBytes ∈ hashed)
    (hdigest : ∀ row ∈ rows, IsDigest row.prevHash) (hdigest' : ∀ row ∈ rows', IsDigest row.prevHash) :
    (auditChain rt).Tells SameRow rows rows' := by
  intro row hrow row' hrow' hseals hseals' hself
  have hhash : rt.sha256 row.hashedBytes = rt.sha256 row'.hashedBytes := by
    rw [selfHash_of_rowSelfHash hseals, selfHash_of_rowSelfHash hseals']
    exact hself
  have hbytes : row.hashedBytes = row'.hashedBytes := hinj (hrows row hrow) (hrows' row' hrow') hhash
  exact hashedBytes_inj ((hdigest row hrow).1.trans (hdigest' row' hrow').1.symm) hbytes

/-- **The rows that the walks read are the same**, and as many. -/
theorem above_same (h : verifyChain rt t 0 genesisPrevHash = some r) (hok : r.ok = true)
    (h' : verifyChain rt t' 0 genesisPrevHash = some r') (hok' : r'.ok = true) (hlast : r.lastHash = r'.lastHash)
    (hinj : Set.InjOn rt.sha256 (t.hashed ∪ t'.hashed)) (hgenesis : ∀ row ∈ t.above 0, row.selfHash ≠ genesisPrevHash)
    (hgenesis' : ∀ row ∈ t'.above 0, row.selfHash ≠ genesisPrevHash) : SameRows (t.above 0) (t'.above 0) := by
  have hlinked := (verifyChain_ok_iff isDigest_genesisPrevHash).mp ⟨r, h, hok⟩
  have hlinked' := (verifyChain_ok_iff isDigest_genesisPrevHash).mp ⟨r', h', hok'⟩
  have hhead : (auditChain rt).head genesisPrevHash (t.above 0) = (auditChain rt).head genesisPrevHash (t'.above 0) := by
    rw [← verifyChain_lastHash h hok, hlast, verifyChain_lastHash h' hok']
  exact hlinked.same hlinked' hhead
    (auditChain_tells hinj (fun row hrow => .inl ⟨row, hrow, rfl⟩) (fun row hrow => .inr ⟨row, hrow, rfl⟩)
      (isDigest_prevHash hlinked isDigest_genesisPrevHash)
      (isDigest_prevHash hlinked' isDigest_genesisPrevHash)) hgenesis hgenesis'

end

/-- **A table that verifies is determined by its last hash exactly as far as it is read.** -/
theorem tamper_evident_iff {rt : Runtime} {t t' : AuditTable} {r r' : VerifyResult}
    (h : verifyChain rt t 0 genesisPrevHash = some r) (hok : r.ok = true)
    (h' : verifyChain rt t' 0 genesisPrevHash = some r') (hok' : r'.ok = true) (hlast : r.lastHash = r'.lastHash)
    (hinj : Set.InjOn rt.sha256 (t.hashed ∪ t'.hashed)) (hgenesis : ∀ row ∈ t.above 0, row.selfHash ≠ genesisPrevHash)
    (hgenesis' : ∀ row ∈ t'.above 0, row.selfHash ≠ genesisPrevHash) :
    SameRows t.rows t'.rows ↔ SameRows t.unread t'.unread := by
  have hread := above_same h hok h' hok' hlast hinj hgenesis hgenesis'
  rw [rows_eq_unread_append t, rows_eq_unread_append t']
  constructor
  · intro hrows
    have hlength : t.unread.length = t'.unread.length := by
      have htotal := List.Forall₂.length_eq hrows
      have hsame := List.Forall₂.length_eq hread
      rw [List.length_append, List.length_append] at htotal
      omega
    have htake := List.forall₂_take t.unread.length hrows
    rw [List.take_left, hlength, List.take_left] at htake
    exact htake
  · intro hunread
    exact List.rel_append hunread hread

/-! ### A row that is not read -/

/-- A table with one row, and a copy of that row under the primary key 0. -/
def withCopy (row : AuditLog) (h : 0 < row.id) : AuditTable where
  rows := [{ row with id := 0 }, row]
  sorted := by simpa using h

/-- A table with one row. -/
def single (row : AuditLog) : AuditTable := ⟨[row], List.pairwise_singleton _ _⟩

section
variable {row : AuditLog} (h : 0 < row.id)
include h

theorem above_single : (single row).above 0 = [row] := by simp [single, AuditTable.above, h]

theorem above_withCopy : (withCopy row h).above 0 = [row] := by simp [withCopy, AuditTable.above, h]

end

/-- The sample's hash is never the genesis hash. -/
theorem sampleRuntime_ne_genesis (data : ByteArray) : sampleRuntime.sha256 data ≠ genesisPrevHash := by
  intro hdata
  have hchars : padded 64 (10 ^ 63 + checksum data) = List.replicate 64 '0' := String.ofList_injective hdata
  have hzero : List.replicate 64 '0' = padded 64 0 := by decide
  have hlt : checksum data < 10 ^ 62 := by
    unfold checksum
    rcases List.eq_nil_or_concat data.data.toList with hnil | ⟨front, last, hlast⟩
    · rw [hnil]
      decide
    · rw [hlast, List.concat_eq_append, List.foldl_append]
      exact Nat.mod_lt _ (by decide)
  have hsum := padded_inj (by omega) (by decide) (hchars.trans hzero)
  omega

/-- The row that one call writes on an empty table. -/
theorem exists_sampleRow : ∃ row : AuditLog, 0 < row.id ∧ row.selfHash = sampleRuntime.sha256 row.hashedBytes ∧
    (auditChain sampleRuntime).Linked genesisPrevHash [row] := by
  have hwritten : writable sampleRuntime (sampleEnvironment 1) { eventType := "a" } = true := by decide +kernel
  have hempty : Sound sampleRuntime AuditDb.empty := sound_of_rows_eq_nil rfl
  have hsound := emit_sound { eventType := "a" } (readsBack_sampleEnvironment 1) hempty
  rw [← emit_isWritten hempty] at hwritten
  rcases emit_cases sampleRuntime (sampleEnvironment 1) { eventType := "a" } AuditDb.empty with
    ⟨-, hnone⟩ | ⟨fields, row, -, hmade, hrows, -⟩
  · rw [hnone] at hwritten
    cases hwritten
  · have hlinked := hsound.linked
    rw [hrows] at hlinked
    have hpositive := hsound.positive row (by rw [hrows]; simp)
    obtain ⟨hprev, hself, -⟩ := linked_cons.mp hlinked
    rw [← hprev] at hself
    exact ⟨row, hpositive, (selfHash_of_rowSelfHash hself).symm, hlinked⟩

/-- That row verifies, with a copy and without. -/
theorem exists_verified : ∃ (row : AuditLog) (hid : 0 < row.id) (r : VerifyResult), row.selfHash ≠ genesisPrevHash ∧
    r.ok = true ∧ verifyChain sampleRuntime (single row) 0 genesisPrevHash = some r ∧
    verifyChain sampleRuntime (withCopy row hid) 0 genesisPrevHash = some r := by
  obtain ⟨row, hid, hself, hlinked⟩ := exists_sampleRow
  rw [← above_single hid] at hlinked
  obtain ⟨r, hwalk, hok⟩ := (verifyChain_ok_iff isDigest_genesisPrevHash).mpr hlinked
  refine ⟨row, hid, r, hself ▸ sampleRuntime_ne_genesis _, hok, hwalk, ?_⟩
  rw [← hwalk]
  unfold verifyChain
  rw [above_withCopy, above_single hid]

/-- The tables with a copy and without: what is read of them is one row, and so is what is hashed. -/
theorem tamper_evident_iff_sample : ∃ t t' : AuditTable, t.above 0 ≠ [] ∧ t.unread ≠ t'.unread ∧
    (SameRows t.rows t'.rows ↔ SameRows t.unread t'.unread) := by
  obtain ⟨row, hid, r, hne, hok, hwalk, hwalk'⟩ := exists_verified
  refine ⟨single row, withCopy row hid, ?_, ?_, tamper_evident_iff hwalk hok hwalk' hok rfl ?_ ?_ ?_⟩
  · rw [above_single hid]
    exact List.cons_ne_nil _ _
  · simp [AuditTable.unread, single, withCopy, hid]
  · rintro _ (⟨other, hother, rfl⟩ | ⟨other, hother, rfl⟩) _ (⟨other', hother', rfl⟩ | ⟨other', hother', rfl⟩) - <;>
      simp only [above_single hid, above_withCopy, List.mem_singleton] at hother hother' <;> rw [hother, hother']
  · intro other hother
    rw [above_single hid, List.mem_singleton] at hother
    rw [hother]
    exact hne
  · intro other hother
    rw [above_withCopy, List.mem_singleton] at hother
    rw [hother]
    exact hne

/-- **A copy of a row under the primary key 0 is not noticed**: tables that verify and end in the same hash
need not have as many rows. -/
theorem not_tamper_evident : ¬ ∀ (rt : Runtime) (t t' : AuditTable) (r r' : VerifyResult),
    verifyChain rt t 0 genesisPrevHash = some r → r.ok = true →
    verifyChain rt t' 0 genesisPrevHash = some r' → r'.ok = true → r.lastHash = r'.lastHash →
    Set.InjOn rt.sha256 {data | ∃ row ∈ t.rows ++ t'.rows, row.hashedBytes = data} →
    (∀ row ∈ t.rows ++ t'.rows, row.selfHash ≠ genesisPrevHash) → SameRows t.rows t'.rows := by
  intro hclaim
  obtain ⟨row, hid, r, hne, hok, hwalk, hwalk'⟩ := exists_verified
  have hinj : Set.InjOn sampleRuntime.sha256
      {data | ∃ other ∈ (single row).rows ++ (withCopy row hid).rows, other.hashedBytes = data} := by
    -- the copy is made of the same bytes
    rintro _ ⟨other, hother, rfl⟩ _ ⟨other', hother', rfl⟩ -
    have hall : ∀ other ∈ (single row).rows ++ (withCopy row hid).rows, other.hashedBytes = row.hashedBytes := by
      intro other hother
      simp only [single, withCopy, List.singleton_append, List.mem_cons, List.not_mem_nil, or_false] at hother
      rcases hother with rfl | rfl | rfl <;> rfl
    rw [hall other hother, hall other' hother']
  have hsame := hclaim sampleRuntime (single row) (withCopy row hid) r r hwalk hok hwalk' hok rfl hinj (by
    intro other hother
    simp only [single, withCopy, List.singleton_append, List.mem_cons, List.not_mem_nil, or_false] at hother
    rcases hother with rfl | rfl | rfl <;> exact hne)
  have hlength := List.Forall₂.length_eq hsame
  simp [single, withCopy] at hlength

end StratTrader.Audit
