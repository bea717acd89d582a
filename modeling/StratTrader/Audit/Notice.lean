import StratTrader.Audit.Schedule
import StratTrader.Audit.Tamper

/-!
# Tampering between runs

Between the calls of `emit` and the runs of the verifier somebody changes a row in the database,
or deletes one.

## What is proved

* `coherent_edit_iff`, `coherent_delete_iff`: whether the rows above the cursor still go on from it.
* `caught_iff`: some later run fails exactly if the row was above the cursor (for a deletion: and
  another above it; or was the last one, at the cursor), and a later run has anything to look at.

## Honest scope

The hash is taken for injective on the bytes of the rows before and after, and for none of them
the genesis hash.
-/

namespace StratTrader.Audit

open StratTrader.Foundation

/-! ### Tampering -/

/-- What somebody does to a row in the database. -/
inductive Tampering where
  /-- Other columns, or another hash of the row before. -/
  | edit (columns : Columns) (prevHash : String)
  /-- The row is gone. -/
  | delete

/-- The row after an edit. -/
def AuditLog.edited (row : AuditLog) (columns : Columns) (prevHash : String) : AuditLog :=
  { row with toColumns := columns, prevHash := prevHash }

/-- The rows after tampering with the one under a primary key. -/
def Tampering.rows (tampering : Tampering) (id : ℤ) (rows : List AuditLog) : List AuditLog :=
  match tampering with
  | .edit columns prevHash => rows.map fun row => if row.id = id then row.edited columns prevHash else row
  | .delete => rows.filter fun row => decide (row.id ≠ id)

theorem id_edited (columns : Columns) (prevHash : String) (id : ℤ) (row : AuditLog) :
    (if row.id = id then row.edited columns prevHash else row).id = row.id := by
  split_ifs <;> rfl

theorem selfHash_edited (columns : Columns) (prevHash : String) (id : ℤ) (row : AuditLog) :
    (if row.id = id then row.edited columns prevHash else row).selfHash = row.selfHash := by
  split_ifs <;> rfl

/-- Tampering leaves no row with another primary key or another hash of its own. -/
theorem exists_of_mem_rows {tampering : Tampering} {id : ℤ} {rows : List AuditLog} {row : AuditLog}
    (h : row ∈ tampering.rows id rows) : ∃ old ∈ rows, row.id = old.id ∧ row.selfHash = old.selfHash := by
  cases tampering with
  | edit columns prevHash =>
    obtain ⟨old, hold, rfl⟩ := List.mem_map.mp h
    exact ⟨old, hold, id_edited columns prevHash id old, selfHash_edited columns prevHash id old⟩
  | delete => exact ⟨row, (List.mem_filter.mp h).1, rfl, rfl⟩

theorem sorted_tampered (tampering : Tampering) (id : ℤ) (t : AuditTable) :
    (tampering.rows id t.rows).Pairwise fun row row' => row.id < row'.id := by
  cases tampering with
  | edit columns prevHash =>
    unfold Tampering.rows
    rw [List.pairwise_map]
    simpa only [id_edited] using t.sorted
  | delete => exact t.sorted.sublist List.filter_sublist

/-- The database after tampering. -/
def AuditDb.tamper (db : AuditDb) (id : ℤ) (tampering : Tampering) : AuditDb where
  rows := tampering.rows id db.rows
  sorted := sorted_tampered tampering id db.toAuditTable
  sequence := db.sequence
  le_sequence := fun row hrow => by
    obtain ⟨old, hold, hid, -⟩ := exists_of_mem_rows hrow
    rw [hid]
    exact db.le_sequence old hold

/-- The state after tampering. -/
def AuditState.tamper (s : AuditState) (id : ℤ) (tampering : Tampering) : AuditState :=
  { s with db := s.db.tamper id tampering }

/-- An edit that is one: something that the hash covers is another. -/
def Tampering.Visible (tampering : Tampering) (row : AuditLog) : Prop :=
  match tampering with
  | .edit columns prevHash => ¬ (prevHash = row.prevHash ∧ SameFields columns.fields row.fields)
  | .delete => True

/-- The tampering that a later run notices: that above the cursor, but for the deletion of the last row, which
is noticed only at the cursor. -/
def Caught (s : AuditState) (id : ℤ) : Tampering → Prop
  | .edit _ _ => s.cursor.lastVerifiedId < id
  | .delete => s.cursor.lastVerifiedId < id ↔ ∃ row ∈ s.db.rows, id < row.id

/-! ### What is noticed -/

/-- The hash is injective on the bytes that rows are made of, and none of the rows has the genesis hash. -/
structure CollisionFree (rt : Runtime) (rows : List AuditLog) : Prop where
  /-- No two byte strings have the same hash. -/
  inj : Set.InjOn rt.sha256 {data | ∃ row ∈ rows, row.hashedBytes = data}
  /-- The chain's start is no hash. -/
  genesis : ∀ row ∈ rows, row.selfHash ≠ genesisPrevHash

section
variable {rt : Runtime} {s : AuditState}

theorem CollisionFree.mono {rows rows' : List AuditLog} (h : CollisionFree rt rows') (hsub : rows ⊆ rows') :
    CollisionFree rt rows where
  inj := by
    refine h.inj.mono ?_
    rintro _ ⟨row, hrow, rfl⟩
    exact ⟨row, hsub hrow, rfl⟩
  genesis := fun row hrow => h.genesis row (hsub hrow)

/-- In a chain from the genesis hash, no row has the hash that it goes on from. -/
theorem selfHash_ne_head {front rest : List AuditLog} {row : AuditLog}
    (hlinked : (auditChain rt).Linked genesisPrevHash (front ++ row :: rest))
    (hfree : CollisionFree rt (front ++ row :: rest)) :
    row.selfHash ≠ (auditChain rt).head genesisPrevHash front := by
  have hcut : front ++ row :: rest = (front ++ [row]) ++ rest := by simp
  rw [hcut] at hlinked hfree
  have hfirst := (Chain.linked_append.mp hlinked).1
  have hmem : ∀ other ∈ front ++ [row], other ∈ (front ++ [row]) ++ rest := fun _ => List.mem_append_left rest
  have hdigest := isDigest_prevHash hfirst isDigest_genesisPrevHash
  have htells := auditChain_tells hfree.inj (fun other hother => ⟨other, hmem other hother, rfl⟩)
    (fun other hother => ⟨other, hmem other hother, rfl⟩) hdigest hdigest
  exact hfirst.self_ne_head (htells.imp fun _ _ _ => trivial) fun other hother =>
    hfree.genesis other (hmem other hother)

/-- An edited row has another hash than it is stored with. -/
theorem not_linked_edited {columns : Columns} {newPrevHash prevHash : String} {rows : List AuditLog} {row : AuditLog}
    (hlinked : (auditChain rt).Linked prevHash rows) (hrow : row ∈ rows) (hstart : IsDigest prevHash)
    (hvisible : (Tampering.edit columns newPrevHash).Visible row)
    (hfree : CollisionFree rt (rows ++ (Tampering.edit columns newPrevHash).rows row.id rows)) :
    ¬ (auditChain rt).Linked prevHash ((Tampering.edit columns newPrevHash).rows row.id rows) := by
  intro hedited
  have hmem : row.edited columns newPrevHash ∈ (Tampering.edit columns newPrevHash).rows row.id rows :=
    List.mem_map.mpr ⟨row, hrow, if_pos rfl⟩
  have hself := selfHash_of_rowSelfHash (hlinked.seals row hrow)
  have hself' := selfHash_of_rowSelfHash (hedited.seals _ hmem)
  have hbytes : (row.edited columns newPrevHash).hashedBytes = row.hashedBytes := by
    refine hfree.inj ?_ ?_ (hself'.trans hself.symm)
    · exact ⟨row.edited columns newPrevHash, List.mem_append_right _ hmem, rfl⟩
    · exact ⟨row, List.mem_append_left _ hrow, rfl⟩
  have hdigest := isDigest_prevHash hlinked hstart row hrow
  have hdigest' := isDigest_prevHash hedited hstart _ hmem
  exact hvisible (hashedBytes_inj (hdigest'.1.trans hdigest.1.symm) hbytes)

/-- What is above a primary key is tampered with as the table is. -/
theorem filter_rows (tampering : Tampering) (id cursor : ℤ) (rows : List AuditLog) :
    (tampering.rows id rows).filter (fun row => decide (cursor < row.id)) =
      tampering.rows id (rows.filter fun row => decide (cursor < row.id)) := by
  cases tampering with
  | edit columns prevHash =>
    unfold Tampering.rows
    rw [List.filter_map]
    congr 1
    apply List.filter_congr
    intro row _
    rw [Function.comp_apply, id_edited]
  | delete => exact List.filter_comm _ _ _

theorem pending_tamper (s : AuditState) (id : ℤ) (tampering : Tampering) :
    (s.tamper id tampering).pending = tampering.rows id s.pending := filter_rows tampering id _ s.db.rows

theorem wellFormed_tamper (h : WellFormed s) (id : ℤ) (tampering : Tampering) : WellFormed (s.tamper id tampering) where
  cursor := h.cursor
  le_sequence := h.le_sequence
  digests := fun row hrow => by
    obtain ⟨old, hold, -, hself⟩ := exists_of_mem_rows hrow
    rw [hself]
    exact h.digests old hold

/-- An edit leaves every hash of a row as it is. -/
theorem map_selfHash_edit (columns : Columns) (prevHash : String) (id : ℤ) (rows : List AuditLog) :
    ((Tampering.edit columns prevHash).rows id rows).map AuditLog.selfHash = rows.map AuditLog.selfHash := by
  unfold Tampering.rows
  rw [List.map_map]
  apply List.map_congr_left
  intro row _
  exact selfHash_edited columns prevHash id row

/-- **An edit is noticed exactly above the cursor.** -/
theorem coherent_edit_iff {columns : Columns} {prevHash : String} {row : AuditLog} (h : Intact rt s)
    (hrow : row ∈ s.db.rows) (hvisible : (Tampering.edit columns prevHash).Visible row)
    (hfree : CollisionFree rt (s.db.rows ++ (s.tamper row.id (.edit columns prevHash)).db.rows)) :
    Coherent rt (s.tamper row.id (.edit columns prevHash)) ↔ ¬ Caught s row.id (.edit columns prevHash) := by
  have hpending := pending_tamper s row.id (.edit columns prevHash)
  have hcaught : Caught s row.id (.edit columns prevHash) ↔ row ∈ s.pending := by
    unfold Caught AuditState.pending AuditTable.above
    rw [List.mem_filter, decide_eq_true_eq]
    exact ⟨fun hid => ⟨hrow, hid⟩, fun hmem => hmem.2⟩
  rw [hcaught]
  constructor
  · intro hcoherent hmem
    have hlinked := hcoherent.linked
    rw [hpending] at hlinked
    refine not_linked_edited h.linked hmem h.wellFormed.cursor hvisible (hfree.mono ?_) hlinked
    rw [← hpending]
    intro other hother
    rcases List.mem_append.mp hother with hother | hother
    · exact List.mem_append_left _ (List.mem_filter.mp hother).1
    · exact List.mem_append_right _ (List.mem_filter.mp hother).1
  · intro hnot
    have hsame : (Tampering.edit columns prevHash).rows row.id s.pending = s.pending := by
      unfold Tampering.rows
      calc s.pending.map (fun other => if other.id = row.id then other.edited columns prevHash else other)
          = s.pending.map fun other => other := by
            apply List.map_congr_left
            intro other hother
            refine if_neg fun hid => hnot ?_
            unfold AuditState.pending AuditTable.above at hother ⊢
            obtain ⟨-, habove⟩ := List.mem_filter.mp hother
            rw [hid] at habove
            exact List.mem_filter.mpr ⟨hrow, habove⟩
        _ = s.pending := List.map_id' _
    rw [hsame] at hpending
    refine ⟨?_, ?_⟩
    · rw [hpending]
      exact h.linked
    · rw [hpending, (wellFormed_tamper h.wellFormed row.id _).headHash_eq]
      calc (auditChain rt).head genesisPrevHash (s.tamper row.id (.edit columns prevHash)).db.rows
          = (auditChain rt).head genesisPrevHash s.db.rows :=
            Chain.head_congr (map_selfHash_edit columns prevHash row.id _)
        _ = s.db.headHash := h.wellFormed.headHash_eq.symm
        _ = (auditChain rt).head s.cursorHash s.pending := h.coherent.head

/-- A row of a table stands between those with a smaller primary key and those with a greater one. -/
theorem exists_split {t : AuditTable} {row : AuditLog} (hrow : row ∈ t.rows) : ∃ below above,
    t.rows = below ++ row :: above ∧ (∀ other ∈ below, other.id < row.id) ∧ ∀ other ∈ above, row.id < other.id := by
  obtain ⟨below, above, hrows⟩ := List.append_of_mem hrow
  have hsorted := t.sorted
  rw [hrows] at hsorted
  obtain ⟨-, hrest, hcross⟩ := List.pairwise_append.mp hsorted
  exact ⟨below, above, hrows, fun other hother => hcross other hother row List.mem_cons_self,
    (List.pairwise_cons.mp hrest).1⟩

/-- Without that row, they are left. -/
theorem rows_delete {below above : List AuditLog} {row : AuditLog} (hbelow : ∀ other ∈ below, other.id < row.id)
    (habove : ∀ other ∈ above, row.id < other.id) :
    Tampering.delete.rows row.id (below ++ row :: above) = below ++ above := by
  have hleft : below.filter (fun other => decide (other.id ≠ row.id)) = below :=
    List.filter_eq_self.mpr fun other hother => decide_eq_true (hbelow other hother).ne
  have hright : above.filter (fun other => decide (other.id ≠ row.id)) = above :=
    List.filter_eq_self.mpr fun other hother => decide_eq_true (habove other hother).ne'
  unfold Tampering.rows
  rw [List.filter_append, List.filter_cons_of_neg (by simp), hleft, hright]

/-- Above the cursor, the rows around one are those that go on from the cursor, and those above it. -/
theorem Intact.pending_split {below above : List AuditLog} {row : AuditLog} (h : Intact rt s)
    (hrows : s.db.rows = below ++ row :: above) (habove : ∀ other ∈ above, row.id < other.id)
    (hid : s.cursor.lastVerifiedId < row.id) : ∃ between, s.pending = between ++ row :: above ∧
      (auditChain rt).head s.cursorHash between = (auditChain rt).head genesisPrevHash below := by
  have hpending : s.pending =
      below.filter (fun other => decide (s.cursor.lastVerifiedId < other.id)) ++ row :: above := by
    have hall : ∀ other ∈ row :: above, decide (s.cursor.lastVerifiedId < other.id) = true := by
      intro other hother
      rcases List.mem_cons.mp hother with rfl | hother
      · exact decide_eq_true hid
      · exact decide_eq_true (hid.trans (habove other hother))
    unfold AuditState.pending AuditTable.above
    rw [hrows, List.filter_append, List.filter_eq_self.mpr hall]
  refine ⟨_, hpending, ?_⟩
  obtain ⟨front, hfront, -, hhash⟩ := h.behind
  rw [hrows, hpending, ← List.append_assoc] at hfront
  rw [hhash, ← Chain.head_append, ← List.append_cancel_right hfront]

/-- Above the cursor, the deletion of a row is noticed by the row above it. -/
theorem coherent_delete_above {below above : List AuditLog} {row : AuditLog} (h : Intact rt s)
    (hrows : s.db.rows = below ++ row :: above) (hbelow : ∀ other ∈ below, other.id < row.id)
    (habove : ∀ other ∈ above, row.id < other.id) (hfree : CollisionFree rt s.db.rows)
    (hid : s.cursor.lastVerifiedId < row.id) : Coherent rt (s.tamper row.id .delete) ↔ above = [] := by
  obtain ⟨between, hpending, hhash⟩ := h.pending_split hrows habove hid
  have hbetween : ∀ other ∈ between, other.id < row.id := by
    have hsorted : s.pending.Pairwise fun row row' => row.id < row'.id := s.db.sorted.sublist List.filter_sublist
    rw [hpending] at hsorted
    exact fun other hother => (List.pairwise_append.mp hsorted).2.2 other hother row List.mem_cons_self
  have hleft : (s.tamper row.id .delete).pending = between ++ above := by
    rw [pending_tamper, hpending, rows_delete hbetween habove]
  have hlinked := h.linked
  rw [hpending] at hlinked
  obtain ⟨hfirst, hrest⟩ := Chain.linked_append.mp hlinked
  constructor
  · intro hcoherent
    cases above with
    | nil => rfl
    | cons next above =>
      -- the next row names the hash of the deleted one
      obtain ⟨-, -, hnext⟩ := linked_cons.mp hrest
      have hprev : next.prevHash = row.selfHash := (linked_cons.mp hnext).1
      have hcut := hcoherent.linked
      rw [hleft] at hcut
      have hprev' : next.prevHash = (auditChain rt).head s.cursorHash between :=
        (linked_cons.mp (Chain.linked_append.mp hcut).2).1
      have hsound := h.sound.linked
      rw [hrows] at hsound hfree
      exact absurd (hprev.symm.trans (hprev'.trans hhash)) (selfHash_ne_head hsound hfree)
  · rintro rfl
    rw [List.append_nil] at hleft
    refine ⟨?_, ?_⟩
    · rw [hleft]
      exact hfirst
    · rw [hleft, (wellFormed_tamper h.wellFormed row.id .delete).headHash_eq]
      calc (auditChain rt).head genesisPrevHash (Tampering.delete.rows row.id s.db.rows)
          = (auditChain rt).head genesisPrevHash below := by rw [hrows, rows_delete hbelow habove, List.append_nil]
        _ = (auditChain rt).head s.cursorHash between := hhash.symm

/-- Up to the cursor, the deletion of a row is noticed by the row that comes next, if it is the last. -/
theorem coherent_delete_behind {below above : List AuditLog} {row : AuditLog} (h : Intact rt s)
    (hrows : s.db.rows = below ++ row :: above) (hbelow : ∀ other ∈ below, other.id < row.id)
    (habove : ∀ other ∈ above, row.id < other.id) (hfree : CollisionFree rt s.db.rows)
    (hid : ¬ s.cursor.lastVerifiedId < row.id) : Coherent rt (s.tamper row.id .delete) ↔ above ≠ [] := by
  have hleft : (s.tamper row.id .delete).pending = s.pending := by
    rw [pending_tamper]
    refine List.filter_eq_self.mpr fun other hother => decide_eq_true fun hother' => hid ?_
    rw [← hother']
    exact of_decide_eq_true (List.mem_filter.mp hother).2
  have hhead : s.db.headHash = (auditChain rt).head row.selfHash above := by
    rw [h.wellFormed.headHash_eq, hrows, Chain.head_append]
    rfl
  have hhead' : (s.tamper row.id .delete).db.headHash =
      (auditChain rt).head ((auditChain rt).head genesisPrevHash below) above := by
    rw [(wellFormed_tamper h.wellFormed row.id .delete).headHash_eq, ← Chain.head_append, ← rows_delete hbelow habove,
      ← hrows]
    rfl
  constructor
  · rintro hcoherent rfl
    have hsound := h.sound.linked
    have hsame : (s.tamper row.id .delete).db.headHash = s.db.headHash := by
      rw [hcoherent.head, hleft]
      exact h.coherent.head.symm
    rw [hhead, hhead'] at hsame
    rw [hrows] at hsound hfree
    exact selfHash_ne_head hsound hfree hsame.symm
  · intro hnext
    refine ⟨?_, ?_⟩
    · rw [hleft]
      exact h.linked
    · cases above with
      | nil => exact absurd rfl hnext
      | cons next above =>
        rw [hhead', hleft]
        exact hhead.symm.trans h.coherent.head

/-- **A deletion is noticed above the cursor, but for the last row, and of the last row at the cursor.** -/
theorem coherent_delete_iff {row : AuditLog} (h : Intact rt s) (hrow : row ∈ s.db.rows)
    (hfree : CollisionFree rt s.db.rows) :
    Coherent rt (s.tamper row.id .delete) ↔ ¬ Caught s row.id .delete := by
  obtain ⟨below, above, hrows, hbelow, habove⟩ := exists_split hrow
  have hlast : (∃ other ∈ s.db.rows, row.id < other.id) ↔ above ≠ [] := by
    constructor
    · rintro ⟨other, hother, hid⟩ rfl
      rw [hrows] at hother
      rcases List.mem_append.mp hother with hother | hother
      · exact hid.not_gt (hbelow other hother)
      · rw [List.mem_singleton.mp hother] at hid
        exact hid.false
    · intro hnext
      obtain ⟨next, hmem⟩ := List.exists_mem_of_ne_nil above hnext
      exact ⟨next, by rw [hrows]; simp [hmem], habove next hmem⟩
  unfold Caught
  rw [hlast]
  by_cases hid : s.cursor.lastVerifiedId < row.id
  · simp only [coherent_delete_above h hrows hbelow habove hfree hid, hid, true_iff, ne_eq, not_not]
  · simp only [coherent_delete_behind h hrows hbelow habove hfree hid, hid, false_iff, not_not]

/-- Whether tampering is noticed. -/
theorem coherent_tamper_iff {row : AuditLog} {tampering : Tampering} (h : Intact rt s) (hrow : row ∈ s.db.rows)
    (hvisible : tampering.Visible row) (hfree : CollisionFree rt (s.db.rows ++ (s.tamper row.id tampering).db.rows)) :
    Coherent rt (s.tamper row.id tampering) ↔ ¬ Caught s row.id tampering := by
  cases tampering with
  | edit columns prevHash => exact coherent_edit_iff h hrow hvisible hfree
  | delete => exact coherent_delete_iff h hrow (hfree.mono (List.subset_append_left _ _))

end

/-- **Tampering with a row is noticed by a later run exactly above the cursor**, but for the last row, the
deletion of which is noticed exactly at the cursor; and where a later run has anything to look at. -/
theorem caught_iff {rt : Runtime} {history later : List AuditStep} {row : AuditLog} {tampering : Tampering}
    (hhistory : ∀ step ∈ history, step.Fair) (hlater : ∀ step ∈ later, step.Fair)
    (hrow : row ∈ (after rt history .initial).db.rows) (hvisible : tampering.Visible row)
    (hfree : CollisionFree rt ((after rt history .initial).db.rows ++
      ((after rt history .initial).tamper row.id tampering).db.rows)) :
    (∃ r ∈ runResults rt later ((after rt history .initial).tamper row.id tampering), r.ok = false) ↔
      Caught (after rt history .initial) row.id tampering ∧
        Looks rt later ((after rt history .initial).tamper row.id tampering) := by
  have hintact : Intact rt (after rt history .initial) := intact_after (intact_initial rt) hhistory
  rw [fails_iff (wellFormed_tamper hintact.wellFormed row.id tampering) hlater,
    coherent_tamper_iff hintact hrow hvisible hfree, not_not]

/-! ### A row that is edited behind the cursor -/

/-- The columns of a row that somebody has made up. -/
def forgedColumns : Columns where
  occurredAt := firstEnvironment.now
  userId := none
  actorId := none
  eventType := "b"
  entityType := ""
  entityId := ""
  dataBefore := noDiff
  dataAfter := noDiff
  ip := none
  ua := ""

/-- The bytes that the hash of that row is made of. -/
def forgedBytes : ByteArray :=
  AuditLog.hashedBytes { toColumns := forgedColumns, id := 1, prevHash := genesisPrevHash, selfHash := "" }

/-- A runtime that has another hash for these bytes than for all others. -/
def forgeryRuntime : Runtime :=
  { sampleRuntime with
    sha256 := fun data =>
      if data.data = forgedBytes.data then String.ofList (List.replicate 64 'f') else sampleRuntime.sha256 data
    sha256_digest := fun data => by
      split_ifs
      · unfold IsDigest
        rw [String.toList_ofList]
        decide
      · exact sampleRuntime.sha256_digest data }

theorem sha256_forgeryRuntime (data : ByteArray) : forgeryRuntime.sha256 data =
    if data.data = forgedBytes.data then String.ofList (List.replicate 64 'f') else sampleRuntime.sha256 data := rfl

theorem sha256_forgedBytes : forgeryRuntime.sha256 forgedBytes = String.ofList (List.replicate 64 'f') := by
  rw [sha256_forgeryRuntime, if_pos rfl]

theorem sha256_of_ne {data : ByteArray} (h : data ≠ forgedBytes) :
    forgeryRuntime.sha256 data = sampleRuntime.sha256 data := by
  rw [sha256_forgeryRuntime, if_neg]
  exact fun hdata => h (ByteArray.ext hdata)

/-- A check sum is no such hash. -/
theorem sampleRuntime_ne_forged (data : ByteArray) :
    sampleRuntime.sha256 data ≠ String.ofList (List.replicate 64 'f') := by
  intro hdata
  have hchars : padded 64 (10 ^ 63 + checksum data) = List.replicate 64 'f' := String.ofList_injective hdata
  have hlast : Nat.digitChar ((10 ^ 63 + checksum data) % 10) = 'f' := by
    rw [List.replicate_succ', padded] at hchars
    exact (List.cons.inj (List.append_inj' hchars rfl).2).1
  have hdigit : ∀ d < 10, 'f' ≠ Nat.digitChar d := by decide
  exact hdigit _ (Nat.mod_lt _ (by decide)) hlast.symm

/-- A row is written. -/
def oneCall : AuditStep := .emit firstEnvironment { eventType := "a" }

/-- A run, the row of which is refused by the database. -/
def quietRun : AuditStep :=
  .run {
    emission := { secondEnvironment with store := fun _ => none }
    runAt := secondEnvironment.now
    triggersPresent := true
    duration := ⟨['0', '.', '1'], by decide, by decide, by decide⟩ }

/-- The edit that puts the made-up columns into a row. -/
def forgery : Tampering := .edit forgedColumns genesisPrevHash

theorem fair_oneCall : oneCall.Fair := readsBack_sampleEnvironment 1

theorem fair_quietRun : quietRun.Fair := by
  refine ⟨?_, rfl⟩
  intro fields columns h
  cases h

/-- The row that the call writes. -/
theorem exists_written : ∃ row : AuditLog, (after forgeryRuntime [oneCall] .initial).db.rows = [row] ∧
    row.id = 1 ∧ forgery.Visible row ∧
    CollisionFree forgeryRuntime [row, row.edited forgedColumns genesisPrevHash] := by
  have hempty : Sound forgeryRuntime AuditDb.empty := sound_of_rows_eq_nil rfl
  have hwritten : writable forgeryRuntime firstEnvironment { eventType := "a" } = true := by decide +kernel
  have hevent : (prepare forgeryRuntime firstEnvironment.now { eventType := "a" }).map (·.eventType) = some "a" := by
    decide +kernel
  rw [← emit_isWritten hempty] at hwritten
  rcases emit_cases forgeryRuntime firstEnvironment { eventType := "a" } AuditDb.empty with
    ⟨-, hnone⟩ | ⟨fields, row, hprepare, hmade, hrows, -⟩
  · rw [hnone] at hwritten
    cases hwritten
  · obtain ⟨hprev, hself⟩ := hmade.seals (readsBack_sampleEnvironment 1)
    have hreads := readsBack_sampleEnvironment 1 fields row.toColumns hmade.store
    have htype : row.eventType = "a" := by
      rw [hprepare, Option.map_some, Option.some_inj] at hevent
      exact hreads.eventType.trans hevent
    have hid : row.id = 1 := by
      rw [hmade.id]
      rfl
    have hbytes : (row.edited forgedColumns genesisPrevHash).hashedBytes = forgedBytes := by
      unfold forgedBytes AuditLog.hashedBytes AuditLog.edited
      rfl
    have hvisible : forgery.Visible row := by
      rintro ⟨-, hsame⟩
      have hforged : "b" = row.eventType := hsame.eventType
      rw [htype] at hforged
      exact absurd hforged (by decide)
    have hother : row.hashedBytes ≠ forgedBytes := by
      intro hsame
      have hprev : row.prevHash = genesisPrevHash := hprev
      rw [← hbytes] at hsame
      exact hvisible (hashedBytes_inj (congrArg (fun s => s.toList.length) hprev.symm) hsame.symm)
    have hgenesis : row.selfHash ≠ genesisPrevHash := by
      have hhash : row.selfHash = sampleRuntime.sha256 row.hashedBytes := by
        have hseals : rowSelfHash forgeryRuntime row row.prevHash = some row.selfHash := by
          rw [hprev]
          exact hself
        rw [← selfHash_of_rowSelfHash hseals, sha256_of_ne hother]
      rw [hhash]
      exact sampleRuntime_ne_genesis _
    have hadded : AuditDb.empty.rows ++ [row] = [row] := rfl
    rw [hadded] at hrows
    have hdiffer : forgeryRuntime.sha256 row.hashedBytes ≠ forgeryRuntime.sha256 forgedBytes := by
      rw [sha256_of_ne hother, sha256_forgedBytes]
      exact sampleRuntime_ne_forged _
    refine ⟨row, ?_, hid, hvisible, ?_, ?_⟩
    · simp only [after, oneCall, AuditStep.apply, AuditState.initial]
      rw [hrows]
    · have hall : ∀ either ∈ [row, row.edited forgedColumns genesisPrevHash],
          either.hashedBytes = row.hashedBytes ∨ either.hashedBytes = forgedBytes := by
        intro either heither
        simp only [List.mem_cons, List.not_mem_nil, or_false] at heither
        rcases heither with rfl | rfl
        · exact .inl rfl
        · exact .inr hbytes
      rintro _ ⟨one, hone, rfl⟩ _ ⟨two, htwo, rfl⟩ hsame
      rcases hall one hone with h | h <;> rcases hall two htwo with h' | h' <;> rw [h, h'] at hsame ⊢
      · exact absurd hsame hdiffer
      · exact absurd hsame.symm hdiffer
    · intro either heither
      simp only [List.mem_cons, List.not_mem_nil, or_false] at heither
      rcases heither with rfl | rfl <;> exact hgenesis

/-- The edit puts the made-up columns into the only row. -/
theorem rows_forgery {s : AuditState} {row : AuditLog} (hrows : s.db.rows = [row]) :
    (s.tamper row.id forgery).db.rows = [row.edited forgedColumns genesisPrevHash] := by
  change forgery.rows row.id s.db.rows = _
  rw [hrows]
  exact congrArg (fun other => [other]) (if_pos rfl)

/-- A quiet run adds no row, and moves the cursor to the last. -/
theorem quietRun_moves {rt : Runtime} {s : AuditState} {row : AuditLog} (h : Intact rt s) (hrows : s.db.rows = [row])
    (habove : s.cursor.lastVerifiedId < row.id) : (quietRun.apply rt s).1.db.rows = [row] ∧
      (quietRun.apply rt s).1.cursor.lastVerifiedId = row.id := by
  obtain ⟨result, hresult, hok, -⟩ := exists_verifyChain rt h.wellFormed
  have hpending : s.pending = [row] := by
    unfold AuditState.pending AuditTable.above
    rw [hrows, List.filter_singleton, decide_eq_true habove, cond_true]
  unfold quietRun AuditStep.apply
  dsimp only
  generalize henv : RunEnvironment.mk _ _ _ _ = env
  have htriggers : env.triggersPresent = true := by rw [← henv]
  obtain ⟨args, hrun⟩ := runVerifier_eq env hresult
  obtain ⟨hid, -, -⟩ := moved h.wellFormed htriggers hresult (hok.mpr h.linked)
  rw [hrun]
  refine ⟨?_, ?_⟩
  · rcases emit_cases rt env.emission args s.db with ⟨hsame, -⟩ | ⟨fields, added, -, hmade, -, -⟩
    · rw [hsame]
      exact hrows
    · have hstore := hmade.store
      rw [← henv] at hstore
      cases hstore
  · rw [hid, hpending]
    rfl

/-- Before a run the edit is noticed. -/
theorem caught_iff_sample : ∃ row ∈ (after forgeryRuntime [oneCall] .initial).db.rows,
    ∃ r ∈ runResults forgeryRuntime [quietRun] ((after forgeryRuntime [oneCall] .initial).tamper row.id forgery),
      r.ok = false := by
  obtain ⟨row, hrows, hid, hvisible, hfree⟩ := exists_written
  have hmem : row ∈ (after forgeryRuntime [oneCall] .initial).db.rows := by
    rw [hrows]
    exact List.mem_singleton_self row
  refine ⟨row, hmem, (caught_iff (List.forall_mem_singleton.mpr fair_oneCall)
    (List.forall_mem_singleton.mpr fair_quietRun) hmem hvisible ?_).mpr ⟨?_, .inl ⟨_, rfl, ?_⟩⟩⟩
  · rw [hrows, rows_forgery hrows]
    exact hfree
  · change 0 < row.id
    omega
  · unfold AuditTable.above
    rw [rows_forgery hrows, List.filter_singleton, decide_eq_true, cond_true]
    · exact List.cons_ne_nil _ _
    · change 0 < row.id
      omega

/-- **Behind the cursor it never is**: no run of any history notices it. -/
theorem not_always_caught : ¬ ∀ (rt : Runtime) (history : List AuditStep) (row : AuditLog) (tampering : Tampering),
    (∀ step ∈ history, step.Fair) → row ∈ (after rt history .initial).db.rows → tampering.Visible row →
    CollisionFree rt ((after rt history .initial).db.rows ++
      ((after rt history .initial).tamper row.id tampering).db.rows) →
    ∃ later : List AuditStep, (∀ step ∈ later, step.Fair) ∧
      ∃ r ∈ runResults rt later ((after rt history .initial).tamper row.id tampering), r.ok = false := by
  intro hclaim
  obtain ⟨row, hrows, hid, hvisible, hfree⟩ := exists_written
  have hfair : ∀ step ∈ [oneCall] ++ [quietRun], step.Fair := by
    intro step hstep
    rcases List.mem_append.mp hstep with hstep | hstep <;> rw [List.mem_singleton.mp hstep]
    · exact fair_oneCall
    · exact fair_quietRun
  have hintact : Intact forgeryRuntime (after forgeryRuntime [oneCall] .initial) :=
    intact_after (intact_initial _) (List.forall_mem_singleton.mpr fair_oneCall)
  have habove : (after forgeryRuntime [oneCall] .initial).cursor.lastVerifiedId < row.id := by
    change 0 < row.id
    omega
  obtain ⟨hrows', hcursor⟩ := quietRun_moves hintact hrows habove
  rw [← after_concat] at hrows' hcursor
  have hfree' : CollisionFree forgeryRuntime ((after forgeryRuntime ([oneCall] ++ [quietRun]) .initial).db.rows ++
      ((after forgeryRuntime ([oneCall] ++ [quietRun]) .initial).tamper row.id forgery).db.rows) := by
    rw [hrows', rows_forgery hrows']
    exact hfree
  have hmem : row ∈ (after forgeryRuntime ([oneCall] ++ [quietRun]) .initial).db.rows := by
    rw [hrows']
    exact List.mem_singleton_self row
  obtain ⟨later, hlater, hfails⟩ := hclaim forgeryRuntime ([oneCall] ++ [quietRun]) row forgery hfair hmem hvisible hfree'
  have hintact' := intact_after (intact_initial forgeryRuntime) hfair
  rw [fails_iff (wellFormed_tamper hintact'.wellFormed row.id forgery) hlater,
    coherent_tamper_iff hintact' hmem hvisible hfree', not_not] at hfails
  have hcaught := hfails.1
  unfold forgery Caught at hcaught
  rw [hcursor] at hcaught
  exact hcaught.false

end StratTrader.Audit
