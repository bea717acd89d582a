import StratTrader.Audit.Models
import StratTrader.Foundation.HashChain

/-!
# The hash of an audit row

`audit/hashing.py`: the text that is made of the columns of a row, and the hash of the row
before followed by that text.

## What is proved

* `isoTimestamp_inj`: a time can be read off its text.
* `payload_inj`: the text of a row determines every column that it covers, where an empty
  address is none and the keys of a diff have no order.
* `hashedBytes_inj`: so do the bytes that are hashed, and with them the hash of the row before.
-/

namespace StratTrader.Audit

open StratTrader.Brokers StratTrader.Foundation

/-! ### The text of a row -/

/-- A number in at least so many digits, of which it needs no more. -/
def padded : ℕ → ℕ → List Char
  | 0, _ => []
  | width + 1, n => padded width (n / 10) ++ [Nat.digitChar (n % 10)]

/-- `iso_timestamp`, of the characters. -/
def isoChars (t : UtcTime) : List Char :=
  padded 4 t.year ++ ('-' :: (padded 2 t.month ++ ('-' :: (padded 2 t.day ++ ('T' :: (padded 2 t.hour ++
    (':' :: (padded 2 t.minute ++ (':' :: (padded 2 t.second ++ ('.' :: (padded 6 t.microsecond ++
      ['+', '0', '0', ':', '0', '0']))))))))))))

/-- `iso_timestamp`. -/
def isoTimestamp (t : UtcTime) : String := String.ofList (isoChars t)

/-- The arguments of `canonical_payload`. -/
structure Fields where
  /-- When it was. -/
  occurredAt : UtcTime
  /-- The user it is about. -/
  userId : Option UserId
  /-- The user who did it. -/
  actorId : Option UserId
  /-- What it was. -/
  eventType : String
  /-- What kind of thing it was done to. -/
  entityType : PyValue
  /-- Which one. -/
  entityId : String
  /-- What was before. -/
  dataBefore : JsonValue
  /-- What was after. -/
  dataAfter : JsonValue
  /-- The address of the client. -/
  ip : Option String
  /-- The user agent of the client. -/
  ua : String

/-- `_FIELDS`. -/
def fieldNames : List String :=
  ["occurred_at", "user_id", "actor_id", "event_type", "entity_type", "entity_id", "data_before", "data_after",
    "ip", "ua"]

/-- A text or `None`. -/
def orNull : Option String → JsonValue
  | none => .scalar .null
  | some s => .string s

/-- `ip if ip else None`. -/
def orNone (s : Option String) : Option String := s.filter fun s => decide (s ≠ "")

/-- The dictionary that is written, for what is written of `entity_type or ""`. -/
def Fields.members (f : Fields) (entityType : JsonValue) : List (String × JsonValue) :=
  [("occurred_at", .string (isoTimestamp f.occurredAt)),
    ("user_id", orNull f.userId),
    ("actor_id", orNull f.actorId),
    ("event_type", .string f.eventType),
    ("entity_type", entityType),
    ("entity_id", .string f.entityId),
    ("data_before", f.dataBefore),
    ("data_after", f.dataAfter),
    ("ip", orNull (orNone f.ip)),
    ("ua", .string f.ua)]

/-- `canonical_payload`; `none` if it raises. -/
def canonicalPayload (f : Fields) : Option String := do
  if !f.entityType.hasTruth then none
  let entityType ← toJson false (if f.entityType.truthy then f.entityType else .str "")
  return dumps (.object (f.members entityType))

/-! ### The hash of a row -/

/-- `GENESIS_PREV_HASH`. -/
def genesisPrevHash : String := String.ofList (List.replicate 64 '0')

section
variable (rt : Runtime)

/-- `compute_self_hash`; `none` if it raises. -/
def computeSelfHash (prevHash payload : String) : Option String :=
  if isAscii prevHash then some (rt.sha256 (prevHash.toUTF8 ++ payload.toUTF8)) else none

/-- The columns of a row as the arguments of `canonical_payload`. -/
def Columns.fields (c : Columns) : Fields where
  occurredAt := c.occurredAt
  userId := c.userId
  actorId := c.actorId
  eventType := c.eventType
  entityType := .str c.entityType
  entityId := c.entityId
  dataBefore := c.dataBefore
  dataAfter := c.dataAfter
  ip := c.ip
  ua := c.ua

/-- `_row_self_hash`; `none` if it raises. -/
def rowSelfHash (row : AuditLog) (prevHash : String) : Option String := do
  let payload ← canonicalPayload row.fields
  computeSelfHash rt prevHash payload

/-- The text of a row. -/
def Columns.payload (c : Columns) : String := dumps (.object (c.fields.members (.string c.entityType)))

/-- The bytes that the hash of a row is made of, where it names the hash of the row before. -/
def AuditLog.hashedBytes (row : AuditLog) : ByteArray := row.prevHash.toUTF8 ++ row.payload.toUTF8

/-- The rows as a chain of hashes. -/
def auditChain : Chain AuditLog String where
  prev := AuditLog.prevHash
  self := AuditLog.selfHash
  Seals prevHash row selfHash := rowSelfHash rt row prevHash = some selfHash

end

/-! ### Times -/

theorem length_padded (width n : ℕ) : (padded width n).length = width := by
  induction width generalizing n with
  | zero => rfl
  | succ width ih => rw [padded, List.length_append, ih, List.length_singleton]

theorem digitChar_inj : ∀ m < 10, ∀ n < 10, Nat.digitChar m = Nat.digitChar n → m = n := by decide

/-- A number that fits can be read off its digits. -/
theorem padded_inj {width m n : ℕ} (hm : m < 10 ^ width) (hn : n < 10 ^ width)
    (h : padded width m = padded width n) : m = n := by
  induction width generalizing m n with
  | zero => omega
  | succ width ih =>
    rw [padded, padded] at h
    obtain ⟨hfront, hlast⟩ := List.append_inj' h rfl
    have hdiv : m / 10 = n / 10 := by
      apply ih _ _ hfront
      · rw [Nat.div_lt_iff_lt_mul (by decide), ← Nat.pow_succ]
        exact hm
      · rw [Nat.div_lt_iff_lt_mul (by decide), ← Nat.pow_succ]
        exact hn
    have hmod : m % 10 = n % 10 := by
      apply digitChar_inj _ (Nat.mod_lt _ (by decide)) _ (Nat.mod_lt _ (by decide))
      exact (List.cons.inj hlast).1
    rw [← Nat.div_add_mod m 10, hdiv, hmod, Nat.div_add_mod]

/-- The digits of a field of a time, and what follows them. -/
theorem padded_append_inj {width bound : ℕ} (hbound : bound ≤ 10 ^ width) {m n : Fin bound} {r r' : List Char}
    (h : padded width m ++ r = padded width n ++ r') : m = n ∧ r = r' := by
  obtain ⟨hdigits, hrest⟩ := List.append_inj h (by rw [length_padded, length_padded])
  exact ⟨Fin.ext (padded_inj (by omega) (by omega) hdigits), hrest⟩

/-- **A time can be read off its text.** -/
theorem isoTimestamp_inj {t u : UtcTime} (h : isoTimestamp t = isoTimestamp u) : t = u := by
  have h := String.ofList_injective h
  unfold isoChars at h
  obtain ⟨hyear, h⟩ := padded_append_inj (by decide) h
  obtain ⟨hmonth, h⟩ := padded_append_inj (by decide) (List.cons.inj h).2
  obtain ⟨hday, h⟩ := padded_append_inj (by decide) (List.cons.inj h).2
  obtain ⟨hhour, h⟩ := padded_append_inj (by decide) (List.cons.inj h).2
  obtain ⟨hminute, h⟩ := padded_append_inj (by decide) (List.cons.inj h).2
  obtain ⟨hsecond, h⟩ := padded_append_inj (by decide) (List.cons.inj h).2
  obtain ⟨hmicrosecond, -⟩ := padded_append_inj (by decide) (List.cons.inj h).2
  cases t
  cases u
  simp_all

/-! ### Columns -/

/-- The columns hold the same, where an empty address is none and the keys of a diff have no order. -/
structure SameFields (f f' : Fields) : Prop where
  /-- The time. -/
  occurredAt : f.occurredAt = f'.occurredAt
  /-- The user it is about. -/
  userId : f.userId = f'.userId
  /-- The user who did it. -/
  actorId : f.actorId = f'.actorId
  /-- The event. -/
  eventType : f.eventType = f'.eventType
  /-- The kind of thing. -/
  entityType : f.entityType = f'.entityType
  /-- The thing. -/
  entityId : f.entityId = f'.entityId
  /-- The diff before. -/
  dataBefore : sortKeys f.dataBefore = sortKeys f'.dataBefore
  /-- The diff after. -/
  dataAfter : sortKeys f.dataAfter = sortKeys f'.dataAfter
  /-- The address. -/
  ip : orNone f.ip = orNone f'.ip
  /-- The user agent. -/
  ua : f.ua = f'.ua

/-- The rows hold the same in every column that their hashes cover. -/
def SameRow (row row' : AuditLog) : Prop := SameFields row.fields row'.fields

theorem sortKeys_orNull (s : Option String) : sortKeys (orNull s) = orNull s := by
  cases s <;> rw [orNull, sortKeys]

theorem orNone_some {s : String} (h : s ≠ "") : orNone (some s) = some s := by
  simp [orNone, Option.filter, h]

theorem orNull_inj {s t : Option String} (h : orNull s = orNull t) : s = t := by
  cases s <;> cases t <;> simp_all [orNull]

/-- The members that are written, in the order in which they are given. -/
theorem sortMembers_members (f : Fields) (entityType : JsonValue) : sortMembers (f.members entityType) =
    [("occurred_at", .string (isoTimestamp f.occurredAt)), ("user_id", orNull f.userId),
      ("actor_id", orNull f.actorId), ("event_type", .string f.eventType), ("entity_type", sortKeys entityType),
      ("entity_id", .string f.entityId), ("data_before", sortKeys f.dataBefore),
      ("data_after", sortKeys f.dataAfter), ("ip", orNull (orNone f.ip)), ("ua", .string f.ua)] := by
  simp [Fields.members, sortMembers, sortKeys_orNull, sortKeys]

/-- Their names are the frozen ones. -/
theorem map_fst_sortMembers (f : Fields) (entityType : JsonValue) :
    (sortMembers (f.members entityType)).map Prod.fst = fieldNames := by
  rw [sortMembers_members]
  rfl

theorem nodup_fieldNames : fieldNames.Nodup := by decide

/-- **The text of a row determines the columns that it covers.** -/
theorem payload_inj {c c' : Columns} (h : c.payload = c'.payload) : SameFields c.fields c'.fields := by
  have hmembers := members_eq_of_sortKeys (dumps_inj.mp h)
    ((map_fst_sortMembers _ _).trans (map_fst_sortMembers _ _).symm)
    ((map_fst_sortMembers _ _).symm ▸ nodup_fieldNames)
  rw [sortMembers_members, sortMembers_members] at hmembers
  simp only [sortKeys, List.cons.injEq, Prod.mk.injEq, JsonValue.string.injEq, true_and, and_true] at hmembers
  obtain ⟨htime, huser, hactor, hevent, htype, hid, hbefore, hafter, hip, hua⟩ := hmembers
  exact ⟨isoTimestamp_inj htime, orNull_inj huser, orNull_inj hactor, hevent, congrArg PyValue.str htype, hid,
    hbefore, hafter, orNull_inj hip, hua⟩

/-- Columns that hold the same are written alike. -/
theorem canonicalPayload_congr {f f' : Fields} (h : SameFields f f') : canonicalPayload f = canonicalPayload f' := by
  have hmembers : ∀ entityType, dumps (.object (f.members entityType)) = dumps (.object (f'.members entityType)) := by
    intro entityType
    apply dumps_inj.mpr
    rw [sortKeys, sortKeys, sortMembers_members, sortMembers_members, h.occurredAt, h.userId, h.actorId,
      h.eventType, h.entityId, h.dataBefore, h.dataAfter, h.ip, h.ua]
  unfold canonicalPayload
  rw [h.entityType]
  simp only [hmembers]

/-- A row always has a text. -/
theorem canonicalPayload_fields (c : Columns) : canonicalPayload c.fields = some c.payload := by
  have hword : toJson false (if c.fields.entityType.truthy then c.fields.entityType else .str "") =
      some (.string c.entityType) := by
    split_ifs with htrue
    · exact toJson_text _ _
    · have hempty : c.entityType = "" := by
        by_contra hne
        exact htrue ((PyValue.truthy_text _).mpr hne)
      rw [hempty]
      exact toJson_text _ _
  have htruth : c.fields.entityType.hasTruth = true := rfl
  unfold canonicalPayload
  rw [hword, htruth]
  rfl

/-! ### Hashes -/

section
variable {rt : Runtime} {prevHash : String} {row : AuditLog} {rows : List AuditLog}

theorem linked_cons : (auditChain rt).Linked prevHash (row :: rows) ↔
    row.prevHash = prevHash ∧ rowSelfHash rt row prevHash = some row.selfHash ∧
      (auditChain rt).Linked row.selfHash rows := Iff.rfl

theorem linked_concat : (auditChain rt).Linked prevHash (rows ++ [row]) ↔
    (auditChain rt).Linked prevHash rows ∧ row.prevHash = (auditChain rt).head prevHash rows ∧
      rowSelfHash rt row ((auditChain rt).head prevHash rows) = some row.selfHash :=
  Chain.linked_concat row

theorem head_concat : (auditChain rt).head prevHash (rows ++ [row]) = row.selfHash := Chain.head_concat row

end

theorem isAscii_of_isHexDigit {c : Char} (h : isHexDigit c = true) : c.toNat < 128 := by
  simp only [isHexDigit, Bool.or_eq_true, decide_eq_true_eq] at h
  rcases h with hdigit | hletter
  · have hle : c.toNat ≤ 57 := (Char.isDigit_iff_toNat.mp hdigit).2
    omega
  · have hall : ['a', 'b', 'c', 'd', 'e', 'f'].all (fun c => decide (c.toNat < 128)) = true := by decide
    exact of_decide_eq_true (List.all_eq_true.mp hall c hletter)

theorem IsDigest.isAscii {s : String} (h : IsDigest s) : isAscii s = true := by
  unfold Foundation.isAscii
  rw [List.all_eq_true]
  intro c hc
  exact decide_eq_true (isAscii_of_isHexDigit (List.all_eq_true.mp h.2 c hc))

theorem isDigest_genesisPrevHash : IsDigest genesisPrevHash := by
  unfold IsDigest genesisPrevHash
  rw [String.toList_ofList]
  decide

/-- With a digest before it, a row has a hash. -/
theorem rowSelfHash_of_isDigest {rt : Runtime} {prevHash : String} (h : IsDigest prevHash) (row : AuditLog) :
    rowSelfHash rt row prevHash = some (rt.sha256 (prevHash.toUTF8 ++ row.payload.toUTF8)) := by
  unfold rowSelfHash computeSelfHash
  rw [canonicalPayload_fields]
  simp [h.isAscii]

/-- The bytes that are hashed determine the hash before and the columns. -/
theorem hashedBytes_inj {row row' : AuditLog} (hlength : row.prevHash.toList.length = row'.prevHash.toList.length)
    (h : row.hashedBytes = row'.hashedBytes) :
    row.prevHash = row'.prevHash ∧ SameRow row row' := by
  unfold AuditLog.hashedBytes at h
  simp only [String.toUTF8_eq_toByteArray, ← String.toByteArray_append, String.toByteArray_inj] at h
  rw [← String.toList_inj, String.toList_append, String.toList_append] at h
  obtain ⟨hprev, hpayload⟩ := List.append_inj h hlength
  exact ⟨String.toList_inj.mp hprev, payload_inj (String.toList_inj.mp hpayload)⟩

end StratTrader.Audit
