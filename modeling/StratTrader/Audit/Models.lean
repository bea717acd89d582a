import StratTrader.Brokers.Base
import StratTrader.Foundation.Objects
import StratTrader.Foundation.Python

/-!
# The audit log

The rows of `audit_log` as they are read through `audit/models.py`, and the table that holds
them. The table is a list in the order of the primary keys; no two rows have the same.

What Python and its libraries compute beyond what is defined here is a parameter (`Runtime`).

## Honest scope

A time is its fields in UTC, and the calendar does not bound its days. A diff is what is read of
it: a column that holds `NULL` and one that holds the JSON `null` are both read as `None`.
-/

namespace StratTrader.Audit

open StratTrader.Brokers StratTrader.Foundation

/-! ### Rows -/

/-- A time of day on a date, in UTC. -/
structure UtcTime where
  /-- The year. -/
  year : Fin 10000
  /-- The month. -/
  month : Fin 13
  /-- The day. -/
  day : Fin 32
  /-- The hour. -/
  hour : Fin 24
  /-- The minute. -/
  minute : Fin 60
  /-- The second. -/
  second : Fin 60
  /-- The microsecond. -/
  microsecond : Fin 1000000
  deriving DecidableEq

/-- `None` in a diff. -/
def noDiff : JsonValue := .scalar .null

/-- The columns of `AuditLog` that its hash covers. -/
structure Columns where
  /-- When it was. -/
  occurredAt : UtcTime
  /-- The user it is about. -/
  userId : Option UserId
  /-- The user who did it. -/
  actorId : Option UserId
  /-- What it was. -/
  eventType : String
  /-- What kind of thing it was done to. -/
  entityType : String
  /-- Which one. -/
  entityId : String
  /-- What was before. -/
  dataBefore : JsonValue
  /-- What was after. -/
  dataAfter : JsonValue
  /-- The address of the client. -/
  ip : Option String
  /-- The user agent of the client. -/
  ua : String

/-- `AuditLog`. -/
structure AuditLog extends Columns where
  /-- The primary key. -/
  id : ℤ
  /-- The hash of the row before. -/
  prevHash : String
  /-- The hash of the row. -/
  selfHash : String

/-- The table `audit_log`, in the order of the primary keys. -/
structure AuditTable where
  /-- The rows. -/
  rows : List AuditLog
  /-- No primary key stands twice. -/
  sorted : rows.Pairwise fun row row' => row.id < row'.id

/-- The table and the sequence that its primary keys come from. -/
structure AuditDb extends AuditTable where
  /-- The last number that was taken from the sequence. -/
  sequence : ℕ
  /-- Every primary key was taken from it. -/
  le_sequence : ∀ row ∈ rows, row.id ≤ sequence

/-- The headers of a request that an audit row is written from. -/
structure RequestMeta where
  /-- `HTTP_X_FORWARDED_FOR`. -/
  forwardedFor : Option String
  /-- `REMOTE_ADDR`. -/
  remoteAddr : Option String
  /-- `HTTP_USER_AGENT`. -/
  userAgent : Option String

/-! ### The parameters -/

/-- A digit of `hexdigest`. -/
def isHexDigit (c : Char) : Bool := c.isDigit || decide (c ∈ ['a', 'b', 'c', 'd', 'e', 'f'])

/-- What a hash in the table looks like: 64 hexadecimal digits. -/
def IsDigest (s : String) : Prop := s.toList.length = 64 ∧ s.toList.all isHexDigit = true

/-- What is computed outside the repository. -/
structure Runtime where
  /-- `hashlib.sha256(data).hexdigest()`. -/
  sha256 : ByteArray → String
  /-- It is made of 64 digits. -/
  sha256_digest : ∀ data, IsDigest (sha256 data)
  /-- `repr` of a list, tuple or dictionary, unless it raises. -/
  repr : PyValue → Option String
  /-- How many calls of `scrub` the stack has room for. -/
  calls : ℕ
  /-- There is room for those of a `dict` of texts and numbers. -/
  two_le_calls : 2 ≤ calls
  /-- How many values within one another are written as JSON and read back. -/
  nested : ℕ
  /-- Such a `dict` is. -/
  nested_pos : 0 < nested

/-! ### Insertions -/

/-- The table after a row with a higher primary key has been added. -/
def AuditTable.add (t : AuditTable) (row : AuditLog) (h : ∀ old ∈ t.rows, old.id < row.id) : AuditTable where
  rows := t.rows ++ [row]
  sorted := by
    rw [List.pairwise_append]
    refine ⟨t.sorted, List.pairwise_singleton _ _, fun old hold new hnew => ?_⟩
    rw [List.mem_singleton.mp hnew]
    exact h old hold

/-- The primary key that an insertion gets, after `gap` others have been taken from the sequence in vain. -/
def AuditDb.nextId (db : AuditDb) (gap : ℕ) : ℕ := db.sequence + 1 + gap

theorem AuditDb.lt_nextId (db : AuditDb) (gap : ℕ) : ∀ old ∈ db.rows, old.id < db.nextId gap := by
  intro old hold
  have hle := db.le_sequence old hold
  unfold nextId
  omega

/-- The database after a row with the next primary key has been inserted. -/
def AuditDb.insert (db : AuditDb) (gap : ℕ) (row : AuditLog) (h : row.id = db.nextId gap) : AuditDb where
  toAuditTable := db.toAuditTable.add row (by rw [h]; exact db.lt_nextId gap)
  sequence := db.nextId gap
  le_sequence := fun row' hrow' => by
    rcases List.mem_append.mp hrow' with hold | hnew
    · exact (db.lt_nextId gap row' hold).le
    · rw [List.mem_singleton.mp hnew, h]

/-- A table that holds nothing. -/
def AuditTable.empty : AuditTable := ⟨[], List.Pairwise.nil⟩

/-- The first rows of a table. -/
def AuditTable.first (t : AuditTable) (k : ℕ) : AuditTable where
  rows := t.rows.take k
  sorted := t.sorted.sublist (List.take_sublist k t.rows)

/-- A database in which nothing has been written yet. -/
def AuditDb.empty : AuditDb where
  toAuditTable := AuditTable.empty
  sequence := 0
  le_sequence := fun _ hrow => by cases hrow

/-- The rows with a primary key above a number. -/
def AuditTable.above (t : AuditTable) (id : ℤ) : List AuditLog := t.rows.filter fun row => decide (id < row.id)

end StratTrader.Audit
