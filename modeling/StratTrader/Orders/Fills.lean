import StratTrader.Foundation.Atomic
import StratTrader.Foundation.Streams
import StratTrader.Orders.Ingest

/-!
# The fill streams

The consumer side of `orders/fills.py`: `drain_stream` with `_process_message`, and
`sweep_all_streams`. Redis is a map from keys to streams and counters, and every command
sent to it, and every call of `ingest_fill_event`, is one atomic action of the program,
so that a crash may come between any two.

What an action may run into is part of the environment of a run: any call of ingestion,
any use of the attempts counter and any append to the dead-letter stream may fail, before
its effect or after it. Exceptions that the code does not catch end the program.

A world carries the history of what has happened, which no program reads: which messages
had their ingestion committed, were dead-lettered, acknowledged or dropped from the
stream before they were delivered, which executions moved a position, and which streams
were read.

## Honest scope

A message's number stands for its Redis identifier, in the same order. What
`wire_to_fill(json.loads(…))` makes of a text is a parameter, so that any text may be
poison. The counter's time to live is not a clock: a counter may vanish at any time, which
is a matter of the runs. Metrics and logs are left out. `XACK` and `DEL` fail only by a
crash, since an exception there ends the program too.
-/

namespace StratTrader.Orders

open StratTrader.Brokers StratTrader.Foundation

/-! ### Keys -/

/-- `_STREAM_PREFIX`. -/
def streamPrefix := "fills:user:"
/-- `_DEAD_SUFFIX`. -/
def deadSuffix := ":dead"
/-- `_ATTEMPTS_SUFFIX`. -/
def attemptsSuffix := ":attempts:"

/-- `_stream_key`. -/
def streamKey (userId : String) : String := streamPrefix ++ userId

/-- `_dead_stream_key`. -/
def deadStreamKey (userId : String) : String := streamPrefix ++ userId ++ deadSuffix

/-- `_attempts_key`. -/
def attemptsKey (userId : String) (msgId : ℕ) : String :=
  streamPrefix ++ userId ++ attemptsSuffix ++ toString msgId

/-! ### Redis -/

/-- The fields of a stream entry. -/
abbrev Fields := List (String × String)

/-- What is stored under a key. -/
inductive Value where
  /-- A stream. -/
  | stream (s : Stream Fields)
  /-- A string that `INCR` counts with. -/
  | counter (n : ℕ)

/-- Redis: what is stored under the keys. -/
abbrev Redis := String → Option Value

/-- `maxlen` of every `XADD`. -/
def maxlen := 10000

/-- The stream under a key, to append to; a key without a value is an empty stream. -/
def streamAt (redis : Redis) (key : String) : Option (Stream Fields) :=
  match redis key with
  | none => some .empty
  | some (.stream s) => some s
  | some (.counter _) => none

/-! ### The world -/

/-- What has happened, which no program reads. A message is named by its stream and number. -/
structure History where
  /-- The messages whose ingestion committed. -/
  committed : List (String × ℕ) := []
  /-- The messages appended to a dead-letter stream. -/
  deadLettered : List (String × ℕ) := []
  /-- The messages acknowledged. -/
  acked : List (String × ℕ) := []
  /-- The messages dropped from their stream before they were delivered. -/
  skipped : List (String × ℕ) := []
  /-- The executions that moved a position. -/
  moves : List (AccountId × String) := []
  /-- The streams read from, once for every drain. -/
  reads : List String := []

/-- Redis, our database, and what has happened. -/
structure World where
  /-- Redis. -/
  redis : Redis
  /-- Our database. -/
  db : Db
  /-- What has happened. -/
  history : History := {}

/-- The world before the first message. -/
def World.start (db : Db) : World where
  redis := fun _ => none
  db := db

/-- Store a value under a key, or remove the key. -/
def World.set (w : World) (key : String) (value : Option Value) : World :=
  { w with redis := Function.update w.redis key value }

/-- `XADD key … MAXLEN ~ 10000`, dropping up to `drop` entries; `none` is a `WRONGTYPE`. -/
def World.xadd (w : World) (key : String) (fields : Fields) (drop : ℕ) : Option World :=
  (streamAt w.redis key).map fun s =>
    { w.set key (some (.stream (s.append fields maxlen drop))) with
      history := { w.history with
        skipped := w.history.skipped ++ (s.skippedBy maxlen drop).map fun m => (key, m) } }

/-- How an operation fails, if it does: an exception comes before its effect or after it. -/
inductive Fault where
  /-- It does not fail. -/
  | none
  /-- It fails without effect. -/
  | before
  /-- It takes effect, and the caller sees an exception. -/
  | after
  deriving DecidableEq

/-- The environment of a run. -/
structure Env where
  /-- The clock. -/
  clk : Clock
  /-- `wire_to_fill(json.loads(text))`: `none` is an exception. -/
  wireToFill : String → Option FillEvent
  /-- Whether ingesting a message fails for a reason of its own. -/
  ingestFault : ℕ → Fault
  /-- Whether counting an attempt at a message fails. -/
  incrFault : ℕ → Fault
  /-- Whether setting the counter's time to live fails. -/
  expireFault : ℕ → Fault
  /-- Whether dead-lettering a message fails. -/
  deadLetterFault : ℕ → Fault
  /-- How many entries an append to a dead-letter stream may drop. -/
  deadLetterDrop : ℕ
  /-- `count`. -/
  count : ℕ

/-! ### Ingesting a message -/

/-- Whether a call of ingestion moved a position. -/
def IngestResult.moved : IngestResult → Bool
  | .ignored => false
  | .applied _ _ _ positionChanged => positionChanged

/-- The execution by which a call moved a position. -/
def moveOf (db : Db) (fill : FillEvent) (r : IngestResult) : Option (AccountId × String) :=
  if r.moved then
    (findOrder db fill).bind fun o => o.brokerAccount.map fun a => (a, fill.brokerExecId)
  else none

/-- The world after a call of `ingest_fill_event` for a message commits, if it does. -/
def World.ingest (w : World) (clk : Clock) (key : String) (msgId : ℕ) (fill : FillEvent) : Option World :=
  (ingestFillEvent clk fill w.db).map fun (db', r) =>
    { w with
      db := db'
      history := { w.history with
        committed := w.history.committed ++ [(key, msgId)]
        moves := w.history.moves ++ (moveOf w.db fill r).toList } }

/-- `ingest_fill_event(fill)`: whether it returns. -/
def ingestMessage (env : Env) (key : String) (msgId : ℕ) (fill : FillEvent) : Prog World Bool :=
  .atomic
    (fun w => if env.ingestFault msgId = .before then w
      else (w.ingest env.clk key msgId fill).getD w)
    fun w => env.ingestFault msgId = .none ∧ (w.ingest env.clk key msgId fill).isSome

/-! ### The consumer -/

/-- `_MAX_DELIVERIES`. -/
def maxDeliveries := 5

/-- `_ensure_group`: `false` is an exception other than `BUSYGROUP`. -/
def ensureGroup (key : String) : Prog World Bool :=
  .atomic
    (fun w => match streamAt w.redis key with
      | some s => if s.group.isSome then w else w.set key (some (.stream s.createGroup))
      | none => w)
    fun w => (streamAt w.redis key).isSome

/-- The stream under a key whose group exists. -/
def groupedAt (redis : Redis) (key : String) : Option (Stream Fields) :=
  match redis key with
  | some (.stream s) => if s.group.isSome then some s else none
  | some (.counter _) => none
  | none => none

/-- `XREADGROUP … 0`: the pending messages; an entry that is gone has no fields. -/
def readPending (env : Env) (key : String) : Prog World (Option (List (ℕ × Fields))) :=
  .atomic
    (fun w => if (groupedAt w.redis key).isSome then
        { w with history := { w.history with reads := w.history.reads ++ [key] } }
      else w)
    fun w => (groupedAt w.redis key).map fun s =>
      (s.pending.take env.count).map fun m => (m, (s.entry? m).getD [])

/-- `XREADGROUP … >`: messages not delivered before. -/
def readNew (env : Env) (key : String) : Prog World (Option (List (ℕ × Fields))) :=
  .atomic
    (fun w => match groupedAt w.redis key with
      | some s => w.set key (some (.stream (s.deliver (s.available env.count))))
      | none => w)
    fun w => (groupedAt w.redis key).map fun s =>
      (List.range' s.next (s.available env.count)).map fun m => (m, (s.entry? m).getD [])

/-- `XACK`. -/
def xack (key : String) (msgId : ℕ) : Prog World PUnit :=
  .write fun w => match w.redis key with
    | some (.stream s) =>
      { w.set key (some (.stream (s.ack msgId))) with
        history := { w.history with acked := w.history.acked ++ [(key, msgId)] } }
    | some (.counter _) => w
    | none => w

/-- `DEL`. -/
def delete (key : String) : Prog World PUnit := .write fun w => w.set key none

/-- `_dead_letter`: `false` is an exception. -/
def deadLetter (env : Env) (userId : String) (msgId : ℕ) (data : Fields) (reason : String) :
    Prog World Bool :=
  let fields := [("data", (data.lookup "data").getD ""), ("reason", reason), ("src_id", toString msgId)]
  .atomic
    (fun w => if env.deadLetterFault msgId = .before then w
      else match w.xadd (deadStreamKey userId) fields env.deadLetterDrop with
        | some w' =>
          { w' with history := { w'.history with
              deadLettered := w'.history.deadLettered ++ [(streamKey userId, msgId)] } }
        | none => w)
    fun w => env.deadLetterFault msgId = .none ∧
      (w.xadd (deadStreamKey userId) fields env.deadLetterDrop).isSome

/-- `INCR`: the new value; a missing key counts from 0. -/
def incr (redis : Redis) (key : String) : Option ℕ :=
  match redis key with
  | none => some 1
  | some (.counter n) => some (n + 1)
  | some (.stream _) => none

/-- The attempts at a message so far: 1 when they cannot be counted. -/
def countAttempt (env : Env) (userId : String) (msgId : ℕ) : Prog World ℕ := do
  let attempts ← .atomic
    (fun w => match incr w.redis (attemptsKey userId msgId) with
      | some n => if env.incrFault msgId = .before then w
        else w.set (attemptsKey userId msgId) (some (.counter n))
      | none => w)
    fun w => if env.incrFault msgId = .none then incr w.redis (attemptsKey userId msgId) else none
  match attempts with
  | some n => if env.expireFault msgId = .none then return n else return 1
  | none => return 1

/-- `_process_message`: whether the message is settled. -/
def processMessage (env : Env) (userId : String) (key : String) (msgId : ℕ) (data : Fields) :
    Prog World Bool := do
  match (data.lookup "data").bind env.wireToFill with
  | none =>
    -- poison: it can never be parsed
    let sent ← deadLetter env userId msgId data "poison"
    if !sent then return false
    xack key msgId
    return true
  | some fill =>
    let ingested ← ingestMessage env key msgId fill
    if !ingested then
      let attempts ← countAttempt env userId msgId
      if maxDeliveries ≤ attempts then
        let sent ← deadLetter env userId msgId data "max_retries"
        if !sent then return false
        xack key msgId
        delete (attemptsKey userId msgId)
        return true
      return false
    xack key msgId
    delete (attemptsKey userId msgId)
    return true

/-- The messages of one read, one after the other: how many are settled. -/
def processMessages (env : Env) (userId : String) (key : String) :
    List (ℕ × Fields) → Prog World ℕ
  | [] => return 0
  | (msgId, data) :: entries => do
    let settled ← processMessage env userId key msgId data
    let n ← processMessages env userId key entries
    return if settled then n + 1 else n

/-- `drain_stream`: how many messages were settled; `none` is an exception. -/
def drainStream (env : Env) (userId : String) : Prog World (Option ℕ) := do
  let key := streamKey userId
  let ok ← ensureGroup key
  if !ok then return none
  let some pending ← readPending env key | return none
  let replayed ← processMessages env userId key pending
  let some new ← readNew env key | return none
  let processed ← processMessages env userId key new
  return some (replayed + processed)

/-- `key[len(_STREAM_PREFIX):]`. -/
def userIdOf (key : String) : String := String.ofList (key.toList.drop streamPrefix.length)

/-- `sweep_all_streams` over the keys that the scan gives, in their order. -/
def sweepAllStreams (env : String → Env) : List String → Prog World (Option ℕ)
  | [] => return some 0
  | key :: keys => do
    let some n ← drainStream (env key) (userIdOf key) | return none
    let some total ← sweepAllStreams env keys | return none
    return some (n + total)

/-! ### The three families of keys -/

/-- A user's identifier: without a colon, as a number or a UUID is. -/
def PlainId (userId : String) : Prop := ':' ∉ userId.toList

theorem streamKey_inj {u v : String} : streamKey u = streamKey v ↔ u = v := by
  unfold streamKey
  constructor
  · intro h
    have := congrArg String.toList h
    rw [String.toList_append, String.toList_append, List.append_cancel_left_eq] at this
    exact String.toList_inj.mp this
  · exact fun h => h ▸ rfl

/-- An identifier that contains the suffix of another family is not plain. -/
theorem streamKey_ne_of_mem {u v : String} (hu : PlainId u) (h : ':' ∈ v.toList) :
    streamKey u ≠ streamKey v := by
  intro e
  rw [streamKey_inj] at e
  exact hu (e ▸ h)

theorem deadStreamKey_eq (userId : String) : deadStreamKey userId = streamKey (userId ++ deadSuffix) := by
  simp [deadStreamKey, streamKey, String.append_assoc]

theorem attemptsKey_eq (userId : String) (msgId : ℕ) :
    attemptsKey userId msgId = streamKey (userId ++ attemptsSuffix ++ toString msgId) := by
  simp [attemptsKey, streamKey, String.append_assoc]

/-- A plain user's stream is nobody's dead-letter stream. -/
theorem streamKey_ne_deadStreamKey {u : String} (hu : PlainId u) (v : String) :
    streamKey u ≠ deadStreamKey v := by
  rw [deadStreamKey_eq]
  apply streamKey_ne_of_mem hu
  rw [String.toList_append]
  exact List.mem_append_right _ (by decide)

/-- A plain user's stream is nobody's attempts counter. -/
theorem streamKey_ne_attemptsKey {u : String} (hu : PlainId u) (v : String) (m : ℕ) :
    streamKey u ≠ attemptsKey v m := by
  rw [attemptsKey_eq]
  apply streamKey_ne_of_mem hu
  rw [String.toList_append, String.toList_append]
  exact List.mem_append_left _ (List.mem_append_right _ (by decide))

/-- The identifier a sweep takes from a key leads back to the key. -/
theorem userIdOf_streamKey (userId : String) : userIdOf (streamKey userId) = userId := by
  unfold userIdOf streamKey
  rw [String.toList_append, String.length, List.drop_left, String.ofList_toList]

end StratTrader.Orders
