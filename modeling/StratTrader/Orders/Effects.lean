import StratTrader.Orders.Fills

/-!
# What the stream consumer does

The programs of `StratTrader.Orders.Fills` run beside each other, beside publishers and
other writers, and may be killed between two actions. This module says once what an
action of any of them can do to the world (`Effect`), and that a drain and a sweep do
nothing else, whatever fails in them. Every invariant of the consumer is then a case
analysis over `Effect`.

What the code relies on is the order of its actions: a message is acknowledged only by a
program that has seen its ingestion return or its dead-letter append return. This is what
a program knows at that point, and nothing that happens elsewhere makes it false.

The users whose streams are touched are those of a predicate `P`: all there are, for what
holds of every run, and plain identifiers, for what holds before any sweep.

## What is proved

* `drainStream_guarantees`, `sweepAllStreams_guarantees`: drains and sweeps do nothing but
  effects and reads.
* `stable_settled`: a message that is settled stays settled.
-/

namespace StratTrader.Orders

open StratTrader.Brokers StratTrader.Foundation

/-! ### All that can happen -/

/-- `publish_fill`: an exception is swallowed. Ingestion in place is for tests. -/
def publishFill (fault : Fault) (userId : String) (text : String) (drop : ℕ) (w : World) : World :=
  if fault = .before then w else (w.xadd (streamKey userId) [("data", text)] drop).getD w

/-- The message's ingestion has committed, or it has been dead-lettered. -/
def Settled (key : String) (m : ℕ) (w : World) : Prop :=
  (key, m) ∈ w.history.committed ∨ (key, m) ∈ w.history.deadLettered

/-- No fill on record is removed. -/
def FillsGrow (db db' : Db) : Prop := ∀ k, (db.fills.find? k).isSome → (db'.fills.find? k).isSome

/-- What an action can do to the world, but for reading pending messages. -/
inductive Effect (P : String → Prop) : World → World → Prop where
  /-- Nothing. -/
  | same (w : World) : Effect P w w
  /-- The group of a stream is created. -/
  | createGroup {w : World} {userId : String} {s : Stream Fields} (hP : P userId)
    (h : streamAt w.redis (streamKey userId) = some s) (hg : s.group = none) :
    Effect P w (w.set (streamKey userId) (some (.stream s.createGroup)))
  /-- New messages are delivered. -/
  | deliver {w : World} {userId : String} {s : Stream Fields} (hP : P userId) (count : ℕ)
    (h : streamAt w.redis (streamKey userId) = some s) :
    Effect P w (w.set (streamKey userId) (some (.stream (s.deliver (s.available count)))))
  /-- A message's ingestion commits. -/
  | commit {w w' : World} {clk : Clock} {key : String} {m : ℕ} {fill : FillEvent}
    (h : w.ingest clk key m fill = some w') : Effect P w w'
  /-- A message is dead-lettered. -/
  | deadLetter {w w' : World} {userId : String} {m : ℕ} {fields : Fields} {drop : ℕ}
    (hP : P userId) (h : w.xadd (deadStreamKey userId) fields drop = some w') :
    Effect P w { w' with history := { w'.history with
      deadLettered := w'.history.deadLettered ++ [(streamKey userId, m)] } }
  /-- An attempt is counted, or the counter removed. -/
  | count {w : World} {userId : String} {m : ℕ} (hP : P userId) (value : Option ℕ) :
    Effect P w (w.set (attemptsKey userId m) (value.map .counter))
  /-- A message is acknowledged, after it has been settled. -/
  | ack {w : World} {userId : String} {m : ℕ} {s : Stream Fields} (hP : P userId)
    (h : w.redis (streamKey userId) = some (.stream s)) (hs : Settled (streamKey userId) m w) :
    Effect P w { w.set (streamKey userId) (some (.stream (s.ack m))) with
      history := { w.history with acked := w.history.acked ++ [(streamKey userId, m)] } }
  /-- A message is published. -/
  | publish {w w' : World} {userId : String} {fields : Fields} {drop : ℕ} (hP : P userId)
    (h : w.xadd (streamKey userId) fields drop = some w') : Effect P w w'
  /-- A counter vanishes: its time to live is over. -/
  | expire {w : World} {key : String} {n : ℕ} (h : w.redis key = some (.counter n)) :
    Effect P w (w.set key none)
  /-- Something else writes the database. -/
  | database (w : World) {db : Db} (h : FillsGrow w.db db) : Effect P w { w with db := db }

/-- What the environment of the consumer does. -/
inductive Outside (P : String → Prop) : World → World → Prop where
  /-- A fill is published, or fails to be. -/
  | publish (w : World) (fault : Fault) (userId : String) (hP : P userId) (text : String) (drop : ℕ) :
    Outside P w (publishFill fault userId text drop w)
  /-- A counter vanishes. -/
  | expire {w : World} {key : String} {n : ℕ} (h : w.redis key = some (.counter n)) :
    Outside P w (w.set key none)
  /-- Something else writes the database. -/
  | database (w : World) {db : Db} (h : FillsGrow w.db db) : Outside P w { w with db := db }

/-- What happens in a run: an effect, or a read of pending messages. -/
inductive Change (P : String → Prop) : World → World → Prop where
  /-- An effect. -/
  | effect {w w' : World} (h : Effect P w w') : Change P w w'
  /-- Pending messages are read. -/
  | read (w : World) (key : String) :
    Change P w { w with history := { w.history with reads := w.history.reads ++ [key] } }

theorem Outside.change {P : String → Prop} {w w' : World} (h : Outside P w w') : Change P w w' := by
  cases h with
  | publish fault userId hP text drop =>
    unfold publishFill
    split_ifs
    · exact .effect (.same w)
    · cases hx : w.xadd (streamKey userId) [("data", text)] drop with
      | none => exact .effect (.same w)
      | some w' => exact .effect (.publish hP hx)
  | expire h => exact .effect (.expire h)
  | database h => exact .effect (.database w h)

/-! ### What is remembered -/

theorem World.xadd_eq {w w' : World} {key : String} {fields : Fields} {drop : ℕ}
    (h : w.xadd key fields drop = some w') :
    ∃ s, streamAt w.redis key = some s ∧
      w' = { w.set key (some (.stream (s.append fields maxlen drop))) with
        history := { w.history with
          skipped := w.history.skipped ++ (s.skippedBy maxlen drop).map fun m => (key, m) } } := by
  unfold World.xadd at h
  obtain ⟨s, hs, rfl⟩ := Option.map_eq_some_iff.mp h
  exact ⟨s, hs, rfl⟩

theorem World.xadd_history {w w' : World} {key : String} {fields : Fields} {drop : ℕ}
    (h : w.xadd key fields drop = some w') :
    w'.history.committed = w.history.committed ∧ w'.history.deadLettered = w.history.deadLettered ∧
      w'.history.acked = w.history.acked ∧ w'.history.moves = w.history.moves ∧
      w'.history.reads = w.history.reads ∧ w'.db = w.db := by
  obtain ⟨s, -, rfl⟩ := World.xadd_eq h
  exact ⟨rfl, rfl, rfl, rfl, rfl, rfl⟩

theorem World.ingest_eq {w w' : World} {clk : Clock} {key : String} {m : ℕ} {fill : FillEvent}
    (h : w.ingest clk key m fill = some w') :
    ∃ db' r, ingestFillEvent clk fill w.db = some (db', r) ∧ w' = { w with
      db := db'
      history := { w.history with
        committed := w.history.committed ++ [(key, m)]
        moves := w.history.moves ++ (moveOf w.db fill r).toList } } := by
  unfold World.ingest at h
  obtain ⟨⟨db', r⟩, hr, rfl⟩ := Option.map_eq_some_iff.mp h
  exact ⟨db', r, hr, rfl⟩

/-- No effect reads pending messages. -/
theorem Effect.reads {P : String → Prop} {w w' : World} (h : Effect P w w') :
    w'.history.reads = w.history.reads := by
  cases h with
  | commit h =>
    obtain ⟨db', r, -, rfl⟩ := World.ingest_eq h
    rfl
  | deadLetter _ h => exact (World.xadd_history h).2.2.2.2.1
  | publish _ h => exact (World.xadd_history h).2.2.2.2.1
  | same | createGroup | deliver | count | ack | expire | database => rfl

/-- A message that is settled stays settled. -/
theorem stable_settled (P : String → Prop) (key : String) (m : ℕ) :
    Prog.Stable (Change P) (Settled key m) := by
  rintro w w' (h | _) hs
  · cases h with
    | commit h =>
      obtain ⟨db', r, -, rfl⟩ := World.ingest_eq h
      exact hs.imp (fun h => List.mem_append_left _ h) id
    | deadLetter _ h =>
      obtain ⟨hc, hd, -⟩ := World.xadd_history h
      refine hs.imp (fun hm => ?_) (fun hm => List.mem_append_left _ ?_)
      · exact hc ▸ hm
      · exact hd ▸ hm
    | publish _ h =>
      obtain ⟨hc, hd, -⟩ := World.xadd_history h
      exact hs.imp (fun hm => hc ▸ hm) (fun hm => hd ▸ hm)
    | same | createGroup | deliver | count | ack | expire | database => exact hs
  · exact hs

/-- What a program knows of a message when an operation has returned. -/
theorem stable_settledIf (P : String → Prop) (key : String) (m : ℕ) (ok : Bool) :
    Prog.Stable (Change P) fun w => ok = true → Settled key m w :=
  fun w w' h hs hok => stable_settled P key m w w' h (hs hok)

/-! ### What a drain does -/

/-- Nothing is known. -/
abbrev Unknown : World → Prop := fun _ => True

/-- Knowing `F` at its start the program has effects only, and it knows `Q` at its end. -/
abbrev Does (P : String → Prop) {α : Type} (p : Prog World α) (F : World → Prop)
    (Q : α → World → Prop) : Prop :=
  p.Guarantees (Change P) (Effect P) Q F

theorem streamAt_of_groupedAt {redis : Redis} {key : String} {s : Stream Fields}
    (h : groupedAt redis key = some s) : streamAt redis key = some s := by
  unfold groupedAt at h
  unfold streamAt
  cases hv : redis key with
  | none => simp [hv] at h
  | some v =>
    cases v with
    | counter n => simp [hv] at h
    | stream t =>
      simp only [hv] at h
      split_ifs at h
      exact h

section
variable {P : String → Prop} (env : Env) {userId : String} (hP : P userId) (m : ℕ)

/-- A result from which nothing is known. -/
theorem does_ret {α : Type} (a : α) (F : World → Prop) :
    Does P (.ret a) F fun _ => Unknown :=
  Prog.Guarantees.ret fun _ _ => trivial

include hP

theorem ensureGroup_does : Does P (ensureGroup (streamKey userId)) Unknown fun _ => Unknown := by
  refine Prog.Guarantees.atomic (fun w _ => ?_) (fun _ => Prog.stable_true _) fun _ _ => trivial
  cases hs : streamAt w.redis (streamKey userId) with
  | none => exact .same w
  | some s =>
    cases hg : s.group with
    | none => simpa [hg] using Effect.createGroup hP hs hg
    | some g => simpa [hg] using Effect.same (P := P) w

theorem readNew_does : Does P (readNew env (streamKey userId)) Unknown fun _ => Unknown := by
  refine Prog.Guarantees.atomic (fun w _ => ?_) (fun _ => Prog.stable_true _) fun _ _ => trivial
  cases hs : groupedAt w.redis (streamKey userId) with
  | none => exact .same w
  | some s => exact .deliver hP env.count (streamAt_of_groupedAt hs)

/-- A message is acknowledged only where it is known to be settled. -/
theorem xack_does :
    Does P (xack (streamKey userId) m) (Settled (streamKey userId) m) fun _ => Unknown := by
  refine Prog.Guarantees.atomic (fun w hw => ?_) (fun _ => Prog.stable_true _) fun _ _ => trivial
  match hv : w.redis (streamKey userId) with
  | none => exact .same w
  | some (.counter n) => exact .same w
  | some (.stream s) => exact .ack hP hv hw

theorem delete_does : Does P (delete (attemptsKey userId m)) Unknown fun _ => Unknown :=
  Prog.Guarantees.atomic (fun _ _ => .count hP none) (fun _ => Prog.stable_true _) fun _ _ => trivial

/-- When a dead-letter append has returned, the message is settled. -/
theorem deadLetter_does (data : Fields) (reason : String) :
    Does P (deadLetter env userId m data reason) Unknown
      fun sent w => sent = true → Settled (streamKey userId) m w := by
  refine Prog.Guarantees.atomic (fun w _ => ?_) (stable_settledIf P _ m) fun w _ hok => ?_
  · split_ifs
    · exact .same w
    · split
      · exact .deadLetter hP ‹_›
      · exact .same w
  · simp only [decide_eq_true_eq] at hok
    obtain ⟨hf, hi⟩ := hok
    obtain ⟨w', hw'⟩ := Option.isSome_iff_exists.mp hi
    rw [if_neg (by simp [hf]), hw']
    exact Or.inr (List.mem_append_right _ (List.mem_singleton_self _))

omit hP in
/-- When an ingestion has returned, the message is settled. -/
theorem ingestMessage_does (key : String) (fill : FillEvent) :
    Does P (ingestMessage env key m fill) Unknown fun ok w => ok = true → Settled key m w := by
  refine Prog.Guarantees.atomic (fun w _ => ?_) (stable_settledIf P key m) fun w _ hok => ?_
  · split_ifs
    · exact .same w
    · cases hi : w.ingest env.clk key m fill with
      | none => exact .same w
      | some w' => exact .commit hi
  · simp only [decide_eq_true_eq] at hok
    obtain ⟨hf, hi⟩ := hok
    obtain ⟨w', hw'⟩ := Option.isSome_iff_exists.mp hi
    obtain ⟨db', r, -, rfl⟩ := World.ingest_eq hw'
    rw [if_neg (by simp [hf]), hw']
    exact Or.inl (List.mem_append_right _ (List.mem_singleton_self _))

theorem countAttempt_does : Does P (countAttempt env userId m) Unknown fun _ => Unknown := by
  refine Prog.Guarantees.bind (Q := fun _ => Unknown) ?_ fun attempts => ?_
  · refine Prog.Guarantees.atomic (fun w _ => ?_) (fun _ => Prog.stable_true _) fun _ _ => trivial
    split
    · split_ifs
      · exact .same w
      · exact .count hP (some _)
    · exact .same w
  · split
    · split_ifs <;> exact does_ret _ _
    · exact does_ret _ _

/-- The last actions for a message that is settled. -/
theorem acknowledge_does :
    Does P (do
      xack (streamKey userId) m
      delete (attemptsKey userId m)
      return true) (Settled (streamKey userId) m) fun _ => Unknown :=
  Prog.Guarantees.bind (xack_does hP m) fun _ =>
    Prog.Guarantees.bind (delete_does hP m) fun _ => does_ret _ _

theorem processMessage_does (data : Fields) :
    Does P (processMessage env userId (streamKey userId) m data) Unknown fun _ => Unknown := by
  unfold processMessage
  split
  · -- poison
    refine (deadLetter_does env hP m data "poison").bind fun sent => ?_
    cases sent with
    | false => exact does_ret _ _
    | true => exact Prog.Guarantees.bind ((xack_does hP m).mono fun w h => h rfl) fun _ => does_ret _ _
  · rename_i fill _
    refine (ingestMessage_does env m (streamKey userId) fill).bind fun ingested => ?_
    cases ingested with
    | true => exact (acknowledge_does hP m).mono fun w h => h rfl
    | false =>
      refine Prog.Guarantees.bind ((countAttempt_does env hP m).mono fun _ _ => trivial)
        fun attempts => ?_
      split_ifs
      · refine (deadLetter_does env hP m data "max_retries").bind fun sent => ?_
        cases sent with
        | false => exact does_ret _ _
        | true => exact (acknowledge_does hP m).mono fun w h => h rfl
      · exact does_ret _ _

theorem processMessages_does (entries : List (ℕ × Fields)) :
    Does P (processMessages env userId (streamKey userId) entries) Unknown fun _ => Unknown := by
  induction entries with
  | nil => exact does_ret _ _
  | cons entry entries ih =>
    refine (processMessage_does env hP entry.1 entry.2).bind fun settled => ?_
    exact ih.bind fun n => does_ret _ _

omit hP in
theorem readPending_guarantees (key : String) :
    (readPending env key).Guarantees (Change P) (Change P) (fun _ => Unknown) Unknown := by
  refine Prog.Guarantees.atomic (fun w _ => ?_) (fun _ => Prog.stable_true _) fun _ _ => trivial
  split_ifs
  · exact .read w key
  · exact .effect (.same w)

/-- **A drain does nothing but effects and a read**, whatever fails in it. -/
theorem drainStream_guarantees :
    (drainStream env userId).Guarantees (Change P) (Change P) (fun _ => Unknown) Unknown := by
  have heff : ∀ w w', Effect P w w' → Change P w w' := fun _ _ => .effect
  refine ((ensureGroup_does hP).weaken heff).bind fun ok => ?_
  cases ok with
  | false => exact Prog.Guarantees.ret fun _ _ => trivial
  | true =>
    refine (readPending_guarantees env (streamKey userId)).bind fun pending => ?_
    cases pending with
    | none => exact Prog.Guarantees.ret fun _ _ => trivial
    | some pending =>
      refine ((processMessages_does env hP pending).weaken heff).bind fun replayed => ?_
      refine ((readNew_does env hP).weaken heff).bind fun new => ?_
      cases new with
      | none => exact Prog.Guarantees.ret fun _ _ => trivial
      | some new =>
        refine ((processMessages_does env hP new).weaken heff).bind fun processed => ?_
        exact Prog.Guarantees.ret fun _ _ => trivial

end

/-- A sweep does nothing but effects and reads. It takes the user from any key it is given. -/
theorem sweepAllStreams_guarantees {P : String → Prop} (env : String → Env) (keys : List String)
    (hP : ∀ key ∈ keys, P (userIdOf key)) :
    (sweepAllStreams env keys).Guarantees (Change P) (Change P) (fun _ => Unknown) Unknown := by
  induction keys with
  | nil => exact Prog.Guarantees.ret fun _ _ => trivial
  | cons key keys ih =>
    refine (drainStream_guarantees (env key) (hP key List.mem_cons_self)).bind fun n => ?_
    cases n with
    | none => exact Prog.Guarantees.ret fun _ _ => trivial
    | some n =>
      refine (ih fun key hkey => hP key (List.mem_cons_of_mem _ hkey)).bind fun total => ?_
      cases total <;> exact Prog.Guarantees.ret fun _ _ => trivial

/-- Any user at all. -/
abbrev AnyUser : String → Prop := fun _ => True

/-! ### What stays of Redis -/

@[simp] theorem streamAt_set_self (w : World) (key : String) (s : Stream Fields) :
    streamAt (w.set key (some (.stream s))).redis key = some s := by
  simp [streamAt, World.set]

theorem redis_set_ne (w : World) {key key' : String} (h : key ≠ key') (value : Option Value) :
    (w.set key' value).redis key = w.redis key :=
  Function.update_of_ne h _ _

theorem streamAt_set_ne (w : World) {key key' : String} (h : key ≠ key') (value : Option Value) :
    streamAt (w.set key' value).redis key = streamAt w.redis key := by
  simp only [streamAt, redis_set_ne w h]

end StratTrader.Orders
