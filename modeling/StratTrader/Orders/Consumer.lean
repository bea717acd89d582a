import StratTrader.Orders.Effects

/-!
# No fill is lost by the stream consumer

Any number of drains and sweeps run at once, with publishers and other writers beside
them; any of them may be killed between two actions, and their operations fail as they
like. A message has been accounted for when it is waiting in its stream, pending,
dead-lettered, or acknowledged after its ingestion committed. One thing breaks this: an
append may push a message out of the stream that has not been delivered yet.

## What is proved

* `MovedOnce.effect`: no execution that has moved a position moves it again.
* `Lane.effect`: every effect keeps every message of a user's stream accounted for.
* `nothing_lost`: every message of a user's stream is accounted for in every state, but for
  messages that at least `maxlen` newer ones have pushed out undelivered; none is
  acknowledged without a commit or a dead-letter append; and no execution moves a position
  twice.
-/

namespace StratTrader.Orders

open StratTrader.Brokers StratTrader.Foundation

/-! ### Executions that move a position -/

/-- Booking an execution records it if it is new, and does nothing if it is not. -/
theorem bookExecution_created {clk : Clock} {fill : FillEvent} {o : Order} {db db' : Db}
    {created : Bool} (h : bookExecution clk fill o db = some (db', created)) :
    (created = false ∧ db' = db) ∨
    (created = true ∧ ∃ a, o.brokerAccount = some a ∧
      db.fills.find? (some a, fill.brokerExecId) = none ∧
      ∃ f, f.key = (some a, fill.brokerExecId) ∧ db'.fills = db.fills.put f) := by
  unfold bookExecution at h
  by_cases hexec : isExecution fill = true
  · simp only [hexec, if_true] at h
    cases hts : parseTs clk fill.ts with
    | none => simp [hts] at h
    | some ts =>
      simp only [hts] at h
      cases hf : db.fills.find? (o.brokerAccount, fill.brokerExecId) with
      | some f =>
        simp only [hf, Option.some.injEq, Prod.mk.injEq] at h
        exact Or.inl ⟨h.2.symm, h.1.symm⟩
      | none =>
        simp only [hf] at h
        cases ha : o.brokerAccount with
        | none => simp [ha] at h
        | some a =>
          simp only [ha, Option.some.injEq, Prod.mk.injEq] at h
          exact Or.inr ⟨h.2.symm, a, rfl, ha ▸ hf, _, rfl, by rw [← h.1]⟩
  · simp only [hexec, Bool.false_eq_true, if_false, Option.some.injEq, Prod.mk.injEq] at h
    exact Or.inl ⟨h.2.symm, h.1.symm⟩

/-- What a committed ingestion moves: nothing, and then it changes no fill and no position; or the
position of an execution not on record, and then it records it. -/
theorem moveOf_cases {clk : Clock} {fill : FillEvent} {db db' : Db} {r : IngestResult}
    (h : ingestFillEvent clk fill db = some (db', r)) :
    (moveOf db fill r = none ∧ db'.fills = db.fills ∧ db'.positions = db.positions) ∨
    (∃ k f, moveOf db fill r = some k ∧ db.fills.find? (some k.1, k.2) = none ∧
      f.key = (some k.1, k.2) ∧ db'.fills = db.fills.put f) := by
  unfold ingestFillEvent at h
  cases ho : findOrder db fill with
  | none =>
    simp only [ho, Option.some.injEq, Prod.mk.injEq] at h
    obtain ⟨rfl, rfl⟩ := h
    exact Or.inl ⟨rfl, rfl, rfl⟩
  | some o =>
    simp only [ho] at h
    cases hb : bookExecution clk fill o db with
    | none => simp [hb] at h
    | some p =>
      obtain ⟨db'', created⟩ := p
      simp only [hb, Option.some.injEq, Prod.mk.injEq] at h
      obtain ⟨rfl, rfl⟩ := h
      rcases bookExecution_created hb with ⟨rfl, rfl⟩ | ⟨rfl, a, ha, hnew, f, hk, hf⟩
      · exact Or.inl ⟨rfl, rfl, rfl⟩
      · refine Or.inr ⟨(a, fill.brokerExecId), f, ?_, hnew, hk, hf⟩
        simp [moveOf, IngestResult.moved, ho, ha]

theorem fillsGrow_put {db db' : Db} {f : Fill} (h : db'.fills = db.fills.put f) : FillsGrow db db' :=
  fun _ hk => h ▸ Table.isSome_find?_put f hk

/-- Every execution that has moved a position is on record, and has moved it once. -/
structure MovedOnce (w : World) : Prop where
  once : w.history.moves.Nodup
  recorded : ∀ k ∈ w.history.moves, (w.db.fills.find? (some k.1, k.2)).isSome

/-- Nothing that happens moves a position by an execution that has moved it before. -/
theorem MovedOnce.effect {P : String → Prop} {w w' : World} (h : MovedOnce w) (he : Effect P w w') : MovedOnce w' := by
  cases he with
  | commit hi =>
    obtain ⟨db', r, hr, rfl⟩ := World.ingest_eq hi
    rcases moveOf_cases hr with ⟨hm, hf, -⟩ | ⟨k, f, hm, hnew, hk, hf⟩
    · constructor
      · simpa [hm] using h.once
      · simpa [hm, hf] using h.recorded
    · have hgrow := fillsGrow_put hf
      have hnotin : k ∉ w.history.moves := fun hin => by
        have := h.recorded k hin
        rw [hnew] at this
        cases this
      constructor
      · simp only [hm, Option.toList_some, List.nodup_append]
        refine ⟨h.once, List.nodup_singleton k, fun a ha b hb => ?_⟩
        rw [List.mem_singleton.mp hb]
        exact fun e => hnotin (e ▸ ha)
      · intro j hj
        simp only [hm, Option.toList_some, List.mem_append, List.mem_singleton] at hj
        rcases hj with hj | rfl
        · exact hgrow _ (h.recorded j hj)
        · simp only [hf]
          rw [← hk, Table.find?_put_self]
          rfl
  | deadLetter _ hx =>
    obtain ⟨-, -, -, hm, -, hdb⟩ := World.xadd_history hx
    exact ⟨hm ▸ h.once, hm ▸ hdb ▸ h.recorded⟩
  | publish _ hx =>
    obtain ⟨-, -, -, hm, -, hdb⟩ := World.xadd_history hx
    exact ⟨hm ▸ h.once, hm ▸ hdb ▸ h.recorded⟩
  | database hg => exact ⟨h.once, fun k hk => hg _ (h.recorded k hk)⟩
  | same | createGroup | deliver | count | ack | expire => exact ⟨h.once, h.recorded⟩

theorem MovedOnce.change {P : String → Prop} {w w' : World} (h : MovedOnce w) (he : Change P w w') :
    MovedOnce w' := by
  cases he with
  | effect he => exact h.effect he
  | read => exact ⟨h.once, h.recorded⟩

/-! ### Messages -/

/-- The five places a message of a stream can be in. -/
def Accounted (key : String) (s : Stream Fields) (h : History) (m : ℕ) : Prop :=
  s.Waiting m ∨ m ∈ s.pending ∨ (key, m) ∈ h.deadLettered ∨
    ((key, m) ∈ h.acked ∧ (key, m) ∈ h.committed) ∨ (key, m) ∈ h.skipped

/-- The stream of a user, with every message accounted for. -/
structure Lane (u : String) (s : Stream Fields) (w : World) : Prop where
  stored : streamAt w.redis (streamKey u) = some s
  cursor : s.delivered ≤ s.lastId
  accounted : ∀ m, 1 ≤ m → m ≤ s.lastId → Accounted (streamKey u) s w.history m
  acked : ∀ m, (streamKey u, m) ∈ w.history.acked → Settled (streamKey u) m w
  skipped : ∀ m, (streamKey u, m) ∈ w.history.skipped → m + maxlen ≤ s.lastId

section
variable {P : String → Prop} {u : String} {s : Stream Fields} {w w' : World}

/-- What happens elsewhere: the stream is as it was, no more of its messages are acknowledged or
skipped, and settled ones stay so. -/
theorem Lane.elsewhere (h : Lane u s w) (hstored : streamAt w'.redis (streamKey u) = some s)
    (hcommitted : w.history.committed ⊆ w'.history.committed)
    (hdead : w.history.deadLettered ⊆ w'.history.deadLettered)
    (hacked : ∀ m, (streamKey u, m) ∈ w'.history.acked ↔ (streamKey u, m) ∈ w.history.acked)
    (hskipped : ∀ m, (streamKey u, m) ∈ w'.history.skipped ↔ (streamKey u, m) ∈ w.history.skipped) :
    Lane u s w' where
  stored := hstored
  cursor := h.cursor
  accounted := fun m h1 h2 => by
    rcases h.accounted m h1 h2 with hm | hm | hm | ⟨ha, hc⟩ | hm
    · exact Or.inl hm
    · exact Or.inr (Or.inl hm)
    · exact Or.inr (Or.inr (Or.inl (hdead hm)))
    · exact Or.inr (Or.inr (Or.inr (Or.inl ⟨(hacked m).mpr ha, hcommitted hc⟩)))
    · exact Or.inr (Or.inr (Or.inr (Or.inr ((hskipped m).mpr hm))))
  acked := fun m hm => (h.acked m ((hacked m).mp hm)).imp (fun h => hcommitted h) fun h => hdead h
  skipped := fun m hm => h.skipped m ((hskipped m).mp hm)

/-- A change of the stream alone, in which every waiting or pending message stays one of the two. -/
theorem Lane.restream (h : Lane u s w) {s' : Stream Fields} (hcursor : s'.delivered ≤ s'.lastId)
    (hlast : s'.lastId = s.lastId) (hwaiting : ∀ m, s.Waiting m → s'.Waiting m ∨ m ∈ s'.pending)
    (hpending : ∀ m, m ∈ s.pending → m ∈ s'.pending) :
    Lane u s' (w.set (streamKey u) (some (.stream s'))) where
  stored := streamAt_set_self w _ s'
  cursor := hcursor
  accounted := fun m h1 h2 => by
    rcases h.accounted m h1 (hlast ▸ h2) with hm | hm | hm
    · exact (hwaiting m hm).imp id Or.inl
    · exact Or.inr (Or.inl (hpending m hm))
    · exact Or.inr (Or.inr hm)
  acked := h.acked
  skipped := fun m hm => hlast ▸ h.skipped m hm

/-- Acknowledging a settled message keeps every message accounted for. -/
theorem Lane.ack (h : Lane u s w) {m : ℕ} (hs : Settled (streamKey u) m w) :
    Lane u (s.ack m) { w.set (streamKey u) (some (.stream (s.ack m))) with
      history := { w.history with acked := w.history.acked ++ [(streamKey u, m)] } } where
  stored := streamAt_set_self w _ _
  cursor := by simpa using h.cursor
  accounted := fun k h1 h2 => by
    rcases h.accounted k h1 h2 with hk | hk | hk | ⟨ha, hc⟩ | hk
    · exact Or.inl (hk.ack m)
    · by_cases hkm : k = m
      · subst hkm
        -- the message acknowledged: it is where it was settled
        rcases hs with hc | hd
        · exact Or.inr (Or.inr (Or.inr (Or.inl
            ⟨List.mem_append_right _ (List.mem_singleton_self _), hc⟩)))
        · exact Or.inr (Or.inr (Or.inl hd))
      · exact Or.inr (Or.inl (Stream.mem_pending_ack hk hkm))
    · exact Or.inr (Or.inr (Or.inl hk))
    · exact Or.inr (Or.inr (Or.inr (Or.inl ⟨List.mem_append_left _ ha, hc⟩)))
    · exact Or.inr (Or.inr (Or.inr (Or.inr hk)))
  acked := fun k hk => by
    rcases List.mem_append.mp hk with hk | hk
    · exact h.acked k hk
    · obtain rfl : k = m := by simpa using hk
      exact hs
  skipped := h.skipped

/-- Publishing a message: it waits, and what the append drops undelivered is skipped. -/
theorem Lane.append (h : Lane u s w) (fields : Fields) (drop : ℕ) :
    Lane u (s.append fields maxlen drop)
      { w.set (streamKey u) (some (.stream (s.append fields maxlen drop))) with
        history := { w.history with skipped :=
          w.history.skipped ++ (s.skippedBy maxlen drop).map fun m => (streamKey u, m) } } where
  stored := streamAt_set_self w _ _
  cursor := by
    rw [Stream.delivered_append, Stream.lastId_append]
    exact Nat.le_succ_of_le h.cursor
  accounted := fun m h1 h2 => by
    rw [Stream.lastId_append] at h2
    rcases Nat.lt_or_ge s.lastId m with hnew | hold
    · obtain rfl : m = s.lastId + 1 := by omega
      exact Or.inl (Stream.waiting_append_self h.cursor fields (by decide) drop)
    · rcases h.accounted m h1 hold with hm | hm | hm | hm | hm
      · rcases hm.append fields maxlen drop with hm | hm
        · exact Or.inl hm
        · exact Or.inr (Or.inr (Or.inr (Or.inr
            (List.mem_append_right _ (List.mem_map_of_mem hm)))))
      · exact Or.inr (Or.inl hm)
      · exact Or.inr (Or.inr (Or.inl hm))
      · exact Or.inr (Or.inr (Or.inr (Or.inl hm)))
      · exact Or.inr (Or.inr (Or.inr (Or.inr (List.mem_append_left _ hm))))
  acked := h.acked
  skipped := fun m hm => by
    rcases List.mem_append.mp hm with hm | hm
    · rw [Stream.lastId_append]
      exact Nat.le_succ_of_le (h.skipped m hm)
    · obtain ⟨k, hk, e⟩ := List.mem_map.mp hm
      obtain rfl : k = m := (Prod.mk.inj e).2
      exact Stream.le_lastId_of_skippedBy hk fields

/-- Nothing that is written to another key touches the stream. -/
theorem Lane.set_ne (h : Lane u s w) {key : String} (hne : streamKey u ≠ key) (v : Option Value) :
    Lane u s (w.set key v) :=
  h.elsewhere ((streamAt_set_ne w hne v).trans h.stored) (fun _ h => h) (fun _ h => h)
    (fun _ => Iff.rfl) fun _ => Iff.rfl

/-- Nothing that is appended to another key touches the stream. -/
theorem Lane.xadd_ne (h : Lane u s w) {key : String} (hne : streamKey u ≠ key) {fields : Fields}
    {drop : ℕ} (hx : w.xadd key fields drop = some w') : Lane u s w' := by
  obtain ⟨t, -, rfl⟩ := World.xadd_eq hx
  have hset := h.set_ne hne (some (.stream (t.append fields maxlen drop)))
  refine hset.elsewhere hset.stored (fun _ h => h) (fun _ h => h) (fun _ => Iff.rfl) fun m => ?_
  simp only [List.mem_append, List.mem_map, Prod.mk.injEq]
  exact ⟨fun hm => hm.resolve_right fun ⟨k, _, e, _⟩ => hne e.symm, Or.inl⟩

/-- **Whatever happens, every message of the user's stream stays accounted for.** -/
theorem Lane.effect (hu : PlainId u) (h : Lane u s w) (he : Effect P w w') : ∃ s', Lane u s' w' := by
  cases he with
  | same => exact ⟨s, h⟩
  | @createGroup v t _ ht hg =>
    by_cases huv : v = u
    · subst huv
      obtain rfl : t = s := Option.some.inj (ht.symm.trans h.stored)
      refine ⟨t.createGroup, h.restream ?_ rfl (fun m hm => Or.inl ⟨?_, hm.2⟩) fun m hm => ?_⟩
      · rw [Stream.delivered_createGroup hg]
        exact h.cursor
      · rw [Stream.delivered_createGroup hg]
        exact hm.1
      · rwa [Stream.pending_createGroup hg]
    · have hne : streamKey u ≠ streamKey v := fun e => huv (streamKey_inj.mp e).symm
      exact ⟨s, h.set_ne hne _⟩
  | @deliver v t _ count ht =>
    by_cases huv : v = u
    · subst huv
      obtain rfl : t = s := Option.some.inj (ht.symm.trans h.stored)
      refine ⟨_, h.restream ?_ (Stream.lastId_deliver t _) (fun m hm => hm.deliver _) fun m hm => ?_⟩
      · rw [Stream.lastId_deliver]
        exact Stream.delivered_deliver_le h.cursor (le_refl (t.available count))
      · exact Stream.mem_pending_deliver.mpr (Or.inl hm)
    · have hne : streamKey u ≠ streamKey v := fun e => huv (streamKey_inj.mp e).symm
      exact ⟨s, h.set_ne hne _⟩
  | commit hi =>
    obtain ⟨db', r, -, rfl⟩ := World.ingest_eq hi
    exact ⟨s, h.elsewhere h.stored (fun _ hm => List.mem_append_left _ hm) (fun _ h => h)
      (fun _ => Iff.rfl) fun _ => Iff.rfl⟩
  | @deadLetter w1 v m fields drop _ hx =>
    have h1 := h.xadd_ne (streamKey_ne_deadStreamKey hu v) hx
    exact ⟨s, h1.elsewhere h1.stored (fun _ h => h) (fun _ hm => List.mem_append_left _ hm)
      (fun _ => Iff.rfl) fun _ => Iff.rfl⟩
  | @count v m _ value =>
    have hne := streamKey_ne_attemptsKey hu v m
    exact ⟨s, h.set_ne hne _⟩
  | @ack v m t _ ht hs =>
    by_cases huv : v = u
    · subst huv
      have hstored : streamAt w.redis (streamKey v) = some t := by simp [streamAt, ht]
      obtain rfl : t = s := Option.some.inj (hstored.symm.trans h.stored)
      exact ⟨_, h.ack hs⟩
    · have hne : streamKey u ≠ streamKey v := fun e => huv (streamKey_inj.mp e).symm
      have hset := h.set_ne hne (some (.stream (t.ack m)))
      refine ⟨s, hset.elsewhere hset.stored (fun _ h => h) (fun _ h => h) (fun k => ?_) fun _ => Iff.rfl⟩
      simp only [List.mem_append, List.mem_singleton, Prod.mk.injEq]
      exact ⟨fun hm => hm.resolve_right fun e => hne e.1, Or.inl⟩
  | @publish _ v fields drop _ hx =>
    by_cases huv : v = u
    · subst huv
      obtain ⟨t, ht, rfl⟩ := World.xadd_eq hx
      obtain rfl : t = s := Option.some.inj (ht.symm.trans h.stored)
      exact ⟨_, h.append fields drop⟩
    · exact ⟨s, h.xadd_ne (fun e => huv (streamKey_inj.mp e).symm) hx⟩
  | @expire key n hv =>
    have hne : streamKey u ≠ key := by
      rintro rfl
      have := h.stored
      simp [streamAt, hv] at this
    exact ⟨s, h.set_ne hne _⟩
  | database =>
    exact ⟨s, h.elsewhere h.stored (fun _ h => h) (fun _ h => h) (fun _ => Iff.rfl) fun _ => Iff.rfl⟩

theorem Lane.change (hu : PlainId u) (h : Lane u s w) (he : Change P w w') : ∃ s', Lane u s' w' := by
  cases he with
  | effect he => exact h.effect hu he
  | read =>
    exact ⟨s, h.elsewhere h.stored (fun _ h => h) (fun _ h => h) (fun _ => Iff.rfl) fun _ => Iff.rfl⟩

end

/-! ### Every run -/

theorem lane_start (u : String) (db : Db) : Lane u .empty (World.start db) where
  stored := rfl
  cursor := le_rfl
  accounted := fun m h1 h2 => by
    have : m ≤ 0 := h2
    omega
  acked := fun m hm => absurd hm List.not_mem_nil
  skipped := fun m hm => absurd hm List.not_mem_nil

/-- The programs of the consumer: drains and sweeps. -/
inductive Consumer : Prog World PUnit → Prop where
  /-- `drain_stream`. -/
  | drain (env : Env) (userId : String) : Consumer (drainStream env userId >>= fun _ => pure ⟨⟩)
  /-- `sweep_all_streams`, over any keys. -/
  | sweep (env : String → Env) (keys : List String) :
    Consumer (sweepAllStreams env keys >>= fun _ => pure ⟨⟩)

theorem Consumer.guarantees {p : Prog World PUnit} (h : Consumer p) :
    p.Guarantees (Change AnyUser) (Change AnyUser) (fun _ _ => True) fun _ => True := by
  cases h with
  | drain env userId =>
    exact (drainStream_guarantees env trivial).bind fun _ => Prog.Guarantees.ret fun _ _ => trivial
  | sweep env keys =>
    exact (sweepAllStreams_guarantees env keys fun _ _ => trivial).bind fun _ => Prog.Guarantees.ret fun _ _ => trivial

/-- A run of drains and sweeps, publishers and other writers. -/
abbrev ConsumerRun (db : Db) (pool : Pool World) : Prop :=
  Run (PoolStep Consumer (Outside AnyUser)) AnyStep ⟨World.start db, []⟩ pool

/-- **No fill is lost or applied twice by the stream consumer**: in every state of every run, every
message published to a user's stream is waiting, pending, dead-lettered, acknowledged after its
ingestion committed, or was dropped from the stream before it was delivered, and that only
after `maxlen` newer messages; no message is acknowledged without a commit or a dead-letter
append; and no execution of an account moves a position twice. -/
theorem nothing_lost {u : String} (hu : PlainId u) {db : Db} {pool : Pool World}
    (h : ConsumerRun db pool) :
    (∃ s, streamAt pool.state.redis (streamKey u) = some s ∧
      (∀ m, 1 ≤ m → m ≤ s.lastId → Accounted (streamKey u) s pool.state.history m) ∧
      ∀ m, (streamKey u, m) ∈ pool.state.history.skipped → m + maxlen ≤ s.lastId) ∧
    (∀ m, (streamKey u, m) ∈ pool.state.history.acked → Settled (streamKey u) m pool.state) ∧
    pool.state.history.moves.Nodup := by
  have hreach := Pool.reaches (fun p hp => hp.guarantees) (fun _ _ he => he.change) h
  obtain ⟨s, hs⟩ := hreach.invariant (fun w => ∃ s, Lane u s w) ⟨.empty, lane_start u db⟩
    fun he _ ⟨s, hs⟩ => hs.change hu he
  have hmoves := hreach.invariant MovedOnce ⟨List.nodup_nil, fun k hk => absurd hk List.not_mem_nil⟩
    fun he _ hw => hw.change he
  exact ⟨⟨s, hs.stored, hs.accounted, hs.skipped⟩, hs.acked, hmoves.once⟩

/-! ### Samples -/

theorem plainId_seven : PlainId "7" := by unfold PlainId; decide

/-- An environment in which nothing fails and every text is the sample execution. -/
def sampleEnv : Env where
  clk := sampleClock
  wireToFill := fun _ => some sampleExecution
  ingestFault := fun _ => .none
  incrFault := fun _ => .none
  expireFault := fun _ => .none
  deadLetterFault := fun _ => .none
  deadLetterDrop := 0
  count := 100

/-- One message is published. -/
def publishedWorld : World := publishFill .none "7" "x" 0 (World.start sampleDb)

/-- And drained. -/
def drainedPool : Pool World :=
  ⟨((drainStream sampleEnv "7" >>= fun _ => (pure ⟨⟩ : Prog World PUnit)).run publishedWorld).1, [.ret ⟨⟩]⟩

theorem drainedPool_run : ConsumerRun sampleDb drainedPool :=
  ((Run.single (PoolStep.outside [] (Outside.publish (World.start sampleDb) .none "7" trivial "x" 0)) trivial).step
    (PoolStep.start _ [] (Consumer.drain sampleEnv "7")) trivial).trans
    (run_alone _ publishedWorld [] [])

/-- In a run that publishes one message and drains it, the message is acknowledged after its
ingestion has committed. -/
theorem nothing_lost_drained :
    (∃ s, streamAt drainedPool.state.redis (streamKey "7") = some s ∧
      Accounted (streamKey "7") s drainedPool.state.history 1) ∧
    drainedPool.state.history.acked = [(streamKey "7", 1)] ∧
    drainedPool.state.history.moves = [("acct", "x1")] := by
  obtain ⟨⟨s, hs, hacc, -⟩, -, -⟩ := nothing_lost plainId_seven drainedPool_run
  have hlast : (streamAt drainedPool.state.redis (streamKey "7")).map Stream.lastId = some 1 := by
    decide +kernel
  rw [hs, Option.map_some, Option.some.injEq] at hlast
  exact ⟨⟨s, hs, hacc 1 le_rfl (by omega)⟩, by decide +kernel, by decide +kernel⟩

/-- What a publish does that does not fail. -/
theorem publishFill_of_streamAt {w : World} {userId text : String} {drop : ℕ} {s : Stream Fields}
    (h : streamAt w.redis (streamKey userId) = some s) :
    publishFill .none userId text drop w =
      { w.set (streamKey userId) (some (.stream (s.append [("data", text)] maxlen drop))) with
        history := { w.history with skipped :=
          w.history.skipped ++ (s.skippedBy maxlen drop).map fun m => (streamKey userId, m) } } := by
  rw [publishFill, if_neg (by decide), World.xadd, h, Option.map_some, Option.getD_some]

/-- `n` messages are published and none is drained. -/
def backlog : ℕ → World
  | 0 => World.start sampleDb
  | n + 1 => publishFill .none "7" "x" 0 (backlog n)

/-- A backlog keeps its messages as long as nothing is dropped. -/
theorem backlog_eq (n : ℕ) : ∃ s, streamAt (backlog n).redis (streamKey "7") = some s ∧
    s.trimmed = 0 ∧ s.kept.length = n ∧ s.group = none ∧ (backlog n).history = {} := by
  induction n with
  | zero => exact ⟨.empty, rfl, rfl, rfl, rfl, rfl⟩
  | succ n ih =>
    obtain ⟨s, hs, ht, hk, hg, hh⟩ := ih
    rw [backlog, publishFill_of_streamAt hs]
    refine ⟨_, streamAt_set_self _ _ _, ?_, ?_, ?_, ?_⟩
    · rw [Stream.append_zero]
      exact ht
    · rw [Stream.append_zero, List.length_append, List.length_singleton, hk]
    · rw [Stream.append_zero]
      exact hg
    · rw [Stream.skippedBy_zero, List.map_nil, List.append_nil, hh]

theorem backlog_run (n : ℕ) : ConsumerRun sampleDb ⟨backlog n, []⟩ := by
  induction n with
  | zero => exact Run.refl _
  | succ n ih => exact ih.step (PoolStep.outside [] (Outside.publish (backlog n) .none "7" trivial "x" 0)) trivial

/-- When an append to a backlog drops 100 messages, the first of them is in none of the places a
message should be in. -/
theorem backlog_append_loses {n : ℕ} (hn : n + 1 = maxlen + 100) : ∃ pool s, ConsumerRun sampleDb pool ∧
    streamAt pool.state.redis (streamKey "7") = some s ∧ s.lastId = n + 1 ∧
    ¬ (s.Waiting 1 ∨ 1 ∈ s.pending ∨ (streamKey "7", 1) ∈ pool.state.history.deadLettered ∨
      ((streamKey "7", 1) ∈ pool.state.history.acked ∧
        (streamKey "7", 1) ∈ pool.state.history.committed)) := by
  obtain ⟨s, hs, ht, hk, hg, hh⟩ := backlog_eq n
  have hrun := (backlog_run n).step
    (PoolStep.outside [] (Outside.publish (backlog n) .none "7" trivial "x" 100)) trivial
  rw [publishFill_of_streamAt hs] at hrun
  have hlast : s.lastId = n := by rw [Stream.lastId, ht, hk, Nat.zero_add]
  have hdropped : 1 + maxlen ≤ s.lastId + 1 := by
    rw [hlast, hn, Nat.add_comm]
    exact Nat.add_le_add_left (by decide) maxlen
  refine ⟨_, s.append [("data", "x")] maxlen 100, hrun, streamAt_set_self _ _ _, ?_, ?_⟩
  · rw [Stream.lastId_append, hlast]
  · rintro (hw | hp | hd | ⟨ha, -⟩)
    · exact Stream.not_waiting_append (by rw [ht]; decide) hdropped _ hw
    · rw [Stream.pending_append, Stream.pending, hg] at hp
      cases hp
    · have hd' : (streamKey "7", 1) ∈ (backlog n).history.deadLettered := hd
      rw [hh] at hd'
      cases hd'
    · have ha' : (streamKey "7", 1) ∈ (backlog n).history.acked := ha
      rw [hh] at ha'
      cases ha'

/-- A backlog can lose messages: when the 10100th message is published, the append may drop the
first 100, which have not been delivered. -/
theorem backlog_loses : ∃ pool s m, ConsumerRun sampleDb pool ∧
    streamAt pool.state.redis (streamKey "7") = some s ∧ 1 ≤ m ∧ m ≤ s.lastId ∧
    ¬ (s.Waiting m ∨ m ∈ s.pending ∨ (streamKey "7", m) ∈ pool.state.history.deadLettered ∨
      ((streamKey "7", m) ∈ pool.state.history.acked ∧
        (streamKey "7", m) ∈ pool.state.history.committed)) := by
  have hn : maxlen + 99 + 1 = maxlen + 100 := rfl
  obtain ⟨pool, s, hrun, hs, hlast, hlost⟩ := backlog_append_loses hn
  exact ⟨pool, s, 1, hrun, hs, le_rfl, hlast ▸ Nat.le_add_left 1 _, hlost⟩

end StratTrader.Orders
