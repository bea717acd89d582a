import StratTrader.Orders.Consumer

/-!
# Which streams a sweep drains

`sweep_all_streams` drains whatever the scan for `fills:user:*` gives. A user's stream has
such a key, and so have the user's dead-letter stream and attempts counters. A scan gives
them in any order, may give a key more than once, and may give keys that appear while the sweep
goes on.

## What is proved

* `reachable_keySpace`: in every state of every run the keys are those of the three
  families, and a plain user's key never holds a counter.
* `sweep_reads`: a sweep that returns has drained every key it was given, once, and no other.
* `sweep_returns`: given streams of plain users only, it returns.
* `cleanSweep_iff`: a sweep drains exactly the users' streams, once, if and only if the scan gives
  no key twice, no dead-letter stream and no attempts counter.
-/

namespace StratTrader.Orders

open StratTrader.Brokers StratTrader.Foundation

/-! ### The key space -/

/-- The key of a dead-letter stream or of an attempts counter, also of one that a sweep left behind
when it took such a key for a user's. -/
def IsAux (key : String) : Prop := (∃ u, key = deadStreamKey u) ∨ ∃ u m, key = attemptsKey u m

/-- The key of one of the three families. -/
def Family (key : String) : Prop := (∃ u, PlainId u ∧ key = streamKey u) ∨ IsAux key

/-- The users whose streams a sweep takes the keys of the families for. -/
def Swept (userId : String) : Prop := Family (streamKey userId)

theorem not_isAux_streamKey {u : String} (hu : PlainId u) : ¬ IsAux (streamKey u) := by
  rintro (⟨v, h⟩ | ⟨v, m, h⟩)
  · exact streamKey_ne_deadStreamKey hu v h
  · exact streamKey_ne_attemptsKey hu v m h

/-- Every key of the families leads back from the identifier a sweep takes from it. -/
theorem Family.streamKey_userIdOf {key : String} (h : Family key) : streamKey (userIdOf key) = key := by
  rcases h with ⟨u, -, rfl⟩ | ⟨u, rfl⟩ | ⟨u, m, rfl⟩
  · rw [userIdOf_streamKey]
  · rw [deadStreamKey_eq, userIdOf_streamKey]
  · rw [attemptsKey_eq, userIdOf_streamKey]

theorem Family.swept {key : String} (h : Family key) : Swept (userIdOf key) := by
  rw [Swept, h.streamKey_userIdOf]
  exact h

/-- The keys are those of the families, and a plain user's key holds no counter. -/
structure KeySpace (redis : Redis) : Prop where
  families : ∀ key, (redis key).isSome → Family key
  streams : ∀ u, PlainId u → (streamAt redis (streamKey u)).isSome

section
variable {w w' : World}

theorem KeySpace.set (h : KeySpace w.redis) {key : String} {value : Option Value} (hkey : Family key)
    (hvalue : IsAux key ∨ ∀ n, value ≠ some (.counter n)) : KeySpace (w.set key value).redis where
  families := fun k hk => by
    by_cases e : k = key
    · exact e ▸ hkey
    · exact h.families k (by rwa [redis_set_ne w e] at hk)
  streams := fun u hu => by
    by_cases e : streamKey u = key
    · have hcounter := hvalue.resolve_left (e ▸ not_isAux_streamKey hu)
      match value, hcounter with
      | none, _ => simp [streamAt, World.set, e]
      | some (.stream s), _ => simp [e]
      | some (.counter n), hcounter => exact absurd rfl (hcounter n)
    · rw [streamAt_set_ne w e]
      exact h.streams u hu

theorem KeySpace.effect (h : KeySpace w.redis) (he : Effect Swept w w') : KeySpace w'.redis := by
  cases he with
  | createGroup hP => exact h.set hP (Or.inr fun n => by simp)
  | deliver hP => exact h.set hP (Or.inr fun n => by simp)
  | ack hP => exact h.set hP (Or.inr fun n => by simp)
  | commit hi =>
    obtain ⟨db', r, -, rfl⟩ := World.ingest_eq hi
    exact h
  | @deadLetter _ v _ _ _ _ hx =>
    obtain ⟨s, -, rfl⟩ := World.xadd_eq hx
    exact h.set (Or.inr (Or.inl ⟨v, rfl⟩)) (Or.inr fun n => by simp)
  | publish hP hx =>
    obtain ⟨s, -, rfl⟩ := World.xadd_eq hx
    exact h.set hP (Or.inr fun n => by simp)
  | @count v m =>
    have haux : IsAux (attemptsKey v m) := Or.inr ⟨v, m, rfl⟩
    exact h.set (Or.inr haux) (Or.inl haux)
  | expire hv => exact h.set (h.families _ (by rw [hv]; rfl)) (Or.inr fun n => by simp)
  | same | database => exact h

theorem KeySpace.change (h : KeySpace w.redis) (he : Change Swept w w') : KeySpace w'.redis := by
  cases he with
  | effect he => exact h.effect he
  | read => exact h

end

/-! ### Reachable key spaces -/

/-- The programs of the consumer: drains of users, and sweeps over keys of the families. -/
inductive Sweeper : Prog World PUnit → Prop where
  /-- `drain_stream`. -/
  | drain (env : Env) {userId : String} (h : PlainId userId) :
    Sweeper (drainStream env userId >>= fun _ => pure ⟨⟩)
  /-- `sweep_all_streams`. -/
  | sweep (env : String → Env) {keys : List String} (h : ∀ key ∈ keys, Family key) :
    Sweeper (sweepAllStreams env keys >>= fun _ => pure ⟨⟩)

/-- A run of drains and sweeps, of publishers for plain users, and of other writers. -/
abbrev SweeperRun (db : Db) (pool : Pool World) : Prop :=
  Run (PoolStep Sweeper (Outside PlainId)) AnyStep ⟨World.start db, []⟩ pool

theorem PlainId.swept {u : String} (h : PlainId u) : Swept u := Or.inl ⟨u, h, rfl⟩

theorem Sweeper.guarantees {p : Prog World PUnit} (h : Sweeper p) :
    p.Guarantees (Change Swept) (Change Swept) (fun _ _ => True) fun _ => True := by
  cases h with
  | drain env hu =>
    exact (drainStream_guarantees env hu.swept).bind fun _ => Prog.Guarantees.ret fun _ _ => trivial
  | sweep env hkeys =>
    exact (sweepAllStreams_guarantees env _ fun key hkey => (hkeys key hkey).swept).bind
      fun _ => Prog.Guarantees.ret fun _ _ => trivial

theorem Outside.mono {P Q : String → Prop} (hPQ : ∀ u, P u → Q u) {w w' : World} (h : Outside P w w') :
    Outside Q w w' := by
  cases h with
  | publish fault userId hP text drop => exact .publish w fault userId (hPQ _ hP) text drop
  | expire h => exact .expire h
  | database h => exact .database w h

/-- In every state of every run the key space is that of the three families. -/
theorem reachable_keySpace {db : Db} {pool : Pool World} (h : SweeperRun db pool) :
    KeySpace pool.state.redis := by
  have hreach := Pool.reaches (fun p hp => hp.guarantees)
    (fun _ _ he => (he.mono fun _ hu => hu.swept).change) h
  refine hreach.invariant (fun w => KeySpace w.redis) ?_ fun he _ hw => hw.change he
  exact ⟨fun key hkey => absurd hkey Bool.false_ne_true, fun u _ => rfl⟩

/-! ### What effects leave -/

theorem groupedAt_eq_some {redis : Redis} {key : String} {s : Stream Fields} :
    groupedAt redis key = some s ↔ redis key = some (.stream s) ∧ s.group.isSome := by
  unfold groupedAt
  match redis key with
  | none => simp
  | some (.counter n) => simp
  | some (.stream t) =>
    simp only [Option.ite_none_right_eq_some, Option.some.injEq, Value.stream.injEq]
    constructor
    · rintro ⟨hg, rfl⟩
      exact ⟨rfl, hg⟩
    · rintro ⟨rfl, hg⟩
      exact ⟨hg, rfl⟩

theorem groupedAt_set_self (w : World) (key : String) {s : Stream Fields} (h : s.group.isSome) :
    (groupedAt (w.set key (some (.stream s))).redis key).isSome := by
  have hself : (w.set key (some (.stream s))).redis key = some (.stream s) := Function.update_self _ _ _
  rw [groupedAt_eq_some.mpr ⟨hself, h⟩]
  rfl

theorem groupedAt_set_ne (w : World) {key key' : String} (h : key ≠ key') (value : Option Value) :
    groupedAt (w.set key' value).redis key = groupedAt w.redis key := by
  simp only [groupedAt, redis_set_ne w h]

/-- The keys that hold a stream with a group. -/
abbrev Grouped (key : String) (w : World) : Prop := (groupedAt w.redis key).isSome

theorem Grouped.stream {key : String} {w : World} {s : Stream Fields} (h : Grouped key w)
    (hs : streamAt w.redis key = some s) : s.group.isSome := by
  obtain ⟨t, ht⟩ := Option.isSome_iff_exists.mp h
  obtain rfl : t = s := Option.some.inj ((streamAt_of_groupedAt ht).symm.trans hs)
  exact (groupedAt_eq_some.mp ht).2

/-- Where a key gets a stream that has a group if the one it had has. -/
theorem Grouped.set {key : String} {w : World} (h : Grouped key w) (key' : String) {s : Stream Fields}
    (hs : key = key' → s.group.isSome) : Grouped key (w.set key' (some (.stream s))) := by
  by_cases e : key = key'
  · subst e
    exact groupedAt_set_self w key (hs rfl)
  · rw [Grouped, groupedAt_set_ne w e]
    exact h

/-- A plain user's stream with a group stays one. -/
theorem Effect.grouped {P : String → Prop} {u : String} (hu : PlainId u) {w w' : World}
    (he : Effect P w w') (h : Grouped (streamKey u) w) : Grouped (streamKey u) w' := by
  cases he with
  | createGroup hP hs => exact h.set _ fun _ => rfl
  | deliver hP count hs => exact h.set _ fun e => Stream.isSome_group_deliver (h.stream (e ▸ hs)) _
  | @ack v m s _ hv => 
    refine h.set _ fun e => ?_
    rw [Stream.ack, Option.isSome_map]
    exact h.stream (by rw [e, streamAt, hv])
  | commit hi =>
    obtain ⟨db', r, -, rfl⟩ := World.ingest_eq hi
    exact h
  | @deadLetter _ v _ _ _ _ hx =>
    obtain ⟨s, -, rfl⟩ := World.xadd_eq hx
    exact h.set _ fun e => absurd e (streamKey_ne_deadStreamKey hu v)
  | publish hP hx =>
    obtain ⟨s, hs, rfl⟩ := World.xadd_eq hx
    exact h.set _ fun e => show s.group.isSome from h.stream (e ▸ hs)
  | @count v m =>
    rw [Grouped, groupedAt_set_ne w (streamKey_ne_attemptsKey hu v m)]
    exact h
  | @expire key n hv =>
    rw [Grouped, groupedAt_set_ne w]
    · exact h
    · rintro rfl
      simp [Grouped, groupedAt, hv] at h
  | same | database => exact h

/-- A program with effects only, alone: it reads no pending messages, and leaves a plain user's
stream grouped. -/
theorem Does.ends {α : Type} {p : Prog World α} {Q : α → World → Prop} (h : Does AnyUser p Unknown Q)
    (u : String) (w : World) :
    p.Ends w fun _ w' => w'.history.reads = w.history.reads ∧
      (PlainId u → Grouped (streamKey u) w → Grouped (streamKey u) w') := by
  have hreach := (h.run (s := w) trivial).1
  constructor
  · exact hreach.invariant (fun w' => w'.history.reads = w.history.reads) rfl
      fun he _ hw => he.reads.trans hw
  · exact fun hu hg => hreach.invariant (Grouped (streamKey u)) hg fun he _ hw => he.grouped hu hw

/-! ### A drain -/

/-- Creating the group succeeds where there is no counter, and the stream has a group then. -/
theorem ensureGroup_ends (key : String) (w : World) :
    (ensureGroup key).Ends w fun ok w' => w'.history.reads = w.history.reads ∧
      ((streamAt w.redis key).isSome → ok = true ∧ Grouped key w') := by
  unfold Prog.Ends
  simp only [ensureGroup, Prog.run_atomic]
  cases hs : streamAt w.redis key with
  | none => exact ⟨rfl, fun h => absurd h Bool.false_ne_true⟩
  | some s =>
    simp only
    split_ifs with hg
    · refine ⟨rfl, fun _ => ⟨rfl, ?_⟩⟩
      match hv : w.redis key with
      | none =>
        obtain rfl : Stream.empty = s := by simpa [streamAt, hv] using hs
        exact absurd hg (by decide)
      | some (.counter n) => simp [streamAt, hv] at hs
      | some (.stream t) =>
        obtain rfl : t = s := by simpa [streamAt, hv] using hs
        rw [Grouped, groupedAt_eq_some.mpr ⟨hv, hg⟩]
        rfl
    · exact ⟨rfl, fun _ => ⟨rfl, groupedAt_set_self w key rfl⟩⟩

/-- A read of pending messages that succeeds is remembered, and it does where there is a group. -/
theorem readPending_ends (env : Env) (key : String) (w : World) :
    (readPending env key).Ends w fun pending w' =>
      (pending.isSome → w'.history.reads = w.history.reads ++ [key]) ∧
      (Grouped key w → pending.isSome ∧ Grouped key w') := by
  unfold Prog.Ends
  simp only [readPending, Prog.run_atomic, Option.isSome_map]
  split_ifs with hg
  · exact ⟨fun _ => rfl, fun h => ⟨h, h⟩⟩
  · exact ⟨fun h => absurd h hg, fun h => absurd h hg⟩

/-- A drain that returns has read its user's stream, once, and no other; and a plain user's drain
returns, unless there is a counter under the stream's key. -/
theorem drainStream_ends (env : Env) (u : String) (w : World) :
    (drainStream env u).Ends w fun n w' =>
      (n.isSome → w'.history.reads = w.history.reads ++ [streamKey u]) ∧
      (PlainId u → (streamAt w.redis (streamKey u)).isSome → n.isSome) := by
  have hprocess (entries : List (ℕ × Fields)) (w : World) :=
    (processMessages_does env (show AnyUser u from trivial) entries).ends u w
  refine (ensureGroup_ends (streamKey u) w).bind fun ok w1 ⟨hr1, hok⟩ => ?_
  cases ok with
  | false => exact Prog.Ends.ret ⟨fun h => absurd h Bool.false_ne_true, fun _ h => (hok h).1⟩
  | true =>
    refine (readPending_ends env (streamKey u) w1).bind fun pending w2 ⟨hr2, hpending⟩ => ?_
    cases pending with
    | none =>
      exact Prog.Ends.ret ⟨fun h => absurd h Bool.false_ne_true, fun _ h => (hpending (hok h).2).1⟩
    | some pending =>
      refine (hprocess pending w2).bind fun replayed w3 ⟨hr3, hg3⟩ => ?_
      have hnew := ((readNew_does env (show AnyUser u from trivial)).ends u w3).1
      have hsome : ((readNew env (streamKey u)).run w3).2.isSome = (groupedAt w3.redis (streamKey u)).isSome :=
        Option.isSome_map
      refine Prog.Ends.bind (Q := fun new w4 => w4.history.reads = w3.history.reads ∧
        new.isSome = (groupedAt w3.redis (streamKey u)).isSome) ⟨hnew, hsome⟩
        fun new w4 ⟨hr4, hn⟩ => ?_
      cases new with
      | none =>
        exact Prog.Ends.ret ⟨fun h => absurd h Bool.false_ne_true,
          fun hu h => hn.trans (hg3 hu (hpending (hok h).2).2)⟩
      | some new =>
        refine (hprocess new w4).bind fun processed w5 ⟨hr5, _⟩ => ?_
        refine Prog.Ends.ret ⟨fun _ => ?_, fun _ _ => rfl⟩
        rw [hr5, hr4, hr3, hr2 rfl, hr1]

/-! ### A sweep -/

/-- The key space stays that of the families while a stream is drained. -/
theorem KeySpace.drain {w : World} (h : KeySpace w.redis) (env : Env) {u : String} (hu : Swept u) :
    KeySpace ((drainStream env u).run w).1.redis :=
  ((drainStream_guarantees env hu).run (s := w) trivial).1.invariant (fun w' => KeySpace w'.redis) h
    fun he _ hw => hw.change he

/-- A sweep that returns has drained every key it was given, once, and no other; and it returns if it
was given the streams of plain users only. -/
theorem sweepAllStreams_ends (env : String → Env) {keys : List String}
    (hkeys : ∀ key ∈ keys, Family key) {w : World} (hw : KeySpace w.redis) :
    (sweepAllStreams env keys).Ends w fun total w' =>
      (total.isSome → w'.history.reads = w.history.reads ++ keys) ∧
      ((∀ key ∈ keys, ¬ IsAux key) → total.isSome) := by
  induction keys generalizing w with
  | nil => exact ⟨fun _ => (List.append_nil _).symm, fun _ => rfl⟩
  | cons key keys ih =>
    have hkey := hkeys key List.mem_cons_self
    obtain ⟨hreads, hreturns⟩ := drainStream_ends (env key) (userIdOf key) w
    rw [hkey.streamKey_userIdOf] at hreads hreturns
    refine Prog.Ends.bind (Q := fun n w1 => KeySpace w1.redis ∧
      (n.isSome → w1.history.reads = w.history.reads ++ [key]) ∧ (¬ IsAux key → n.isSome))
      ⟨hw.drain (env key) hkey.swept, hreads, fun haux => ?_⟩ fun n w1 ⟨hw1, hr1, hn⟩ => ?_
    · obtain ⟨u, hu, rfl⟩ := hkey.resolve_right haux
      rw [userIdOf_streamKey] at hreturns ⊢
      exact hreturns hu (hw.streams u hu)
    · cases n with
      | none =>
        exact Prog.Ends.ret ⟨fun h => absurd h Bool.false_ne_true,
          fun h => hn (h key List.mem_cons_self)⟩
      | some n =>
        refine (ih (fun k hk => hkeys k (List.mem_cons_of_mem _ hk)) hw1).bind
          fun total w2 ⟨hr2, htotal⟩ => ?_
        have hrest (h : ∀ k ∈ key :: keys, ¬ IsAux k) := htotal fun k hk => h k (List.mem_cons_of_mem _ hk)
        cases total with
        | none => exact Prog.Ends.ret ⟨fun h => absurd h Bool.false_ne_true, hrest⟩
        | some total =>
          refine Prog.Ends.ret ⟨fun _ => ?_, fun _ => rfl⟩
          rw [hr2 rfl, hr1 rfl, List.append_assoc, List.singleton_append]

/-! ### Exactly the users' streams -/

/-- The key of a plain user's stream that exists. -/
def IsUserStream (redis : Redis) (key : String) : Prop :=
  ∃ u s, PlainId u ∧ key = streamKey u ∧ redis key = some (.stream s)

/-- What a scan for `fills:user:*` gives, any of them more than once: every stream, and no key but those
that exist and auxiliary ones that appear while the sweep goes on. -/
structure Scan (redis : Redis) (keys : List String) : Prop where
  streams : ∀ key s, redis key = some (.stream s) → key ∈ keys
  exist : ∀ key ∈ keys, (redis key).isSome ∨ IsAux key

/-- A sweep over the keys does not raise, and drains every user's stream that exists, once, and
nothing else. -/
def CleanSweep (env : String → Env) (w : World) (keys : List String) : Prop :=
  (sweepAllStreams env keys).Ends w fun total w' => total.isSome ∧
    ∃ drained, w'.history.reads = w.history.reads ++ drained ∧ drained.Nodup ∧
      ∀ key, key ∈ drained ↔ IsUserStream w.redis key

theorem Scan.family {redis : Redis} {keys : List String} (h : Scan redis keys) (hspace : KeySpace redis) :
    ∀ key ∈ keys, Family key := by
  intro key hkey
  rcases h.exist key hkey with hkey | haux
  · exact hspace.families key hkey
  · exact Or.inr haux

theorem IsUserStream.not_isAux {redis : Redis} {key : String} (h : IsUserStream redis key) : ¬ IsAux key := by
  obtain ⟨u, s, hu, rfl, -⟩ := h
  exact not_isAux_streamKey hu

/-- A scanned key is a user's stream or auxiliary. -/
theorem Scan.isUserStream {redis : Redis} {keys : List String} (h : Scan redis keys)
    (hspace : KeySpace redis) {key : String} (hkey : key ∈ keys) (haux : ¬ IsAux key) :
    IsUserStream redis key := by
  obtain ⟨u, hu, rfl⟩ := (h.family hspace key hkey).resolve_right haux
  obtain ⟨v, hv⟩ := Option.isSome_iff_exists.mp ((h.exist _ hkey).resolve_right haux)
  have hstream := hspace.streams u hu
  cases v with
  | stream s => exact ⟨u, s, hu, rfl, hv⟩
  | counter n => simp [streamAt, hv] at hstream

/-- **A sweep drains exactly the users' streams, once, if and only if the scan gives no key twice, no
dead-letter stream and no attempts counter**: in every key space that a run leads to, and in every scan
order. -/
theorem cleanSweep_iff {db : Db} {pool : Pool World} (hrun : SweeperRun db pool) {keys : List String}
    (hscan : Scan pool.state.redis keys) (env : String → Env) :
    CleanSweep env pool.state keys ↔ keys.Nodup ∧ ∀ key ∈ keys, ¬ IsAux key := by
  have hspace := reachable_keySpace hrun
  have hends := sweepAllStreams_ends env (hscan.family hspace) hspace
  constructor
  · rintro ⟨hsome, drained, hreads, hnodup, hdrained⟩
    obtain rfl : keys = drained := List.append_cancel_left ((hends.1 hsome).symm.trans hreads)
    exact ⟨hnodup, fun key hkey => ((hdrained key).mp hkey).not_isAux⟩
  · rintro ⟨hnodup, haux⟩
    have hsome := hends.2 haux
    refine ⟨hsome, keys, hends.1 hsome, hnodup, fun key => ⟨fun hkey => ?_, ?_⟩⟩
    · exact hscan.isUserStream hspace hkey (haux key hkey)
    · rintro ⟨u, s, -, -, hs⟩
      exact hscan.streams key s hs

/-! ### Samples -/

theorem publishedWorld_run : SweeperRun sampleDb ⟨publishedWorld, []⟩ :=
  Run.single (PoolStep.outside [] (Outside.publish (World.start sampleDb) .none "7" plainId_seven "x" 0)) trivial

/-- A scan gives the user's stream, once or more often. -/
theorem publishedWorld_scan {keys : List String} (hmem : ∀ key, key ∈ keys ↔ key = streamKey "7") :
    Scan publishedWorld.redis keys where
  streams := fun key s hs => by
    by_contra hne
    rw [hmem] at hne
    have hnone : publishedWorld.redis key = none := Function.update_of_ne hne _ _
    rw [hnone] at hs
    cases hs
  exist := fun key hkey => by
    rw [(hmem key).mp hkey]
    exact Or.inl (by decide +kernel)

/-- With one user's stream the sweep is clean. -/
theorem cleanSweep_published : CleanSweep (fun _ => sampleEnv) publishedWorld [streamKey "7"] :=
  (cleanSweep_iff publishedWorld_run (publishedWorld_scan fun _ => List.mem_singleton) _).mpr
    ⟨List.nodup_singleton _, fun key hkey => by
      rw [List.mem_singleton.mp hkey]
      exact not_isAux_streamKey plainId_seven⟩

/-- A pool in which the published message has been drained. -/
def drainedWith (env : Env) : Pool World :=
  ⟨((drainStream env "7" >>= fun _ => (pure ⟨⟩ : Prog World PUnit)).run publishedWorld).1, [.ret ⟨⟩]⟩

theorem drainedWith_run (env : Env) : SweeperRun sampleDb (drainedWith env) :=
  (publishedWorld_run.step (PoolStep.start _ [] (Sweeper.drain env plainId_seven)) trivial).trans
    (run_alone _ publishedWorld [] [])

/-- Ingestion fails. -/
def failingEnv : Env := { sampleEnv with ingestFault := fun _ => .before }

/-- No text can be parsed. -/
def poisonEnv : Env := { sampleEnv with wireToFill := fun _ => none }

/-- The stream and a second key, and nothing else. -/
theorem scan_pair {redis : Redis} {key key' : String}
    (hkey : (redis key).isSome) (hkey' : (redis key').isSome)
    (hnone : ∀ k, k ≠ key → k ≠ key' → redis k = none) : Scan redis [key, key'] where
  streams := fun k s hs => by
    by_contra hmem
    simp only [List.mem_cons, List.not_mem_nil, or_false, not_or] at hmem
    rw [hnone k hmem.1 hmem.2] at hs
    cases hs
  exist := fun k hk => by
    simp only [List.mem_cons, List.not_mem_nil, or_false] at hk
    rcases hk with rfl | rfl
    · exact Or.inl hkey
    · exact Or.inl hkey'

/-- After one failed ingestion there is an attempts counter. -/
theorem drainedWith_failing_redis : (drainedWith failingEnv).state.redis =
    Function.update (Function.update (Function.update (Function.update (fun _ => none)
      (streamKey "7") (some (.stream ⟨0, [[("data", "x")]], none⟩)))
      (streamKey "7") (some (.stream ⟨0, [[("data", "x")]], some ⟨0, []⟩⟩)))
      (streamKey "7") (some (.stream ⟨0, [[("data", "x")]], some ⟨1, [1]⟩⟩)))
      (attemptsKey "7" 1) (some (.counter 1)) := rfl

/-- After a poison message there is a dead-letter stream. -/
theorem drainedWith_poison_redis : ∃ dead v1 v2 v3 v4, (drainedWith poisonEnv).state.redis =
    Function.update (Function.update (Function.update (Function.update (Function.update (fun _ => none)
      (streamKey "7") v1) (streamKey "7") v2) (streamKey "7") v3)
      (deadStreamKey "7") dead) (streamKey "7") v4 :=
  ⟨_, _, _, _, _, rfl⟩

/-- When the attempts counter is scanned first, the sweep raises before it has drained the user's
stream; after a dead-lettered message a sweep dead-letters the message again; and a stream that the scan
gives twice is drained twice. -/
theorem not_cleanSweep_auxiliary :
    (SweeperRun sampleDb (drainedWith failingEnv) ∧
      Scan (drainedWith failingEnv).state.redis [attemptsKey "7" 1, streamKey "7"] ∧
      IsUserStream (drainedWith failingEnv).state.redis (streamKey "7") ∧
      ((sweepAllStreams (fun _ => sampleEnv) [attemptsKey "7" 1, streamKey "7"]).run
        (drainedWith failingEnv).state).2 = none ∧
      ((sweepAllStreams (fun _ => sampleEnv) [attemptsKey "7" 1, streamKey "7"]).run
        (drainedWith failingEnv).state).1.history.reads = (drainedWith failingEnv).state.history.reads ∧
      ¬ CleanSweep (fun _ => sampleEnv) (drainedWith failingEnv).state [attemptsKey "7" 1, streamKey "7"]) ∧
    (SweeperRun sampleDb (drainedWith poisonEnv) ∧
      Scan (drainedWith poisonEnv).state.redis [streamKey "7", deadStreamKey "7"] ∧
      (drainedWith poisonEnv).state.history.deadLettered = [(streamKey "7", 1)] ∧
      ((sweepAllStreams (fun _ => poisonEnv) [streamKey "7", deadStreamKey "7"]).run
        (drainedWith poisonEnv).state).1.history.deadLettered =
          [(streamKey "7", 1), (deadStreamKey "7", 1)]) ∧
    (Scan publishedWorld.redis [streamKey "7", streamKey "7"] ∧
      ((sweepAllStreams (fun _ => sampleEnv) [streamKey "7", streamKey "7"]).run publishedWorld).1.history.reads =
        [streamKey "7", streamKey "7"] ∧
      ¬ CleanSweep (fun _ => sampleEnv) publishedWorld [streamKey "7", streamKey "7"]) := by
  have hattempts := streamKey_ne_attemptsKey plainId_seven "7" 1
  refine ⟨⟨drainedWith_run _, scan_pair ?_ ?_ fun k h1 h2 => ?_, ?_, ?_, ?_, ?_⟩,
    ⟨drainedWith_run _, scan_pair ?_ ?_ fun k h1 h2 => ?_, ?_, ?_⟩,
    publishedWorld_scan fun key => by simp, ?_, ?_⟩
  · decide +kernel
  · decide +kernel
  · rw [drainedWith_failing_redis]
    simp only [Function.update_of_ne h1, Function.update_of_ne h2]
  · have hstored : (drainedWith failingEnv).state.redis (streamKey "7") =
        some (.stream ⟨0, [[("data", "x")]], some ⟨1, [1]⟩⟩) := by
      rw [drainedWith_failing_redis, Function.update_of_ne hattempts, Function.update_self]
    exact ⟨"7", _, plainId_seven, rfl, hstored⟩
  · decide +kernel
  · decide +kernel
  · rintro ⟨hsome, -⟩
    revert hsome
    decide +kernel
  · decide +kernel
  · decide +kernel
  · obtain ⟨dead, v1, v2, v3, v4, he⟩ := drainedWith_poison_redis
    rw [he]
    simp only [Function.update_of_ne h1, Function.update_of_ne h2]
  · decide +kernel
  · decide +kernel
  · decide +kernel
  · rintro ⟨-, drained, hreads, hnodup, -⟩
    have htwice : ((sweepAllStreams (fun _ => sampleEnv) [streamKey "7", streamKey "7"]).run
        publishedWorld).1.history.reads = publishedWorld.history.reads ++ [streamKey "7", streamKey "7"] := by
      decide +kernel
    rw [← List.append_cancel_left (htwice.symm.trans hreads)] at hnodup
    simp at hnodup

end StratTrader.Orders
