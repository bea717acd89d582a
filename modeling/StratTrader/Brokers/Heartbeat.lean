import StratTrader.Brokers.Base
import StratTrader.Foundation.Runs

/-!
# What a stream is shown as

The heartbeat of an account, in `brokers/services.py`: one entry of the cache, which the account's
stream thread writes by `set_heartbeat` and the supervisor writes back by `touch_heartbeat`, that its
time stays fresh. `get_stream_status` reads it.

## What is proved

* `HeartbeatInv`: what holds as long as no touch writes `CONNECTED` back over a heartbeat that has been
  written as `DEGRADED`, with one lemma per step.
* `degraded_not_masked`: in every such interleaving, a stream that is disconnected is not shown as
  connected.
* `touchSet_masks`: every touch that does so on a disconnected stream has it shown as connected.
* `not_always_degraded`: there is an interleaving with such a touch.

## Honest scope

Each step is atomic: taking the time, reading the cache and writing it. Every heartbeat that is written
has a state and a time, so the defaults for their absence are left out. The metric of the age is too.
-/

namespace StratTrader.Brokers

open StratTrader.Foundation

/-- `BrokerConnState`. -/
inductive BrokerConnState where
  /-- `CONNECTED`. -/
  | connected
  /-- `DEGRADED`. -/
  | degraded
  /-- `DOWN`. -/
  | down
  deriving DecidableEq

/-- A heartbeat. -/
structure Heartbeat where
  /-- `state`. -/
  state : BrokerConnState
  /-- `ts`. -/
  ts : ℤ
  deriving DecidableEq

/-- The entry of the cache. -/
structure HeartbeatEntry where
  /-- The value. -/
  heartbeat : Heartbeat
  /-- When it is gone. -/
  expiresAt : ℤ
  deriving DecidableEq

/-- `cache.get`. -/
def cacheGet (entry : Option HeartbeatEntry) (now : ℤ) : Option Heartbeat :=
  (entry.filter fun e => decide (now < e.expiresAt)).map HeartbeatEntry.heartbeat

/-- `cache.set` of a heartbeat, which is kept for four times the setting. -/
def cacheSet (ttl : ℤ) (hb : Heartbeat) (now : ℤ) : HeartbeatEntry := ⟨hb, now + ttl * 4⟩

/-- `get_stream_status`, from the heartbeat that it has read. -/
def getStreamStatus (ttl : ℤ) (hb : Option Heartbeat) (now : ℤ) : BrokerConnState :=
  match hb with
  | none => .down
  | some hb => if now - hb.ts > ttl then .degraded else hb.state

/-! ### The steps -/

/-- Where the thread is in `set_heartbeat`. -/
inductive Beating where
  /-- Outside. -/
  | idle
  /-- It has been called with a state. -/
  | called (state : BrokerConnState)
  /-- The time has been taken. -/
  | stamped (hb : Heartbeat)
  /-- The heartbeat has been written. -/
  | written (state : BrokerConnState)
  deriving DecidableEq

/-- Where the supervisor is in `touch_heartbeat`. -/
inductive Touching where
  /-- Outside. -/
  | idle
  /-- The cache has been read. -/
  | got (state : BrokerConnState)
  /-- The time has been taken. -/
  | stamped (hb : Heartbeat)
  deriving DecidableEq

/-- The heartbeat of an account, and who is at it. -/
structure HeartbeatState where
  /-- The time. -/
  now : ℤ
  /-- The cache. -/
  entry : Option HeartbeatEntry := none
  /-- The thread. -/
  beat : Beating := .idle
  /-- The supervisor. -/
  touch : Touching := .idle
  /-- `DEGRADED` has been written, and no `set_heartbeat(CONNECTED)` has started since. -/
  lost : Bool := false
  /-- A `set_heartbeat(DEGRADED)` has completed, and no `set_heartbeat(CONNECTED)` has started since. -/
  disconnected : Bool := false
  deriving DecidableEq

/-- What can happen. -/
inductive HeartbeatAct where
  /-- Time passes. -/
  | pass (d : ℕ)
  /-- The cache drops the entry. -/
  | evict
  /-- The thread calls `set_heartbeat`. -/
  | call (state : BrokerConnState)
  /-- It takes the time. -/
  | stamp
  /-- It writes the cache. -/
  | set
  /-- `set_heartbeat` returns. -/
  | done
  /-- The supervisor calls `touch_heartbeat`, which reads the cache. -/
  | touchGet
  /-- It takes the time. -/
  | touchStamp
  /-- It writes the cache. -/
  | touchSet

/-- One step. -/
def HeartbeatState.apply (ttl : ℤ) (s : HeartbeatState) : HeartbeatAct → Option HeartbeatState
  | .pass d => some { s with now := s.now + d }
  | .evict => some { s with entry := none }
  | .call state =>
    match s.beat with
    | .idle =>
      some { s with
        beat := .called state
        lost := s.lost && decide (state ≠ .connected)
        disconnected := s.disconnected && decide (state ≠ .connected) }
    | _ => none
  | .stamp =>
    match s.beat with
    | .called state => some { s with beat := .stamped ⟨state, s.now⟩ }
    | _ => none
  | .set =>
    match s.beat with
    | .stamped hb =>
      some { s with
        entry := some (cacheSet ttl hb s.now)
        beat := .written hb.state
        lost := s.lost || decide (hb.state = .degraded) }
    | _ => none
  | .done =>
    match s.beat with
    | .written state =>
      some { s with
        beat := .idle
        disconnected := s.disconnected || decide (state = .degraded) }
    | _ => none
  | .touchGet =>
    match s.touch with
    | .idle =>
      match cacheGet s.entry s.now with
      | none => some s
      | some hb => some { s with touch := .got hb.state }
    | _ => none
  | .touchStamp =>
    match s.touch with
    | .got state => some { s with touch := .stamped ⟨state, s.now⟩ }
    | _ => none
  | .touchSet =>
    match s.touch with
    | .stamped hb =>
      some { s with
        entry := some (cacheSet ttl hb s.now)
        touch := .idle }
    | _ => none

/-- No touch that has read `CONNECTED` writes it back over a heartbeat that was written as `DEGRADED` since. -/
def KeepsDegraded (s : HeartbeatState) (a : HeartbeatAct) : Prop :=
  a = .touchSet → ∀ hb, s.touch = .stamped hb → hb.state = .connected → s.lost = false

/-- The thread is outside `set_heartbeat`, and has not been. -/
def HeartbeatState.fresh (now : ℤ) (entry : Option HeartbeatEntry) (touch : Touching) : HeartbeatState :=
  { now, entry, touch }

/-! ### What every step keeps -/

/-- **What holds in every such interleaving**: behind a `DEGRADED` that has been written, neither the cache nor the
thread has a `CONNECTED`. -/
structure HeartbeatInv (s : HeartbeatState) : Prop where
  /-- The cache. -/
  entry : s.lost = true → ∀ e, s.entry = some e → e.heartbeat.state ≠ .connected
  /-- The call. -/
  called : s.lost = true → s.beat ≠ .called .connected
  /-- What it is about to write. -/
  stamped : s.lost = true → ∀ hb, s.beat = .stamped hb → hb.state ≠ .connected
  /-- `DEGRADED` has been written when the call is about to return. -/
  written : s.beat = .written .degraded → s.lost = true
  /-- And when it has. -/
  lost : s.disconnected = true → s.lost = true

variable {ttl now : ℤ} {s t : HeartbeatState} {a : HeartbeatAct}

theorem heartbeatInv_fresh (entry : Option HeartbeatEntry) (touch : Touching) :
    HeartbeatInv (HeartbeatState.fresh now entry touch) :=
  ⟨fun h => (nomatch h), fun h => (nomatch h), fun h => (nomatch h), fun h => (nomatch h), fun h => (nomatch h)⟩

theorem mem_of_cacheGet {entry : Option HeartbeatEntry} {hb : Heartbeat} (h : cacheGet entry now = some hb) :
    ∃ e, entry = some e ∧ e.heartbeat = hb := by
  obtain ⟨e, he, hhb⟩ := Option.map_eq_some_iff.mp h
  exact ⟨e, (Option.filter_eq_some_iff.mp he).1, hhb⟩

theorem HeartbeatInv.call {state : BrokerConnState} (hs : HeartbeatInv s) (h : s.apply ttl (.call state) = some t) :
    HeartbeatInv t := by
  unfold HeartbeatState.apply at h
  cases hbeat : s.beat with
  | called state => simp [hbeat] at h
  | stamped hb => simp [hbeat] at h
  | written state => simp [hbeat] at h
  | idle =>
    simp only [hbeat, Option.some.injEq] at h
    subst h
    refine ⟨fun hlost => ?_, fun hlost => ?_, fun _ hb hb' => (nomatch hb'), fun h => (nomatch h), fun hdis => ?_⟩
    · exact hs.entry (Bool.and_eq_true_iff.mp hlost).1
    · obtain ⟨-, hne⟩ := Bool.and_eq_true_iff.mp hlost
      intro hcalled
      cases hcalled
      exact of_decide_eq_true hne rfl
    · obtain ⟨hold, hne⟩ := Bool.and_eq_true_iff.mp hdis
      exact Bool.and_eq_true_iff.mpr ⟨hs.lost hold, hne⟩

theorem HeartbeatInv.stamp (hs : HeartbeatInv s) (h : s.apply ttl .stamp = some t) : HeartbeatInv t := by
  unfold HeartbeatState.apply at h
  cases hbeat : s.beat with
  | idle => simp [hbeat] at h
  | stamped hb => simp [hbeat] at h
  | written state => simp [hbeat] at h
  | called state =>
    simp only [hbeat, Option.some.injEq] at h
    subst h
    refine ⟨hs.entry, fun _ h => (nomatch h), fun hlost hb hstamped hstate => ?_, fun h => (nomatch h), hs.lost⟩
    cases hstamped
    have hcalled : state = .connected := hstate
    exact hs.called hlost (by rw [hbeat, hcalled])

/-- What the thread writes is what it has called for. -/
theorem HeartbeatInv.set (hs : HeartbeatInv s) (h : s.apply ttl .set = some t) : HeartbeatInv t := by
  unfold HeartbeatState.apply at h
  cases hbeat : s.beat with
  | idle => simp [hbeat] at h
  | called state => simp [hbeat] at h
  | written state => simp [hbeat] at h
  | stamped hb =>
    simp only [hbeat, Option.some.injEq] at h
    subst h
    refine ⟨fun hlost e he hstate => ?_, fun _ h => (nomatch h), fun _ _ h => (nomatch h), fun hwritten => ?_,
      fun hdis => ?_⟩
    · cases he
      rcases Bool.or_eq_true_iff.mp hlost with hlost | hdegraded
      · exact hs.stamped hlost hb hbeat hstate
      · rw [show hb.state = .connected from hstate] at hdegraded
        exact absurd hdegraded (by decide)
    · have hstate : hb.state = .degraded := Beating.written.inj hwritten
      exact Bool.or_eq_true_iff.mpr (.inr (decide_eq_true hstate))
    · exact Bool.or_eq_true_iff.mpr (.inl (hs.lost hdis))

theorem HeartbeatInv.done (hs : HeartbeatInv s) (h : s.apply ttl .done = some t) : HeartbeatInv t := by
  unfold HeartbeatState.apply at h
  cases hbeat : s.beat with
  | idle => simp [hbeat] at h
  | called state => simp [hbeat] at h
  | stamped hb => simp [hbeat] at h
  | written state =>
    simp only [hbeat, Option.some.injEq] at h
    subst h
    refine ⟨hs.entry, fun _ h => (nomatch h), fun _ _ h => (nomatch h), fun h => (nomatch h), fun hdis => ?_⟩
    rcases Bool.or_eq_true_iff.mp hdis with hdis | hdegraded
    · exact hs.lost hdis
    · exact hs.written (by rw [hbeat, of_decide_eq_true hdegraded])

/-- The supervisor's reading moves nothing but itself. -/
theorem HeartbeatInv.of_touching (hs : HeartbeatInv s) (touch : Touching) : HeartbeatInv { s with touch } :=
  ⟨hs.entry, hs.called, hs.stamped, hs.written, hs.lost⟩

/-- What a touch writes back keeps the invariant if it is no `CONNECTED` over a `DEGRADED`. -/
theorem HeartbeatInv.touchSet (hs : HeartbeatInv s) (h : s.apply ttl .touchSet = some t)
    (hkeeps : KeepsDegraded s .touchSet) : HeartbeatInv t := by
  unfold HeartbeatState.apply at h
  cases htouch : s.touch with
  | idle => simp [htouch] at h
  | got state => simp [htouch] at h
  | stamped hb =>
    simp only [htouch, Option.some.injEq] at h
    subst h
    refine ⟨fun hlost e he hstate => ?_, hs.called, hs.stamped, hs.written, hs.lost⟩
    cases he
    have hnot := hkeeps rfl hb htouch hstate
    exact absurd (hnot ▸ hlost) Bool.false_ne_true

/-- One step of an interleaving. -/
theorem HeartbeatInv.step (hs : HeartbeatInv s) (h : s.apply ttl a = some t) (hkeeps : KeepsDegraded s a) :
    HeartbeatInv t := by
  cases a with
  | pass d =>
    cases h
    exact ⟨hs.entry, hs.called, hs.stamped, hs.written, hs.lost⟩
  | evict =>
    cases h
    exact ⟨fun _ e he => (nomatch he), hs.called, hs.stamped, hs.written, hs.lost⟩
  | call state => exact hs.call h
  | stamp => exact hs.stamp h
  | set => exact hs.set h
  | done => exact hs.done h
  | touchSet => exact hs.touchSet h hkeeps
  | touchGet =>
    unfold HeartbeatState.apply at h
    cases htouch : s.touch with
    | got state => simp [htouch] at h
    | stamped hb => simp [htouch] at h
    | idle =>
      simp only [htouch] at h
      cases hget : cacheGet s.entry s.now with
      | none =>
        rw [hget] at h
        cases h
        exact hs
      | some hb =>
        rw [hget] at h
        cases h
        exact hs.of_touching _
  | touchStamp =>
    unfold HeartbeatState.apply at h
    cases htouch : s.touch with
    | idle => simp [htouch] at h
    | stamped hb => simp [htouch] at h
    | got state =>
      simp only [htouch, Option.some.injEq] at h
      subst h
      exact hs.of_touching _

/-! ### What is shown -/

/-- The status is `CONNECTED` just on a heartbeat that says so and is not too old. -/
theorem getStreamStatus_eq_connected {hb : Option Heartbeat} :
    getStreamStatus ttl hb now = .connected ↔ ∃ b, hb = some b ∧ b.state = .connected ∧ now - b.ts ≤ ttl := by
  unfold getStreamStatus
  cases hb with
  | none => simp
  | some b =>
    dsimp only
    by_cases hold : now - b.ts > ttl
    · rw [if_pos hold]
      refine ⟨fun h => (nomatch h), ?_⟩
      rintro ⟨_, ⟨⟩, -, hrecent⟩
      omega
    · rw [if_neg hold]
      refine ⟨fun hstate => ⟨b, rfl, hstate, by omega⟩, ?_⟩
      rintro ⟨_, ⟨⟩, hstate, -⟩
      exact hstate

/-- **A disconnected stream is not shown as connected**, in every interleaving in which no touch writes `CONNECTED`
back over a `DEGRADED`, whenever the answer to a status query is made. -/
theorem degraded_not_masked {entry : Option HeartbeatEntry} {touch : Touching}
    (h : Run (fun s a t => HeartbeatState.apply ttl s a = some t) KeepsDegraded (.fresh now entry touch) s)
    (hdis : s.disconnected = true) (answered : ℤ) :
    getStreamStatus ttl (cacheGet s.entry s.now) answered ≠ .connected := by
  have hinv : HeartbeatInv s :=
    h.invariant HeartbeatInv (heartbeatInv_fresh entry touch) fun hstep hkeeps hs => hs.step hstep hkeeps
  intro hconnected
  obtain ⟨b, hget, hstate, -⟩ := getStreamStatus_eq_connected.mp hconnected
  obtain ⟨e, he, hb⟩ := mem_of_cacheGet hget
  exact hinv.entry (hinv.lost hdis) e he (hb ▸ hstate)

/-- A touch that writes `CONNECTED` back over a `DEGRADED` has the stream shown as connected at once. -/
theorem touchSet_masks {hb : Heartbeat} (httl : 0 < ttl) (htouch : s.touch = .stamped hb)
    (hstate : hb.state = .connected) (hrecent : s.now - hb.ts ≤ ttl) (h : s.apply ttl .touchSet = some t) :
    getStreamStatus ttl (cacheGet t.entry t.now) t.now = .connected := by
  unfold HeartbeatState.apply at h
  simp only [htouch, Option.some.injEq] at h
  subst h
  refine getStreamStatus_eq_connected.mpr ⟨hb, ?_, hstate, hrecent⟩
  have hkept : s.now < s.now + ttl * 4 := by omega
  unfold cacheGet cacheSet
  simp [hkept]

/-! ### Samples -/

/-- The stream connects, is touched, and disconnects. -/
def touchedStream : List HeartbeatAct :=
  [.call .connected, .stamp, .set, .done, .touchGet, .touchStamp, .touchSet, .call .degraded, .stamp, .set, .done]

/-- It is shown as degraded. -/
theorem degraded_not_masked_sample :
    ∃ s, follow (HeartbeatState.apply 45) touchedStream (.fresh 0 none .idle) = some s ∧ s.disconnected = true ∧
      getStreamStatus 45 (cacheGet s.entry s.now) s.now ≠ .connected := by
  obtain ⟨s, hs⟩ : ∃ s, follow (HeartbeatState.apply 45) touchedStream (.fresh 0 none .idle) = some s := ⟨_, rfl⟩
  have hdis : s.disconnected = true := by
    cases hs
    rfl
  refine ⟨s, hs, hdis, degraded_not_masked (run_of_follow hs ?_) hdis s.now⟩
  have hnotSet : ∀ {u : HeartbeatState} {a : HeartbeatAct}, a ≠ .touchSet → KeepsDegraded u a :=
    fun hne heq => absurd heq hne
  refine along_cons rfl (hnotSet (by simp)) (along_cons rfl (hnotSet (by simp)) ?_)
  refine along_cons rfl (hnotSet (by simp)) (along_cons rfl (hnotSet (by simp)) ?_)
  refine along_cons rfl (hnotSet (by simp)) (along_cons rfl (hnotSet (by simp)) ?_)
  refine along_cons rfl (fun _ _ _ _ => rfl) (along_cons rfl (hnotSet (by simp)) ?_)
  refine along_cons rfl (hnotSet (by simp)) (along_cons rfl (hnotSet (by simp)) ?_)
  exact along_cons rfl (hnotSet (by simp)) trivial

/-- The disconnect falls between the two steps of a touch. -/
def racingTouch : List HeartbeatAct :=
  [.call .connected, .stamp, .set, .done, .pass 15, .touchGet, .call .degraded, .stamp, .set, .done, .touchStamp,
    .touchSet]

/-- The stream is shown as connected, though it is disconnected. -/
theorem not_always_degraded :
    ¬ ∀ (ttl now : ℤ) (s : HeartbeatState),
      Run (fun s a t => HeartbeatState.apply ttl s a = some t) AnyStep (.fresh now none .idle) s →
        s.disconnected = true → getStreamStatus ttl (cacheGet s.entry s.now) s.now ≠ .connected := by
  intro h
  obtain ⟨s, hs⟩ : ∃ s, follow (HeartbeatState.apply 45) racingTouch (.fresh 0 none .idle) = some s := ⟨_, rfl⟩
  have hmasked := h 45 0 s (run_of_follow hs (along_anyStep _ _))
  cases hs
  exact hmasked rfl rfl

end StratTrader.Brokers
