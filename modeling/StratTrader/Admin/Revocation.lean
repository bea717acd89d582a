import Mathlib.Tactic.Linarith
import StratTrader.Admin.Flags

/-!
# Revoking a flag

The flag `ENABLE_LIVE_TRADING` in the processes of the platform: calls of
`live_trading_permitted`, of `is_enabled` and of `set_flag`, whose look-ups and writes
interleave, while time passes, settings change, processes restart and Redis loses its entry.
A call takes no longer than `longest`; reads and writes fail at will.

## What is proved

`revoked_stays_revoked`: since the row says `False`, and as long as it does, a call that begins
once both caches' entries of before have expired is told that live trading is not permitted, unless
its read of the row fails, or one in its process has failed and is cached. Then the settings
decide, and they may say that it is (`not_revoked_stays_revoked`).

## Honest scope

An entry of before may be written by a call that has looked up the row before the revocation, and
may be copied from Redis by another such call: the caches' entries of before have expired after their times
to live and twice the longest time that a call takes. Rows that are written by hand, or deleted, are left out.
-/

namespace StratTrader.Admin

open StratTrader.Foundation

/-! ### The system -/

/-- The flag in `FEATURE_FLAGS_REGISTRY`: it may be flipped. -/
def enableLiveTrading (default : Bool) : FlagSpec := ⟨default, true⟩

/-- A call of `live_trading_permitted`, and its answer. -/
def ask (reg : Option FlagSpec) (env : FlagEnv) (p : ProcessId) (began : ℚ) : Prog FlagState PUnit := do
  let answer ← liveTradingPermitted env p reg
  .write fun s => { s with answers := s.answers ++ [⟨p, began, s.now, answer, env.dbError.isSome⟩] }

/-- The calls, of the time they begin. -/
inductive FlagTask (reg : Option FlagSpec) (began : ℚ) : Prog FlagState PUnit → Prop where
  /-- A call of `live_trading_permitted`. -/
  | permitted (env : FlagEnv) (p : ProcessId) : FlagTask reg began (ask reg env p began)
  /-- A call of `is_enabled`. -/
  | enabled (env : FlagEnv) (p : ProcessId) : FlagTask reg began (do
      let _ ← isEnabled env p reg
      return)
  /-- A call of `set_flag`. -/
  | flip (env : FlagEnv) (p : ProcessId) (commits redisWrites enabled : Bool) : FlagTask reg began (do
      let _ ← setFlag env p reg commits redisWrites enabled
      return)

/-- What happens beside the calls. -/
inductive Beside : FlagState → FlagState → Prop where
  /-- Time passes. -/
  | pass (s : FlagState) {now : ℚ} (h : s.now ≤ now) : Beside s { s with now }
  /-- The settings change. -/
  | deploy (s : FlagState) (setting : Option Bool) : Beside s { s with setting }
  /-- Redis loses its entry. -/
  | evict (s : FlagState) : Beside s { s with redis := none }
  /-- A process restarts. -/
  | restart (s : FlagState) (p : ProcessId) : Beside s (s.setLocal p none)

/-- The steps, where no call takes longer than `longest`. -/
abbrev FlagStep (longest : ℚ) (default : Bool) :=
  TimedStep FlagState.now
    (fun began deadline p => deadline = began + longest ∧ FlagTask (some (enableLiveTrading default)) began p) Beside

/-- The platform starts with nothing cached. -/
def FlagState.initial (now : ℚ) (setting row : Option Bool) : FlagState where
  now := now
  setting := setting
  row := row
  redis := none
  locals := fun _ => none
  failures := []
  revokedSince := if row = some false then some now else none
  answers := []

/-! ### Runs made of calls -/

/-- A run on which the state has `K`. -/
def RunIn (K : FlagState → Prop) (longest : ℚ) (P Q : TimedPool FlagState ℚ) : Prop :=
  Run (fun P a Q => FlagStep longest true P a Q ∧ K Q.state) AnyStep P Q

/-- A run on which the row says `False`. -/
abbrev RevokedRun := RunIn fun s => s.row = some false

section
variable {longest : ℚ} {s : FlagState} {ps : List (Timed FlagState ℚ)} {K : FlagState → Prop}
  {P Q O : TimedPool FlagState ℚ}

theorem RunIn.trans (h : RunIn K longest P Q) (h' : RunIn K longest Q O) : RunIn K longest P O :=
  Run.trans h h'

theorem RunIn.run (h : RunIn K longest P Q) : Run (FlagStep longest true) AnyStep P Q :=
  Run.mono h fun hs _ => ⟨hs.1, trivial⟩

/-- The first program of the pool does its next `n` actions. -/
theorem RunIn.moves (n : ℕ) (d : ℚ) (p : Prog FlagState PUnit) (hK : ∀ k < n, K (p.runFor (k + 1) s)) :
    RunIn K longest ⟨s, ⟨d, p⟩ :: ps⟩ ⟨p.runFor n s, ⟨d, p.restFor n s⟩ :: ps⟩ :=
  Run.moves n d p s [] ps hK

/-- A call begins, and does its first `n` actions. -/
theorem RunIn.begin {p : Prog FlagState PUnit} (h : FlagTask (some (enableLiveTrading true)) s.now p)
    (hlongest : 0 ≤ longest) (n : ℕ) (hs : K s) (hK : ∀ k < n, K (p.runFor (k + 1) s)) :
    RunIn K longest ⟨s, ps⟩ ⟨p.runFor n s, ps ++ [⟨s.now + longest, p.restFor n s⟩]⟩ := by
  have hle : s.now ≤ s.now + longest := by linarith
  exact (Run.single ⟨TimedStep.start s ps (p := ⟨s.now + longest, p⟩) ⟨rfl, h⟩ hle, hs⟩ trivial).trans
    (Run.moves n _ p s ps [] hK)

/-- The last call of the pool is over. -/
theorem RunIn.over (ps : List (Timed FlagState ℚ)) (p : Timed FlagState ℚ) (hs : K s) : RunIn K longest ⟨s, ps ++ [p]⟩ ⟨s, ps⟩ := by
  have hstep : RunIn K longest ⟨s, ps ++ p :: []⟩ ⟨s, ps ++ []⟩ :=
    Run.single ⟨TimedStep.kill s ps [] p, hs⟩ trivial
  rwa [List.append_nil] at hstep

/-- Time passes. -/
theorem RunIn.pass (now : ℚ) (hnow : s.now ≤ now) (hps : ∀ p ∈ ps, now ≤ p.deadline) (hs : K { s with now }) :
    RunIn K longest ⟨s, ps⟩ ⟨{ s with now }, ps⟩ :=
  Run.single ⟨TimedStep.outside ps (Beside.pass s hnow) hps, hs⟩ trivial

/-- A whole call. -/
theorem RunIn.call {p : Prog FlagState PUnit} (h : FlagTask (some (enableLiveTrading true)) s.now p)
    (hlongest : 0 ≤ longest) (n : ℕ) (hs : K s) (hK : ∀ k < n, K (p.runFor (k + 1) s)) (hend : K (p.runFor n s)) :
    RunIn K longest ⟨s, ps⟩ ⟨p.runFor n s, ps⟩ :=
  (RunIn.begin h hlongest n hs hK).trans (RunIn.over _ _ hend)

end

/-! ### What the caches hold -/

/-- The override `False`, or another, where the revocation, if there is one, is at a time `late` allows. -/
def Recent (s : FlagState) (override : Option Bool) (late : ℚ → Prop) : Prop :=
  override = some false ∨ ∀ since, s.revokedSince = some since → late since

/-- Or one where a read in the process has failed, at a time `old` allows. -/
def Held (s : FlagState) (p : ProcessId) (override : Option Bool) (late old : ℚ → Prop) : Prop :=
  Recent s override late ∨ ∃ failed, (p, failed) ∈ s.failures ∧ old failed

/-- How the time, the revocation and the failed reads go on. -/
structure Moves (s t : FlagState) : Prop where
  /-- Time passes. -/
  now : s.now ≤ t.now
  /-- The row says `False` since the same time, or no longer, or now. -/
  since : t.revokedSince = s.revokedSince ∨ t.revokedSince = none ∨
    (s.revokedSince = none ∧ t.revokedSince = some t.now)
  /-- What has failed has failed. -/
  failures : ∀ f ∈ s.failures, f ∈ t.failures

section
variable {s t : FlagState} {p : ProcessId} {override : Option Bool} {late late' old old' : ℚ → Prop}

theorem Moves.refl (s : FlagState) : Moves s s := ⟨le_rfl, .inl rfl, fun _ h => h⟩

theorem Recent.mono (h : Recent s override late) (hlate : ∀ x, late x → late' x) : Recent s override late' :=
  h.imp id fun h since hs => hlate since (h since hs)

theorem Held.mono (h : Held s p override late old) (hlate : ∀ x, late x → late' x) (hold : ∀ x, old x → old' x) :
    Held s p override late' old' := by
  rcases h with h | ⟨failed, hf, h⟩
  · exact .inl (h.mono hlate)
  · exact .inr ⟨failed, hf, hold failed h⟩

/-- It stays so if a revocation now would be late enough. -/
theorem Recent.moves (h : Recent s override late) (hm : Moves s t) (hnow : late t.now) :
    Recent t override late := by
  rcases h with h | h
  · exact .inl h
  · refine .inr fun since hs => ?_
    rcases hm.since with hsame | hnone | ⟨-, hnew⟩
    · exact h since (hsame ▸ hs)
    · rw [hnone] at hs
      cases hs
    · rw [hnew] at hs
      cases hs
      exact hnow

theorem Held.moves (h : Held s p override late old) (hm : Moves s t) (hnow : late t.now) :
    Held t p override late old := by
  rcases h with h | ⟨failed, hf, h⟩
  · exact .inl (h.moves hm hnow)
  · exact .inr ⟨failed, hm.failures _ hf, h⟩

/-- Where there is no override, any value is held for the same reasons. -/
theorem Held.of_none (h : Held s p none late old) (value : Bool) : Held s p (some value) late old := by
  rcases h with (h | h) | h
  · cases h
  · exact .inl (.inr h)
  · exact .inr h

end

/-- How long after the revocation an entry of before may last. -/
def window (longest : ℚ) : ℚ := localCacheTtl + redisTtl + 2 * longest

/-- An entry of Redis. -/
def RedisOk (longest : ℚ) (s : FlagState) (e : Cached) : Prop :=
  e.expiry ≤ s.now + redisTtl ∧ Recent s e.override fun since => e.expiry ≤ since + longest + redisTtl

/-- An entry of a process. -/
def LocalOk (longest : ℚ) (s : FlagState) (p : ProcessId) (e : Cached) : Prop :=
  e.expiry ≤ s.now + localCacheTtl ∧
    Held s p e.override (fun since => e.expiry ≤ since + window longest)
      fun failed => e.expiry ≤ failed + localCacheTtl + longest

/-- An answer. -/
def AnswerOk (longest : ℚ) (s : FlagState) (a : Answer) : Prop :=
  a.began ≤ s.now ∧ (a.dbFails = true ∨
    Held s a.process (some a.permitted) (fun since => a.began < since + window longest)
      fun failed => failed ≤ a.ended ∧ a.began < failed + localCacheTtl + longest)

/-- What is cached, and what has been answered, fades. -/
structure Fades (longest : ℚ) (s : FlagState) : Prop where
  /-- The time of the revocation is there while the row says `False`. -/
  row : s.row = some false ↔ s.revokedSince.isSome
  /-- The revocation is not in the future. -/
  since : ∀ since, s.revokedSince = some since → since ≤ s.now
  /-- Nor are the failures. -/
  failures : ∀ f ∈ s.failures, f.2 ≤ s.now
  /-- The entry of Redis. -/
  redis : ∀ e, s.redis = some e → RedisOk longest s e
  /-- The entries of the processes. -/
  locals : ∀ p e, s.locals p = some e → LocalOk longest s p e
  /-- The answers. -/
  answers : ∀ a ∈ s.answers, AnswerOk longest s a

theorem fades_initial (longest now : ℚ) (setting row : Option Bool) :
    Fades longest (FlagState.initial now setting row) where
  row := by
    unfold FlagState.initial
    split <;> simp_all
  since since h := by
    unfold FlagState.initial at h ⊢
    dsimp only at h ⊢
    split at h
    · cases h
      exact le_rfl
    · cases h
  failures _ h := absurd h List.not_mem_nil
  redis _ h := absurd h (Option.some_ne_none _).symm
  locals _ _ h := absurd h (Option.some_ne_none _).symm
  answers _ h := absurd h List.not_mem_nil

section
variable {longest : ℚ} (hlongest : 0 ≤ longest) {s t : FlagState}
include hlongest

theorem RedisOk.moves {e : Cached} (h : RedisOk longest s e) (hm : Moves s t) : RedisOk longest t e := by
  have hle : e.expiry ≤ t.now + redisTtl := h.1.trans (by linarith [hm.now])
  exact ⟨hle, h.2.moves hm (by linarith)⟩

theorem LocalOk.moves {p : ProcessId} {e : Cached} (h : LocalOk longest s p e) (hm : Moves s t) :
    LocalOk longest t p e := by
  have hle : e.expiry ≤ t.now + localCacheTtl := h.1.trans (by linarith [hm.now])
  refine ⟨hle, h.2.moves hm ?_⟩
  unfold window redisTtl
  linarith

theorem AnswerOk.moves {a : Answer} (h : AnswerOk longest s a) (hm : Moves s t) : AnswerOk longest t a := by
  have hle : a.began ≤ t.now := h.1.trans hm.now
  refine ⟨hle, h.2.imp id fun hheld => hheld.moves hm ?_⟩
  unfold window redisTtl localCacheTtl
  linarith

/-- What is as before, or as it should be. -/
theorem Fades.moves (h : Fades longest s) (hm : Moves s t)
    (hrow : t.row = some false ↔ t.revokedSince.isSome)
    (hsince : ∀ since, t.revokedSince = some since → since ≤ t.now)
    (hfailures : ∀ f ∈ t.failures, f ∈ s.failures ∨ f.2 ≤ t.now)
    (hredis : ∀ e, t.redis = some e → s.redis = some e ∨ RedisOk longest t e)
    (hlocals : ∀ p e, t.locals p = some e → s.locals p = some e ∨ LocalOk longest t p e)
    (hanswers : ∀ a ∈ t.answers, a ∈ s.answers ∨ AnswerOk longest t a) : Fades longest t where
  row := hrow
  since := hsince
  failures f hf := (hfailures f hf).elim (fun hf => (h.failures f hf).trans hm.now) id
  redis e he := (hredis e he).elim (fun he => (h.redis e he).moves hlongest hm) id
  locals p e he := (hlocals p e he).elim (fun he => (h.locals p e he).moves hlongest hm) id
  answers a ha := (hanswers a ha).elim (fun ha => (h.answers a ha).moves hlongest hm) id

end

/-! ### What a step may change -/

/-- The changes that the calls, and what happens beside them, may make. -/
structure Change (longest : ℚ) (s t : FlagState) : Prop extends Moves s t where
  /-- What is cached goes on fading. -/
  fades : Fades longest s → Fades longest t

section
variable {longest : ℚ} (hlongest : 0 ≤ longest) {s t : FlagState} {p : ProcessId}

theorem Change.refl (s : FlagState) : Change longest s s := ⟨Moves.refl s, id⟩

include hlongest

/-- A change of what is cached or has been answered, and of nothing else. -/
theorem Change.of_same (hnow : t.now = s.now) (hrow : t.row = s.row) (hsince : t.revokedSince = s.revokedSince)
    (hsub : ∀ f ∈ s.failures, f ∈ t.failures) (hfailures : ∀ f ∈ t.failures, f ∈ s.failures ∨ f.2 ≤ t.now)
    (hredis : ∀ e, t.redis = some e → s.redis = some e ∨ RedisOk longest t e)
    (hlocals : ∀ p e, t.locals p = some e → s.locals p = some e ∨ LocalOk longest t p e)
    (hanswers : ∀ a ∈ t.answers, a ∈ s.answers ∨ AnswerOk longest t a) : Change longest s t := by
  have hm : Moves s t := ⟨hnow.ge, .inl hsince, hsub⟩
  refine ⟨hm, fun h => h.moves hlongest hm ?_ ?_ hfailures hredis hlocals hanswers⟩
  · rw [hrow, hsince]
    exact h.row
  · rw [hsince, hnow]
    exact h.since

/-- A read of the row has failed. -/
theorem change_failure (s : FlagState) (p : ProcessId) :
    Change longest s { s with failures := s.failures ++ [(p, s.now)] } := by
  refine .of_same hlongest rfl rfl rfl (fun f hf => List.mem_append_left _ hf) (fun f hf => ?_)
    (fun e he => .inl he) (fun p e he => .inl he) fun a ha => .inl ha
  rcases List.mem_append.mp hf with hf | hf
  · exact .inl hf
  · rw [List.mem_singleton.mp hf]
    exact .inr le_rfl

/-- A value that is no older than a call is written to Redis. -/
theorem change_setRedis {override : Option Bool} (h : Recent s override fun since => s.now ≤ since + longest) :
    Change longest s { s with redis := some ⟨override, s.now + redisTtl⟩ } := by
  refine .of_same hlongest rfl rfl rfl (fun f hf => hf) (fun f hf => .inl hf) (fun e he => .inr ?_)
    (fun p e he => .inl he) fun a ha => .inl ha
  cases he
  refine ⟨le_rfl, h.mono fun since hs => ?_⟩
  dsimp only
  linarith

/-- An entry of a process is written, or dropped. -/
theorem change_setLocal {entry : Option Cached} (h : ∀ e, entry = some e → LocalOk longest s p e) :
    Change longest s (s.setLocal p entry) := by
  refine .of_same hlongest rfl rfl rfl (fun f hf => hf) (fun f hf => .inl hf) (fun e he => .inl he)
    (fun q e he => ?_) fun a ha => .inl ha
  by_cases hq : q = p
  · subst hq
    simp only [FlagState.setLocal, Function.update_self] at he
    exact .inr (h e he)
  · simp only [FlagState.setLocal, Function.update_of_ne hq] at he
    exact .inl he

/-- A call has been answered. -/
theorem change_answer {a : Answer} (h : AnswerOk longest s a) :
    Change longest s { s with answers := s.answers ++ [a] } := by
  refine .of_same hlongest rfl rfl rfl (fun f hf => hf) (fun f hf => .inl hf) (fun e he => .inl he)
    (fun q e he => .inl he) fun b hb => ?_
  rcases List.mem_append.mp hb with hb | hb
  · exact .inl hb
  · rw [List.mem_singleton.mp hb]
    exact .inr h

/-- The row is written. -/
theorem change_commit (s : FlagState) (enabled : Bool) : Change longest s (s.commit enabled) := by
  have hm : Moves s (s.commit enabled) := by
    refine ⟨le_rfl, ?_, fun f hf => hf⟩
    cases enabled with
    | true => exact .inr (.inl rfl)
    | false =>
      cases hs : s.revokedSince with
      | none => exact .inr (.inr ⟨rfl, by simp [FlagState.commit, hs]⟩)
      | some since => exact .inl (by simp [FlagState.commit, hs])
  refine ⟨hm, fun h => h.moves hlongest hm ?_ ?_ (fun f hf => .inl hf) (fun e he => .inl he)
    (fun q e he => .inl he) fun a ha => .inl ha⟩
  · cases enabled <;> simp [FlagState.commit]
  · intro since hs
    cases enabled with
    | true => cases hs
    | false =>
      cases hr : s.revokedSince with
      | none =>
        simp only [FlagState.commit, hr] at hs
        cases hs
        exact le_rfl
      | some r =>
        simp only [FlagState.commit, hr] at hs
        cases hs
        exact h.since r hr

/-- What happens beside the calls. -/
theorem Beside.change (h : Beside s t) : Change longest s t := by
  cases h with
  | @pass now hnow =>
    have hm : Moves s { s with now } := ⟨hnow, .inl rfl, fun f hf => hf⟩
    exact ⟨hm, fun h => h.moves hlongest hm h.row (fun since hs => (h.since since hs).trans hnow)
      (fun f hf => .inl hf) (fun e he => .inl he) (fun p e he => .inl he) fun a ha => .inl ha⟩
  | deploy setting =>
    exact .of_same hlongest rfl rfl rfl (fun f hf => hf) (fun f hf => .inl hf) (fun e he => .inl he)
      (fun p e he => .inl he) fun a ha => .inl ha
  | evict =>
    exact .of_same hlongest rfl rfl rfl (fun f hf => hf) (fun f hf => .inl hf) (fun e he => absurd he (Option.some_ne_none e).symm)
      (fun p e he => .inl he) fun a ha => .inl ha
  | restart p => exact change_setLocal hlongest fun e he => absurd he (Option.some_ne_none e).symm

end

/-! ### What a call knows -/

section
variable {longest began : ℚ} {p : ProcessId}

/-- The time of a call. -/
def Running (longest began : ℚ) (s : FlagState) : Prop :=
  Fades longest s ∧ began ≤ s.now ∧ s.now ≤ began + longest

/-- A call that began at `began`, and knows `F`, makes only changes; at its end it knows `Q`. -/
def Keeps {α : Type} (longest began : ℚ) (F : FlagState → Prop) (prog : Prog FlagState α)
    (Q : α → FlagState → Prop) : Prop :=
  prog.Guarantees (Within FlagState.now (Change longest) (began + longest))
    (fun s t => Change longest s t ∧ t.now = s.now) (fun a s => Running longest began s ∧ Q a s)
    fun s => Running longest began s ∧ F s

theorem Keeps.ret {α : Type} {F : FlagState → Prop} {a : α} {Q : α → FlagState → Prop}
    (h : ∀ s, Running longest began s → F s → Q a s) : Keeps longest began F (pure a) Q :=
  fun s hs => ⟨hs.1, h s hs.1 hs.2⟩

theorem Keeps.bind {α β : Type} {F : FlagState → Prop} {prog : Prog FlagState α} {f : α → Prog FlagState β}
    {Q : α → FlagState → Prop} {Q' : β → FlagState → Prop} (hp : Keeps longest began F prog Q)
    (hf : ∀ a, Keeps longest began (Q a) (f a) Q') : Keeps longest began F (prog >>= f) Q' :=
  Prog.Guarantees.bind hp hf

theorem Keeps.mono {α : Type} {F F' : FlagState → Prop} {prog : Prog FlagState α} {Q : α → FlagState → Prop}
    (h : Keeps longest began F prog Q) (hF : ∀ s, F' s → F s) : Keeps longest began F' prog Q :=
  Prog.Guarantees.mono h fun s hs => ⟨hs.1, hF s hs.2⟩

theorem Keeps.weaken {α : Type} {F : FlagState → Prop} {prog : Prog FlagState α} {Q Q' : α → FlagState → Prop}
    (h : Keeps longest began F prog Q) (hQ : ∀ a s, Running longest began s → Q a s → Q' a s) :
    Keeps longest began F prog Q' :=
  Prog.Guarantees.imp (fun a s hs => ⟨hs.1, hQ a s hs.1 hs.2⟩) h

/-- One action. -/
theorem Keeps.atomic {α : Type} {F : FlagState → Prop} {upd : FlagState → FlagState} {out : FlagState → α}
    {Q : α → FlagState → Prop}
    (hG : ∀ s, Running longest began s → F s → Change longest s (upd s) ∧ (upd s).now = s.now)
    (hst : ∀ a s t, Running longest began t → Moves s t → Q a s → Q a t)
    (hQ : ∀ s, Running longest began s → F s → Q (out s) (upd s)) :
    Keeps longest began F (Prog.atomic upd out) Q := by
  refine Prog.Guarantees.atomic (fun s hs => hG s hs.1 hs.2) (fun a s t hst' hs => ?_) fun s hs => ?_
  · obtain ⟨⟨hfades, hbegan, -⟩, hq⟩ := hs
    have hrun : Running longest began t := ⟨hst'.1.fades hfades, hbegan.trans hst'.1.now, hst'.2⟩
    exact ⟨hrun, hst a s t hrun hst'.1.toMoves hq⟩
  · obtain ⟨hchange, hnow⟩ := hG s hs.1 hs.2
    obtain ⟨hfades, hbegan, hle⟩ := hs.1
    exact ⟨⟨hchange.fades hfades, hnow.symm ▸ hbegan, hnow.symm ▸ hle⟩, hQ s hs.1 hs.2⟩

/-- A look at the state. -/
theorem Keeps.read {α : Type} {F : FlagState → Prop} {out : FlagState → α} {Q : α → FlagState → Prop}
    (hst : ∀ a s t, Running longest began t → Moves s t → Q a s → Q a t)
    (hQ : ∀ s, Running longest began s → F s → Q (out s) s) : Keeps longest began F (Prog.read out) Q :=
  .atomic (fun s _ _ => ⟨Change.refl s, rfl⟩) hst hQ

/-- The call looked the override up itself, or copied it from Redis. -/
def Found (longest began : ℚ) (p : ProcessId) (override : Option Bool) (s : FlagState) : Prop :=
  Held s p override (fun since => began ≤ since + longest + redisTtl) fun failed => began ≤ failed

/-- What the override may be at the end. -/
def Known (longest began : ℚ) (p : ProcessId) (override : Option Bool) (s : FlagState) : Prop :=
  Held s p override (fun since => began < since + window longest)
    fun failed => failed ≤ s.now ∧ began < failed + localCacheTtl + longest

section
variable (hlongest : 0 ≤ longest)
include hlongest

theorem Found.moves {override : Option Bool} {s t : FlagState} (h : Found longest began p override s)
    (ht : Running longest began t) (hm : Moves s t) : Found longest began p override t := by
  apply Held.moves h hm
  have := ht.2.1
  unfold redisTtl
  linarith

/-- What is looked up in time is known at the end. -/
theorem Found.known {override : Option Bool} {s : FlagState} (h : Found longest began p override s)
    (hs : Running longest began s) : Known longest began p override s := by
  rcases h with h | ⟨failed, hf, hle⟩
  · refine .inl (h.mono fun since hsince => ?_)
    unfold window localCacheTtl
    linarith
  · refine .inr ⟨failed, hf, hs.1.failures _ hf, ?_⟩
    unfold localCacheTtl
    linarith

theorem Known.moves {override : Option Bool} {s t : FlagState} (h : Known longest began p override s)
    (ht : Running longest began t) (hm : Moves s t) : Known longest began p override t := by
  have hbegan := ht.2.1
  refine (Held.moves h hm ?_).mono (fun _ h => h) fun failed hf => ⟨hf.1.trans hm.now, hf.2⟩
  unfold window localCacheTtl redisTtl
  linarith

/-! ### What the calls do -/

/-- An override that has been found is cached in the process. -/
theorem cacheLocal_keeps (override : Option Bool) :
    Keeps longest began (Found longest began p override) (cacheLocal p override)
      fun _ => Found longest began p override := by
  -- the clock is read before the entry is written, which can only expire the earlier
  refine Keeps.bind (Q := fun now s => Found longest began p override s ∧ now ≤ s.now ∧ now ≤ began + longest)
    (.read (fun now s t ht hm h => ⟨h.1.moves hlongest ht hm, h.2.1.trans hm.now, h.2.2⟩)
      fun s hs h => ⟨h, le_rfl, hs.2.2⟩) fun now => ?_
  refine .atomic (fun s hs h => ⟨change_setLocal hlongest fun e he => ?_, rfl⟩)
    (fun _ s t ht hm h => h.moves hlongest ht hm) fun s hs h => h.1
  obtain ⟨hfound, hnow, hle⟩ := h
  cases he
  refine ⟨by dsimp only; linarith, Held.mono hfound (fun since h => ?_) fun failed h => ?_⟩
  · dsimp only [window]
    linarith
  · dsimp only
    linarith

/-- What the read of the row finds: no failure that is not accounted for, and no value of before the call. -/
def Read (env : FlagEnv) (began : ℚ) (p : ProcessId) (found : Except DbError (Option Bool)) (s : FlagState) : Prop :=
  (∀ error, found = .error error → env.dbError = some error ∧
    (error = .other → ∃ failed, (p, failed) ∈ s.failures ∧ began ≤ failed)) ∧
  ∀ override, found = .ok override → Recent s override fun since => began ≤ since

theorem readRow_keeps (env : FlagEnv) :
    Keeps longest began (fun _ => True) (readRow env p) (Read env began p) := by
  refine .atomic (fun s hs _ => ?_) (fun found s t ht hm h => ⟨fun error he => ?_, fun override ho => ?_⟩)
    fun s hs _ => ⟨fun error he => ?_, fun override ho => ?_⟩
  · split
    · exact ⟨change_failure hlongest s p, rfl⟩
    · exact ⟨Change.refl s, rfl⟩
  · obtain ⟨hdb, hfailed⟩ := h.1 error he
    refine ⟨hdb, fun ho => ?_⟩
    obtain ⟨failed, hf, hle⟩ := hfailed ho
    exact ⟨failed, hm.failures _ hf, hle⟩
  · exact (h.2 override ho).moves hm ht.2.1
  · cases hdb : env.dbError with
    | none => simp [hdb] at he
    | some e =>
      simp only [hdb] at he
      cases he
      refine ⟨rfl, fun ho => ⟨s.now, ?_, hs.2.1⟩⟩
      simp [ho]
  · cases hdb : env.dbError with
    | some e => simp [hdb] at ho
    | none =>
      simp only [hdb] at ho
      cases ho
      rw [if_neg (by simp)]
      -- a row that does not say `False` has not been revoked
      refine (Decidable.em (s.row = some false)).imp id fun hrow since hsince => absurd (hs.1.row.mpr ?_) hrow
      rw [hsince]
      rfl

theorem setRedis_keeps (writes : Bool) (override : Option Bool) :
    Keeps longest began (fun s => Recent s override fun since => began ≤ since) (setRedis writes override)
      fun _ s => Recent s override fun since => began ≤ since := by
  refine .atomic (fun s hs h => ?_) (fun _ s t ht hm h => h.moves hm ht.2.1) fun s hs h => ?_
  · split
    · refine ⟨change_setRedis hlongest (h.mono fun since hle => ?_), rfl⟩
      linarith [hs.2.2]
    · exact ⟨Change.refl s, rfl⟩
  · split <;> exact h

/-- The override that a call finds in the row, unless the read fails. -/
theorem resolveRow_keeps (env : FlagEnv) :
    Keeps longest began (fun _ => True) (resolveRow env p)
      fun override s => env.dbError.isSome = true ∨ Found longest began p override s := by
  refine (readRow_keeps hlongest env).bind fun found => ?_
  rcases found with error | override
  · have hdb : ∀ s, Read env began p (.error error) s → env.dbError.isSome = true := by
      intro s h
      rw [(h.1 error rfl).1]
      rfl
    cases error with
    | notReady => exact .ret fun s _ h => .inl (hdb s h)
    | other =>
      have hfound : ∀ s, Read env began p (.error .other) s →
          env.dbError.isSome = true ∧ Found longest began p none s :=
        fun s h => ⟨hdb s h, .inr ((h.1 .other rfl).2 rfl)⟩
      by_cases hsome : env.dbError.isSome = true
      · exact ((cacheLocal_keeps hlongest none).mono fun s h => (hfound s h).2).bind fun _ =>
          .ret fun _ _ _ => .inl hsome
      · exact ((cacheLocal_keeps hlongest none).mono fun s h => (hfound s h).2).bind fun _ =>
          .ret fun _ _ h => .inr h
  · refine ((setRedis_keeps hlongest env.redisWrites override).mono fun s h => h.2 override rfl).bind fun _ => ?_
    refine ((cacheLocal_keeps hlongest override).mono fun s h => ?_).bind fun _ => .ret fun _ _ h => .inr h
    refine .inl (h.mono fun since hle => ?_)
    unfold redisTtl
    linarith

/-- The override that a call finds in Redis or in the row. -/
theorem resolveShared_keeps (env : FlagEnv) :
    Keeps longest began (fun _ => True) (resolveShared env p)
      fun override s => env.dbError.isSome = true ∨ Found longest began p override s := by
  refine Keeps.bind (Q := fun cached s => ∀ override, cached = some override → Found longest began p override s)
    (.read (fun cached s t ht hm h override ho => (h override ho).moves hlongest ht hm)
      fun s hs _ override ho => ?_) fun cached => ?_
  · have hentry : ∃ e, s.redis = some e ∧ s.now < e.expiry ∧ e.override = override := by
      have hsome : s.redisEntry = some override := by
        split at ho
        · exact ho
        · cases ho
      simpa [FlagState.redisEntry, Option.bind_eq_some_iff] using hsome
    obtain ⟨e, he, hlt, rfl⟩ := hentry
    refine .inl ((hs.1.redis e he).2.mono fun since hle => ?_)
    linarith [hs.2.1]
  · cases cached with
    | some override =>
      exact ((cacheLocal_keeps hlongest override).mono fun s h => h override rfl).bind fun _ =>
        .ret fun _ _ h => .inr h
    | none => exact (resolveRow_keeps hlongest env).mono fun _ _ => trivial

/-- The override that a call comes to. -/
theorem resolveOverride_keeps (env : FlagEnv) :
    Keeps longest began (fun _ => True) (resolveOverride env p)
      fun override s => env.dbError.isSome = true ∨ Known longest began p override s := by
  have hshared : Keeps longest began (fun _ => True) (resolveShared env p)
      fun override s => env.dbError.isSome = true ∨ Known longest began p override s :=
    (resolveShared_keeps hlongest env).weaken fun override s hs h => h.imp id fun h => h.known hlongest hs
  refine Keeps.bind (Q := fun hit s => ∀ e, hit = some e → LocalOk longest s p e)
    (.read (fun hit s t ht hm h e he => (h e he).moves hlongest hm) fun s hs _ e he => hs.1.locals p e he)
    fun hit => ?_
  refine Keeps.bind (Q := fun now s => began ≤ now ∧ ∀ e, hit = some e → LocalOk longest s p e)
    (.read (fun now s t ht hm h => ⟨h.1, fun e he => (h.2 e he).moves hlongest hm⟩)
      fun s hs h => ⟨hs.2.1, h⟩) fun now => ?_
  cases hit with
  | none => exact hshared.mono fun _ _ => trivial
  | some e =>
    dsimp only
    split
    · rename_i hlt
      refine .ret fun s hs h => .inr ?_
      rcases (h.2 e rfl).2 with hrecent | ⟨failed, hf, hle⟩
      · exact .inl (hrecent.mono fun since hle => by linarith [h.1])
      · exact .inr ⟨failed, hf, hs.1.failures _ hf, by linarith [h.1]⟩
    · exact hshared.mono fun _ _ => trivial

/-- What `is_enabled` says of the flag. -/
theorem isEnabled_keeps (env : FlagEnv) (default : Bool) :
    Keeps longest began (fun _ => True) (isEnabled env p (some (enableLiveTrading default)))
      fun enabled s => env.dbError.isSome = true ∨ Known longest began p (some enabled) s := by
  refine (resolveOverride_keeps hlongest env).bind fun override => ?_
  cases override with
  | some enabled => exact .ret fun _ _ h => h
  | none =>
    exact .read (fun enabled s t ht hm h => h.imp id fun h => h.moves hlongest ht hm)
      fun s _ h => h.imp id fun h => Held.of_none h _

theorem liveTradingPermitted_keeps (env : FlagEnv) (default : Bool) :
    Keeps longest began (fun _ => True) (liveTradingPermitted env p (some (enableLiveTrading default)))
      fun answer s => env.dbError.isSome = true ∨ Known longest began p (some answer) s := by
  refine Keeps.bind (Q := fun _ _ => True) (.read (fun _ _ _ _ _ h => h) fun _ _ h => h) fun armed => ?_
  cases armed with
  | false => exact .ret fun _ _ _ => .inr (.inl (.inl rfl))
  | true => exact isEnabled_keeps hlongest env default

theorem setFlag_keeps (env : FlagEnv) (default commits redisWrites enabled : Bool) :
    Keeps longest began (fun _ => True)
      (setFlag env p (some (enableLiveTrading default)) commits redisWrites enabled) fun _ _ => True := by
  refine ((isEnabled_keeps hlongest env default).mono fun _ _ => trivial).bind fun _ => ?_
  cases commits with
  | false => exact .ret fun _ _ _ => trivial
  | true =>
    refine Keeps.bind (Q := fun _ s => Recent s (some enabled) fun since => began ≤ since)
      (.atomic (fun s _ _ => ⟨change_commit hlongest s enabled, rfl⟩)
        (fun _ s t ht hm h => h.moves hm ht.2.1) fun s _ _ => ?_) fun _ => ?_
    · cases enabled with
      | false => exact .inl rfl
      | true => exact .inr fun since hs => absurd hs (Option.some_ne_none since).symm
    · refine (setRedis_keeps hlongest redisWrites (some enabled)).bind fun _ => ?_
      refine Keeps.bind (Q := fun _ _ => True) (.atomic (fun s _ _ => ⟨?_, rfl⟩) (fun _ _ _ _ _ h => h)
        fun _ _ _ => trivial) fun _ => .ret fun _ _ _ => trivial
      exact change_setLocal hlongest fun e he => absurd he (Option.some_ne_none e).symm

/-- Every call makes only changes. -/
theorem flagTask_starts (default : Bool) :
    Starts FlagState.now (Fades longest) (Change longest)
      fun began deadline p => deadline = began + longest ∧ FlagTask (some (enableLiveTrading default)) began p := by
  rintro began deadline prog ⟨rfl, htask⟩
  have hstart : Keeps longest began (fun _ => True) prog fun _ _ => True := by
    cases htask with
    | permitted env p =>
      refine (liveTradingPermitted_keeps (p := p) hlongest env default).bind fun answer => ?_
      refine .atomic (fun s hs h => ⟨change_answer hlongest ⟨hs.2.1, h.imp id fun h => ?_⟩, rfl⟩)
        (fun _ _ _ _ _ h => h) fun _ _ _ => trivial
      exact h
    | enabled env p => exact (isEnabled_keeps hlongest env default).bind fun _ => .ret fun _ _ _ => trivial
    | flip env p commits redisWrites enabled =>
      exact (setFlag_keeps hlongest env default commits redisWrites enabled).bind fun _ =>
        .ret fun _ _ _ => trivial
  exact (Prog.Guarantees.imp (fun _ _ _ => trivial) hstart).mono fun s hs => ⟨hs, trivial⟩

end

end

/-! ### Every run -/

section
variable {longest : ℚ} {default : Bool}

theorem FlagStep.good (hlongest : 0 ≤ longest) {P Q : TimedPool FlagState ℚ} {a : PoolAct}
    (h : FlagStep longest default P a Q) (hP : P.Good FlagState.now (Fades longest) (Change longest)) :
    Q.Good FlagState.now (Fades longest) (Change longest) ∧
      (Change longest P.state Q.state ∨ Q.state = P.state) :=
  TimedStep.good (fun _ _ hs hst => hst.fades hs) (fun _ _ hst => hst.now) (flagTask_starts hlongest default)
    (fun _ _ he => he.change hlongest) h hP

/-- **A revocation keeps**: since the row says `False`, and as long as it does, a call that begins after the
window is told that live trading is not permitted; unless its read of the row fails, or the failure of one in
its process was cached, and lasted when the call began. -/
theorem revoked_stays_revoked (hlongest : 0 ≤ longest) {now : ℚ} {setting row : Option Bool}
    {P₀ P : TimedPool FlagState ℚ}
    (hrun : Run (FlagStep longest default) AnyStep ⟨FlagState.initial now setting row, []⟩ P₀)
    (hrevoked : P₀.state.row = some false)
    (hkept : Run (fun P a Q => FlagStep longest default P a Q ∧ Q.state.row = some false) AnyStep P₀ P)
    {answer : Answer} (ha : answer ∈ P.state.answers)
    (hafter : P₀.state.now + (localCacheTtl + redisTtl + 2 * longest) ≤ answer.began) :
    answer.permitted = false ∨ answer.dbFails = true ∨
      ∃ failed, (answer.process, failed) ∈ P.state.failures ∧ failed ≤ answer.ended ∧
        answer.began < failed + localCacheTtl + longest := by
  have hgood₀ : P₀.Good FlagState.now (Fades longest) (Change longest) :=
    TimedPool.kept (fun _ _ hs hst => hst.fades hs) (fun _ _ hst => hst.now) (flagTask_starts hlongest default)
      (fun _ _ he => he.change hlongest) (fades_initial longest now setting row) hrun
  obtain ⟨since, hsince⟩ := Option.isSome_iff_exists.mp (hgood₀.1.row.mp hrevoked)
  have hinv := hkept.invariant (fun P => P.Good FlagState.now (Fades longest) (Change longest) ∧
      P.state.revokedSince = some since) ⟨hgood₀, hsince⟩ fun {a s t} hstep _ hP => by
    obtain ⟨hgood, hchange⟩ := FlagStep.good hlongest hstep.1 hP.1
    refine ⟨hgood, ?_⟩
    rcases hchange with hchange | heq
    · have hsome := hgood.1.row.mp hstep.2
      rcases hchange.since with hsame | hnone | ⟨hnone, -⟩
      · rw [hsame]
        exact hP.2
      · rw [hnone] at hsome
        cases hsome
      · rw [hP.2] at hnone
        cases hnone
    · rw [heq]
      exact hP.2
  obtain ⟨-, hok⟩ := hinv.1.1.answers answer ha
  rcases hok with hdb | (hpermitted | hlate) | hfailed
  · exact .inr (.inl hdb)
  · exact .inl (Option.some.inj hpermitted)
  · have hle := hgood₀.1.since since hsince
    have hlt := hlate since hinv.2
    unfold window at hlt
    linarith
  · exact .inr (.inr hfailed)

end

/-- Nothing raises. -/
def quietEnv : FlagEnv := ⟨true, none, true⟩

/-- A call that asks for the flag. -/
abbrev askLive := ask (some (enableLiveTrading true))

/-- `set_flag("ENABLE_LIVE_TRADING", False)` in process 0. -/
def revocation : Prog FlagState PUnit := do
  let _ ← setFlag quietEnv 0 (some (enableLiveTrading true)) true true false
  return

/-- The row is written and every call is over, at time 0. -/
def revokedState : FlagState := revocation.runFor 12 (.initial 0 (some true) none)

theorem revocation_run : RunIn (fun _ => True) 0 ⟨.initial 0 (some true) none, []⟩ ⟨revokedState, []⟩ :=
  .call (.flip _ _ _ _ _) le_rfl 12 trivial (fun _ _ => trivial) trivial

/-- A process asks 90 seconds after the revocation. -/
theorem revoked_stays_revoked_asked :
    let told := (askLive quietEnv 1 90).runFor 12 { revokedState with now := 90 }
    (⟨1, 90, 90, false, false⟩ : Answer) ∈ told.answers ∧
      ((⟨1, 90, 90, false, false⟩ : Answer).permitted = false ∨ (false : Bool) = true ∨
        ∃ failed, (1, failed) ∈ told.failures ∧ failed ≤ 90 ∧ 90 < failed + localCacheTtl + 0) := by
  intro told
  have htime : RevokedRun 0 ⟨revokedState, []⟩ ⟨{ revokedState with now := 90 }, []⟩ :=
    .pass _ (by decide +kernel) (fun p hp => absurd hp List.not_mem_nil) (by decide +kernel)
  have hask : RevokedRun 0 ⟨{ revokedState with now := 90 }, []⟩ ⟨told, []⟩ :=
    .call (.permitted _ _) le_rfl 12 (by decide +kernel) (by decide +kernel) (by decide +kernel)
  have ha : (⟨1, 90, 90, false, false⟩ : Answer) ∈ told.answers := by decide +kernel
  exact ⟨ha, revoked_stays_revoked le_rfl revocation_run.run (by decide +kernel) (htime.trans hask) ha
    (by decide +kernel)⟩

/-! ### Two runs -/

/-- A run in which the row says `False` from `P₀` on, and a call that begins when both times to live have passed
is told that live trading is permitted. -/
structure Unrevoked (longest : ℚ) (P₀ P : TimedPool FlagState ℚ) (answer : Answer) : Prop where
  /-- The run up to the revocation. -/
  run : ∃ now setting row, Run (FlagStep longest true) AnyStep ⟨FlagState.initial now setting row, []⟩ P₀
  /-- The revocation. -/
  revoked : P₀.state.row = some false
  /-- The run since. -/
  kept : Run (fun P a Q => FlagStep longest true P a Q ∧ Q.state.row = some false) AnyStep P₀ P
  /-- The call. -/
  told : answer ∈ P.state.answers
  /-- It begins when both times to live have passed. -/
  after : P₀.state.now + (localCacheTtl + redisTtl) ≤ answer.began
  /-- It is told that live trading is permitted. -/
  permitted : answer.permitted = true

/-- The read of the row raises. -/
def failingEnv : FlagEnv := ⟨true, some .other, true⟩

/-- At time 1000 a process asks, while the row cannot be read. -/
def failedState : FlagState := (askLive failingEnv 1 1000).runFor 12 { revokedState with now := 1000 }

/-- The row says `True`, at time 0. -/
def armedState : FlagState := .initial 0 (some true) (some true)

/-- A call that has looked up the row at time 0, and what is left of it. -/
def slowCall : Timed FlagState ℚ := ⟨armedState.now + 10, (askLive quietEnv 1 0).restFor 5 armedState⟩

/-- It has looked up the row, and then the row is written. -/
def racedState : FlagState := revocation.runFor 12 ((askLive quietEnv 1 0).runFor 5 armedState)

/-- At time 10 it writes what it has found to Redis. -/
def overwrittenState : FlagState := slowCall.program.runFor 12 { racedState with now := 10 }

/-- At time 69 another call finds that in Redis. -/
def copiedState : FlagState := (askLive quietEnv 3 69).runFor 4 { overwrittenState with now := 69 }

/-- What is left of this call. -/
def copyingCall : Timed FlagState ℚ :=
  ⟨(69 : ℚ) + 10, (askLive quietEnv 3 69).restFor 4 { overwrittenState with now := 69 }⟩

/-- At time 79 it caches what it has found in its process. -/
def cachedState : FlagState := copyingCall.program.runFor 12 { copiedState with now := 79 }

/-- At time 108 that process asks again. -/
def staleState : FlagState := (askLive quietEnv 3 108).runFor 12 { cachedState with now := 108 }

/-- Live trading is permitted although it has been revoked for longer than both times to live: when the row cannot
be read; and, with nothing failing, when calls take 10 seconds. -/
theorem not_revoked_stays_revoked :
    (∃ P₀ P answer, Unrevoked 0 P₀ P answer) ∧
      ∃ P₀ P answer, Unrevoked 10 P₀ P answer ∧ P.state.failures = [] ∧ answer.dbFails = false := by
  constructor
  · have hpass : RevokedRun 0 ⟨revokedState, []⟩ ⟨{ revokedState with now := 1000 }, []⟩ :=
      .pass _ (by decide +kernel) (fun p hp => absurd hp List.not_mem_nil) (by decide +kernel)
    have hask : RevokedRun 0 ⟨{ revokedState with now := 1000 }, []⟩ ⟨failedState, []⟩ :=
      .call (.permitted _ _) le_rfl 12 (by decide +kernel) (by decide +kernel) (by decide +kernel)
    exact ⟨⟨revokedState, []⟩, ⟨failedState, []⟩, ⟨1, 1000, 1000, true, true⟩, ⟨0, some true, none, revocation_run.run⟩,
      by decide +kernel, hpass.trans hask, by decide +kernel, by decide +kernel, rfl⟩
  · have hslow : (0 : ℚ) ≤ 10 := by decide +kernel
    have hlook : RunIn (fun _ => True) 10 ⟨armedState, []⟩ ⟨(askLive quietEnv 1 0).runFor 5 armedState, [slowCall]⟩ :=
      .begin (.permitted _ _) hslow 5 trivial fun _ _ => trivial
    have hraced : RunIn (fun _ => True) 10 ⟨(askLive quietEnv 1 0).runFor 5 armedState, [slowCall]⟩
        ⟨racedState, [slowCall]⟩ := .call (.flip _ _ _ _ _) hslow 12 trivial (fun _ _ => trivial) trivial
    have htime : RevokedRun 10 ⟨racedState, [slowCall]⟩ ⟨{ racedState with now := 10 }, [slowCall]⟩ := by
      refine .pass _ (by decide +kernel) (fun p hp => ?_) (by decide +kernel)
      rw [List.mem_singleton.mp hp]
      decide +kernel
    have hwrite : RevokedRun 10 ⟨{ racedState with now := 10 }, [slowCall]⟩ ⟨overwrittenState, []⟩ :=
      (RunIn.moves 12 slowCall.deadline slowCall.program (by decide +kernel)).trans
        (.over [] _ (by decide +kernel))
    have hcopy : RevokedRun 10 ⟨overwrittenState, []⟩ ⟨copiedState, [copyingCall]⟩ :=
      (RunIn.pass 69 (by decide +kernel) (fun p hp => absurd hp List.not_mem_nil) (by decide +kernel)).trans
        (.begin (.permitted _ _) hslow 4 (by decide +kernel) (by decide +kernel))
    have hcache : RevokedRun 10 ⟨copiedState, [copyingCall]⟩ ⟨cachedState, []⟩ := by
      refine (RunIn.pass 79 (by decide +kernel) (fun p hp => ?_) (by decide +kernel)).trans
        ((RunIn.moves 12 copyingCall.deadline copyingCall.program (by decide +kernel)).trans
          (.over [] _ (by decide +kernel)))
      rw [List.mem_singleton.mp hp]
      decide +kernel
    have hask : RevokedRun 10 ⟨cachedState, []⟩ ⟨staleState, []⟩ :=
      (RunIn.pass 108 (by decide +kernel) (fun p hp => absurd hp List.not_mem_nil) (by decide +kernel)).trans
        (.call (.permitted _ _) hslow 12 (by decide +kernel) (by decide +kernel) (by decide +kernel))
    exact ⟨⟨racedState, [slowCall]⟩, ⟨staleState, []⟩, ⟨3, 108, 108, true, false⟩,
      ⟨⟨0, some true, some true, (hlook.trans hraced).run⟩, by decide +kernel,
        htime.trans (hwrite.trans (hcopy.trans (hcache.trans hask))), by decide +kernel, by decide +kernel, rfl⟩,
      by decide +kernel, rfl⟩

end StratTrader.Admin
