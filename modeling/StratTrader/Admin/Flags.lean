import Mathlib.Algebra.Order.Ring.Rat
import StratTrader.Foundation.Timed

/-!
# Feature flags

`admin_portal/flags.py`, and `brokers/live_gate.py` over it: the override of a flag is looked up
in a cache of the process, then in Redis, then in the flag's row, and where there is none the
settings decide. A call is a program whose actions are its look-ups and its writes, with the
clock running in between. Which of these raise is the environment of the call.

## What is proved

`liveTradingPermitted_run`: what a call of `live_trading_permitted` returns that nothing interrupts: whether the
settings say `True` and the override that it finds, if it finds one, does not say `False`.

## Honest scope

The state is that of one flag: its entries in the caches and its row are its own, by the flag's
name. A flip's actor, request and note, its audit entry and its metric are left out; so is
`flag_state`, apart from the calls it makes. A write to Redis takes effect or not, whether or not it
raises: nobody reads the difference.
-/

namespace StratTrader.Admin

open StratTrader.Foundation

/-- A process of the platform. -/
abbrev ProcessId := ℕ

/-- `LOCAL_CACHE_TTL`, in seconds. -/
def localCacheTtl : ℚ := 30

/-- `REDIS_TTL`, in seconds. -/
def redisTtl : ℚ := 60

/-- A flag of `FEATURE_FLAGS_REGISTRY`. -/
structure FlagSpec where
  /-- The default. -/
  default : Bool
  /-- Whether it may be flipped. -/
  mutable : Bool

/-- An override that is cached; `none` says that there is no override. -/
structure Cached where
  /-- The override. -/
  override : Option Bool
  /-- When the entry expires. -/
  expiry : ℚ

/-- What a call of `live_trading_permitted` said. -/
structure Answer where
  /-- The process that called. -/
  process : ProcessId
  /-- When it called. -/
  began : ℚ
  /-- When it was told. -/
  ended : ℚ
  /-- What it was told. -/
  permitted : Bool
  /-- Whether the row could not be read in the call. -/
  dbFails : Bool
  deriving DecidableEq

/-- Everything a flag depends on. -/
structure FlagState where
  /-- The time. -/
  now : ℚ
  /-- The settings' attribute, if there is one. -/
  setting : Option Bool
  /-- `enabled` of the flag's row, if there is one. -/
  row : Option Bool
  /-- The entry in Redis. -/
  redis : Option Cached
  /-- The entries of `_local_cache`, one for each process. -/
  locals : ProcessId → Option Cached
  /-- The reads of the row whose failure has been cached: in which process they failed, and when. -/
  failures : List (ProcessId × ℚ)
  /-- Since when the row has said `False`. -/
  revokedSince : Option ℚ
  /-- What has been answered so far. -/
  answers : List Answer

namespace FlagState

variable (s : FlagState)

/-- The entry of a process. -/
def setLocal (p : ProcessId) (entry : Option Cached) : FlagState :=
  { s with locals := Function.update s.locals p entry }

/-- `FeatureFlag.objects.update_or_create`. -/
def commit (enabled : Bool) : FlagState :=
  { s with
    row := some enabled
    revokedSince := if enabled then none else some (s.revokedSince.getD s.now) }

/-- What Redis gives: an entry that has expired is gone. -/
def redisEntry : Option (Option Bool) :=
  s.redis.bind fun entry => if s.now < entry.expiry then some entry.override else none

end FlagState

/-! ### Reading a flag -/

/-- Why the row cannot be read. -/
inductive DbError where
  /-- `ProgrammingError` or `OperationalError`. -/
  | notReady
  /-- Any other exception. -/
  | other
  deriving DecidableEq

/-- The environment of a call. -/
structure FlagEnv where
  /-- Whether `cache.get` answers. -/
  redisReads : Bool
  /-- What the read of the row raises, if anything. -/
  dbError : Option DbError
  /-- Whether `cache.set` takes effect. -/
  redisWrites : Bool

/-- `_env_default`. -/
def envDefault (reg : Option FlagSpec) (setting : Option Bool) : Bool :=
  setting.getD ((reg.map FlagSpec.default).getD false)

section
variable (env : FlagEnv) (p : ProcessId)

/-- `_cache_local`. -/
def cacheLocal (override : Option Bool) : Prog FlagState PUnit := do
  let now ← .read FlagState.now
  .write fun s => s.setLocal p (some ⟨override, now + localCacheTtl⟩)

/-- The read of the row. -/
def readRow : Prog FlagState (Except DbError (Option Bool)) :=
  .atomic
    (fun s => if env.dbError = some .other then { s with failures := s.failures ++ [(p, s.now)] } else s)
    fun s => match env.dbError with
      | some error => .error error
      | none => .ok s.row

/-- `cache.set`. -/
def setRedis (writes : Bool) (override : Option Bool) : Prog FlagState PUnit :=
  .write fun s => if writes then { s with redis := some ⟨override, s.now + redisTtl⟩ } else s

/-- `_resolve_override` from the read of the row on. -/
def resolveRow : Prog FlagState (Option Bool) := do
  match ← readRow env p with
  | .error .notReady => return none
  | .error .other =>
    cacheLocal p none
    return none
  | .ok override =>
    setRedis env.redisWrites override
    cacheLocal p override
    return override

/-- `_resolve_override` from the read of Redis on. -/
def resolveShared : Prog FlagState (Option Bool) := do
  let cached ← .read fun s => if env.redisReads then s.redisEntry else none
  match cached with
  | some override =>
    cacheLocal p override
    return override
  | none => resolveRow env p

/-- `_resolve_override`. -/
def resolveOverride : Prog FlagState (Option Bool) := do
  let hit ← .read fun s => s.locals p
  let now ← .read FlagState.now
  match hit with
  | some entry => if now < entry.expiry then return entry.override else resolveShared env p
  | none => resolveShared env p

/-- `is_enabled`. -/
def isEnabled (reg : Option FlagSpec) : Prog FlagState Bool := do
  if reg.any fun spec => !spec.mutable then .read fun s => envDefault reg s.setting
  else
    match ← resolveOverride env p with
    | some override => return override
    | none => .read fun s => envDefault reg s.setting

/-! ### Flipping a flag -/

/-- Why a flag is not flipped. -/
inductive FlipError where
  /-- `KeyError`. -/
  | unknown
  /-- `FlagImmutable`. -/
  | immutable
  /-- The row is not written. -/
  | database

/-- `set_flag`. Whether the database takes the row is `commits`, and whether Redis then takes the
value is `redisWrites`; the environment is that of the call of `is_enabled`. -/
def setFlag (reg : Option FlagSpec) (commits redisWrites enabled : Bool) :
    Prog FlagState (Except FlipError Bool) := do
  match reg with
  | none => return .error .unknown
  | some spec =>
    if !spec.mutable then return .error .immutable
    let _ ← isEnabled env p (some spec)
    if !commits then return .error .database
    .write fun s => s.commit enabled
    setRedis redisWrites (some enabled)
    .write fun s => s.setLocal p none
    return .ok enabled

/-! ### The live gate -/

/-- `live_trading_permitted`, of the flag `ENABLE_LIVE_TRADING`. -/
def liveTradingPermitted (reg : Option FlagSpec) : Prog FlagState Bool := do
  let armed ← .read fun s => s.setting.getD false
  if !armed then return false
  isEnabled env p reg

end

/-- The override that a look-up finds: in the cache of the process, in Redis, in the row. -/
def FlagState.overrideIn (env : FlagEnv) (p : ProcessId) (s : FlagState) : Option Bool :=
  match (s.locals p).filter fun entry => decide (s.now < entry.expiry) with
  | some entry => entry.override
  | none =>
    match if env.redisReads then s.redisEntry else none with
    | some override => override
    | none => if env.dbError.isSome then none else s.row

section
variable {env : FlagEnv} {p : ProcessId} {s : FlagState}

/-- A program that leaves the settings as they are. -/
def KeepsSetting {α : Type} (prog : Prog FlagState α) : Prop := prog.Always fun s t => t.setting = s.setting

theorem keepsSetting_read {α : Type} (out : FlagState → α) : KeepsSetting (Prog.read out) :=
  Prog.Always.atomic fun _ => rfl

theorem KeepsSetting.bind {α β : Type} {prog : Prog FlagState α} {f : α → Prog FlagState β}
    (hp : KeepsSetting prog) (hf : ∀ a, KeepsSetting (f a)) : KeepsSetting (prog >>= f) :=
  Prog.Always.bind hp hf

theorem cacheLocal_setting (override : Option Bool) : KeepsSetting (cacheLocal p override) :=
  (keepsSetting_read _).bind fun _ => Prog.Always.atomic fun _ => rfl

theorem setRedis_setting (writes : Bool) (override : Option Bool) : KeepsSetting (setRedis writes override) := by
  apply Prog.Always.atomic
  intro s
  split <;> rfl

theorem readRow_setting : KeepsSetting (readRow env p) := by
  apply Prog.Always.atomic
  intro s
  split <;> rfl

theorem resolveRow_setting : KeepsSetting (resolveRow env p) := by
  refine readRow_setting.bind fun found => ?_
  rcases found with (- | -) | override
  · exact Prog.Always.ret _
  · exact (cacheLocal_setting none).bind fun _ => Prog.Always.ret _
  · exact (setRedis_setting _ override).bind fun _ => (cacheLocal_setting override).bind fun _ => Prog.Always.ret _

theorem resolveShared_setting : KeepsSetting (resolveShared env p) := by
  refine (keepsSetting_read _).bind fun cached => ?_
  cases cached with
  | some override => exact (cacheLocal_setting override).bind fun _ => Prog.Always.ret _
  | none => exact resolveRow_setting

/-- The look-up of the override leaves the settings as they are. -/
theorem resolveOverride_setting : KeepsSetting (resolveOverride env p) := by
  refine (keepsSetting_read _).bind fun hit => (keepsSetting_read _).bind fun now => ?_
  cases hit with
  | some entry =>
    dsimp only
    split
    · exact Prog.Always.ret _
    · exact resolveShared_setting
  | none => exact resolveShared_setting

theorem resolveRow_run : ((resolveRow env p).run s).2 = if env.dbError.isSome then none else s.row := by
  rcases hdb : env.dbError with - | (- | -) <;> simp [resolveRow, readRow, hdb, Prog.run_bind]

theorem resolveShared_run : ((resolveShared env p).run s).2 =
    match if env.redisReads then s.redisEntry else none with
    | some override => override
    | none => if env.dbError.isSome then none else s.row := by
  cases hredis : if env.redisReads then s.redisEntry else none with
  | some override => simp [resolveShared, hredis, Prog.run_bind]
  | none => simp [resolveShared, hredis, resolveRow_run]

/-- What a look-up finds. -/
theorem resolveOverride_run : ((resolveOverride env p).run s).2 = s.overrideIn env p := by
  unfold FlagState.overrideIn
  cases hlocal : s.locals p with
  | none => simp [resolveOverride, hlocal, resolveShared_run]
  | some entry =>
    by_cases hlive : s.now < entry.expiry
    · simp [resolveOverride, hlocal, hlive, Option.filter]
    · simp [resolveOverride, hlocal, hlive, Option.filter, resolveShared_run]

/-- **What `live_trading_permitted` returns.** -/
theorem liveTradingPermitted_run {spec : FlagSpec} (hmutable : spec.mutable = true) :
    ((liveTradingPermitted env p (some spec)).run s).2 =
      (s.setting.getD false && (s.overrideIn env p).getD true) := by
  have henabled : ((isEnabled env p (some spec)).run s).2 =
      (s.overrideIn env p).getD (envDefault (some spec) s.setting) := by
    have hresolve : ((resolveOverride env p).run s).2 = s.overrideIn env p := resolveOverride_run
    have hsetting : ((resolveOverride env p).run s).1.setting = s.setting :=
      resolveOverride_setting.ends (fun _ => rfl) (fun hst htu => htu.trans hst) s
    cases hfound : s.overrideIn env p <;> rw [hfound] at hresolve <;>
      simp [isEnabled, hmutable, Prog.run_bind, hresolve, Prog.read, hsetting]
  cases hset : s.setting with
  | none => simp [liveTradingPermitted, hset]
  | some armed => cases armed <;> simp [liveTradingPermitted, hset, henabled, envDefault]

end

end StratTrader.Admin
