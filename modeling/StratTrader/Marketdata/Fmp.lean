import StratTrader.Foundation.Runs
import Mathlib.Logic.Function.Basic
import Mathlib.Data.List.Count

/-!
# The client of the vendor and its circuit

`marketdata/fmp.py`: a request passes the circuit and the cap of its minute, is tried up to three times, and falls back on
the last response that is cached. A failure is counted for `cb_cooldown` from the first one on, and opens the circuit
when there are `cb_threshold` of them; a success deletes the count.

## What is proved

* `Counting.step`: the count is that of the failures since the last success or expiry.
* `opens_on_server_errors_iff`: a circuit is opened with enough server errors behind it where none of the failures is a
  client error.
* `FmpCache.Alike.after_clientError` and `.after`: what leaves the circuit as it is without the client errors; and
  `FmpCache.circuitOpen_of_clientError`, who pays where it does not.

## Honest scope

Requests follow one another. The failures are recorded, and the cache is read, at the end of a request. How many requests
its minute had before is free, as others are counted there too. The cache loses nothing before it expires.
-/

namespace StratTrader.Marketdata

open Foundation (Run AnyStep)

/-- The exceptions of the client. -/
inductive FmpError where
  /-- A bare `FMPError`. -/
  | clientError
  /-- `FMPRateLimited`. -/
  | rateLimited
  /-- `FMPServerError`. -/
  | serverError
  /-- `FMPCircuitOpen`. -/
  | circuitOpen
  deriving DecidableEq

/-- Whether it is retried. -/
def FmpError.isRetried : FmpError → Bool
  | rateLimited | serverError => true
  | clientError | circuitOpen => false

/-- Whether it is recorded as a failure: it is none of `FMPCircuitOpen` and `FMPRateLimited`. -/
def FmpError.isRecorded : FmpError → Bool
  | circuitOpen | rateLimited => false
  | clientError | serverError => true

/-- What the vendor makes of an attempt. -/
inductive Response (D : Type) where
  /-- A `RequestError`. -/
  | requestError
  /-- A status, and the JSON of the body if it is any, where `some none` is `null`. -/
  | status (code : ℕ) (json : Option (Option D))

/-- `_raw_get`. -/
def rawGet {D : Type} : Response D → Except FmpError (Option D)
  | .requestError => .error .serverError
  | .status code json =>
    if code = 429 then .error .rateLimited
    else if 500 ≤ code then .error .serverError
    else if 400 ≤ code then .error .clientError
    else
      match json with
      | some data => .ok data
      | none => .error .serverError

/-- `_get_with_retry`, from attempt `i` on, with so many behind it. -/
def tries {D : Type} (responses : ℕ → Response D) : ℕ → ℕ → Except FmpError (Option D)
  | 0, i => rawGet (responses i)
  | left + 1, i =>
    match rawGet (responses i) with
    | .ok data => .ok data
    | .error e => if e.isRetried then tries responses left (i + 1) else .error e

/-- `_get_with_retry`. -/
def getWithRetry {D : Type} (responses : ℕ → Response D) : Except FmpError (Option D) := tries responses 2 0

/-- The attributes of a client. -/
structure Config where
  /-- `per_minute`. -/
  perMinute : ℕ := 750
  /-- `cb_threshold`. -/
  cbThreshold : ℕ := 5
  /-- `cb_cooldown`, in the unit of the times. -/
  cbCooldown : ℕ := 60

/-- What the clients keep in the cache. -/
structure FmpCache (D : Type) where
  /-- `fmp:cb:fails`, with its expiry. -/
  fails : Option (ℕ × ℕ) := none
  /-- The expiry of `fmp:cb:open`. -/
  openUntil : Option ℕ := none
  /-- The responses, with their expiries. -/
  responses : String → Option (Option D × ℕ) := fun _ => none

/-- A call of `get`, and what it meets. -/
structure Call (D : Type) where
  /-- The key of its response. -/
  key : String
  /-- When it looks at the circuit. -/
  startedAt : ℕ
  /-- The requests of its minute before it. -/
  callsBefore : ℕ := 0
  /-- What the vendor makes of each attempt. -/
  responses : ℕ → Response D
  /-- When it is over. -/
  endedAt : ℕ
  /-- How long its response is kept. -/
  cacheTtl : ℕ := 30
  /-- It takes its time. -/
  started_le : startedAt ≤ endedAt

section
variable {D : Type} (cfg : Config)

/-- `_throttle`, and `_get_with_retry` behind it. -/
def Call.outcome (call : Call D) : Except FmpError (Option D) :=
  if cfg.perMinute < call.callsBefore + 1 then .error .rateLimited else getWithRetry call.responses

namespace FmpCache

variable (cache : FmpCache D)

/-- `bool(cache.get("fmp:cb:open"))`. -/
def isOpen (now : ℕ) : Bool := cache.openUntil.any fun expiry => decide (now < expiry)

/-- The count that is there at a time. -/
def failsAt (now : ℕ) : Option (ℕ × ℕ) := cache.fails.filter fun entry => decide (now < entry.2)

/-- The cache without what has expired of the count. -/
def expire (now : ℕ) : FmpCache D := { cache with fails := cache.failsAt now }

/-- The entry after `_record_failure`: a count keeps its expiry. -/
def countFailure (now : ℕ) : ℕ × ℕ :=
  let entry := (cache.failsAt now).getD (0, now + cfg.cbCooldown)
  (entry.1 + 1, entry.2)

/-- `_record_failure`. -/
def recordFailure (now : ℕ) : FmpCache D :=
  let entry := cache.countFailure cfg now
  { cache with
    fails := some entry
    openUntil := if cfg.cbThreshold ≤ entry.1 then some (now + cfg.cbCooldown) else cache.openUntil }

/-- `_record_success`, and the response is kept. -/
def recordSuccess (call : Call D) (data : Option D) : FmpCache D :=
  { cache with
    fails := none
    responses := Function.update cache.responses call.key (some (data, call.endedAt + max call.cacheTtl 30)) }

/-- How the guarded part of `get` ends. -/
def outcome (call : Call D) : Except FmpError (Option D) :=
  if cache.isOpen call.startedAt then .error .circuitOpen else call.outcome cfg

/-- The cache after `get`. -/
def afterGet (call : Call D) : FmpCache D :=
  match cache.outcome cfg call with
  | .ok data => cache.recordSuccess call data
  | .error e => if e.isRecorded then cache.recordFailure cfg call.endedAt else cache

/-- The response that is cached, unless it is `None`. -/
def cached (call : Call D) : Option D :=
  (cache.responses call.key).bind fun entry => if call.endedAt < entry.2 then entry.1 else none

/-- `get`. -/
def get (call : Call D) : Except FmpError (Option D) :=
  match cache.outcome cfg call with
  | .ok data => .ok data
  | .error e =>
    match cache.cached call with
    | some data => .ok (some data)
    | none => .error e

end FmpCache

variable {cfg} in
theorem FmpCache.afterGet_ok {cache : FmpCache D} {call : Call D} {data : Option D}
    (h : cache.outcome cfg call = .ok data) : cache.afterGet cfg call = cache.recordSuccess call data := by
  rw [FmpCache.afterGet, h]

variable {cfg} in
theorem FmpCache.afterGet_error {cache : FmpCache D} {call : Call D} {e : FmpError}
    (h : cache.outcome cfg call = .error e) :
    cache.afterGet cfg call = if e.isRecorded then cache.recordFailure cfg call.endedAt else cache := by
  rw [FmpCache.afterGet, h]

/-! ### A sequence of calls -/

/-- The cache, and the failures since the last success or the expiry of the count. -/
structure Log (D : Type) where
  /-- The cache. -/
  cache : FmpCache D := {}
  /-- The time. -/
  now : ℕ := 0
  /-- How the calls have ended. -/
  since : List FmpError := []

/-- The failures, without those whose count has expired. -/
def Log.sinceAt (log : Log D) (now : ℕ) : List FmpError :=
  if log.cache.fails.isSome ∧ log.cache.failsAt now = none then [] else log.since

/-- The log after a call. -/
def Log.after (log : Log D) (call : Call D) : Log D where
  cache := (log.cache.expire call.endedAt).afterGet cfg call
  now := call.endedAt
  since :=
    match log.cache.outcome cfg call with
    | .ok _ => []
    | .error e => log.sinceAt call.endedAt ++ [e]

/-- The calls follow one another. -/
def Step (log : Log D) (call : Call D) (log' : Log D) : Prop := log.now ≤ call.startedAt ∧ log' = log.after cfg call

/-- A call that sets the circuit open. -/
def Opens (log : Log D) (call : Call D) : Prop :=
  ∃ e, log.cache.outcome cfg call = .error e ∧ e.isRecorded = true ∧
    cfg.cbThreshold ≤ (log.cache.countFailure cfg call.endedAt).1

/-! ### What is counted -/

variable {cfg}

/-- The count is that of the failures since then, and has not outgrown the threshold but behind an open circuit. -/
structure Counting (cfg : Config) (log : Log D) : Prop where
  /-- The count. -/
  counted : ((log.cache.fails.map Prod.fst).getD 0) = log.since.countP FmpError.isRecorded
  /-- The circuit outlasts a count that has reached the threshold. -/
  bounded : ∀ n expiry, log.cache.fails = some (n, expiry) →
    n < cfg.cbThreshold ∨ ∃ t, log.cache.openUntil = some t ∧ expiry ≤ t
  /-- It expires a cooldown after a call. -/
  timely : ∀ n expiry, log.cache.fails = some (n, expiry) → expiry ≤ log.now + cfg.cbCooldown

theorem FmpCache.failsAt_eq_some {cache : FmpCache D} {now : ℕ} {entry : ℕ × ℕ} :
    cache.failsAt now = some entry ↔ cache.fails = some entry ∧ now < entry.2 := by
  simp [FmpCache.failsAt, Option.filter_eq_some_iff]

/-- What is left of the count is that of the failures that are left. -/
theorem Counting.countP_sinceAt {log : Log D} (h : Counting cfg log) (now : ℕ) :
    (log.sinceAt now).countP FmpError.isRecorded = ((log.cache.failsAt now).map Prod.fst).getD 0 := by
  unfold Log.sinceAt
  cases halive : log.cache.failsAt now with
  | some entry =>
    have hnot : ¬ (log.cache.fails.isSome = true ∧ some entry = none) := fun hdead => nomatch hdead.2
    rw [if_neg hnot, ← h.counted, (FmpCache.failsAt_eq_some.mp halive).1]
  | none =>
    cases hfails : log.cache.fails with
    | some entry =>
      rw [if_pos ⟨rfl, rfl⟩]
      rfl
    | none =>
      have hnot : ¬ ((none : Option (ℕ × ℕ)).isSome = true ∧ (none : Option (ℕ × ℕ)) = none) := fun hdead => nomatch hdead.1
      rw [if_neg hnot, ← h.counted, hfails]

/-- A call that is recorded does not find the circuit open. -/
theorem isOpen_of_recorded {cache : FmpCache D} {call : Call D} {e : FmpError} (h : cache.outcome cfg call = .error e)
    (he : e.isRecorded = true) : cache.isOpen call.startedAt = false := by
  unfold FmpCache.outcome at h
  split_ifs at h with hopen
  · cases h
    cases he
  · exact Bool.eq_false_iff.mpr hopen

/-- A count that is alive when a call is recorded is below the threshold. -/
theorem Counting.alive_lt {log : Log D} (h : Counting cfg log) {call : Call D} {e : FmpError}
    (hout : log.cache.outcome cfg call = .error e) (he : e.isRecorded = true) {n expiry : ℕ}
    (halive : log.cache.failsAt call.endedAt = some (n, expiry)) : n < cfg.cbThreshold := by
  obtain ⟨hfails, hlt⟩ := FmpCache.failsAt_eq_some.mp halive
  refine (h.bounded n expiry hfails).resolve_right ?_
  rintro ⟨t, ht, hle⟩
  have hstill : call.startedAt < t := Nat.lt_of_lt_of_le (Nat.lt_of_le_of_lt call.started_le hlt) hle
  have hopen : log.cache.isOpen call.startedAt = true := by
    unfold FmpCache.isOpen
    rw [ht]
    exact decide_eq_true hstill
  rw [isOpen_of_recorded hout he] at hopen
  cases hopen

/-- The count behind a failure is that of the failures with this one. -/
theorem Counting.countFailure_eq {log : Log D} (h : Counting cfg log) (call : Call D) {e : FmpError}
    (he : e.isRecorded = true) : (log.cache.countFailure cfg call.endedAt).1 =
      (log.sinceAt call.endedAt ++ [e]).countP FmpError.isRecorded := by
  have hone : [e].countP FmpError.isRecorded = 1 := List.countP_eq_length.mpr (by simpa using he)
  rw [List.countP_append, hone, h.countP_sinceAt]
  unfold FmpCache.countFailure
  cases log.cache.failsAt call.endedAt <;> rfl

@[simp] theorem FmpCache.failsAt_expire (cache : FmpCache D) (now : ℕ) :
    (cache.expire now).failsAt now = cache.failsAt now := by
  simp [FmpCache.failsAt, FmpCache.expire, Option.filter_filter]

@[simp] theorem FmpCache.countFailure_expire (cache : FmpCache D) (now : ℕ) :
    (cache.expire now).countFailure cfg now = cache.countFailure cfg now := by
  simp [FmpCache.countFailure]

/-- What a success leaves. -/
theorem Log.after_ok {log : Log D} {call : Call D} {data : Option D} (h : log.cache.outcome cfg call = .ok data) :
    log.after cfg call = ⟨(log.cache.expire call.endedAt).recordSuccess call data, call.endedAt, []⟩ := by
  have hexpired : (log.cache.expire call.endedAt).outcome cfg call = .ok data := h
  rw [Log.after, FmpCache.afterGet_ok hexpired, h]

/-- What a failure leaves that is not recorded. -/
theorem Log.after_ignored {log : Log D} {call : Call D} {e : FmpError} (h : log.cache.outcome cfg call = .error e)
    (he : e.isRecorded = false) :
    log.after cfg call = ⟨log.cache.expire call.endedAt, call.endedAt, log.sinceAt call.endedAt ++ [e]⟩ := by
  have hnot : ¬ e.isRecorded = true := Bool.eq_false_iff.mp he
  have hexpired : (log.cache.expire call.endedAt).outcome cfg call = .error e := h
  rw [Log.after, FmpCache.afterGet_error hexpired, h, if_neg hnot]

/-- What a failure leaves that is recorded. -/
theorem Log.after_recorded {log : Log D} {call : Call D} {e : FmpError} (h : log.cache.outcome cfg call = .error e)
    (he : e.isRecorded = true) :
    log.after cfg call =
      ⟨(log.cache.expire call.endedAt).recordFailure cfg call.endedAt, call.endedAt, log.sinceAt call.endedAt ++ [e]⟩ := by
  have hexpired : (log.cache.expire call.endedAt).outcome cfg call = .error e := h
  rw [Log.after, FmpCache.afterGet_error hexpired, h, if_pos he]

/-- **The count is that of the failures since the last success or expiry.** -/
theorem Counting.step {log log' : Log D} {call : Call D} (h : Counting cfg log) (hstep : Step cfg log call log') :
    Counting cfg log' := by
  obtain ⟨hnow, rfl⟩ := hstep
  have hlater : log.now + cfg.cbCooldown ≤ call.endedAt + cfg.cbCooldown :=
    Nat.add_le_add_right (Nat.le_trans hnow call.started_le) _
  cases hout : log.cache.outcome cfg call with
  | ok data =>
    rw [Log.after_ok hout]
    exact ⟨rfl, nofun, nofun⟩
  | error e =>
    cases he : e.isRecorded with
    | false =>
      have hzero : [e].countP FmpError.isRecorded = 0 := List.countP_eq_zero.mpr (by simpa using he)
      rw [Log.after_ignored hout he]
      refine ⟨?_, fun n expiry hfails => ?_, fun n expiry hfails => ?_⟩
      · rw [List.countP_append, hzero, h.countP_sinceAt]
        rfl
      · exact h.bounded n expiry (FmpCache.failsAt_eq_some.mp hfails).1
      · exact Nat.le_trans (h.timely n expiry (FmpCache.failsAt_eq_some.mp hfails).1) hlater
    | true =>
      have hexpiry : (log.cache.countFailure cfg call.endedAt).2 ≤ call.endedAt + cfg.cbCooldown := by
        unfold FmpCache.countFailure
        cases halive : log.cache.failsAt call.endedAt with
        | none => exact Nat.le_refl _
        | some entry => exact Nat.le_trans (h.timely entry.1 entry.2 (FmpCache.failsAt_eq_some.mp halive).1) hlater
      rw [Log.after_recorded hout he]
      unfold FmpCache.recordFailure
      rw [FmpCache.countFailure_expire]
      refine ⟨h.countFailure_eq call he, fun n expiry hfails => ?_, fun n expiry hfails => ?_⟩
      · rw [Option.some.inj hfails] at hexpiry ⊢
        by_cases hreached : cfg.cbThreshold ≤ n
        · exact .inr ⟨_, if_pos hreached, hexpiry⟩
        · exact .inl (Nat.lt_of_not_le hreached)
      · rw [Option.some.inj hfails] at hexpiry
        exact hexpiry

theorem countP_isRecorded (failures : List FmpError) :
    failures.countP FmpError.isRecorded = failures.count .serverError + failures.count .clientError := by
  induction failures with
  | nil => rfl
  | cons e rest ih =>
    rw [List.countP_cons, List.count_cons, List.count_cons, ih]
    cases e <;> simp [FmpError.isRecorded] <;> omega

/-- **What has failed when the circuit is opened.** -/
theorem opens_on_server_errors_iff {log : Log D} {call : Call D} (h : Counting cfg log) (hopens : Opens cfg log call) :
    cfg.cbThreshold ≤ (log.after cfg call).since.count .serverError ↔
      cfg.cbThreshold = 0 ∨ .clientError ∉ (log.after cfg call).since := by
  obtain ⟨e, hout, he, hreached⟩ := hopens
  have hcount := h.countFailure_eq call he
  rw [countP_isRecorded] at hcount
  -- the count has just reached the threshold, or it is a new one
  have hnew : (log.cache.countFailure cfg call.endedAt).1 ≤ cfg.cbThreshold ∨
      (log.cache.countFailure cfg call.endedAt).1 = 1 := by
    cases halive : log.cache.failsAt call.endedAt with
    | none => exact .inr (by rw [FmpCache.countFailure, halive]; rfl)
    | some entry =>
      have hlt := h.alive_lt hout he halive
      exact .inl (by rw [FmpCache.countFailure, halive]; exact hlt)
  rw [Log.after_recorded hout he, ← List.count_eq_zero]
  dsimp only
  omega

/-- The log before the first call, with some responses. -/
def Log.start (responses : String → Option (Option D × ℕ)) : Log D := { cache := { responses := responses } }

/-- What is counted behind every sequence of calls. -/
theorem counting_of_run {responses : String → Option (Option D × ℕ)} {log : Log D}
    (h : Run (Step cfg) AnyStep (Log.start responses) log) : Counting cfg log :=
  h.invariant (Counting cfg) ⟨rfl, nofun, nofun⟩ fun hstep _ hlog => hlog.step hstep

/-! ### The circuit with client errors behind it, and without them -/

/-- Two caches that differ in their counts at most. -/
structure FmpCache.Alike (cache cache' : FmpCache D) : Prop where
  /-- The circuit. -/
  openUntil : cache.openUntil = cache'.openUntil
  /-- The responses. -/
  responses : cache.responses = cache'.responses

variable (cfg) in
/-- What a call does to the circuit is what it does where the client errors before it are not counted: a client error
does not bring the count to the threshold, and a server error brings both counts there or neither. -/
def FmpCache.Unmoved (cache cache' : FmpCache D) (call : Call D) : Prop :=
  match cache.outcome cfg call with
  | .error .clientError => (cache.countFailure cfg call.endedAt).1 < cfg.cbThreshold
  | .error .serverError =>
    cfg.cbThreshold ≤ (cache.countFailure cfg call.endedAt).1 ↔ cfg.cbThreshold ≤ (cache'.countFailure cfg call.endedAt).1
  | _ => True

theorem FmpCache.Alike.outcome_eq {cache cache' : FmpCache D} (h : cache.Alike cache') (call : Call D) :
    cache.outcome cfg call = cache'.outcome cfg call := by
  unfold FmpCache.outcome FmpCache.isOpen
  rw [h.openUntil]

/-- A call returns the same for both. -/
theorem FmpCache.Alike.get_eq {cache cache' : FmpCache D} (h : cache.Alike cache') (call : Call D) :
    cache.get cfg call = cache'.get cfg call := by
  rw [FmpCache.get, FmpCache.get, h.outcome_eq, FmpCache.cached, FmpCache.cached, h.responses]

/-- A client error that is counted by the one of them. -/
theorem FmpCache.Alike.after_clientError {cache cache' : FmpCache D} (h : cache.Alike cache') {call : Call D}
    (hout : cache.outcome cfg call = .error .clientError) (hcall : cache.Unmoved cfg cache' call) :
    (cache.afterGet cfg call).Alike cache' := by
  rw [FmpCache.Unmoved, hout] at hcall
  have hafter : cache.afterGet cfg call = cache.recordFailure cfg call.endedAt := FmpCache.afterGet_error hout
  rw [hafter]
  exact ⟨(if_neg (Nat.not_le_of_lt hcall)).trans h.openUntil, h.responses⟩

/-- Any other call, for both of them. -/
theorem FmpCache.Alike.after {cache cache' : FmpCache D} (h : cache.Alike cache') {call : Call D}
    (hout : cache.outcome cfg call ≠ .error .clientError) (hcall : cache.Unmoved cfg cache' call) :
    (cache.afterGet cfg call).Alike (cache'.afterGet cfg call) := by
  have hsame : cache.outcome cfg call = cache'.outcome cfg call := h.outcome_eq call
  unfold FmpCache.Unmoved at hcall
  cases hcase : cache.outcome cfg call with
  | ok data =>
    rw [FmpCache.afterGet_ok hcase, FmpCache.afterGet_ok (hsame.symm.trans hcase)]
    exact ⟨h.openUntil, congrArg (Function.update · _ _) h.responses⟩
  | error e =>
    rw [FmpCache.afterGet_error hcase, FmpCache.afterGet_error (hsame.symm.trans hcase)]
    rw [hcase] at hcall hout
    cases e with
    | clientError => exact absurd rfl hout
    | rateLimited => exact h
    | circuitOpen => exact h
    | serverError =>
      refine ⟨?_, h.responses⟩
      change (if _ then _ else _) = if _ then _ else _
      rw [h.openUntil]
      exact if_congr hcall rfl rfl

/-- A circuit that is opened behind a call is open for a cooldown. -/
theorem FmpCache.isOpen_recordFailure {cache : FmpCache D} {now later : ℕ}
    (h : cfg.cbThreshold ≤ (cache.countFailure cfg now).1) (hlater : later < now + cfg.cbCooldown) :
    (cache.recordFailure cfg now).isOpen later = true := by
  have huntil : (cache.recordFailure cfg now).openUntil = some (now + cfg.cbCooldown) := if_pos h
  unfold FmpCache.isOpen
  rw [huntil]
  exact decide_eq_true hlater

/-- **A client error that brings the count to the threshold is paid for by the next call**, unless its response is
cached. -/
theorem FmpCache.circuitOpen_of_clientError {cache : FmpCache D} {call next : Call D}
    (hout : cache.outcome cfg call = .error .clientError) (hreached : cfg.cbThreshold ≤ (cache.countFailure cfg call.endedAt).1)
    (hnext : next.startedAt < call.endedAt + cfg.cbCooldown) (hcached : cache.cached next = none) :
    (cache.afterGet cfg call).get cfg next = .error .circuitOpen := by
  have hopen := FmpCache.isOpen_recordFailure hreached hnext
  have hnone : (cache.recordFailure cfg call.endedAt).cached next = none := hcached
  have hafter : cache.afterGet cfg call = cache.recordFailure cfg call.endedAt := FmpCache.afterGet_error hout
  rw [hafter, FmpCache.get, FmpCache.outcome, if_pos hopen]
  dsimp only
  rw [hnone]

end

end StratTrader.Marketdata
