import StratTrader.Brokers.Base
import StratTrader.Foundation.Python

/-!
# The kill switch

The rows of `TradingHalt`, and what `risk/killswitch.py` does with them: the gate
`is_blocked`, which is asked when an alert is received and again when it is processed, and
the functions that engage and release halts.

## What is proved

* `isBlocked_eq_none`: the gate is open exactly if no active halt is for the platform, for
  the user, or for the user's strategy.
* `schedules_flatten_iff`: a call of `trigger_halt` that asks to flatten a user has the user
  flattened exactly if it makes a halt: an active halt of its scope and level drops the
  request.

## Honest scope

Risk events, audit entries and metrics are left out. The date in New York at a time is a
parameter (`Calendar`), of which only is known that it never goes back. A function is given
the successive values of `timezone.now()`.
-/

namespace StratTrader.Risk

open StratTrader.Brokers StratTrader.Foundation

/-! ### Halts -/

/-- The primary key of a halt, as text. -/
abbrev HaltId := String

/-- `TradingHalt.Level`. -/
inductive HaltLevel where
  /-- `L0`: a strategy. -/
  | l0
  /-- `L1`: a user. -/
  | l1
  /-- `L2`: the daily loss of a user. -/
  | l2
  /-- `L3`: the platform. -/
  | l3
  deriving DecidableEq

/-- The value of a level. -/
def HaltLevel.value : HaltLevel → String
  | l0 => "L0"
  | l1 => "L1"
  | l2 => "L2"
  | l3 => "L3"

/-- `TradingHalt.scope`. -/
inductive Scope where
  /-- `PLATFORM`. -/
  | platform
  /-- `STRATEGY`. -/
  | strategy
  /-- `USER`. -/
  | user
  deriving DecidableEq

/-- `TradingHalt`. -/
structure TradingHalt where
  /-- The primary key. -/
  id : HaltId
  /-- The user; none for the platform. -/
  user : Option UserId
  /-- The strategy; none for all of the user's. -/
  strategy : Option StrategyId
  /-- The level. -/
  level : HaltLevel
  /-- Whether it was engaged by itself. -/
  auto : Bool := false
  /-- Why it was engaged. -/
  reason : String
  /-- Who engaged it. -/
  createdBy : Option UserId := none
  /-- When it was engaged, in microseconds. -/
  createdAt : ℤ
  /-- When it was released, in microseconds. -/
  releasedAt : Option ℤ := none
  /-- Who released it. -/
  releasedBy : Option UserId := none
  deriving DecidableEq

namespace TradingHalt

/-- `is_active`. -/
def isActive (h : TradingHalt) : Bool := h.releasedAt.isNone

/-- `scope`. -/
def scope (h : TradingHalt) : Scope :=
  if h.user.isNone then .platform else if h.strategy.isSome then .strategy else .user

/-- A halt of the platform that is active. -/
def haltsPlatform (h : TradingHalt) : Bool :=
  h.user.isNone && decide (h.level = .l3) && h.releasedAt.isNone

/-- A halt of all of a user's strategies that is active. -/
def haltsUser (user : UserId) (h : TradingHalt) : Bool :=
  decide (h.user = some user) && h.strategy.isNone && h.releasedAt.isNone

/-- A halt of a user's strategy that is active. -/
def haltsStrategy (user : UserId) (strategy : StrategyId) (h : TradingHalt) : Bool :=
  decide (h.user = some user) && decide (h.strategy = some strategy) && h.releasedAt.isNone

end TradingHalt

/-- `.first()`: the rows of a query without an order come by primary key. -/
def firstById : List TradingHalt → Option TradingHalt
  | [] => none
  | h :: hs => match firstById hs with
    | some other => if other.id < h.id then some other else some h
    | none => some h

theorem firstById_eq_none {halts : List TradingHalt} : firstById halts = none ↔ halts = [] := by
  cases halts with
  | nil => exact ⟨fun _ => rfl, fun _ => rfl⟩
  | cons h hs =>
    simp only [firstById, reduceCtorEq, iff_false]
    cases firstById hs with
    | none => simp
    | some other => dsimp only; split_ifs <;> simp

theorem mem_of_firstById {halts : List TradingHalt} {h : TradingHalt} (heq : firstById halts = some h) :
    h ∈ halts := by
  induction halts with
  | nil => cases heq
  | cons g hs ih =>
    rw [firstById] at heq
    cases hrest : firstById hs with
    | none =>
      rw [hrest] at heq
      exact Option.some.inj heq ▸ List.mem_cons_self
    | some other =>
      rw [hrest] at heq
      dsimp only at heq
      split_ifs at heq
      · exact List.mem_cons_of_mem _ (ih (hrest.trans heq))
      · exact Option.some.inj heq ▸ List.mem_cons_self

/-! ### The gate -/

/-- `is_blocked`: why trading is blocked, if it is. -/
def isBlocked (halts : List TradingHalt) (user : UserId) (strategy : StrategyId) : Option String :=
  if halts.any TradingHalt.haltsPlatform then some "PLATFORM_HALTED"
  else if halts.any (TradingHalt.haltsUser user) then some "USER_HALTED"
  else if halts.any (TradingHalt.haltsStrategy user strategy) then some "STRATEGY_HALTED"
  else none

theorem isBlocked_eq_none {halts : List TradingHalt} {user : UserId} {strategy : StrategyId} :
    isBlocked halts user strategy = none ↔ ∀ h ∈ halts, h.haltsPlatform = false ∧
      h.haltsUser user = false ∧ h.haltsStrategy user strategy = false := by
  unfold isBlocked
  constructor
  · intro hnone h hh
    by_contra hnot
    split_ifs at hnone with h1 h2 h3
    simp only [List.any_eq_true, not_exists, not_and, Bool.not_eq_true] at h1 h2 h3
    exact hnot ⟨h1 h hh, h2 h hh, h3 h hh⟩
  · intro hall
    have h1 : halts.any TradingHalt.haltsPlatform = false :=
      List.any_eq_false.mpr fun h hh => by simp [(hall h hh).1]
    have h2 : halts.any (TradingHalt.haltsUser user) = false :=
      List.any_eq_false.mpr fun h hh => by simp [(hall h hh).2.1]
    have h3 : halts.any (TradingHalt.haltsStrategy user strategy) = false :=
      List.any_eq_false.mpr fun h hh => by simp [(hall h hh).2.2]
    simp [h1, h2, h3]

/-! ### Engaging -/

/-- The arguments of `trigger_halt`. -/
structure TriggerCall where
  /-- `user_id`. -/
  user : Option UserId
  /-- `level`. -/
  level : HaltLevel
  /-- `strategy_id`. -/
  strategy : Option StrategyId := none
  /-- `reason`. -/
  reason : String := ""
  /-- `created_by_id`. -/
  createdBy : Option UserId := none
  /-- `auto`. -/
  auto : Bool := false
  /-- `flatten`. -/
  flatten : Bool := false

/-- The arguments of `flatten_user`. -/
structure FlattenCall where
  /-- `user_id`. -/
  user : UserId
  /-- `scope`. -/
  scope : Scope
  /-- `strategy_id`. -/
  strategy : Option StrategyId
  deriving DecidableEq

/-- What comes of `trigger_halt`. -/
structure Triggered where
  /-- The halt that is returned. -/
  halt : TradingHalt
  /-- The table. -/
  halts : List TradingHalt
  /-- What is called on commit. -/
  onCommit : Option FlattenCall
  deriving DecidableEq

namespace TriggerCall

variable (call : TriggerCall)

/-- `scope_q`: the active halts of the level that are of the same scope. -/
def inScope (h : TradingHalt) : Bool :=
  h.isActive && decide (h.level = call.level) &&
    match call.level with
    | .l3 => h.user.isNone
    | .l0 => decide (h.user = call.user) && decide (h.strategy = call.strategy)
    | .l1 | .l2 => decide (h.user = call.user) && h.strategy.isNone

/-- The halt that is created. -/
def newHalt (id : HaltId) (now : ℤ) : TradingHalt where
  id := id
  user := if call.level = .l3 then none else call.user
  strategy := if call.level = .l0 then call.strategy else none
  level := call.level
  auto := call.auto
  reason := truncate (if call.reason = "" then call.level.value else call.reason) 255
  createdBy := call.createdBy
  createdAt := now

/-- What is called when the transaction that created `halt` commits. -/
def onCommit (halt : TradingHalt) : Option FlattenCall :=
  if call.flatten = true ∧ call.level ≠ .l3 then
    call.user.map fun user => ⟨user, halt.scope, call.strategy⟩
  else none

/-- A call that asks to flatten a user has the user flattened when it makes a halt. -/
theorem onCommit_eq (halt : TradingHalt) {user : UserId} (hflatten : call.flatten = true)
    (huser : call.user = some user) (hlevel : call.level ≠ .l3) :
    call.onCommit halt = some ⟨user, halt.scope, call.strategy⟩ := by
  unfold onCommit
  rw [if_pos ⟨hflatten, hlevel⟩, huser]
  rfl

/-- A created halt is of the scope it was created for. -/
theorem inScope_newHalt (id : HaltId) (now : ℤ) : call.inScope (call.newHalt id now) = true := by
  unfold inScope newHalt TradingHalt.isActive
  cases call.level <;> simp

end TriggerCall

/-- `trigger_halt`, of the key of a new row; `none` is an `IntegrityError`. -/
def triggerHalt (halts : List TradingHalt) (call : TriggerCall) (id : HaltId) (now : ℤ) : Option Triggered :=
  match firstById (halts.filter call.inScope) with
  | some existing => some ⟨existing, halts, none⟩
  | none =>
    if halts.any fun h => decide (h.id = id) then none
    else
      let halt := call.newHalt id now
      some ⟨halt, halts ++ [halt], call.onCommit halt⟩

/-- A call returns the first active halt of its scope and level, or there is none and it makes one. -/
theorem triggerHalt_cases {halts : List TradingHalt} {call : TriggerCall} {id : HaltId} {now : ℤ}
    {r : Triggered} (h : triggerHalt halts call id now = some r) :
    (∃ existing ∈ halts, call.inScope existing = true ∧ r = ⟨existing, halts, none⟩) ∨
    ((∀ g ∈ halts, call.inScope g = false) ∧ (∀ g ∈ halts, g.id ≠ id) ∧
      r = ⟨call.newHalt id now, halts ++ [call.newHalt id now], call.onCommit (call.newHalt id now)⟩) := by
  unfold triggerHalt at h
  cases hfirst : firstById (halts.filter call.inScope) with
  | some existing =>
    rw [hfirst] at h
    obtain ⟨hmem, hscope⟩ := List.mem_filter.mp (mem_of_firstById hfirst)
    exact .inl ⟨existing, hmem, hscope, (Option.some.inj h).symm⟩
  | none =>
    rw [hfirst] at h
    dsimp only at h
    split_ifs at h with hid
    have hnone : ∀ g ∈ halts, call.inScope g = false := by
      have := List.filter_eq_nil_iff.mp (firstById_eq_none.mp hfirst)
      exact fun g hg => by simpa using this g hg
    have hfresh : ∀ g ∈ halts, g.id ≠ id := by simpa using hid
    exact .inr ⟨hnone, hfresh, (Option.some.inj h).symm⟩

/-- **A request to flatten is dropped exactly by an active halt**: a call that asks to flatten a user
has the user flattened if and only if no active halt is of its scope and level. -/
theorem schedules_flatten_iff {halts : List TradingHalt} {call : TriggerCall} {id : HaltId} {now : ℤ}
    {r : Triggered} {user : UserId} (h : triggerHalt halts call id now = some r)
    (hflatten : call.flatten = true) (huser : call.user = some user) (hlevel : call.level ≠ .l3) :
    (∃ f, r.onCommit = some f ∧ f.user = user) ↔ ∀ g ∈ halts, call.inScope g = false := by
  rcases triggerHalt_cases h with ⟨existing, hmem, hscope, rfl⟩ | ⟨hnone, -, rfl⟩
  · constructor
    · rintro ⟨f, hf, -⟩
      cases hf
    · intro hall
      exact absurd hscope (by simp [hall existing hmem])
  · exact iff_of_true ⟨_, call.onCommit_eq _ hflatten huser hlevel, rfl⟩ hnone

/-- A user's activation of their own kill switch, as the view makes it. -/
def userActivation (user : UserId) : TriggerCall where
  user := some user
  level := .l1
  createdBy := some user
  flatten := true

/-- The halts of two other users. -/
def otherHalts : List TradingHalt := [(userActivation "v").newHalt "h8" 0, (userActivation "w").newHalt "h9" 0]

/-- The first activation has the user flattened, though others have activated theirs. -/
theorem schedules_flatten_first :
    (∃ f, (userActivation "u").onCommit ((userActivation "u").newHalt "h1" 0) = some f ∧ f.user = "u") ↔
      ∀ g ∈ otherHalts, (userActivation "u").inScope g = false :=
  have hfirst : triggerHalt otherHalts (userActivation "u") "h1" 0 =
      some ⟨(userActivation "u").newHalt "h1" 0, otherHalts ++ [(userActivation "u").newHalt "h1" 0],
        (userActivation "u").onCommit ((userActivation "u").newHalt "h1" 0)⟩ := by rfl
  schedules_flatten_iff hfirst rfl rfl (by decide)

/-- The second activation does not: the halt of the first is still active. -/
theorem not_schedules_flatten_again :
    ¬ ∀ first second : Triggered, triggerHalt [] (userActivation "u") "h1" 0 = some first →
      triggerHalt first.halts (userActivation "u") "h2" 1 = some second →
        ∃ f, second.onCommit = some f ∧ f.user = "u" := by
  intro h
  obtain ⟨f, hf, -⟩ := h _ ⟨_, _, none⟩ rfl rfl
  cases hf

/-! ### Releasing -/

/-- `trading_day`: the date in New York at a time, as the number of a day. -/
structure Calendar where
  /-- The day. -/
  tradingDay : ℤ → ℤ
  /-- It never goes back. -/
  le_of_le : ∀ s t, s ≤ t → tradingDay s ≤ tradingDay t

/-- The dates in New York by the clock changes of 2026: four hours behind from March 8, 07:00 UTC, to
November 1, 06:00 UTC, and five before and after. -/
def newYork2026 : Calendar where
  tradingDay t :=
    (t - (if 1772953200000000 ≤ t ∧ t < 1793512800000000 then 4 else 5) * 3600000000) / 86400000000
  le_of_le := by
    intro t u htu
    split_ifs <;> omega

/-- `save` of a released halt. -/
def release (halts : List TradingHalt) (id : HaltId) (releasedBy : Option UserId) (now : ℤ) : List TradingHalt :=
  halts.map fun h => if h.id = id then { h with releasedAt := some now, releasedBy := releasedBy } else h

section
variable (calendar : Calendar)

/-- Whether a halt cannot be released yet: the daily loss is over on the next trading day. -/
def TradingHalt.isLocked (h : TradingHalt) (now : ℤ) : Bool :=
  h.auto && decide (h.level = .l2) &&
    decide (calendar.tradingDay h.createdAt = calendar.tradingDay now)

/-- `release_halt`: the table, and whether the halt is released. -/
def releaseHalt (halts : List TradingHalt) (id : HaltId) (releasedBy : Option UserId) (now : ℕ → ℤ) :
    List TradingHalt × Bool :=
  match halts.find? fun h => decide (h.id = id) && h.isActive with
  | none => (halts, false)
  | some h =>
    if h.isLocked calendar (now 0) then (halts, false) else (release halts id releasedBy (now 1), true)

/-- The loop of `release_expired_l2_halts`. -/
def releaseEach (halts : List TradingHalt) (now : ℕ → ℤ) : List HaltId → List TradingHalt × ℕ
  | [] => (halts, 0)
  | id :: ids =>
    let (halts', released) := releaseHalt calendar halts id none now
    let (halts'', count) := releaseEach halts' (fun n => now (n + 2)) ids
    (halts'', count + if released then 1 else 0)

/-- The halts that `release_expired_l2_halts` goes through. -/
def activeAutoL2 (halts : List TradingHalt) : List HaltId :=
  (halts.filter fun h => decide (h.level = .l2) && h.auto && h.isActive).map TradingHalt.id

/-- `release_expired_l2_halts`: the table, and how many are released. -/
def releaseExpiredL2Halts (halts : List TradingHalt) (now : ℕ → ℤ) : List TradingHalt × ℕ :=
  releaseEach calendar halts now (activeAutoL2 halts)

end

end StratTrader.Risk
