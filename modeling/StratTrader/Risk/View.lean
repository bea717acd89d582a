import StratTrader.Risk.KillSwitch

/-!
# The kill switch view

`KillSwitchView.post` of `risk/views.py`, with the checks of its serializer: a user halts or
resumes a strategy or all of them, and an administrator the platform.

## What is proved

* `post_cases`: a request changes nothing, or makes one call of `trigger_halt`, or one of
  `release_halt` for an active halt of its scope and level.
* `post_schedules_flatten_iff`: the activation of a user's own kill switch has the user
  flattened exactly if no such halt of theirs is active.

## Honest scope

The fields of a request are what the serializer's fields make of its data. Whether a code
of multi-factor authentication is valid is a parameter.
-/

namespace StratTrader.Risk

open StratTrader.Brokers StratTrader.Foundation

/-- The fields of `KillSwitchCreateSerializer`. -/
structure KillSwitchRequest where
  /-- `scope`. -/
  scope : Scope
  /-- `target_id`: a strategy. -/
  targetId : Option StrategyId := none
  /-- `active`: whether to engage. -/
  active : Bool := true
  /-- `reason`. -/
  reason : String := ""
  /-- `flatten`. -/
  flatten : Bool := false
  /-- `mfa_code`. -/
  mfaCode : String := ""

/-- What is known of `request.user`. -/
structure Caller where
  /-- The primary key. -/
  id : UserId
  /-- `is_staff`. -/
  isStaff : Bool
  /-- Whether the user owns a strategy. -/
  owns : StrategyId → Bool
  /-- `verify_mfa_code`. -/
  verifyMfaCode : String → Bool

/-- What is answered. -/
inductive KillSwitchReply where
  /-- `fail`, with the field and the message of a validation error. -/
  | fail (code message : String) (status : ℕ) (details : Option (String × String))
  /-- The halt, with status 201. -/
  | engaged (halt : TradingHalt)
  /-- `{released: false, detail: "no active halt"}`. -/
  | noActiveHalt
  /-- `{released: true, id: …}`. -/
  | released (id : HaltId)
  deriving DecidableEq

/-- What comes of a request. -/
structure Posted where
  /-- The reply. -/
  reply : KillSwitchReply
  /-- The table. -/
  halts : List TradingHalt
  /-- What is called on commit. -/
  onCommit : Option FlattenCall
  deriving DecidableEq

/-- `_SCOPE_LEVEL`. -/
def scopeLevel : Scope → HaltLevel
  | .strategy => .l0
  | .user => .l1
  | .platform => .l3

namespace KillSwitchRequest

variable (request : KillSwitchRequest) (caller : Caller)

/-- `validate`: the field in error, and the message. -/
def validate : Option (String × String) :=
  if request.scope ≠ .strategy then none
  else if request.flatten then
    some ("flatten", "FLATTEN_SCOPE_UNSUPPORTED: per-strategy flatten is not supported.")
  else match request.targetId with
    | none => some ("target_id", "target_id (strategy) is required for STRATEGY scope.")
    | some strategy =>
      if caller.owns strategy then none else some ("target_id", "Unknown strategy or not owned by you.")

/-- The call of `trigger_halt`. -/
def triggerCall : TriggerCall where
  user := if request.scope = .platform then none else some caller.id
  level := scopeLevel request.scope
  strategy := if request.scope = .strategy then request.targetId else none
  reason := request.reason
  createdBy := some caller.id
  flatten := request.flatten || decide (request.scope = .user)

/-- The halts that may be released: those of the level that are of the scope. -/
def concerns (h : TradingHalt) : Bool :=
  decide (h.level = scopeLevel request.scope) &&
    match request.scope with
    | .platform => h.user.isNone
    | .strategy => decide (h.user = some caller.id) && decide (h.strategy = request.targetId)
    | .user => decide (h.user = some caller.id) && h.strategy.isNone

/-- Why a validated request is refused, if it is. -/
def refusal : Option KillSwitchReply :=
  if request.scope = .strategy then none
  else if request.scope = .platform ∧ caller.isStaff = false then
    some (.fail "FORBIDDEN" "Platform kill switch is admin-only." 403 none)
  else if caller.verifyMfaCode request.mfaCode then none
  else some (.fail "MFA_REQUIRED" "A valid MFA code is required for this action." 403 none)

end KillSwitchRequest

section
variable (calendar : Calendar)

/-- The part of `post` that releases. -/
def postRelease (halts : List TradingHalt) (caller : Caller) (request : KillSwitchRequest) (now : ℕ → ℤ) : Posted :=
  match firstById (halts.filter fun h => h.isActive && request.concerns caller h) with
  | none => ⟨.noActiveHalt, halts, none⟩
  | some h =>
    let (halts', released) := releaseHalt calendar halts h.id (some caller.id) now
    if released then ⟨.released h.id, halts', none⟩
    else ⟨.fail "HALT_LOCKED" "Auto (daily-loss) halts release at the next trading day." 409 none, halts', none⟩

/-- `KillSwitchView.post`, of the key of a new row; `none` is an exception. -/
def KillSwitchView.post (halts : List TradingHalt) (caller : Caller) (request : KillSwitchRequest) (id : HaltId)
    (now : ℕ → ℤ) : Option Posted :=
  match request.validate caller with
  | some error => some ⟨.fail "VALIDATION_ERROR" "Invalid input." 400 (some error), halts, none⟩
  | none =>
    match request.refusal caller with
    | some reply => some ⟨reply, halts, none⟩
    | none =>
      if request.active then
        (triggerHalt halts (request.triggerCall caller) id (now 0)).map fun r =>
          ⟨.engaged r.halt, r.halts, r.onCommit⟩
      else some (postRelease calendar halts caller request now)

variable {calendar} {halts : List TradingHalt} {caller : Caller} {request : KillSwitchRequest} {id : HaltId}
  {now : ℕ → ℤ} {posted : Posted}

/-- A request changes nothing, or makes a call of `trigger_halt`, or one of `release_halt` for an active
halt it concerns. -/
theorem post_cases (h : KillSwitchView.post calendar halts caller request id now = some posted) :
    posted.halts = halts ∨
    (∃ r, triggerHalt halts (request.triggerCall caller) id (now 0) = some r ∧ posted.halts = r.halts) ∨
    (request.active = false ∧ ∃ g ∈ halts, g.isActive = true ∧ request.concerns caller g = true ∧
      posted.halts = (releaseHalt calendar halts g.id (some caller.id) now).1) := by
  unfold KillSwitchView.post at h
  cases hvalid : request.validate caller with
  | some error =>
    rw [hvalid] at h
    exact .inl (by rw [← Option.some.inj h])
  | none =>
    cases hrefused : request.refusal caller with
    | some reply =>
      rw [hvalid, hrefused] at h
      exact .inl (by rw [← Option.some.inj h])
    | none =>
      rw [hvalid, hrefused] at h
      dsimp only at h
      split_ifs at h with hactive
      · obtain ⟨r, hr, heq⟩ := Option.map_eq_some_iff.mp h
        exact .inr (.inl ⟨r, hr, by rw [← heq]⟩)
      · rw [← Option.some.inj h]
        unfold postRelease
        cases hfirst : firstById (halts.filter fun h => h.isActive && request.concerns caller h) with
        | none => exact .inl rfl
        | some g =>
          obtain ⟨hmem, hg⟩ := List.mem_filter.mp (mem_of_firstById hfirst)
          obtain ⟨hg, hconcerns⟩ := Bool.and_eq_true_iff.mp hg
          refine .inr (.inr ⟨by simpa using hactive, g, hmem, hg, hconcerns, ?_⟩)
          dsimp only
          split_ifs <;> rfl

/-- The call is for the halts that the request concerns. -/
theorem inScope_triggerCall (g : TradingHalt) :
    (request.triggerCall caller).inScope g = (g.isActive && request.concerns caller g) := by
  unfold TriggerCall.inScope KillSwitchRequest.concerns KillSwitchRequest.triggerCall
  cases request.scope <;> simp [scopeLevel, Bool.and_assoc]

theorem refusal_ne_engaged {reply : KillSwitchReply} {halt : TradingHalt}
    (h : request.refusal caller = some reply) : reply ≠ .engaged halt := by
  unfold KillSwitchRequest.refusal at h
  rintro rfl
  split_ifs at h <;> cases h

theorem postRelease_ne_engaged (halt : TradingHalt) :
    (postRelease calendar halts caller request now).reply ≠ .engaged halt := by
  unfold postRelease
  cases firstById (halts.filter fun h => h.isActive && request.concerns caller h) with
  | none => intro h; cases h
  | some g => dsimp only; split_ifs <;> (intro h; cases h)

/-- A reply that a halt is engaged is that of a call of `trigger_halt`. -/
theorem triggerHalt_of_engaged {halt : TradingHalt}
    (h : KillSwitchView.post calendar halts caller request id now = some posted)
    (hengaged : posted.reply = .engaged halt) :
    triggerHalt halts (request.triggerCall caller) id (now 0) = some ⟨halt, posted.halts, posted.onCommit⟩ := by
  unfold KillSwitchView.post at h
  cases hvalid : request.validate caller with
  | some error =>
    rw [hvalid] at h
    rw [← Option.some.inj h] at hengaged
    cases hengaged
  | none =>
    cases hrefused : request.refusal caller with
    | some reply =>
      rw [hvalid, hrefused] at h
      rw [← Option.some.inj h] at hengaged
      exact absurd hengaged (refusal_ne_engaged hrefused)
    | none =>
      rw [hvalid, hrefused] at h
      dsimp only at h
      split_ifs at h with hactive
      · obtain ⟨r, hr, rfl⟩ := Option.map_eq_some_iff.mp h
        rw [hr, ← KillSwitchReply.engaged.inj hengaged]
      · rw [← Option.some.inj h] at hengaged
        exact absurd hengaged (postRelease_ne_engaged halt)

/-- An accepted activation of a user's own kill switch has the user flattened exactly if no halt of
theirs of that level is active. -/
theorem post_schedules_flatten_iff {halt : TradingHalt}
    (h : KillSwitchView.post calendar halts caller request id now = some posted) (hscope : request.scope = .user)
    (haccepted : posted.reply = .engaged halt) :
    (∃ f, posted.onCommit = some f ∧ f.user = caller.id) ↔
      ∀ g ∈ halts, g.isActive = true → request.concerns caller g = false := by
  have hscope' : (∀ g ∈ halts, (request.triggerCall caller).inScope g = false) ↔
      ∀ g ∈ halts, g.isActive = true → request.concerns caller g = false := by
    refine forall₂_congr fun g _ => ?_
    rw [inScope_triggerCall]
    cases g.isActive <;> simp
  rw [← hscope']
  rcases triggerHalt_cases (triggerHalt_of_engaged h haccepted) with ⟨existing, hmem, hin, heq⟩ | ⟨hnone, -, heq⟩
  · rw [(Triggered.mk.inj heq).2.2]
    constructor
    · rintro ⟨f, hf, -⟩
      cases hf
    · intro hall
      exact absurd hin (by simp [hall existing hmem])
  · rw [(Triggered.mk.inj heq).2.2]
    have huser : (request.triggerCall caller).user = some caller.id := by simp [KillSwitchRequest.triggerCall, hscope]
    have hflatten : (request.triggerCall caller).flatten = true := by simp [KillSwitchRequest.triggerCall, hscope]
    have hlevel : (request.triggerCall caller).level ≠ .l3 := by
      simp [KillSwitchRequest.triggerCall, hscope, scopeLevel]
    exact iff_of_true ⟨_, (request.triggerCall caller).onCommit_eq _ hflatten huser hlevel, rfl⟩ hnone

end

end StratTrader.Risk
