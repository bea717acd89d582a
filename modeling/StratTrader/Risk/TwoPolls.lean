import Mathlib.Data.List.Infix
import StratTrader.Risk.DailyLoss

/-!
# Two polls in a row

A day of `check_daily_loss`: serial polls of one user, each with its own figures and thresholds, on
one count. A poll with no figures is passed over, and so is every poll once the halt is active.

## What is proved

* `pollDay_loss`, `AutoL2.triggerHalt`: a poll of the day is a call of `check_daily_loss`, and the
  halts of the daily loss stay automatic.
* `Day.poll`: what a run of polls has come to, poll by poll.
* `twoPolls_trip`: the halt is made at the first poll that confirms a breach, by one event, and at no
  other.

## Honest scope

The count does not expire between polls. Every halt of the daily loss is automatic, which is how
`trigger_halt` is called for them, and keys of new rows are new.
-/

namespace StratTrader.Risk

open StratTrader.Brokers StratTrader.Foundation

/-- `RiskEvent`, of the types that a poll creates. -/
inductive RiskEvent where
  /-- `DAILY_LOSS_BREACH`, with the change and the equity. -/
  | dailyLossBreach (user : UserId) (pnl equity : ℚ)
  /-- `KILL_SWITCH_ON`, of a halt. -/
  | killSwitchOn (user : Option UserId) (scope : Scope) (level : HaltLevel) (auto : Bool) (reason : String)
  deriving DecidableEq

/-- A breach of a user's. -/
def RiskEvent.isBreachOf (user : UserId) : RiskEvent → Bool
  | .dailyLossBreach u _ _ => decide (u = user)
  | .killSwitchOn .. => false

theorem isBreachOf_self (user : UserId) (pnl equity : ℚ) :
    (RiskEvent.dailyLossBreach user pnl equity).isBreachOf user = true := decide_eq_true rfl

/-- What a poll is given. -/
structure PollInput where
  /-- The thresholds of the user's profile, if there is one. -/
  profile : Option Thresholds
  /-- What `get_account` gives for each account. -/
  accounts : List (Option Account)
  /-- The key of a new halt. -/
  id : HaltId
  /-- The time. -/
  now : ℤ

/-- What is stored in the course of a day. -/
structure DayState where
  /-- The halts and the count. -/
  loss : LossState
  /-- The events. -/
  events : List RiskEvent

/-- The event of a halt that `trigger_halt` makes, if it makes one. -/
def haltEvents (halts : List TradingHalt) (call : TriggerCall) (r : Triggered) : List RiskEvent :=
  if r.halts = halts then []
  else [.killSwitchOn r.halt.user r.halt.scope call.level call.auto call.reason]

/-- `check_daily_loss`, with the events. -/
def pollDay (user : UserId) (s : DayState) (p : PollInput) : DayState :=
  match poll user p.profile p.accounts 2 false s.loss with
  | .skip => s
  | .reset => { s with loss := { s.loss with count := none } }
  | .count n => { s with loss := { s.loss with count := some n } }
  | .trip n =>
    let figures := (userDailyPnl p.accounts).getD (0, 0)
    let events := s.events ++ [.dailyLossBreach user figures.1 figures.2]
    match triggerHalt s.loss.halts (breachCall user) p.id p.now with
    | none => ⟨{ s.loss with count := some n }, events⟩
    | some r => ⟨⟨r.halts, some n⟩, events ++ haltEvents s.loss.halts (breachCall user) r⟩

/-- A day of polls. -/
def pollsOf (user : UserId) (s : DayState) (ps : List PollInput) : DayState := ps.foldl (pollDay user) s

/-- The halts and the count are those of `check_daily_loss`. -/
theorem pollDay_loss {user : UserId} {s : DayState} {p : PollInput} {tripped : Bool} {t : LossState}
    {onCommit : Option FlattenCall}
    (h : checkDailyLoss user p.profile p.accounts 2 false p.id p.now s.loss = some (tripped, t, onCommit)) :
    (pollDay user s p).loss = t := by
  unfold checkDailyLoss at h
  unfold pollDay
  cases hpoll : poll user p.profile p.accounts 2 false s.loss with
  | skip =>
    rw [hpoll] at h
    cases h
    rfl
  | reset =>
    rw [hpoll] at h
    cases h
    rfl
  | count n =>
    rw [hpoll] at h
    cases h
    rfl
  | trip n =>
    rw [hpoll] at h
    obtain ⟨r, hr, hrest⟩ := Option.map_eq_some_iff.mp h
    cases hrest
    dsimp only
    rw [hr]

/-! ### What a breach is confirmed by -/

/-- What the figures say: whether a threshold is breached, or nothing without figures. -/
def PollInput.verdict (p : PollInput) : Option Bool :=
  (userDailyPnl p.accounts).map fun figures => (p.profile.getD defaultThresholdProfile).isBreached figures.1 figures.2

/-- The verdict of the last poll that has one. -/
def lastVerdict (ps : List PollInput) : Option Bool := ps.foldl (fun v p => p.verdict.or v) none

/-- A poll confirms a breach: it finds one, and so did the last poll before it that had figures. -/
def Confirms (before : List PollInput) (p : PollInput) : Prop :=
  p.verdict = some true ∧ lastVerdict before = some true

/-- A breach has been confirmed. -/
def HasConfirmed (ps : List PollInput) : Prop := ∃ before p, before ++ [p] <+: ps ∧ Confirms before p

theorem lastVerdict_concat (ps : List PollInput) (p : PollInput) :
    lastVerdict (ps ++ [p]) = p.verdict.or (lastVerdict ps) := by
  unfold lastVerdict
  rw [List.foldl_append]
  rfl

theorem hasConfirmed_concat {ps : List PollInput} {p : PollInput} :
    HasConfirmed (ps ++ [p]) ↔ HasConfirmed ps ∨ Confirms ps p := by
  unfold HasConfirmed
  constructor
  · rintro ⟨before, q, hprefix, hconfirms⟩
    rcases List.prefix_concat_iff.mp hprefix with heq | hprefix
    · obtain ⟨rfl, hq⟩ := List.append_inj' heq rfl
      cases hq
      exact .inr hconfirms
    · exact .inl ⟨before, q, hprefix, hconfirms⟩
  · rintro (⟨before, q, hprefix, hconfirms⟩ | hconfirms)
    · exact ⟨before, q, hprefix.trans (List.prefix_append _ _), hconfirms⟩
    · exact ⟨ps, p, List.prefix_rfl, hconfirms⟩

theorem not_hasConfirmed_nil : ¬ HasConfirmed [] := by
  rintro ⟨before, p, hprefix, -⟩
  exact absurd (List.prefix_nil.mp hprefix) (by simp)

/-! ### A poll -/

variable {user : UserId}

/-- A poll, by what its figures say. -/
theorem poll_eq (p : PollInput) (s : LossState) (hnot : isTripped s.halts user = false) :
    poll user p.profile p.accounts 2 false s =
      match p.verdict with
      | none => .skip
      | some false => .reset
      | some true =>
        if nextCount s.count false < 2 then .count (nextCount s.count false)
        else .trip (nextCount s.count false) := by
  unfold poll PollInput.verdict
  rw [hnot, if_neg Bool.false_ne_true]
  cases userDailyPnl p.accounts with
  | none => rfl
  | some figures =>
    obtain ⟨pnl, equity⟩ := figures
    dsimp only [Option.map_some]
    cases (p.profile.getD defaultThresholdProfile).isBreached pnl equity with
    | false => exact if_pos rfl
    | true => exact if_neg (by decide)

/-- The halts of the daily loss are automatic. -/
def AutoL2 (halts : List TradingHalt) : Prop := ∀ h ∈ halts, h.level = .l2 → h.auto = true

/-- They stay so, since every call for the level asks for an automatic halt. -/
theorem AutoL2.triggerHalt {halts : List TradingHalt} (h : AutoL2 halts) {call : TriggerCall}
    (hcall : call.level = .l2 → call.auto = true) {id : HaltId} {now : ℤ} {r : Triggered}
    (hr : triggerHalt halts call id now = some r) : AutoL2 r.halts := by
  rcases triggerHalt_cases hr with ⟨-, -, -, rfl⟩ | ⟨-, -, rfl⟩
  · exact h
  · intro g hg hlevel
    rcases List.mem_append.mp hg with hg | hg
    · exact h g hg hlevel
    · cases List.mem_singleton.mp hg
      exact hcall hlevel

/-- A user who is not halted by the daily loss is when a poll trips it. -/
theorem triggerHalt_breachCall {halts : List TradingHalt} (hnot : isTripped halts user = false) (hauto : AutoL2 halts)
    {id : HaltId} (hfresh : ∀ h ∈ halts, h.id ≠ id) (now : ℤ) :
    triggerHalt halts (breachCall user) id now =
      some ⟨(breachCall user).newHalt id now, halts ++ [(breachCall user).newHalt id now],
        (breachCall user).onCommit ((breachCall user).newHalt id now)⟩ := by
  have hscope : halts.filter (breachCall user).inScope = [] := by
    refine List.filter_eq_nil_iff.mpr fun h hh hin => ?_
    have hno := List.any_eq_false.mp hnot h hh
    unfold TriggerCall.inScope breachCall at hin
    simp only [Bool.and_eq_true, decide_eq_true_eq] at hin hno
    exact hno ⟨⟨⟨hin.2.1, hin.1.2⟩, hauto h hh hin.1.2⟩, hin.1.1⟩
  unfold triggerHalt
  rw [hscope, firstById]
  dsimp only
  rw [if_neg]
  rw [Bool.not_eq_true, List.any_eq_false]
  exact fun h hh => by simpa using hfresh h hh

theorem isTripped_newHalt (halts : List TradingHalt) (id : HaltId) (now : ℤ) :
    isTripped (halts ++ [(breachCall user).newHalt id now]) user = true := by
  unfold isTripped
  rw [List.any_append, Bool.or_eq_true]
  refine .inr ?_
  rw [List.any_cons, List.any_nil, Bool.or_false]
  unfold breachCall TriggerCall.newHalt TradingHalt.isActive
  simp

/-- How many breaches of the user's have been reported. -/
def breaches (user : UserId) (s : DayState) : ℕ := s.events.countP (RiskEvent.isBreachOf user)

/-! ### A day -/

/-- **What a run of polls has come to**: as long as no breach has been confirmed, only the count has changed, and it is
1 behind a breach; behind a confirmed one the halt is active, by one event. -/
structure Day (user : UserId) (start s : DayState) (ps : List PollInput) : Prop where
  /-- No halt has been made. -/
  halts : ¬ HasConfirmed ps → s.loss.halts = start.loss.halts
  /-- The count. -/
  count : ¬ HasConfirmed ps → s.loss.count = if lastVerdict ps = some true then some 1 else none
  /-- There has been no event. -/
  quiet : ¬ HasConfirmed ps → breaches user s = breaches user start
  /-- The halt is active. -/
  tripped : HasConfirmed ps → isTripped s.loss.halts user = true
  /-- There has been one event. -/
  reported : HasConfirmed ps → breaches user s = breaches user start + 1

variable {start s : DayState} {ps : List PollInput} {p : PollInput}

/-- A poll behind the halt does nothing. -/
theorem pollDay_of_tripped (h : isTripped s.loss.halts user = true) : pollDay user s p = s := by
  unfold pollDay poll
  rw [if_pos h]

/-- A poll that confirms a breach makes the halt, and reports one. -/
theorem pollDay_of_confirms (hnot : isTripped s.loss.halts user = false) (hauto : AutoL2 s.loss.halts)
    (hfresh : ∀ h ∈ s.loss.halts, h.id ≠ p.id) (hcount : s.loss.count = some 1) (hverdict : p.verdict = some true) :
    (pollDay user s p).loss.halts = s.loss.halts ++ [(breachCall user).newHalt p.id p.now] ∧
      breaches user (pollDay user s p) = breaches user s + 1 := by
  have hpoll : poll user p.profile p.accounts 2 false s.loss = .trip 2 := by
    rw [poll_eq p s.loss hnot, hverdict, hcount]
    rfl
  unfold pollDay
  rw [hpoll]
  dsimp only
  rw [triggerHalt_breachCall hnot hauto hfresh]
  refine ⟨rfl, ?_⟩
  have hnone : (haltEvents s.loss.halts (breachCall user)
      ⟨(breachCall user).newHalt p.id p.now, s.loss.halts ++ [(breachCall user).newHalt p.id p.now],
        (breachCall user).onCommit ((breachCall user).newHalt p.id p.now)⟩).countP (RiskEvent.isBreachOf user) = 0 := by
    unfold haltEvents
    split_ifs <;> rfl
  unfold breaches
  dsimp only
  rw [List.countP_append, List.countP_append, hnone, List.countP_singleton, if_pos (isBreachOf_self user _ _)]

/-- **A poll that confirms no breach** leaves the halts and the reports, and keeps the count. -/
theorem pollDay_of_waiting (hnot : isTripped s.loss.halts user = false)
    (hcount : s.loss.count = if lastVerdict ps = some true then some 1 else none) (hno : ¬ Confirms ps p) :
    (pollDay user s p).loss.halts = s.loss.halts ∧ (pollDay user s p).events = s.events ∧
      (pollDay user s p).loss.count = if lastVerdict (ps ++ [p]) = some true then some 1 else none := by
  have hpoll := poll_eq p s.loss hnot
  rw [lastVerdict_concat]
  unfold pollDay
  cases hverdict : p.verdict with
  | none =>
    rw [hverdict] at hpoll
    rw [hpoll]
    exact ⟨rfl, rfl, hcount⟩
  | some breached =>
    rw [hverdict] at hpoll
    cases breached with
    | false =>
      rw [hpoll]
      exact ⟨rfl, rfl, rfl⟩
    | true =>
      rw [if_neg fun hlast => hno ⟨hverdict, hlast⟩] at hcount
      rw [hcount] at hpoll
      rw [hpoll]
      exact ⟨rfl, rfl, rfl⟩

/-- One more poll of a day. -/
theorem Day.poll (h : Day user start s ps) (hnot : isTripped start.loss.halts user = false)
    (hauto : AutoL2 start.loss.halts) (hfresh : ∀ h ∈ start.loss.halts, h.id ≠ p.id) :
    Day user start (pollDay user s p) (ps ++ [p]) := by
  by_cases hdone : HasConfirmed ps
  · rw [pollDay_of_tripped (h.tripped hdone)]
    have hstill : HasConfirmed (ps ++ [p]) := hasConfirmed_concat.mpr (.inl hdone)
    exact ⟨fun hno => absurd hstill hno, fun hno => absurd hstill hno, fun hno => absurd hstill hno,
      fun _ => h.tripped hdone, fun _ => h.reported hdone⟩
  have hhalts := h.halts hdone
  have hcount := h.count hdone
  have hnot' : isTripped s.loss.halts user = false := hhalts ▸ hnot
  by_cases hnow : Confirms ps p
  · rw [if_pos hnow.2] at hcount
    have hauto' : AutoL2 s.loss.halts := hhalts ▸ hauto
    have hfresh' : ∀ h ∈ s.loss.halts, h.id ≠ p.id := hhalts ▸ hfresh
    have hmade := pollDay_of_confirms hnot' hauto' hfresh' hcount hnow.1
    have hhas : HasConfirmed (ps ++ [p]) := hasConfirmed_concat.mpr (.inr hnow)
    refine ⟨fun hno => absurd hhas hno, fun hno => absurd hhas hno, fun hno => absurd hhas hno, fun _ => ?_,
      fun _ => ?_⟩
    · rw [hmade.1]
      exact isTripped_newHalt _ _ _
    · rw [hmade.2, h.quiet hdone]
  · have hwaiting := pollDay_of_waiting hnot' hcount hnow
    have hnone : ¬ HasConfirmed (ps ++ [p]) := fun hhas => (hasConfirmed_concat.mp hhas).elim hdone hnow
    refine ⟨fun _ => hwaiting.1.trans hhalts, fun _ => hwaiting.2.2, fun _ => ?_, fun hhas => absurd hhas hnone,
      fun hhas => absurd hhas hnone⟩
    unfold breaches
    rw [hwaiting.2.1]
    exact h.quiet hdone

/-- **Every run of polls is a day.** -/
theorem day_pollsOf (hnot : isTripped start.loss.halts user = false) (hcount : start.loss.count = none)
    (hauto : AutoL2 start.loss.halts) (hfresh : ∀ p ∈ ps, ∀ h ∈ start.loss.halts, h.id ≠ p.id) :
    Day user start (pollsOf user start ps) ps := by
  induction ps using List.reverseRecOn with
  | nil =>
    exact ⟨fun _ => rfl, fun _ => hcount, fun _ => rfl, fun h => absurd h not_hasConfirmed_nil,
      fun h => absurd h not_hasConfirmed_nil⟩
  | append_singleton ps p ih =>
    have hday := ih fun q hq => hfresh q (List.mem_append_left _ hq)
    unfold pollsOf
    rw [List.foldl_append]
    exact hday.poll hnot hauto (hfresh p (List.mem_append_right _ (.head _)))

/-- What is claimed of a poll that comes after others. -/
structure TripsOnce (user : UserId) (start : DayState) (before : List PollInput) (p : PollInput) : Prop where
  /-- The first poll that confirms a breach makes the automatic halt of the daily loss. -/
  made : Confirms before p → ¬ HasConfirmed before → ∃ h : TradingHalt, h.user = some user ∧ h.level = .l2 ∧
    h.auto = true ∧ h.isActive = true ∧
      (pollsOf user start (before ++ [p])).loss.halts = (pollsOf user start before).loss.halts ++ [h]
  /-- No other poll makes one. -/
  unmade : ¬ (Confirms before p ∧ ¬ HasConfirmed before) →
    (pollsOf user start (before ++ [p])).loss.halts = (pollsOf user start before).loss.halts
  /-- Behind it there is one event more than at the start. -/
  reported : HasConfirmed (before ++ [p]) →
    breaches user (pollsOf user start (before ++ [p])) = breaches user start + 1
  /-- Before it there is none. -/
  quiet : ¬ HasConfirmed (before ++ [p]) → breaches user (pollsOf user start (before ++ [p])) = breaches user start

/-- **Two polls trip the halt**: in every run of polls of a day that begins without a halt and without a count, the halt
is made exactly at the first poll that confirms a breach, and one event is. -/
theorem twoPolls_trip (hnot : isTripped start.loss.halts user = false) (hcount : start.loss.count = none)
    (hauto : AutoL2 start.loss.halts) (before : List PollInput) (p : PollInput)
    (hfresh : ∀ q ∈ before ++ [p], ∀ h ∈ start.loss.halts, h.id ≠ q.id) : TripsOnce user start before p := by
  have hday : Day user start (pollsOf user start before) before :=
    day_pollsOf hnot hcount hauto fun q hq => hfresh q (List.mem_append_left _ hq)
  have hall : Day user start (pollsOf user start (before ++ [p])) (before ++ [p]) :=
    day_pollsOf hnot hcount hauto hfresh
  have hnext : pollsOf user start (before ++ [p]) = pollDay user (pollsOf user start before) p := by
    unfold pollsOf
    rw [List.foldl_append]
    rfl
  refine ⟨fun hconfirms hfirst => ?_, fun hother => ?_, hall.reported, hall.quiet⟩
  · have hhalts := hday.halts hfirst
    have hone := hday.count hfirst
    rw [if_pos hconfirms.2] at hone
    have hnot' : isTripped (pollsOf user start before).loss.halts user = false := hhalts ▸ hnot
    have hauto' : AutoL2 (pollsOf user start before).loss.halts := hhalts ▸ hauto
    have hfresh' : ∀ h ∈ (pollsOf user start before).loss.halts, h.id ≠ p.id :=
      hhalts ▸ hfresh p (List.mem_append_right _ (.head _))
    have hmade := pollDay_of_confirms hnot' hauto' hfresh' hone hconfirms.1
    exact ⟨(breachCall user).newHalt p.id p.now, rfl, rfl, rfl, rfl, by rw [hnext]; exact hmade.1⟩
  · rw [hnext]
    by_cases hdone : HasConfirmed before
    · rw [pollDay_of_tripped (hday.tripped hdone)]
    · have hno : ¬ Confirms before p := fun hconfirms => hother ⟨hconfirms, hdone⟩
      exact (pollDay_of_waiting (p := p) (by rw [hday.halts hdone]; exact hnot) (hday.count hdone) hno).1

/-- A poll that finds a loss of a tenth, under the default thresholds. -/
def lossPoll (id : HaltId) : PollInput := ⟨none, [some ⟨90000, 100000⟩], id, 0⟩

/-- A poll without figures. -/
def blindPoll (id : HaltId) : PollInput := ⟨none, [none], id, 0⟩

/-- A loss, a gap, and the loss again. -/
theorem twoPolls_trip_sample :
    TripsOnce "u" ⟨⟨[], none⟩, []⟩ [lossPoll "h1", blindPoll "h2"] (lossPoll "h3") ∧
      Confirms [lossPoll "h1", blindPoll "h2"] (lossPoll "h3") := by
  have hauto : AutoL2 [] := fun _ h => absurd h List.not_mem_nil
  refine ⟨twoPolls_trip rfl rfl hauto _ _ fun _ _ _ h => absurd h List.not_mem_nil, ?_, ?_⟩
  · decide +kernel
  · decide +kernel

end StratTrader.Risk
